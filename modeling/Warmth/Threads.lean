import Mathlib.Logic.Function.Basic
import Warmth.SystemSteps

namespace Warmth

open Codec Std

/-- Between the stores of `roll_epoch`, which holds the mutex over all of them. -/
inductive RollPhase
  | epochStored | warmthStored
deriving DecidableEq, Repr

/-- What has happened since a HELLO handler's second load: nothing that counts, a raised warmth
generation, or a raised warmth generation and after it a raised dependency generation. -/
inductive Between
  | still | raised | crossed
deriving DecidableEq, Repr

def Between.onWarmth : Between → Between
  | .still => .raised
  | b => b

def Between.onDependency : Between → Between
  | .raised => .crossed
  | b => b

/-- How far the HELLO handler has got with its three loads, and how often `roll_epoch` had made the
store of the same generation when each was made. -/
inductive LoadPhase
  | locked
  | epochLoaded (epochRolls : Nat)
  | warmthLoaded (epochRolls warmthRolls : Nat) (between : Between)
  | loaded
deriving DecidableEq, Repr

/-- A connection thread between its locked section and the end of its handler. -/
inductive Handler
  | acknowledging (ack : HelloAck) (phase : LoadPhase)
  | replying (f : Frame)
deriving DecidableEq, Repr

/-- The frame the handler sends next, once it has been made up. -/
def Handler.outgoing : Handler → Option Frame
  | .acknowledging ack .loaded => some (Coordinator.helloAckFrame ack)
  | .acknowledging _ _ => none
  | .replying f => some f

def LoadPhase.mapBetween (g : Between → Between) : LoadPhase → LoadPhase
  | .warmthLoaded x y b => .warmthLoaded x y (g b)
  | phase => phase

def Handler.mapBetween (g : Between → Between) : Handler → Handler
  | .acknowledging ack phase => .acknowledging ack (phase.mapBetween g)
  | .replying f => .replying f

/-- A HELLO that gets to the locked section of its handler. -/
def Frame.currentHello (f : Frame) : Option Hello :=
  match f.type with
  | .hello => (decodePayload decodeHello f.payload).filter fun h =>
      h.protocolVersion == kProtocolVersion
  | _ => none

def Frame.takesMutex (f : Frame) : Bool :=
  match f.type with
  | .hello => f.currentHello.isSome
  | .report => (decodePayload decodeReport f.payload).isSome
  | .warmResult => (decodePayload decodeWarmResult f.payload).isSome
  | _ => false

def topicFrame (t : WarmTopic) : Frame := { type := .warmTopic, payload := encodeWarmTopic t }

/-- What is left to do of a frame's handler after its locked section. -/
def Coordinator.handlerOf (c : Coordinator) (cs : ConnId) (f : Frame) (now : Nat → Timestamp) :
    Option Handler :=
  match f.currentHello with
  | some h => some (.acknowledging (c.handleHello cs h).2 .locked)
  | none => (c.handleFrame cs f now).2.reply.map .replying

/-- The answers of `handle_frame`. -/
inductive Coordinator.Replies (f : Frame) : Frame → Prop
  | error : Replies f { type := .error }
  | mismatch : Replies f (helloAckFrame { reason := text "protocol version mismatch" })
  | ack {h : Hello} (ack : HelloAck) (current : f.currentHello = some h) : Replies f (helloAckFrame ack)
  | pong : Replies f { type := .pong }

theorem Coordinator.handleFrame_replies {c : Coordinator} {cs : ConnId} {f g : Frame}
    {now : Nat → Timestamp} (h : (c.handleFrame cs f now).2.reply = some g) : Replies f g := by
  unfold handleFrame at h
  split at h
  next hello =>
    split at h
    next => cases h; exact .error
    next m decoded =>
      split at h
      next => cases h; exact .mismatch
      next version =>
        have same : (m.protocolVersion == kProtocolVersion) = true :=
          beq_iff_eq.mpr (not_ne_iff.mp version)
        cases h
        refine .ack (h := m) _ ?_
        simp only [Frame.currentHello, hello, decoded, Option.filter_some, same, if_true]
  next =>
    split at h
    next => cases h
    next =>
      simp only at h
      split at h <;> cases h
      exact .error
  next =>
    split at h
    next => cases h
    next =>
      unfold handleWarmResult at h
      split at h <;> cases h
  next => cases h; exact .pong
  next => cases h

/-- The system with its threads between their locked sections, and the frames they have put on the
wire of each connection, oldest first. -/
structure Threads where
  sys : System := {}
  rolling : Option RollPhase := none
  handlers : ConnId → Option Handler := fun _ => none
  /-- The message of each `issue_warm` call in progress, in the order of the calls. -/
  topics : List WarmTopic := []
  wire : ConnId → List Frame := fun _ => []
  /-- The frames that could not be sent. -/
  lost : ConnId → List Frame := fun _ => []
  rolls : Nat := 0
  /-- The authority at every moment the mutex was free, newest first. -/
  instants : List (UInt64 × UInt64 × UInt64) := []
  hellos : ConnId → Nat := fun _ => 0
  /-- The number of frames on the wire when the connection was registered. -/
  mark : ConnId → Option Nat := fun _ => none

inductive ThreadStep
  | frame (cs : ConnId) (f : Frame) (now : Nat → Timestamp)
  | load (cs : ConnId)
  | reply (cs : ConnId) (sent : Bool)
  | disconnect (cs : ConnId) (now : WarmthObjectId → Timestamp)
  | reserve (object : WarmthObjectId) (action : WarmthAction) (preferred : Option WorkerId)
  | send (call : Nat) (sent : Bool)
  | cleanup (call : Nat)
  | rollEpoch
  | bumpWarmthGeneration
  | bumpDependencyGeneration

namespace Threads

open Function

/-- The authority as a thread without the mutex loads it. -/
def visible (s : Threads) : UInt64 × UInt64 × UInt64 :=
  let c := s.sys.coord
  match s.rolling with
  | none => c.authority
  | some .epochStored => (c.epoch.next.value, c.warmthGenValue, c.depGenValue)
  | some .warmthStored => (c.epoch.next.value, c.warmthGenValue + 1, c.depGenValue)

/-- How often `roll_epoch` has stored the epoch; `rolls` counts its stores of the dependency
generation. -/
def epochRolls (s : Threads) : Nat := if s.rolling.isSome then s.rolls + 1 else s.rolls

def warmthRolls (s : Threads) : Nat :=
  if s.rolling = some .warmthStored then s.rolls + 1 else s.rolls

def loadNext (s : Threads) (ack : HelloAck) : LoadPhase → Handler
  | .locked => .acknowledging { ack with epoch := s.visible.1 } (.epochLoaded s.epochRolls)
  | .epochLoaded x =>
    .acknowledging { ack with warmthGen := s.visible.2.1 } (.warmthLoaded x s.warmthRolls .still)
  | .warmthLoaded _ _ _ =>
    .acknowledging
      { ack with depGen := s.visible.2.2, policyGen := s.sys.coord.policyGen.value } .loaded
  | .loaded => .acknowledging ack .loaded

/-- `send_frame`: the whole frame, or a failure that puts no frame on the wire. A later send on the
connection may succeed all the same. -/
def put (s : Threads) (cs : ConnId) (f : Frame) (sent : Bool) : Threads :=
  if sent then { s with wire := update s.wire cs (s.wire cs ++ [f]) }
  else { s with lost := update s.lost cs (s.lost cs ++ [f]) }

/-- The connection's thread is reading and the mutex it may need is free. -/
def ready (s : Threads) (cs : ConnId) (takesMutex : Bool) : Bool :=
  !s.sys.closed cs && (s.handlers cs).isNone && !(takesMutex && s.rolling.isSome)

/-- The locked section of a frame's handler. -/
def receive (s : Threads) (cs : ConnId) (f : Frame) (now : Nat → Timestamp) : Threads :=
  let accepted := f.currentHello.any fun h => !s.sys.coord.bootClash h
  { s with
    sys := s.sys.step (.frame cs f now)
    handlers := update s.handlers cs (s.sys.coord.handlerOf cs f now)
    hellos := if f.type = .hello then update s.hellos cs (s.hellos cs + 1) else s.hellos
    mark := if accepted then update s.mark cs (some (s.wire cs).length) else s.mark }

def mapBetween (s : Threads) (g : Between → Between) : Threads :=
  { s with handlers := fun i => (s.handlers i).map (Handler.mapBetween g) }

/-- The connection and the message of an `issue_warm` call that has yet to send. -/
def sending (s : Threads) (call : Nat) : Option (ConnId × WarmTopic) :=
  match s.sys.calls[call]?, s.topics[call]? with
  | some ⟨_, conn, .reserved⟩, some topic => some (conn, topic)
  | _, _ => none

/-- One locked section, one load, one send or one store. The mutex is held over the stores of
`roll_epoch`; its last store, the loop after it and the unlock are one step, as no load can tell
them apart. A step that is not enabled changes nothing. -/
def act (s : Threads) : ThreadStep → Threads
  | .frame cs f now => if s.ready cs f.takesMutex then s.receive cs f now else s
  | .load cs =>
    match s.handlers cs with
    | some (.acknowledging ack phase) =>
      { s with handlers := update s.handlers cs (some (s.loadNext ack phase)) }
    | _ => s
  | .reply cs sent =>
    match (s.handlers cs).bind Handler.outgoing with
    | some f =>
      { s.put cs f sent with handlers := update s.handlers cs none }
    | none => s
  | .disconnect cs now =>
    if s.ready cs true then { s with sys := s.sys.step (.disconnect cs now) } else s
  | .reserve object action preferred =>
    if s.rolling.isSome then s else
    let sys := s.sys.step (.reserve object action preferred)
    match (s.sys.coord.issueWarm object action preferred).2 with
    | some i => { s with sys, topics := i.topic :: s.topics }
    | none => { s with sys }
  | .send call sent =>
    match s.sending call with
    | some (conn, topic) =>
      { s.put conn (topicFrame topic) sent with
        sys := s.sys.step (.send call sent)
        topics := if sent then s.topics.eraseIdx call else s.topics }
    | none => s
  | .cleanup call =>
    match s.sys.calls[call]? with
    | some ⟨_, _, .sendFailed⟩ =>
      if s.rolling.isSome then s else
      { s with sys := s.sys.step (.cleanup call), topics := s.topics.eraseIdx call }
    | _ => s
  | .rollEpoch =>
    match s.rolling with
    | none => { s with rolling := some .epochStored }
    | some .epochStored => { s with rolling := some .warmthStored }
    | some .warmthStored =>
      { s with sys := s.sys.step .rollEpoch, rolling := none, rolls := s.rolls + 1 }
  | .bumpWarmthGeneration =>
    if s.rolling.isSome then s else
    { s with sys := s.sys.step .bumpWarmthGeneration }.mapBetween .onWarmth
  | .bumpDependencyGeneration =>
    if s.rolling.isSome then s else
    { s with sys := s.sys.step .bumpDependencyGeneration }.mapBetween .onDependency

def note (s : Threads) : Threads :=
  if s.rolling.isNone then { s with instants := s.sys.coord.authority :: s.instants } else s

def step (s : Threads) (a : ThreadStep) : Threads := (s.act a).note

def init : Threads := note {}

/-- What a step can do: it leaves everything as it is, or it is one of the steps below with its
guard met. -/
inductive Acted (s : Threads) : ThreadStep → Threads → Prop
  | idle {a : ThreadStep} : Acted s a s
  | receive {cs : ConnId} {f : Frame} {now : Nat → Timestamp} (up : s.sys.closed cs = false)
      (reading : s.handlers cs = none) (free : f.takesMutex = true → s.rolling = none) :
      Acted s (.frame cs f now) (s.receive cs f now)
  | load {cs : ConnId} {ack : HelloAck} {phase : LoadPhase}
      (pending : s.handlers cs = some (.acknowledging ack phase)) :
      Acted s (.load cs) { s with handlers := update s.handlers cs (some (s.loadNext ack phase)) }
  | reply {cs : ConnId} {sent : Bool} {h : Handler} {f : Frame} (pending : s.handlers cs = some h)
      (made : h.outgoing = some f) :
      Acted s (.reply cs sent)
        { s.put cs f sent with handlers := update s.handlers cs none }
  | disconnect {cs : ConnId} {now : WarmthObjectId → Timestamp} (up : s.sys.closed cs = false)
      (reading : s.handlers cs = none) (free : s.rolling = none) :
      Acted s (.disconnect cs now) { s with sys := s.sys.step (.disconnect cs now) }
  | refuse {object : WarmthObjectId} {action : WarmthAction} {preferred : Option WorkerId}
      (free : s.rolling = none)
      (refused : (s.sys.coord.issueWarm object action preferred).2 = none) :
      Acted s (.reserve object action preferred)
        { s with sys := s.sys.step (.reserve object action preferred) }
  | issue {object : WarmthObjectId} {action : WarmthAction} {preferred : Option WorkerId}
      {i : Coordinator.Issue} (free : s.rolling = none)
      (issued : (s.sys.coord.issueWarm object action preferred).2 = some i) :
      Acted s (.reserve object action preferred)
        { s with
          sys := s.sys.step (.reserve object action preferred), topics := i.topic :: s.topics }
  | send {call : Nat} {sent : Bool} {conn : ConnId} {topic : WarmTopic}
      (pending : s.sending call = some (conn, topic)) :
      Acted s (.send call sent)
        { s.put conn (topicFrame topic) sent with
          sys := s.sys.step (.send call sent)
          topics := if sent then s.topics.eraseIdx call else s.topics }
  | cleanup {call : Nat} {w : WarmCall} (pending : s.sys.calls[call]? = some w)
      (failed : w.phase = .sendFailed) (free : s.rolling = none) :
      Acted s (.cleanup call)
        { s with sys := s.sys.step (.cleanup call), topics := s.topics.eraseIdx call }
  | storeEpoch (free : s.rolling = none) : Acted s .rollEpoch { s with rolling := some .epochStored }
  | storeWarmth (stored : s.rolling = some .epochStored) :
      Acted s .rollEpoch { s with rolling := some .warmthStored }
  | rollEpoch (stored : s.rolling = some .warmthStored) :
      Acted s .rollEpoch
        { s with sys := s.sys.step .rollEpoch, rolling := none, rolls := s.rolls + 1 }
  | bumpWarmth (free : s.rolling = none) :
      Acted s .bumpWarmthGeneration
        ({ s with sys := s.sys.step .bumpWarmthGeneration }.mapBetween .onWarmth)
  | bumpDependency (free : s.rolling = none) :
      Acted s .bumpDependencyGeneration
        ({ s with sys := s.sys.step .bumpDependencyGeneration }.mapBetween .onDependency)

theorem ready_iff {s : Threads} {cs : ConnId} {takesMutex : Bool} :
    s.ready cs takesMutex = true ↔
      s.sys.closed cs = false ∧ s.handlers cs = none ∧ (takesMutex = true → s.rolling = none) := by
  unfold ready
  cases takesMutex <;> simp [and_assoc]

theorem sending_some {s : Threads} {call : Nat} {conn : ConnId} {topic : WarmTopic}
    (h : s.sending call = some (conn, topic)) :
    ∃ attempt, s.sys.calls[call]? = some ⟨attempt, conn, .reserved⟩ ∧
      s.topics[call]? = some topic := by
  unfold sending at h
  split at h
  next pending message =>
    cases h
    exact ⟨_, pending, message⟩
  next => cases h

theorem acted_act (s : Threads) (a : ThreadStep) : Acted s a (s.act a) := by
  cases a with
  | frame cs f now =>
    simp only [act]
    split
    next h =>
      obtain ⟨up, reading, free⟩ := ready_iff.mp h
      exact .receive up reading free
    next => exact .idle
  | load cs =>
    simp only [act]
    split
    next pending => exact .load pending
    next => exact .idle
  | reply cs sent =>
    simp only [act]
    split
    next made =>
      obtain ⟨h, pending, made⟩ := Option.bind_eq_some_iff.mp made
      exact .reply pending made
    next => exact .idle
  | disconnect cs now =>
    simp only [act]
    split
    next h =>
      obtain ⟨up, reading, free⟩ := ready_iff.mp h
      exact .disconnect up reading (free rfl)
    next => exact .idle
  | reserve object action preferred =>
    simp only [act]
    split
    next => exact .idle
    next h =>
      have free : s.rolling = none := by simpa using h
      split
      next issued => exact .issue free issued
      next refused => exact .refuse free refused
  | send call sent =>
    simp only [act]
    split
    next pending => exact .send pending
    next => exact .idle
  | cleanup call =>
    simp only [act]
    split
    next pending =>
      split
      next => exact .idle
      next h => exact .cleanup pending rfl (by simpa using h)
    next => exact .idle
  | rollEpoch =>
    simp only [act]
    split
    next free => exact .storeEpoch free
    next stored => exact .storeWarmth stored
    next stored => exact .rollEpoch stored
  | bumpWarmthGeneration =>
    simp only [act]
    split
    next => exact .idle
    next h => exact .bumpWarmth (by simpa using h)
  | bumpDependencyGeneration =>
    simp only [act]
    split
    next => exact .idle
    next h => exact .bumpDependency (by simpa using h)

theorem note_sys (s : Threads) : s.note.sys = s.sys := by
  unfold note
  split <;> rfl

theorem note_wire (s : Threads) : s.note.wire = s.wire := by
  unfold note
  split <;> rfl

theorem note_rolling (s : Threads) : s.note.rolling = s.rolling := by
  unfold note
  split <;> rfl

theorem note_handlers (s : Threads) : s.note.handlers = s.handlers := by
  unfold note
  split <;> rfl

end Threads

end Warmth
