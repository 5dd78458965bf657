import Warmth.Threads
import Warmth.Worker

namespace Warmth

open Codec Std

/-- A frame that a worker has written and the coordinator has yet to read. -/
inductive Letter
  | hello (h : Hello)
  | answer (a : Worker.Answer)
  | shutdown

def Letter.frame : Letter → Frame
  | .hello h => helloFrame h
  | .answer a => a.frame
  | .shutdown => { type := .shutdown }

def Letter.warmed? : Letter → Option Warmed
  | .answer a => a.warmed?
  | _ => none

theorem Letter.eq_of_warmed {letter : Letter} {d : Warmed} (h : letter.warmed? = some d) :
    letter = .answer (.warmed d) := by
  cases letter with
  | answer a =>
    cases a with
    | warmed d' =>
      cases h
      rfl
    | pong => cases h
  | hello | shutdown => cases h

/-- Whether a worker process is in `connect`, waiting for its answer, or in `run`. -/
inductive PeerPhase
  | idle | awaiting | running
deriving DecidableEq, Repr

structure Peer where
  worker : Worker := {}
  conn : Option ConnId := none
  phase : PeerPhase := .idle

/-- `connect` once it has read the answer. -/
def Peer.receiveAck (p : Peer) (f : Frame) : Peer :=
  let (worker, result) := p.worker.receiveAck (some f)
  { p with worker, phase := if result = .connected then .running else .idle }

/-- One turn of the loop of `run`. -/
def Peer.handleFrame (p : Peer) (f : Frame) (hook : Nat → HookOutcome)
    (now : Nat → Nat → Timestamp) : Peer × List Worker.Answer :=
  let (worker, answers) := p.worker.handleFrame f hook now
  ({ p with worker, phase := if worker.shutdownRequested then .idle else .running }, answers)

def Peer.requestShutdown (p : Peer) : Peer :=
  { p with worker := { p.worker with shutdownRequested := true } }

/-- The coordinator and its workers. What the coordinator writes on a connection is its thread's
`wire`, of which the worker has read `taken` frames; what the worker writes waits in `inbox`. A
connection keeps the order and loses nothing on the way, and a worker's write does not fail. -/
structure Network where
  threads : Threads := .init
  peers : Nat → Peer := fun _ => {}
  /-- The number of connections made so far, which is the next connection's identity. -/
  made : Nat := 0
  owner : ConnId → Nat := fun _ => 0
  inbox : ConnId → List Letter := fun _ => []
  taken : ConnId → Nat := fun _ => 0
  /-- What `issue_warm` has put in flight since the authority last changed. -/
  current : List IssueRecord := []

inductive NetStep
  | connect (i : Nat)
  | read (i : Nat) (hook : Nat → HookOutcome) (now : Nat → Nat → Timestamp)
  /-- The worker's read fails: `connect` or `run` returns. -/
  | lose (i : Nat)
  | requestShutdown (i : Nat)
  | deliver (c : ConnId) (now : Nat → Timestamp)
  | coordinator (a : ThreadStep)

namespace Network

open Function

/-- The coordinator has taken a step. -/
def become (s : Network) (t : Threads) : Network :=
  let issued := t.sys.issues.take (t.sys.issues.length - s.threads.sys.issues.length)
  let kept := if t.sys.coord.authority = s.threads.sys.coord.authority then s.current else []
  { s with threads := t, current := issued ++ kept }

def post (s : Network) (c : ConnId) (letters : List Letter) : Network :=
  { s with inbox := update s.inbox c (s.inbox c ++ letters) }

def setPeer (s : Network) (i : Nat) (p : Peer) : Network := { s with peers := update s.peers i p }

def take (s : Network) (c : ConnId) : Network := { s with taken := update s.taken c (s.taken c + 1) }

/-- A fresh connection of the worker. -/
def openFresh (s : Network) (i : Nat) : Network :=
  { s with made := s.made + 1, owner := update s.owner s.made i }

/-- `connect` up to its read of the answer. -/
def connect (s : Network) (i : Nat) : Network :=
  let p := { s.peers i with conn := some s.made }
  match p.worker.connectFrame with
  | some _ =>
    ((s.openFresh i).setPeer i { p with phase := .awaiting }).post s.made [.hello p.worker.hello]
  | none => (s.openFresh i).setPeer i p

/-- The worker takes the next frame of its connection. -/
def receive (s : Network) (i : Nat) (c : ConnId) (f : Frame) (hook : Nat → HookOutcome)
    (now : Nat → Nat → Timestamp) : Network :=
  match (s.peers i).phase with
  | .idle => s
  | .awaiting => (s.take c).setPeer i ((s.peers i).receiveAck f)
  | .running =>
    let (p, answers) := (s.peers i).handleFrame f hook now
    ((s.take c).setPeer i p).post c (answers.map .answer)

def step (s : Network) : NetStep → Network
  | .connect i => if (s.peers i).phase = .idle then s.connect i else s
  | .read i hook now =>
    match (s.peers i).conn with
    | none => s
    | some c =>
      match (s.threads.wire c)[s.taken c]? with
      | none => s
      | some f => s.receive i c f hook now
  | .lose i => s.setPeer i { s.peers i with phase := .idle }
  | .requestShutdown i =>
    match (s.peers i).conn with
    | some c => (s.setPeer i (s.peers i).requestShutdown).post c [.shutdown]
    | none => s.setPeer i (s.peers i).requestShutdown
  | .deliver c now =>
    match s.inbox c with
    | [] => s
    | letter :: rest =>
      if s.threads.ready c letter.frame.takesMutex then
        { s.become (s.threads.step (.frame c letter.frame now)) with
          inbox := update s.inbox c rest }
      else s
  | .coordinator a =>
    match a with
    | .frame _ _ _ => s
    | .disconnect c _ => if c < s.made then s.become (s.threads.step a) else s
    | _ => s.become (s.threads.step a)

/-- Workers with the given configurations that have yet to connect. -/
def init (cfgs : Nat → WorkerConfig) : Network := { peers := fun i => { worker := { cfg := cfgs i } } }

section
variable {s : Network} {i : Nat} (c : ConnId) (f : Frame) (hook : Nat → HookOutcome)
  (now : Nat → Nat → Timestamp)

theorem receive_idle (h : (s.peers i).phase = .idle) : s.receive i c f hook now = s := by
  simp only [receive, h]

theorem receive_awaiting (h : (s.peers i).phase = .awaiting) :
    s.receive i c f hook now = (s.take c).setPeer i ((s.peers i).receiveAck f) := by
  simp only [receive, h]

theorem receive_running (h : (s.peers i).phase = .running) :
    s.receive i c f hook now =
      ((s.take c).setPeer i ((s.peers i).handleFrame f hook now).1).post c
        (((s.peers i).handleFrame f hook now).2.map .answer) := by
  simp only [receive, h]

end

theorem inbox_of_results {s : Network} {c : ConnId} {res : WarmResult}
    (h : (s.inbox c).map (fun l => l.warmed?.map Warmed.result) = [some res]) :
    ∃ d, s.inbox c = [.answer (.warmed d)] ∧ d.result = res := by
  obtain ⟨letter, inbox, read⟩ := List.map_eq_singleton_iff.mp h
  obtain ⟨d, warmed, result⟩ := Option.map_eq_some_iff.mp read
  exact ⟨d, by rw [inbox, Letter.eq_of_warmed warmed], result⟩

/-- What a step can do: it leaves everything as it is, or it is one of the steps below with its
guard met. -/
inductive Went (s : Network) : NetStep → Network → Prop
  | idle {a : NetStep} : Went s a s
  | connect {i : Nat} (idle : (s.peers i).phase = .idle) : Went s (.connect i) (s.connect i)
  | read {i : Nat} {hook : Nat → HookOutcome} {now : Nat → Nat → Timestamp} {c : ConnId} {f : Frame}
      (reader : (s.peers i).conn = some c) (next : (s.threads.wire c)[s.taken c]? = some f) :
      Went s (.read i hook now) (s.receive i c f hook now)
  | lose {i : Nat} : Went s (.lose i) (s.setPeer i { s.peers i with phase := .idle })
  | shutdown {i : Nat} {c : ConnId} (writer : (s.peers i).conn = some c) :
      Went s (.requestShutdown i) ((s.setPeer i (s.peers i).requestShutdown).post c [.shutdown])
  | flag {i : Nat} (unconnected : (s.peers i).conn = none) :
      Went s (.requestShutdown i) (s.setPeer i (s.peers i).requestShutdown)
  | deliver {c : ConnId} {now : Nat → Timestamp} {letter : Letter} {rest : List Letter}
      (next : s.inbox c = letter :: rest)
      (ready : s.threads.ready c letter.frame.takesMutex = true) :
      Went s (.deliver c now) { s.become (s.threads.step (.frame c letter.frame now)) with
        inbox := update s.inbox c rest }
  | coordinator {a : ThreadStep} (unframed : ∀ c f now, a ≠ .frame c f now)
      (known : ∀ c now, a = .disconnect c now → c < s.made) :
      Went s (.coordinator a) (s.become (s.threads.step a))

theorem went_step (s : Network) (a : NetStep) : Went s a (s.step a) := by
  cases a with
  | connect i =>
    simp only [step]
    split
    next idle => exact .connect idle
    next => exact .idle
  | read i hook now =>
    simp only [step]
    split
    next => exact .idle
    next reader =>
      split
      next => exact .idle
      next next => exact .read reader next
  | lose i => exact .lose
  | requestShutdown i =>
    simp only [step]
    split
    next writer => exact .shutdown writer
    next unconnected => exact .flag unconnected
  | deliver c now =>
    simp only [step]
    split
    next => exact .idle
    next next =>
      split
      next ready => exact .deliver next ready
      next => exact .idle
  | coordinator a =>
    simp only [step]
    split
    next => exact .idle
    next c now =>
      split
      next known =>
        refine .coordinator (fun _ _ _ same => by cases same) fun _ _ same => ?_
        cases same
        exact known
      next => exact .idle
    next unframed connected =>
      exact .coordinator unframed fun c now same => absurd same (connected c now)

/-- Worker 0 connects and reads its acknowledgement. -/
def joined : List NetStep := [
  .connect 0, .deliver 0 fun _ => 0, .coordinator (.load 0), .coordinator (.load 0),
  .coordinator (.load 0), .coordinator (.reply 0 true), .read 0 (fun _ => {}) fun _ _ => 0]

/-- A command is sent to the worker, whose hook succeeds. -/
def warmedBy (object : WarmthObjectId) : List NetStep := [
  .coordinator (.reserve object .loadModel none), .coordinator (.send 0 true),
  .read 0 (fun _ => { success := true }) fun _ _ => 0]

def everyWorker : Nat → WorkerConfig := fun _ => { workerId := ⟨0, 1⟩, boot := ⟨0, 1⟩ }

end Network

end Warmth
