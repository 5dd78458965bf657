import Mathlib.Algebra.Order.BigOperators.Group.Finset
import Warmth.NetworkRefinement

namespace Warmth

open Codec Std

/-- How far `stop` has got. -/
inductive StopPhase
  | listening | listenerClosed | connectionsClosed
deriving DecidableEq, Repr

/-- The coordinator with the threads of its connections, which are numbered as they are accepted. -/
structure Service where
  threads : Threads := .init
  accepted : Nat := 0
  /-- The frame that a connection's thread has read and not begun to handle. -/
  held : ConnId → Option Frame := fun _ => none
  phase : StopPhase := .listening
  /-- `stop` has closed the connection's socket. -/
  severed : ConnId → Bool := fun _ => false

inductive ServiceStep
  | accept
  /-- The peer's next frame has arrived whole. -/
  | read (c : ConnId) (f : Frame)
  | handle (c : ConnId) (now : Nat → Timestamp)
  /-- The connection's `read` returns false. -/
  | lost (c : ConnId) (now : WarmthObjectId → Timestamp)
  | go (a : ThreadStep)
  | closeListener
  | closeConnections

namespace Service

open Function

/-- The connection's thread waits in `read`. -/
def reading (s : Service) (c : ConnId) : Bool :=
  decide (c < s.accepted) && (s.held c).isNone && !s.threads.sys.closed c && (s.threads.handlers c).isNone

/-- The connections that `stop` finds in `workers_`. -/
def registered (s : Service) (c : ConnId) : Bool :=
  s.threads.sys.coord.workers.toList.any fun kv => kv.2 == c

/-- A send on a closed socket fails. -/
def sends (s : Service) (c : ConnId) (sent : Bool) : Bool := sent && !s.severed c

def go (s : Service) : ThreadStep → Service
  -- frames are read and handled, and connections lost, by the steps above
  | .frame _ _ _ => s
  | .disconnect _ _ => s
  | .reply c sent => { s with threads := s.threads.step (.reply c (s.sends c sent)) }
  | .send call sent =>
    match s.threads.sending call with
    | some (c, _) => { s with threads := s.threads.step (.send call (s.sends c sent)) }
    | none => s
  | a => { s with threads := s.threads.step a }

/-- A step that is not enabled changes nothing. -/
def step (s : Service) : ServiceStep → Service
  | .accept => { s with accepted := s.accepted + 1 }
  | .read c f =>
    if s.reading c && !s.severed c then { s with held := update s.held c (some f) } else s
  | .handle c now =>
    match s.held c with
    | some f =>
      if s.threads.ready c f.takesMutex then
        { s with threads := s.threads.step (.frame c f now), held := update s.held c none }
      else s
    | none => s
  | .lost c now =>
    if s.reading c && s.threads.ready c true then
      { s with threads := s.threads.step (.disconnect c now) }
    else s
  | .go a => s.go a
  | .closeListener => if s.phase = .listening then { s with phase := .listenerClosed } else s
  | .closeConnections =>
    if s.phase = .listenerClosed && s.threads.rolling.isNone then
      { s with phase := .connectionsClosed, severed := s.registered }
    else s

def init : Service := {}

/-- The threads that `stop` joins have all ended. -/
def Ended (s : Service) : Prop := ∀ c < s.accepted, s.threads.sys.closed c = true

/-- What the thread of an accepted connection does without its peer: it handles the frame it has
read, or finds its socket closed. -/
inductive Moves (s : Service) : ServiceStep → Prop
  | handle {c : ConnId} {now : Nat → Timestamp} {f : Frame} (known : c < s.accepted)
      (waiting : s.held c = some f) (ready : s.threads.ready c f.takesMutex = true) :
      Moves s (.handle c now)
  | load {c : ConnId} {ack : HelloAck} {phase : LoadPhase} (known : c < s.accepted)
      (pending : s.threads.handlers c = some (.acknowledging ack phase)) (more : phase ≠ .loaded) :
      Moves s (.go (.load c))
  | reply {c : ConnId} {sent : Bool} {h : Handler} {f : Frame} (known : c < s.accepted)
      (pending : s.threads.handlers c = some h) (made : h.outgoing = some f) :
      Moves s (.go (.reply c sent))
  | lost {c : ConnId} {now : WarmthObjectId → Timestamp} (reading : s.reading c = true)
      (free : s.threads.rolling = none) (closed : s.severed c = true) : Moves s (.lost c now)

/-! How much the threads have left to do. -/

def loadsLeft : LoadPhase → Nat
  | .locked => 4
  | .epochLoaded _ => 3
  | .warmthLoaded _ _ _ => 2
  | .loaded => 1

def stepsLeft : Handler → Nat
  | .acknowledging _ phase => loadsLeft phase
  | .replying _ => 1

/-- An upper bound on the steps that the connection's thread takes before it waits or ends. -/
def left (s : Service) (c : ConnId) : Nat :=
  (if s.threads.sys.closed c then 0 else 1) + (if (s.held c).isSome then 5 else 0) +
    ((s.threads.handlers c).map stepsLeft).getD 0

def rank (s : Service) : Nat := (Finset.range s.accepted).sum s.left

theorem reading_iff {s : Service} {c : ConnId} : s.reading c = true ↔
    c < s.accepted ∧ s.held c = none ∧ s.threads.sys.closed c = false ∧ s.threads.handlers c = none := by
  simp [reading, and_assoc]

theorem registered_iff {s : Service} {c : ConnId} :
    s.registered c = true ↔ ∃ w : WorkerId, s.threads.sys.coord.workers[w]? = some c := by
  simp only [registered, List.any_eq_true, beq_iff_eq]
  constructor
  · rintro ⟨⟨w, _⟩, entry, rfl⟩
    exact ⟨w, ExtTreeMap.mem_toList_iff_getElem?_eq_some.mp entry⟩
  · rintro ⟨w, entry⟩
    exact ⟨(w, c), ExtTreeMap.mem_toList_iff_getElem?_eq_some.mpr entry, rfl⟩

theorem put_frame (t : Threads) (c : ConnId) (f : Frame) (sent : Bool) :
    (t.put c f sent).sys = t.sys ∧ (t.put c f sent).rolling = t.rolling := by
  unfold Threads.put
  split <;> exact ⟨rfl, rfl⟩

theorem stepsLeft_le (h : Handler) : stepsLeft h ≤ 4 := by
  cases h with
  | acknowledging ack phase => cases phase <;> exact Nat.le_of_ble_eq_true rfl
  | replying f => exact Nat.le_of_ble_eq_true rfl

theorem stepsLeft_getD_le (h : Option Handler) : (h.map stepsLeft).getD 0 ≤ 4 := by
  cases h with
  | none => exact Nat.zero_le 4
  | some h => exact stepsLeft_le h

/-- What a thread's step on its own leaves as it is, and that it brings the thread further. -/
structure Furthers (s t : Service) (c : ConnId) : Prop where
  known : c < s.accepted
  accepted : t.accepted = s.accepted
  severed : t.severed = s.severed
  rolling : t.threads.rolling = s.threads.rolling
  others : ∀ i, i ≠ c → t.left i = s.left i ∧ t.threads.sys.closed i = s.threads.sys.closed i
  closed : t.threads.sys.closed c = s.threads.sys.closed c ∨
    s.severed c = true ∧ t.threads.sys.closed c = true
  fewer : t.left c < s.left c

section
variable {s : Service} {c : ConnId}

theorem left_congr {t : Service} (closed : t.threads.sys.closed c = s.threads.sys.closed c)
    (held : t.held c = s.held c) (handlers : t.threads.handlers c = s.threads.handlers c) :
    t.left c = s.left c := by
  rw [left, closed, held, handlers, left]

theorem furthers_handle {now : Nat → Timestamp} {f : Frame} (known : c < s.accepted)
    (waiting : s.held c = some f) (ready : s.threads.ready c f.takesMutex = true) :
    s.Furthers (s.step (.handle c now)) c := by
  have stepped : s.step (.handle c now) = { s with
      threads := (s.threads.receive c f now).note, held := update s.held c none } := by
    simp only [step, waiting, ready, if_true, Threads.step, Threads.act]
  have closed (i : ConnId) : (s.threads.sys.step (.frame c f now)).closed i = s.threads.sys.closed i :=
    System.step_closed_of_ne fun _ same => by cases same
  rw [stepped]
  refine ⟨known, rfl, rfl, Threads.note_rolling _, fun i hi => ⟨left_congr ?_ ?_ ?_, ?_⟩, Or.inl ?_, ?_⟩
  · rw [Threads.note_sys]
    exact closed i
  · exact update_of_ne hi _ _
  · rw [Threads.note_handlers]
    exact update_of_ne hi _ _
  · rw [Threads.note_sys]
    exact closed i
  · rw [Threads.note_sys]
    exact closed c
  · obtain ⟨up, reading, -⟩ := Threads.ready_iff.mp ready
    have few := stepsLeft_getD_le (s.threads.sys.coord.handlerOf c f now)
    simp only [left, Threads.note_sys, Threads.note_handlers, Threads.receive, closed, update_self,
      waiting, reading, up, Option.isSome_none, Option.isSome_some, Option.map_none, Option.getD_none,
      Bool.false_eq_true, if_false, if_true]
    omega

theorem furthers_load {ack : HelloAck} {phase : LoadPhase} (known : c < s.accepted)
    (pending : s.threads.handlers c = some (.acknowledging ack phase)) (more : phase ≠ .loaded) :
    s.Furthers (s.step (.go (.load c))) c := by
  have stepped : s.step (.go (.load c)) = { s with
      threads := { s.threads with
        handlers := update s.threads.handlers c (some (s.threads.loadNext ack phase)) }.note } := by
    simp only [step, go, Threads.step, Threads.act, pending]
  rw [stepped]
  refine ⟨known, rfl, rfl, Threads.note_rolling _, fun i hi => ⟨left_congr ?_ rfl ?_, ?_⟩, Or.inl ?_, ?_⟩
  · rw [Threads.note_sys]
  · rw [Threads.note_handlers]
    exact update_of_ne hi _ _
  · rw [Threads.note_sys]
  · rw [Threads.note_sys]
  · have loads : stepsLeft (s.threads.loadNext ack phase) < loadsLeft phase := by
      cases phase with
      | locked | epochLoaded | warmthLoaded => exact Nat.le_refl _
      | loaded => exact absurd rfl more
    simp only [left, Threads.note_sys, Threads.note_handlers, update_self, pending, Option.map_some,
      Option.getD_some]
    have before : stepsLeft (.acknowledging ack phase) = loadsLeft phase := rfl
    omega

theorem furthers_reply {sent : Bool} {h : Handler} {f : Frame} (known : c < s.accepted)
    (pending : s.threads.handlers c = some h) (made : h.outgoing = some f) :
    s.Furthers (s.step (.go (.reply c sent))) c := by
  obtain ⟨sys, rolling⟩ := put_frame s.threads c f (s.sends c sent)
  have stepped : s.step (.go (.reply c sent)) = { s with
      threads := { s.threads.put c f (s.sends c sent) with
        handlers := update s.threads.handlers c none }.note } := by
    simp only [step, go, Threads.step, Threads.act, pending, Option.bind_some, made]
  rw [stepped]
  refine ⟨known, rfl, rfl, ?_, fun i hi => ⟨left_congr ?_ rfl ?_, ?_⟩, Or.inl ?_, ?_⟩
  · rw [Threads.note_rolling]
    exact rolling
  · rw [Threads.note_sys]
    exact congrFun (congrArg System.closed sys) i
  · rw [Threads.note_handlers]
    exact update_of_ne hi _ _
  · rw [Threads.note_sys]
    exact congrFun (congrArg System.closed sys) i
  · rw [Threads.note_sys]
    exact congrFun (congrArg System.closed sys) c
  · have some : 0 < stepsLeft h := by
      cases h with
      | acknowledging ack phase => cases phase <;> exact Nat.succ_pos _
      | replying f => exact Nat.one_pos
    simp only [left, Threads.note_sys, Threads.note_handlers, sys, update_self, pending,
      Option.map_none, Option.map_some, Option.getD_none, Option.getD_some]
    omega

theorem furthers_lost {now : WarmthObjectId → Timestamp} (waits : s.reading c = true)
    (free : s.threads.rolling = none) (closed : s.severed c = true) :
    s.Furthers (s.step (.lost c now)) c := by
  obtain ⟨known, held, up, idle⟩ := reading_iff.mp waits
  have ready : s.threads.ready c true = true := Threads.ready_iff.mpr ⟨up, idle, fun _ => free⟩
  have stepped : s.step (.lost c now) = { s with
      threads := { s.threads with sys := s.threads.sys.step (.disconnect c now) }.note } := by
    simp only [step, waits, ready, Bool.and_self, if_true, Threads.step, Threads.act]
  have gone (i : ConnId) : (s.threads.sys.step (.disconnect c now)).closed i =
      if i = c then true else s.threads.sys.closed i := by
    simp only [System.step, up, Bool.false_eq_true, if_false]
  rw [stepped]
  refine ⟨known, rfl, rfl, Threads.note_rolling _, fun i hi => ⟨left_congr ?_ rfl ?_, ?_⟩,
    Or.inr ⟨closed, ?_⟩, ?_⟩
  · rw [Threads.note_sys]
    exact (gone i).trans (if_neg hi)
  · rw [Threads.note_handlers]
  · rw [Threads.note_sys]
    exact (gone i).trans (if_neg hi)
  · rw [Threads.note_sys]
    exact (gone c).trans (if_pos rfl)
  · simp only [left, Threads.note_sys, Threads.note_handlers, gone, up, if_true, Bool.false_eq_true,
      if_false]
    omega

/-- A step that a thread takes on its own brings that thread further and touches no other. -/
theorem Moves.furthers {a : ServiceStep} (m : s.Moves a) : ∃ c, s.Furthers (s.step a) c := by
  cases m with
  | handle known waiting ready => exact ⟨_, furthers_handle known waiting ready⟩
  | load known pending more => exact ⟨_, furthers_load known pending more⟩
  | reply known pending made => exact ⟨_, furthers_reply known pending made⟩
  | lost reading free closed => exact ⟨_, furthers_lost reading free closed⟩

theorem Furthers.rank {t : Service} (h : s.Furthers t c) : t.rank < s.rank := by
  rw [Service.rank, Service.rank, h.accepted]
  refine Finset.sum_lt_sum (fun i _ => ?_) ⟨c, Finset.mem_range.mpr h.known, h.fewer⟩
  by_cases hi : i = c
  · subst hi
    exact Nat.le_of_lt h.fewer
  · exact Nat.le_of_eq (h.others i hi).1

theorem left_le (s : Service) (c : ConnId) : s.left c ≤ 10 := by
  have handler := stepsLeft_getD_le (s.threads.handlers c)
  have thread : (if s.threads.sys.closed c then 0 else 1) ≤ 1 := by split <;> omega
  have frame : (if (s.held c).isSome then 5 else 0) ≤ 5 := by split <;> omega
  unfold left
  omega

theorem rank_le (s : Service) : s.rank ≤ 10 * s.accepted :=
  calc s.rank ≤ (Finset.range s.accepted).sum fun _ => 10 :=
        Finset.sum_le_sum fun c _ => s.left_le c
    _ = (Finset.range s.accepted).card * 10 := Finset.sum_const_nat fun _ _ => rfl
    _ = 10 * s.accepted := by rw [Finset.card_range, Nat.mul_comm]

/-- What the threads on their own leave as it is. -/
structure Kept (s t : Service) : Prop where
  accepted : t.accepted = s.accepted
  severed : t.severed = s.severed
  rolling : t.threads.rolling = s.threads.rolling
  closed : ∀ c, s.severed c = false → t.threads.sys.closed c = s.threads.sys.closed c
  ended : ∀ c, s.threads.sys.closed c = true → t.threads.sys.closed c = true

theorem Furthers.kept {t : Service} (h : s.Furthers t c) : s.Kept t := by
  refine ⟨h.accepted, h.severed, h.rolling, fun i open_ => ?_, fun i gone => ?_⟩
  · by_cases hi : i = c
    · subst hi
      rcases h.closed with same | ⟨closed, -⟩
      · exact same
      · rw [open_] at closed
        cases closed
    · exact (h.others i hi).2
  · by_cases hi : i = c
    · subst hi
      rcases h.closed with same | ⟨-, ended⟩
      · rw [same, gone]
      · exact ended
    · rw [(h.others i hi).2, gone]

theorem Moves.descends {a : ServiceStep} (m : s.Moves a) : (s.step a).rank < s.rank := by
  obtain ⟨c, further⟩ := m.furthers
  exact further.rank

theorem kept_run {steps : List ServiceStep} (along : Runs.Along step Moves s steps) :
    s.Kept (Runs.run step s steps) := by
  refine Runs.invariant (I := s.Kept) (P := Moves) (fun t a kept m => ?_)
    ⟨rfl, rfl, rfl, fun _ _ => rfl, fun _ gone => gone⟩ along
  obtain ⟨c, further⟩ := m.furthers
  have next := further.kept
  refine ⟨next.accepted.trans kept.accepted, next.severed.trans kept.severed,
    next.rolling.trans kept.rolling, fun i open_ => ?_, fun i gone => next.ended i (kept.ended i gone)⟩
  rw [next.closed i (kept.severed ▸ open_), kept.closed i open_]

/-- Threads that have nothing left to do on their own have ended, but for those that wait for a
peer. -/
theorem ended_of_exhausted (free : s.threads.rolling = none) (last : ∀ a, ¬s.Moves a)
    (all : ∀ c < s.accepted, s.threads.sys.closed c = true ∨ s.severed c = true) : s.Ended := by
  intro c known
  by_contra alive
  have up : s.threads.sys.closed c = false := Bool.not_eq_true _ ▸ alive
  have severed : s.severed c = true := (all c known).resolve_left alive
  cases handler : s.threads.handlers c with
  | some h =>
    cases made : h.outgoing with
    | some f => exact last (.go (.reply c true)) (.reply known handler made)
    | none =>
      cases h with
      | acknowledging ack phase =>
        refine last _ (.load known handler ?_)
        rintro rfl
        cases made
      | replying f => cases made
  | none =>
    cases held : s.held c with
    | some f =>
      refine last (.handle c fun _ => 0) (.handle known held ?_)
      exact Threads.ready_iff.mpr ⟨up, handler, fun _ => free⟩
    | none =>
      refine last (.lost c fun _ => 0) (.lost ?_ free severed)
      exact reading_iff.mpr ⟨known, held, up, handler⟩

/-- A thread ends only where its `read` fails. -/
theorem step_closed_of_not_lost {a : ServiceStep} (h : ∀ now, a ≠ .lost c now) :
    (s.step a).threads.sys.closed c = s.threads.sys.closed c := by
  have still {b : ThreadStep} (other : ∀ now, b ≠ .disconnect c now) :
      (s.threads.step b).sys.closed c = s.threads.sys.closed c := by
    rw [Threads.step, Threads.note_sys]
    have acted := Threads.acted_act s.threads b
    generalize s.threads.act b = t at acted
    cases acted with
    | idle | load | storeEpoch | storeWarmth | rollEpoch | bumpWarmth | bumpDependency => rfl
    | receive => exact System.step_closed_of_ne fun _ same => by cases same
    | reply => exact congrFun (congrArg System.closed (put_frame _ _ _ _).1) c
    | @disconnect cs now =>
      refine System.step_closed_of_ne fun later same => ?_
      cases same
      exact other now rfl
    | refuse | issue | send | cleanup => exact System.step_closed_of_ne fun _ same => by cases same
  cases a with
  | accept => rfl
  | read | closeListener | closeConnections =>
    simp only [step]
    split <;> rfl
  | handle i now =>
    simp only [step]
    split
    next =>
      split
      next => exact still fun _ same => by cases same
      next => rfl
    next => rfl
  | lost i now =>
    simp only [step]
    split
    next =>
      refine still fun later same => ?_
      cases same
      exact h now rfl
    next => rfl
  | go a =>
    cases a with
    | frame | disconnect => rfl
    | send call sent =>
      simp only [step, go]
      split
      next => exact still fun _ same => by cases same
      next => rfl
    | load | reply | reserve | cleanup | rollEpoch | bumpWarmthGeneration | bumpDependencyGeneration =>
      exact still fun _ same => by cases same

theorem step_stopped (stopped : s.phase = .connectionsClosed) (a : ServiceStep) :
    (s.step a).phase = .connectionsClosed ∧ (s.step a).severed = s.severed := by
  cases a with
  | accept => exact ⟨stopped, rfl⟩
  | read | lost =>
    simp only [step]
    split <;> exact ⟨stopped, rfl⟩
  | closeListener | closeConnections => simp [step, stopped]
  | handle c now =>
    simp only [step]
    split
    next => split <;> exact ⟨stopped, rfl⟩
    next => exact ⟨stopped, rfl⟩
  | go a =>
    cases a with
    | send call sent =>
      simp only [step, go]
      split <;> exact ⟨stopped, rfl⟩
    | _ => exact ⟨stopped, rfl⟩

/-- The connection's thread goes on after `stop` has closed the registered connections. -/
structure Waits (s : Service) (c : ConnId) : Prop where
  stopped : s.phase = .connectionsClosed
  up : s.threads.sys.closed c = false
  unsevered : s.severed c = false

theorem Waits.run {steps : List ServiceStep} (h : s.Waits c) (unlost : ∀ now, ServiceStep.lost c now ∉ steps) :
    (Runs.run step s steps).Waits c := by
  refine Runs.invariant (I := fun t : Service => t.Waits c)
    (P := fun _ a => ∀ now, a ≠ .lost c now) ?_ h ?_
  · intro t a waits other
    obtain ⟨stopped, severed⟩ := step_stopped waits.stopped a
    exact ⟨stopped, (step_closed_of_not_lost other).trans waits.up, severed ▸ waits.unsevered⟩
  · refine Runs.along_of_forall fun a mem now same => ?_
    subst same
    exact unlost now mem

/-- Once `stop` has closed the connections of `workers_`, the remaining threads end on their own, in
whatever order they go on, just where each open connection was registered; they take at most ten
steps each. A connection that was not registered keeps its thread, and `stop` waiting in its join,
until its peer closes it or breaks the protocol, whatever else happens. -/
theorem stop_returns_iff (stopping : s.phase = .listenerClosed) (free : s.threads.rolling = none) :
    ((∀ steps, Runs.Along step Moves (s.step .closeConnections) steps →
        (∀ a, ¬(Runs.run step (s.step .closeConnections) steps).Moves a) →
          (Runs.run step (s.step .closeConnections) steps).Ended) ↔
      ∀ c < s.accepted, s.threads.sys.closed c = true ∨
        ∃ w : WorkerId, s.threads.sys.coord.workers[w]? = some c) ∧
    (∀ steps, Runs.Along step Moves (s.step .closeConnections) steps →
      steps.length ≤ 10 * s.accepted) ∧
    ∀ c, s.threads.sys.closed c = false → (∀ w : WorkerId, s.threads.sys.coord.workers[w]? ≠ some c) →
      ∀ steps, (∀ now, ServiceStep.lost c now ∉ steps) →
        (Runs.run step (s.step .closeConnections) steps).threads.sys.closed c = false ∧
        (Runs.run step (s.step .closeConnections) steps).severed c = false := by
  have stepped : s.step .closeConnections =
      { s with phase := .connectionsClosed, severed := s.registered } := by
    simp only [step, stopping, free, Option.isNone_none, decide_true, Bool.and_self, if_true]
  rw [stepped]
  refine ⟨⟨?_, ?_⟩, ?_, ?_⟩
  · intro returns c known
    by_contra waits
    obtain ⟨up, unregistered⟩ := not_or.mp waits
    obtain ⟨steps, along, last⟩ := Runs.exists_exhausted (P := Moves) rank
      (fun _ _ m => m.descends) { s with phase := .connectionsClosed, severed := s.registered }
    have kept := kept_run along
    have open_ : s.registered c = false := by
      rw [← Bool.not_eq_true, registered_iff]
      exact unregistered
    have ended := returns steps along last c (Nat.lt_of_lt_of_eq known kept.accepted.symm)
    rw [kept.closed c open_] at ended
    exact up ended
  · intro all steps along last
    have kept := kept_run along
    refine ended_of_exhausted (kept.rolling.trans free) last fun c known => ?_
    rw [kept.accepted] at known
    rcases all c known with gone | ⟨w, entry⟩
    · exact Or.inl (kept.ended c gone)
    · rw [kept.severed]
      exact Or.inr (registered_iff.mpr ⟨w, entry⟩)
  · intro steps along
    have bound := along.length_le rank fun _ _ m => m.descends
    have most : Service.rank { s with phase := .connectionsClosed, severed := s.registered } ≤
        10 * s.accepted := rank_le _
    omega
  · intro c up unregistered steps unlost
    have open_ : s.registered c = false := by
      rw [← Bool.not_eq_true, registered_iff]
      rintro ⟨w, entry⟩
      exact unregistered w entry
    have waits := Waits.run (s := { s with phase := .connectionsClosed, severed := s.registered })
      ⟨rfl, up, open_⟩ unlost
    exact ⟨waits.up, waits.unsevered⟩

end

/-- `stop` after one connection was accepted, which has not introduced itself. -/
def strangerAccepted : Service := Runs.run step init [.accept, .closeListener]

theorem stop_returns_stranger :
    ¬∀ steps, Runs.Along step Moves (strangerAccepted.step .closeConnections) steps →
      (∀ a, ¬(Runs.run step (strangerAccepted.step .closeConnections) steps).Moves a) →
        (Runs.run step (strangerAccepted.step .closeConnections) steps).Ended := by
  intro returns
  rcases (stop_returns_iff (s := strangerAccepted) rfl rfl).1.mp returns 0 (by decide) with gone | ⟨w, entry⟩
  · cases gone
  · exact absurd (ExtTreeMap.getElem?_empty.symm.trans entry) (by simp)

/-! What the coordinator holds once its threads have ended. -/

def sendsHello (c : ConnId) : ServiceStep → Bool
  | .read i f => decide (i = c) && decide (f.type = .hello)
  | _ => false

/-- The HELLOs that the connection's thread has read, as far as they have left a trace. -/
def introductions (s : Service) (c : ConnId) : Nat :=
  (if (s.threads.sys.coord.conns c).registered then 1 else 0) +
    (if (s.held c).any fun f => decide (f.type = .hello) then 1 else 0)

section
variable {s : Service} {a : ServiceStep} {c : ConnId}

/-- What a step does to the coordinator and to the frames that threads hold. -/
inductive Did (s : Service) : ServiceStep → (ConnId → Option Frame) → System → Prop
  | nothing {a : ServiceStep} : Did s a s.held s.threads.sys
  | read {c : ConnId} {f : Frame} (reading : s.reading c = true) :
      Did s (.read c f) (update s.held c (some f)) s.threads.sys
  | handle {c : ConnId} {f : Frame} {now : Nat → Timestamp} (waiting : s.held c = some f) :
      Did s (.handle c now) (update s.held c none) (s.threads.sys.step (.frame c f now))
  | other {a : ServiceStep} {b : Step} (unframed : ∀ c f now, b ≠ .frame c f now) :
      Did s a s.held (s.threads.sys.step b)

theorem did_step (s : Service) (a : ServiceStep) : s.Did a (s.step a).held (s.step a).threads.sys := by
  have own {a : ServiceStep} {b : ThreadStep} (unframed : ∀ i f now, b ≠ .frame i f now) :
      s.Did a s.held (s.threads.step b).sys := by
    rcases s.threads.step_sys unframed with same | ⟨b', other, -, same⟩
    · rw [same]
      exact .nothing
    · rw [same]
      exact .other other
  cases a with
  | accept => exact .nothing
  | closeListener | closeConnections =>
    simp only [step]
    split <;> exact .nothing
  | read i f =>
    simp only [step]
    split
    next h =>
      rw [Bool.and_eq_true] at h
      exact .read h.1
    next => exact .nothing
  | handle i now =>
    simp only [step]
    split
    next f waiting =>
      split
      next ready =>
        have handled : (s.threads.step (.frame i f now)).sys = s.threads.sys.step (.frame i f now) := by
          rw [Threads.step, Threads.note_sys, Threads.act, if_pos ready]
          rfl
        rw [handled]
        exact .handle waiting
      next => exact .nothing
    next => exact .nothing
  | lost i now =>
    simp only [step]
    split
    next => exact own fun _ _ _ same => by cases same
    next => exact .nothing
  | go a =>
    cases a with
    | frame | disconnect => exact .nothing
    | send call sent =>
      simp only [step, go]
      split
      next => exact own fun _ _ _ same => by cases same
      next => exact .nothing
    | load | reply | reserve | cleanup | rollEpoch | bumpWarmthGeneration | bumpDependencyGeneration =>
      exact own fun _ _ _ same => by cases same

/-- A step that is no frame leaves the connection states. -/
theorem conns_unframed {t : System} {b : Step} (unframed : ∀ c f now, b ≠ .frame c f now) :
    (t.step b).coord.conns = t.coord.conns := by
  refine (System.step_registry fun cs h r => ?_).1
  obtain ⟨f, now, framed, -⟩ := r.frame
  exact unframed _ _ _ framed

/-- Only a HELLO registers, and it registers the connection that it came on. -/
theorem registered_frame {t : System} {cs c : ConnId} {f : Frame} {now : Nat → Timestamp}
    (h : ((t.step (.frame cs f now)).coord.conns c).registered = true) :
    (t.coord.conns c).registered = true ∨ c = cs ∧ f.type = .hello := by
  by_cases registers : ∃ i hello, t.Registers (.frame cs f now) i hello
  · obtain ⟨i, hello, r⟩ := registers
    rw [(System.registers_registry r).1] at h
    cases r with
    | hello up type =>
      by_cases hc : c = cs
      · exact Or.inr ⟨hc, type⟩
      · rw [System.register_conns_of_ne hc] at h
        exact Or.inl h
  · rw [(System.step_registry fun i hello r => registers ⟨i, hello, r⟩).1] at h
    exact Or.inl h

theorem introductions_step (s : Service) (a : ServiceStep) (c : ConnId) :
    (s.step a).introductions c ≤ s.introductions c + (if sendsHello c a then 1 else 0) := by
  have did := s.did_step a
  unfold introductions
  generalize (s.step a).held = held at did ⊢
  generalize (s.step a).threads.sys = sys at did ⊢
  cases did with
  | nothing => exact Nat.le_add_right _ _
  | other unframed =>
    rw [conns_unframed unframed]
    exact Nat.le_add_right _ _
  | @read i f reading =>
    by_cases hc : i = c
    · subst hc
      rw [update_self, (reading_iff.mp reading).2.1]
      simp only [Option.any_some, Option.any_none, sendsHello, decide_true, Bool.true_and,
        Bool.false_eq_true, if_false]
      omega
    · rw [update_of_ne (Ne.symm hc)]
      exact Nat.le_add_right _ _
  | @handle i f now waiting =>
    simp only [sendsHello, Bool.false_eq_true, if_false, Nat.add_zero]
    by_cases hc : c = i
    · subst hc
      rw [update_self, waiting, Option.any_none, Option.any_some]
      cases registered : ((s.threads.sys.step (.frame c f now)).coord.conns c).registered with
      | false => simp
      | true =>
        rcases registered_frame registered with before | ⟨-, hello⟩
        · simp [before]
        · simp [hello]
    · rw [update_of_ne hc]
      refine Nat.add_le_add_right ?_ _
      cases registered : ((s.threads.sys.step (.frame i f now)).coord.conns c).registered with
      | false => exact Nat.zero_le _
      | true =>
        rcases registered_frame registered with before | ⟨same, -⟩
        · simp [before]
        · exact absurd same hc

theorem introductions_run (steps : List ServiceStep) (c : ConnId) :
    (Runs.run step init steps).introductions c ≤ steps.countP (sendsHello c) := by
  induction steps using List.reverseRecOn with
  | nil => simp [introductions, init, Threads.init, Threads.note]
  | append_singleton steps a ih =>
    have one := introductions_step (Runs.run step init steps) a c
    rw [Runs.run_concat, List.countP_append, List.countP_singleton]
    omega

theorem accepted_step (s : Service) (a : ServiceStep) : s.accepted ≤ (s.step a).accepted := by
  cases a with
  | accept => exact Nat.le_succ _
  | read | lost | closeListener | closeConnections =>
    simp only [step]
    split <;> exact Nat.le_refl _
  | handle =>
    simp only [step]
    split
    next => split <;> exact Nat.le_refl _
    next => exact Nat.le_refl _
  | go a =>
    cases a with
    | send =>
      simp only [step, go]
      split <;> exact Nat.le_refl _
    | _ => exact Nat.le_refl _

/-- The coordinator as long as no connection introduces itself twice; `accepted` counts the
connections. -/
structure Tidy (sys : System) (held : ConnId → Option Frame) (accepted : Nat) : Prop where
  policy : sys.coord.policy = .defaults ⟨1⟩
  consistent : sys.Consistent
  attributed : sys.Attributed
  known : ∀ c, (sys.coord.conns c).registered = true → c < accepted
  heard : ∀ c f, held c = some f → c < accepted

theorem Tidy.step_sys {sys : System} {held : ConnId → Option Frame} {n : Nat} (inv : Tidy sys held n)
    {b : Step} (fresh : sys.RegistersFresh b)
    (known : ∀ c, ((sys.step b).coord.conns c).registered = true → c < n) : Tidy (sys.step b) held n :=
  ⟨(System.stepped_policy (System.stepped_step _ b)).trans inv.policy,
    inv.consistent.step (fresh.not_rebinds inv.consistent),
    inv.attributed.step (by rw [inv.policy]; rfl) fresh, known, inv.heard⟩

theorem tidy_did {sys : System} {held : ConnId → Option Frame}
    (inv : Tidy s.threads.sys s.held s.accepted) (once : ∀ c, s.introductions c ≤ 1)
    (did : s.Did a held sys) : Tidy sys held s.accepted := by
  cases did with
  | nothing => exact inv
  | @read c f reading =>
    refine ⟨inv.policy, inv.consistent, inv.attributed, inv.known, fun i g waiting => ?_⟩
    by_cases hi : i = c
    · subst hi
      exact (reading_iff.mp reading).1
    · rw [update_of_ne hi] at waiting
      exact inv.heard i g waiting
  | other unframed =>
    refine inv.step_sys (fun cs h r => ?_) fun c registered => ?_
    · obtain ⟨f, now, framed, -⟩ := r.frame
      exact absurd framed (unframed _ _ _)
    · rw [conns_unframed unframed] at registered
      exact inv.known c registered
  | @handle c f now waiting =>
    have here := inv.heard c f waiting
    have fresh : s.threads.sys.RegistersFresh (.frame c f now) := by
      intro cs h r
      cases r with
      | hello up type =>
        have most := once c
        have introduces : decide (f.type = .hello) = true := decide_eq_true type
        rw [introductions, waiting, Option.any_some, introduces, if_pos rfl] at most
        by_contra registered
        rw [if_pos (Bool.eq_true_of_not_eq_false registered)] at most
        omega
    have known (i : ConnId)
        (registered : ((s.threads.sys.step (.frame c f now)).coord.conns i).registered = true) :
        i < s.accepted := by
      rcases registered_frame registered with before | ⟨rfl, -⟩
      · exact inv.known i before
      · exact here
    have next := inv.step_sys fresh known
    refine ⟨next.policy, next.consistent, next.attributed, next.known, fun i g held => ?_⟩
    by_cases hi : i = c
    · subst hi
      exact here
    · rw [update_of_ne hi] at held
      exact inv.heard i g held

theorem tidy_run {steps : List ServiceStep} (once : ∀ c, steps.countP (sendsHello c) ≤ 1) :
    Tidy (Runs.run step init steps).threads.sys (Runs.run step init steps).held
      (Runs.run step init steps).accepted := by
  induction steps using List.reverseRecOn with
  | nil =>
    have start : init.threads.sys = System.init := rfl
    refine ⟨rfl, start ▸ System.consistent_init, start ▸ System.attributed_init, ?_, ?_⟩
    · intro c registered
      cases registered
    · intro c f waiting
      cases waiting
  | append_singleton steps a ih =>
    have before (c : ConnId) : steps.countP (sendsHello c) ≤ 1 := by
      have whole := once c
      rw [List.countP_append] at whole
      omega
    have inv := tidy_did (ih before) (fun c => Nat.le_trans (introductions_run steps c) (before c))
      (did_step (Runs.run step init steps) a)
    have more := accepted_step (Runs.run step init steps) a
    rw [Runs.run_concat]
    exact ⟨inv.policy, inv.consistent, inv.attributed,
      fun c registered => Nat.lt_of_lt_of_le (inv.known c registered) more,
      fun c f waiting => Nat.lt_of_lt_of_le (inv.heard c f waiting) more⟩

end

/-- Where each connection introduces itself once at most, a coordinator whose threads have ended has
no worker registered and no object ready. -/
theorem stopped_bare {steps : List ServiceStep} (once : ∀ c, steps.countP (sendsHello c) ≤ 1)
    (ended : (Runs.run step init steps).Ended) :
    (Runs.run step init steps).threads.sys.coord.workers = ∅ ∧
      ∀ id, (Runs.run step init steps).threads.sys.coord.readyAt id = false := by
  have inv := tidy_run once
  constructor
  · apply ExtTreeMap.ext_getElem?
    intro w
    rw [ExtTreeMap.getElem?_empty]
    cases entry : (Runs.run step init steps).threads.sys.coord.workers[w]? with
    | none => rfl
    | some c =>
      obtain ⟨registered, -, -, up⟩ := inv.consistent w c entry
      cases (ended c (inv.known c registered)).symm.trans up
  · intro id
    by_contra ready
    obtain ⟨c, registered, up, -⟩ := inv.attributed id (Bool.eq_true_of_not_eq_false ready)
    cases (ended c (inv.known c registered)).symm.trans up

/-- A worker registers and completes an attempt. -/
def servedOnce : List ServiceStep := [
  .accept, .read 0 (helloFrame { worker := ⟨0, 1⟩, boot := ⟨0, 1⟩ }), .handle 0 fun _ => 0,
  .go (.load 0), .go (.load 0), .go (.load 0), .go (.reply 0 true),
  .go (.reserve ⟨0, 9⟩ .loadModel none), .go (.send 0 true),
  .read 0 (resultFrame { boot := ⟨0, 1⟩, object := ⟨0, 9⟩, attempt := 1, success := true }),
  .handle 0 fun _ => 0]

def stoppedAfterServing : List ServiceStep :=
  servedOnce ++ [.closeListener, .closeConnections, .lost 0 fun _ => 0]

theorem ended_of_one {s : Service} (accepted : s.accepted = 1)
    (closed : s.threads.sys.closed 0 = true) : s.Ended := by
  intro c known
  have first : c = 0 := by omega
  rw [first]
  exact closed

/-- The object that the attempt warmed is ready until the coordinator stops. -/
theorem stopped_bare_served :
    (Runs.run step init servedOnce).threads.sys.coord.readyAt ⟨0, 9⟩ = true ∧
      (Runs.run step init stoppedAfterServing).threads.sys.coord.workers = ∅ ∧
      ∀ id, (Runs.run step init stoppedAfterServing).threads.sys.coord.readyAt id = false := by
  have once : ∀ c, stoppedAfterServing.countP (sendsHello c) ≤ 1 := by
    intro c
    by_cases hc : 0 = c
    · subst hc
      decide
    · have none : stoppedAfterServing.countP (sendsHello c) = 0 := by
        simp [stoppedAfterServing, servedOnce, sendsHello, hc]
      omega
  have accepted : (Runs.run step init stoppedAfterServing).accepted = 1 := by decide +kernel
  have closed : (Runs.run step init stoppedAfterServing).threads.sys.closed 0 = true := by
    decide +kernel
  have ready : (Runs.run step init servedOnce).threads.sys.coord.readyAt ⟨0, 9⟩ = true := by
    decide +kernel
  exact ⟨ready, stopped_bare once (ended_of_one accepted closed)⟩

end Service

end Warmth
