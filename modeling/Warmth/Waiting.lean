import Warmth.Attempts
import Warmth.CondVar
import Warmth.SystemSteps

namespace Warmth

open Codec Std TreeMaps

namespace System

/-- What the handler of the step leaves to be done at its end. -/
def effects (s : System) : Step → Effects
  | .frame cs f now => if s.closed cs then {} else (s.coord.handleFrame cs f now).2
  | .cleanup call =>
    match s.calls[call]? with
    | some ⟨attempt, _, .sendFailed⟩ => (s.coord.cleanup attempt).2
    | _ => {}
  | .rollEpoch => s.coord.rollEpoch.2
  | _ => {}

theorem effects_result {s : System} {cs : ConnId} {f : Frame} {res : WarmResult}
    {info : AttemptInfo} (up : s.closed cs = false) (type : f.type = .warmResult)
    (decoded : decodePayload decodeWarmResult f.payload = some res)
    (accepted : s.coord.acceptedAttempt cs res = some info) (now : Nat → Timestamp) :
    (s.effects (.frame cs f now)).notify = true := by
  simp [effects, up, Coordinator.handleFrame, type, decoded, Coordinator.handleWarmResult, accepted,
    Coordinator.acceptResult]

/-- The counter moves only in a step that ends in a notification, or by an issue. -/
theorem stepped_inFlightCount {s t : System} {a : Step} (moved : Stepped s a t)
    (h : t.coord.inFlightCount ≠ s.coord.inFlightCount) :
    (s.effects a).notify = true ∨
      ∃ object action preferred c i, a = .reserve object action preferred ∧
        s.coord.issueWarm object action preferred = (c, some i) ∧
        t.coord.inFlightCount = s.coord.inFlightCount + 1 := by
  cases moved with
  | result up type decoded accepted => exact Or.inl (effects_result up type decoded accepted _)
  | @cleanup call w pending failed =>
    obtain ⟨attempt, conn, phase⟩ := w
    cases failed
    refine Or.inl ?_
    simp only [effects, pending, Coordinator.cleanup]
    split <;> rfl
  | rollEpoch => exact Or.inl rfl
  | @issue object action preferred c i issued =>
    refine Or.inr ⟨object, action, preferred, c, i, rfl, issued, ?_⟩
    rw [Coordinator.issueWarm_frame issued]
    rfl
  | hello => rw [Coordinator.acceptHello_frame] at h; exact absurd rfl h
  | report => rw [Coordinator.acceptReport_frame] at h; exact absurd rfl h
  | disconnect => rw [Coordinator.onDisconnect_frame] at h; exact absurd rfl h
  | idle | refuse | send | bumpWarmth | bumpDependency => exact absurd rfl h

end System

/-- A thread that has changed the books and has yet to call `notify_all`: a connection thread after
its locked section, or one that still holds the mutex. -/
structure Notifier where
  lowered : Bool
  conn : Option ConnId
deriving DecidableEq, Repr

/-- The coordinator with the threads in `wait_until_settled` and those about to notify them. -/
structure Waiting where
  sys : System := {}
  waiters : List CondVar.Phase := []
  notifiers : List Notifier := []

inductive WaitStep
  | system (a : Step)
  | notify (n : Nat)
  | waiter (a : CondVar.Act)

namespace Waiting

def takesMutex : Step → Bool
  | .send _ _ => false
  | _ => true

/-- The connection thread that takes the step. -/
def connOf : Step → Option ConnId
  | .frame cs _ _ | .disconnect cs _ => some cs
  | _ => none

/-- No thread that has yet to notify stands in the way: it holds the mutex, or it is the thread
that would take the step. -/
def enabled (s : Waiting) (a : Step) : Bool :=
  s.notifiers.all fun n => if n.conn = none then !takesMutex a else n.conn != connOf a

def settled (s : Waiting) : Bool := s.sys.coord.inFlightCount == 0

def newNotifiers (s : System) (a : Step) : List Notifier :=
  if (s.effects a).notify then
    [{ lowered := decide ((s.step a).coord.inFlightCount < s.coord.inFlightCount)
       conn := connOf a }]
  else []

def step (s : Waiting) : WaitStep → Waiting
  | .system a =>
    if s.enabled a then
      { s with sys := s.sys.step a, notifiers := s.notifiers ++ newNotifiers s.sys a }
    else s
  | .notify n =>
    if n < s.notifiers.length then
      { s with waiters := CondVar.notifyAll s.waiters, notifiers := s.notifiers.eraseIdx n }
    else s
  | .waiter a => { s with waiters := CondVar.act s.settled s.waiters a }

def init : Waiting := {}

/-- Every thread that lowered the counter has called `notify_all`. -/
def Announced (s : Waiting) : Prop := ∀ n ∈ s.notifiers, n.lowered = false

/-- Nothing is in flight and everyone has been told, but a waiter is still blocked. -/
def LostWakeup (s : Waiting) : Prop :=
  s.sys.coord.inFlightCount = 0 ∧ s.Announced ∧ .blocked ∈ s.waiters

/-- The step is the last `notify_all` due while a waiter stands between its test and its wait, or
it wraps the counter to zero while a waiter waits. -/
inductive Misses (s : Waiting) : WaitStep → Prop
  | notify {n : Nat} (due : n < s.notifiers.length) (settled : s.sys.coord.inFlightCount = 0)
      (last : ∀ m ∈ s.notifiers.eraseIdx n, m.lowered = false)
      (between : .refused ∈ s.waiters) : Misses s (.notify n)
  | wrap {object : WarmthObjectId} {action : WarmthAction} {preferred : Option WorkerId}
      {c : Coordinator} {i : Coordinator.Issue}
      (free : s.enabled (.reserve object action preferred) = true)
      (issued : s.sys.coord.issueWarm object action preferred = (c, some i))
      (full : s.sys.coord.inFlightCount + 1 = 0) (announced : s.Announced)
      (waits : ¬ CondVar.Quiet s.waiters) : Misses s (.system (.reserve object action preferred))

/-- While nothing is in flight and everyone has been told, no waiter needs a notification. -/
def Told (s : Waiting) : Prop :=
  s.sys.coord.inFlightCount = 0 → s.Announced → CondVar.Quiet s.waiters

theorem Told.not_lost {s : Waiting} (inv : s.Told) : ¬ s.LostWakeup := by
  rintro ⟨zero, announced, blocked⟩
  exact (inv zero announced .blocked blocked).1 rfl

theorem told_init : init.Told := by
  intro _ _ p hp
  cases hp

theorem Told.system {s : Waiting} {a : Step} (inv : s.Told) (h : ¬ s.Misses (.system a)) :
    (s.step (.system a)).Told := by
  simp only [step]
  split
  next free =>
    intro zero announced
    simp only [Announced, List.mem_append] at announced
    have before : s.Announced := fun n hn => announced n (Or.inl hn)
    by_cases same : (s.sys.step a).coord.inFlightCount = s.sys.coord.inFlightCount
    · exact inv (same.symm.trans zero) before
    · rcases System.stepped_inFlightCount (System.stepped_step s.sys a) same with
        notified | ⟨object, action, preferred, c, i, rfl, issued, next⟩
      · -- the step itself has lowered the counter, so its own notification is still due
        have lowered := announced
          { lowered := decide ((s.sys.step a).coord.inFlightCount < s.sys.coord.inFlightCount)
            conn := connOf a } (Or.inr (by simp [newNotifiers, notified]))
        simp only [decide_eq_false_iff_not] at lowered
        simp only at zero
        rw [zero] at same lowered
        exact absurd (UInt64.pos_iff_ne_zero.mpr (Ne.symm same)) lowered
      · by_contra waits
        exact h (.wrap free issued (next.symm.trans zero) before waits)
  next => exact inv

theorem Told.step {s : Waiting} {a : WaitStep} (inv : s.Told) (h : ¬ s.Misses a) :
    (s.step a).Told := by
  cases a with
  | system a => exact inv.system h
  | notify n =>
    simp only [Waiting.step]
    split
    next due =>
      intro zero announced
      apply CondVar.Quiet.notifyAll
      intro between
      exact h (.notify due zero announced between)
    next => exact inv
  | waiter a =>
    intro zero announced
    have quiet := (inv zero announced).act a
    have holds : s.settled = true := beq_iff_eq.mpr zero
    simpa only [Waiting.step, holds] using quiet

/-- After a missed notification some waiter is blocked for good, at once or when it gets to its
wait. -/
theorem Misses.lost {s : Waiting} {a : WaitStep} (h : s.Misses a) :
    (s.step a).LostWakeup ∨ ∃ k, ((s.step a).step (.waiter (.block k))).LostWakeup := by
  cases h with
  | @notify n due zero last between =>
    have next : s.step (.notify n) =
        { s with
          waiters := CondVar.notifyAll s.waiters
          notifiers := s.notifiers.eraseIdx n } := if_pos due
    obtain ⟨k, blocked⟩ := CondVar.exists_block (CondVar.refused_mem_notifyAll.mpr between) s.settled
    refine Or.inr ⟨k, ?_⟩
    rw [next]
    exact ⟨zero, last, blocked⟩
  | @wrap object action preferred c i free issued full announced waits =>
    have next : s.step (.system (.reserve object action preferred)) =
        { s with sys := s.sys.issue c i } := by
      simp [step, free, System.step, issued, newNotifiers, System.effects]
    have zero : (s.sys.issue c i).coord.inFlightCount = 0 := by
      rw [Coordinator.issueWarm_frame issued]
      exact full
    rw [next]
    by_cases blocked : .blocked ∈ s.waiters
    · exact Or.inl ⟨zero, announced, blocked⟩
    · have between : .refused ∈ s.waiters := by
        by_contra refused
        refine waits fun p hp => ⟨?_, ?_⟩
        · rintro rfl
          exact blocked hp
        · rintro rfl
          exact refused hp
      obtain ⟨k, blocked⟩ :=
        CondVar.exists_block between (settled { s with sys := s.sys.issue c i })
      exact Or.inr ⟨k, zero, announced, blocked⟩

/-- No wakeup is lost, now or by a waiter that goes on to wait, in exactly the runs in which no
step misses a waiter. -/
theorem no_lost_wakeup (steps : List WaitStep) :
    Runs.Along step (fun s a => ¬ (s.step a).LostWakeup ∧
      ∀ k, ¬ ((s.step a).step (.waiter (.block k))).LostWakeup) init steps ↔
      Runs.Along step (fun s a => ¬ s.Misses a) init steps := by
  constructor
  · intro h
    refine h.imp fun s a safe misses => ?_
    obtain lost | ⟨k, lost⟩ := misses.lost
    · exact safe.1 lost
    · exact safe.2 k lost
  · intro h
    refine Runs.along_of_invariant (I := Told) (fun _ _ inv h => inv.step h)
      (fun s a inv h => ?_) told_init h
    have next := inv.step h
    exact ⟨next.not_lost, fun k => (next.step (by intro misses; cases misses)).not_lost⟩

/-- The waiter tests while the attempt is in flight; the result settles it and notifies before the
waiter gets to its wait. -/
def settledBetween : List WaitStep := [
  .system (System.helloOf 0 ⟨0, 1⟩ ⟨0, 1⟩), .system (System.reserveOf ⟨0, 9⟩),
  .system (.send 0 true), .waiter .arrive, .waiter (.lock 0), .waiter (.test 0),
  .system (System.resultOf 0
    { boot := ⟨0, 1⟩, object := ⟨0, 9⟩, attempt := 1, success := true }),
  .notify 0, .waiter (.block 0)]

theorem settledBetween_lost_wakeup : ¬ ∀ s, Runs.Reachable step init s → ¬ s.LostWakeup := by
  intro h
  apply h _ (Runs.reachable_run settledBetween)
  refine ⟨by decide +kernel, ?_, by decide +kernel⟩
  have none : (Runs.run step init settledBetween).notifiers = [] := by decide +kernel
  intro n hn
  rw [none] at hn
  cases hn

end Waiting

end Warmth
