import Warmth.Attempts
import Warmth.EntrySteps

namespace Warmth

open Codec Std TreeMaps

namespace Coordinator

/-- No execution-ready object carries an invalidation reason. -/
def ReadyValid (c : Coordinator) : Prop :=
  ∀ (id : WarmthObjectId) (o : WarmthObject), c.objects[id]? = some o → o.ReadyValid

theorem reportedUpdate_invalidationReason (cur o : WarmthObject) (now : Timestamp) :
    (reportedUpdate cur o now).invalidationReason = cur.invalidationReason := by
  unfold reportedUpdate
  simp only
  split <;> simp

theorem reachWarm_invalidationReason (o : WarmthObject) (why : CString) :
    (reachWarm o why).invalidationReason = o.invalidationReason := by
  unfold reachWarm
  split
  next => rfl
  next =>
    rw [WarmthObject.moveTo_invalidationReason]
    split
    next h =>
      have prepared := congrArg (fun p => p.1.invalidationReason) h
      exact prepared.symm.trans (WarmthObject.moveTo_invalidationReason o .preparing why)
    next => simp

theorem disconnectedObject_invalidationReason (policy : DecayPolicy) (now : Timestamp)
    (o : WarmthObject) :
    (disconnectedObject policy now o).invalidationReason = o.invalidationReason := by
  unfold disconnectedObject
  simp only [WarmthObject.dropEphemeral_invalidationReason]
  split <;> simp

theorem Updated.ready {cur next : WarmthObject} (h : Updated cur next) :
    isExecutionReady next.state = isExecutionReady cur.state :=
  h.trait (g := fun o => isExecutionReady o.state) reportedUpdate_ready

theorem Updated.invalidationReason {cur next : WarmthObject} (h : Updated cur next) :
    next.invalidationReason = cur.invalidationReason := h.trait reportedUpdate_invalidationReason

/-- A completed object keeps the reason of the object it was, unless that one was INVALIDATED. -/
theorem completeObject_invalidationReason (c : Coordinator) (res : WarmResult)
    (now : Nat → Timestamp) :
    (c.completeObject res now).invalidationReason =
      (c.objects[res.object]?).bind fun o =>
        if o.state = .invalidated then none else o.invalidationReason := by
  unfold completeObject
  split
  next h =>
    rw [h]
    exact reachWarm_invalidationReason _ _
  next o h =>
    rw [h, Option.bind_some]
    refine (reachWarm_invalidationReason _ _).trans ?_
    by_cases hs : o.state = .invalidated
    · rw [if_pos (by rw [hs]; rfl), if_pos hs]
    · rw [if_neg (by simpa using hs), if_neg hs]

end Coordinator

/-- The objects that a decodable HELLO or REPORT carries. -/
def Frame.objects (f : Frame) : List WarmthObject :=
  match f.type with
  | .hello => match decodePayload decodeHello f.payload with
    | some h => h.observed
    | none => []
  | .report => match decodePayload decodeReport f.payload with
    | some p => p.objects
    | none => []
  | _ => []

def Step.carriesHot : Step → Bool
  | .frame _ f _ => f.objects.any fun o => o.state == .hot
  | _ => false

namespace System

open Coordinator

/-- The step completes the warming of a stored object that keeps its invalidation reason, as it is
in another state than INVALIDATED. -/
def RevivesReason (s : System) (a : Step) : Prop :=
  ∃ id o, s.Completes a id ∧ s.coord.objects[id]? = some o ∧ o.state ≠ .invalidated ∧
    o.invalidationReason ≠ none

theorem Carries.carriesHot {s : System} {a : Step} {os : List WarmthObject} {o : WarmthObject}
    (h : s.Carries a os) (mem : o ∈ os) (hot : o.state = .hot) : a.carriesHot = true := by
  have carried (f : Frame) (same : f.objects = os) : (f.objects.any fun o => o.state == .hot) := by
    rw [same]
    exact List.any_eq_true.mpr ⟨o, mem, beq_iff_eq.mpr hot⟩
  cases h with
  | hello up type decoded => exact carried _ (by simp only [Frame.objects, type, decoded])
  | report up type decoded => exact carried _ (by simp only [Frame.objects, type, decoded])

theorem not_revives_of_readyValid {s : System} {a : Step} (next : (s.step a).coord.ReadyValid) :
    ¬ s.RevivesReason a := by
  rintro ⟨id, o, completes, entry, state, reason⟩
  obtain ⟨res, now, rfl, stored⟩ := completes.stored
  have none := next _ _ stored (completeObject_ready _ _ _)
  rw [completeObject_invalidationReason, entry, Option.bind_some, if_neg state] at none
  exact reason none

theorem readyValid_step {s : System} {a : Step} (inv : s.coord.ReadyValid)
    (cold : a.carriesHot = false) (revives : ¬ s.RevivesReason a) :
    (s.step a).coord.ReadyValid := by
  intro id next h
  have touched := touched_step s a id
  rw [h] at touched
  generalize he : some next = entry at touched
  cases touched with
  | same => exact inv id next he.symm
  | @copied os o _ carries unknown first updated =>
    cases he
    intro ready
    rw [updated.ready, observedCopy_ready] at ready
    have hot := carries.carriesHot (List.mem_of_find?_eq_some first) (eq_of_beq ready)
    rw [cold] at hot
    cases hot
  | updated known updated =>
    cases he
    exact (inv id _ known).of_down (fun ready => updated.ready.symm.trans ready)
      updated.invalidationReason
  | fenced known updated =>
    cases he
    exact WarmthObject.readyValid_of_unready (updated.ready.trans (fenced_ready _ _ _))
  | disconnected known =>
    cases he
    exact (inv id _ known).of_down disconnectedObject_ready
      (disconnectedObject_invalidationReason _ _ _)
  | @completed res now completes object =>
    cases he
    subst object
    apply WarmthObject.readyValid_of_valid
    rw [completeObject_invalidationReason]
    cases hc : s.coord.objects[res.object]? with
    | none => rfl
    | some o =>
      rw [Option.bind_some]
      split
      next => rfl
      next state =>
        by_contra reason
        exact revives ⟨_, o, completes, hc, state, reason⟩
  | failed known =>
    cases he
    exact (inv id _ known).moveTo_unready rfl _

/-- In a run without HOT objects from peers the ready objects carry no invalidation reason in any
state reached exactly if no warming completes on an object that keeps its reason. -/
theorem ready_objects_valid {steps : List Step} (cold : ∀ a ∈ steps, a.carriesHot = false) :
    Runs.Along step (fun s a => (s.step a).coord.ReadyValid) init steps ↔
      Runs.Along step (fun s a => ¬ s.RevivesReason a) init steps := by
  have initial : init.coord.ReadyValid := by
    intro id o h
    cases h
  constructor
  · intro h
    exact h.imp fun s a => not_revives_of_readyValid
  · intro h
    exact Runs.along_of_invariant (I := fun s : System => s.coord.ReadyValid)
      (fun s a inv hc => readyValid_step inv hc.1 hc.2)
      (fun s a inv hc => readyValid_step inv hc.1 hc.2) initial
      ((Runs.along_of_forall cold).and h)

theorem ready_objects_valid_warmed :
    Runs.Along step (fun s a => (s.step a).coord.ReadyValid) init warmed := by
  refine (ready_objects_valid (by decide +kernel)).mpr ?_
  refine ⟨?_, ?_, ?_, ?_, trivial⟩ <;> rintro ⟨id, o, completes, entry, _, reason⟩
  · cases entry
  · cases entry
  · cases entry
  · have stored : (Runs.run step init (warmed.take 3)).coord.objects.isEmpty = true := by decide
    have entry : (Runs.run step init (warmed.take 3)).coord.objects[id]? = some o := entry
    rw [isEmpty_iff_getElem?.mp stored id] at entry
    cases entry

def coldHello : Step :=
  .frame 0 (helloFrame { worker := ⟨0, 1⟩, boot := ⟨0, 1⟩, observed := [{ id := ⟨0, 9⟩ }] })
    fun _ => 0

def rolledResult : WarmResult :=
  { boot := ⟨0, 1⟩, epoch := 1, warmthGen := 1, depGen := 1, attempt := 1, object := ⟨0, 9⟩
    success := true }

def coldRolled : List Step :=
  [coldHello, .rollEpoch, reserveOf ⟨0, 9⟩, .send 0 true, resultOf 0 rolledResult]

/-- The roll gives its reason to a COLD object too, and the completion clears reasons only of
INVALIDATED ones. -/
theorem coldRolled_ready_with_reason :
    ¬ ∀ steps : List Step, (∀ a ∈ steps, a.carriesHot = false) →
      (Runs.run step init steps).coord.ReadyValid := by
  intro h
  have valid := h coldRolled (by decide +kernel)
  have stored : ((Runs.run step init coldRolled).coord.objects[(⟨0, 9⟩ : WarmthObjectId)]?).map
      (fun o => (isExecutionReady o.state, o.invalidationReason)) =
      some (true, some (text "coordinator_epoch_rolled")) := by decide +kernel
  obtain ⟨o, entry, both⟩ := Option.map_eq_some_iff.mp stored
  obtain ⟨ready, reason⟩ := Prod.mk.inj both
  rw [valid _ o entry ready] at reason
  cases reason

end System

end Warmth
