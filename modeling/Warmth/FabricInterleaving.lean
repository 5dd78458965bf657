import Warmth.Fabric
import Warmth.Runs

namespace Warmth

open Std TreeMaps

/-- A `warm` call between its first and its last section. `disturbed` records that the object has
left PREPARING since the first. -/
structure FabricCall where
  id : WarmthObjectId
  held : WarmReservations
  disturbed : Bool := false
deriving DecidableEq

structure Interleaving where
  fabric : WarmthFabric
  calls : List FabricCall := []

/-- One locked section: an operation of a single section, the first section of a `warm` call, or
the last section of the `k`-th call in progress with what its operation reported. -/
inductive LockedSection
  | operation (op : FabricOp)
  | warmBegin (id : WarmthObjectId)
  | warmFinish (k : Nat) (outcome : WarmOutcome) (now : Nat → Timestamp)

def WarmthFabric.isPreparing (f : WarmthFabric) (id : WarmthObjectId) : Bool :=
  f.objects[id]?.any fun o => o.state == .preparing

/-- What phase 3 must leave alone once the object has been taken out of PREPARING. -/
def WarmthObject.recorded (o : WarmthObject) : WarmthState × Option CString × ResidencyState :=
  (o.state, o.invalidationReason, o.residency)

def FabricCall.seeing (c : FabricCall) (f f' : WarmthFabric) : FabricCall :=
  { c with disturbed := c.disturbed || (f.isPreparing c.id && !f'.isPreparing c.id) }

namespace Interleaving

/-- Another fabric; the calls in progress notice when their object leaves PREPARING. -/
def become (s : Interleaving) (f : WarmthFabric) : Interleaving :=
  ⟨f, s.calls.map fun c => c.seeing s.fabric f⟩

def step (s : Interleaving) : LockedSection → Interleaving
  | .operation op => s.become (op.apply s.fabric)
  | .warmBegin id =>
    match s.fabric.warmBegin id with
    | (f, none) => s.become f
    | (f, some held) => { s.become f with calls := (s.become f).calls ++ [{ id, held }] }
  | .warmFinish k outcome now =>
    match s.calls[k]? with
    | none => s
    | some c =>
      { s with calls := s.calls.eraseIdx k }.become
        (s.fabric.warmFinish c.id c.held outcome now).1

/-- What the last section of a call may do: after a disturbance it returns false and leaves what
is recorded of the object alone, and it returns true only with the object execution-ready. -/
structure Respects (f : WarmthFabric) (c : FabricCall) (result : WarmthFabric × Bool) : Prop where
  disturbed : c.disturbed = true →
    result.2 = false ∧
      result.1.objects[c.id]?.map WarmthObject.recorded = f.objects[c.id]?.map WarmthObject.recorded
  ready : result.2 = true → ∃ o, result.1.objects[c.id]? = some o ∧ o.executionReady = true

def FinishRespects (s : Interleaving) : LockedSection → Prop
  | .warmFinish k outcome now =>
    ∀ c, s.calls[k]? = some c → Respects s.fabric c (s.fabric.warmFinish c.id c.held outcome now)
  | _ => True

/-- The last section of a disturbed call whose operation succeeded, or whose object has an edge to
FAILED that changes its state. -/
def Overwrites (s : Interleaving) : LockedSection → Prop
  | .warmFinish k outcome _ =>
    ∃ c o, s.calls[k]? = some c ∧ c.disturbed = true ∧ s.fabric.objects[c.id]? = some o ∧
      (outcome.success = true ∨ (o.state ≠ .evicted ∧ o.state ≠ .failed))
  | _ => False

def Undisturbed (s : Interleaving) : Prop :=
  ∀ c ∈ s.calls, c.disturbed = false → s.fabric.isPreparing c.id = true

theorem undisturbed_become {s : Interleaving} (h : s.Undisturbed) (f : WarmthFabric) :
    (s.become f).Undisturbed := by
  intro c hc hd
  obtain ⟨c, hm, rfl⟩ := List.mem_map.mp hc
  obtain ⟨before, same⟩ := Bool.or_eq_false_iff.mp hd
  have preparing := h c hm before
  rw [preparing, Bool.true_and, Bool.not_eq_false'] at same
  exact same

theorem undisturbed_step {s : Interleaving} (h : s.Undisturbed) (a : LockedSection) :
    (s.step a).Undisturbed := by
  cases a with
  | operation op => exact undisturbed_become h _
  | warmBegin id =>
    rcases s.fabric.warmBegin_cases id with ⟨budget, he⟩ | ⟨o, budget, held, ho, edge, he⟩
    · simp only [step, he]
      exact undisturbed_become h _
    · simp only [step, he]
      intro c hc hd
      rcases List.mem_append.mp hc with hc | hc
      · exact undisturbed_become h _ c hc hd
      · cases List.mem_singleton.mp hc
        simp only [WarmthFabric.isPreparing, become, ExtTreeMap.getElem?_insert_self,
          Option.any_some, WarmthObject.moveTo_state, if_pos edge]
        rfl
  | warmFinish k outcome now =>
    simp only [step]
    split
    next => exact h
    next c hc =>
      refine undisturbed_become (fun d hd => ?_) _
      exact h d (List.mem_of_mem_eraseIdx hd)

def finished (o : WarmthObject) (outcome : WarmOutcome) (now : Nat → Timestamp) : WarmthObject :=
  if outcome.success then WarmthFabric.warmed o outcome now
  else o.moveTo .failed (text "warming_hook_failed")

theorem warmFinish_none {f : WarmthFabric} {id : WarmthObjectId} (ho : f.objects[id]? = none)
    (held : WarmReservations) (outcome : WarmOutcome) (now : Nat → Timestamp) :
    f.warmFinish id held outcome now = ({ f with budget := f.budget.releasePair held }, false) := by
  simp only [WarmthFabric.warmFinish, WarmthFabric.onObject, ho]

theorem warmFinish_some {f : WarmthFabric} {id : WarmthObjectId} {o : WarmthObject}
    (ho : f.objects[id]? = some o) (held : WarmReservations) (outcome : WarmOutcome)
    (now : Nat → Timestamp) :
    f.warmFinish id held outcome now =
      ({ f with
          budget := f.budget.releasePair held
          objects := f.objects.insert id (finished o outcome now) }, outcome.success) := by
  simp only [WarmthFabric.warmFinish, WarmthFabric.onObject, ho, finished]
  cases outcome.success <;> rfl

/-- A reported failure leaves what is recorded alone where the table has no edge to FAILED, or the
object is there already. -/
theorem finished_failure {o : WarmthObject} {outcome : WarmOutcome} {now : Nat → Timestamp}
    (h : outcome.success = false) :
    (finished o outcome now).recorded = o.recorded ↔ o.state = .evicted ∨ o.state = .failed := by
  have moved : (finished o outcome now).recorded =
      ((o.moveTo .failed (text "warming_hook_failed")).state, o.invalidationReason, o.residency) := by
    rw [finished, h, WarmthObject.moveTo_frame]
    rfl
  rw [moved, WarmthObject.moveTo_state, WarmthObject.recorded]
  cases hs : o.state <;> simp [transitionAllowed]

theorem finished_success {o : WarmthObject} {outcome : WarmOutcome} {now : Nat → Timestamp}
    (h : outcome.success = true) (preparing : o.state = .preparing) :
    (finished o outcome now).executionReady = true := by
  have warm : (finished o outcome now).state = (o.moveTo .warm (text "warm_completed")).state := by
    rw [finished, h]
    rfl
  rw [WarmthObject.executionReady, warm, WarmthObject.moveTo_state, preparing]
  rfl

theorem finishRespects_iff {s : Interleaving} (h : s.Undisturbed) (a : LockedSection) :
    s.FinishRespects a ↔ ¬ s.Overwrites a := by
  cases a with
  | operation op => simp only [FinishRespects, Overwrites, not_false_eq_true]
  | warmBegin id => simp only [FinishRespects, Overwrites, not_false_eq_true]
  | warmFinish k outcome now =>
    constructor
    · rintro respects ⟨c, o, hc, hd, ho, bad⟩
      have r := respects c hc
      rw [warmFinish_some ho] at r
      obtain ⟨failure, same⟩ := r.disturbed hd
      rw [ExtTreeMap.getElem?_insert_self, ho] at same
      rcases bad with ok | ⟨notEvicted, notFailed⟩
      · exact absurd (ok.symm.trans failure) (by decide)
      · have left := (finished_failure failure).mp (Option.some.inj same)
        exact left.elim notEvicted notFailed
    · intro clean c hc
      cases ho : s.fabric.objects[c.id]? with
      | none =>
        rw [warmFinish_none ho]
        exact ⟨fun _ => ⟨rfl, rfl⟩, nofun⟩
      | some o =>
        have spared : c.disturbed = true →
            outcome.success = false ∧ (o.state = .evicted ∨ o.state = .failed) := by
          intro hd
          by_contra bad
          refine clean ⟨c, o, hc, hd, ho, ?_⟩
          by_cases ok : outcome.success = true
          · exact Or.inl ok
          · exact Or.inr ⟨fun e => bad ⟨Bool.eq_false_iff.mpr ok, Or.inl e⟩,
              fun e => bad ⟨Bool.eq_false_iff.mpr ok, Or.inr e⟩⟩
        rw [warmFinish_some ho]
        constructor
        · intro hd
          obtain ⟨failure, left⟩ := spared hd
          refine ⟨failure, ?_⟩
          rw [ExtTreeMap.getElem?_insert_self, ho]
          exact congrArg some ((finished_failure failure).mpr left)
        · intro ok
          have hd : c.disturbed = false := by
            by_contra hd
            have := (spared (Bool.not_eq_false _ ▸ hd)).1
            exact absurd (ok.symm.trans this) (by decide)
          have preparing := h c (List.mem_of_getElem? hc) hd
          rw [WarmthFabric.isPreparing, ho, Option.any_some, beq_iff_eq] at preparing
          exact ⟨_, ExtTreeMap.getElem?_insert_self, finished_success ok preparing⟩

/-- Interleaved warming loses no invalidation in exactly the interleavings in which no `warm` call
whose object has left PREPARING overwrites it. -/
theorem warm_loses_no_invalidation (f : WarmthFabric) (sections : List LockedSection) :
    Runs.Along step FinishRespects ⟨f, []⟩ sections ↔
      Runs.Along step (fun s a => ¬ s.Overwrites a) ⟨f, []⟩ sections :=
  Runs.along_congr (fun _ a h => undisturbed_step h a) (fun _ a h => finishRespects_iff h a) nofun

def adaptersOf : WarmthObjectId := Id128.derive (text "owner|ADAPTERS")

def invalidatedWhileWarming : List LockedSection :=
  [.operation (.registerObject .adapters (text "owner") none none none none),
    .warmBegin adaptersOf,
    .operation (.invalidate adaptersOf .integrityFailure)]

/-- The call clears the reason of the invalidation and returns true. -/
theorem invalidatedWhileWarming_lost :
    ¬ ∀ (f : WarmthFabric) sections, Runs.Along step FinishRespects ⟨f, []⟩ sections := by
  intro always
  let s := Runs.run step ⟨.new {}, []⟩ invalidatedWhileWarming
  obtain ⟨call, returned⟩ : s.calls[0]? = some ⟨adaptersOf, ⟨1, 2⟩, true⟩ ∧
      (s.fabric.warmFinish adaptersOf ⟨1, 2⟩ (syntheticWarm ⟨0⟩) fun _ => 5).2 = true := by
    decide +kernel
  have all := always (.new {})
    (invalidatedWhileWarming ++ [.warmFinish 0 (syntheticWarm ⟨0⟩) fun _ => 5])
  have respects := ((Runs.along_append _ _).mp all).2.1 _ call
  exact absurd (returned.symm.trans (respects.disturbed rfl).1) (by decide)

end Interleaving

end Warmth
