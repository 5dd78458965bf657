import Warmth.Recovery
import Warmth.Reservations
import Warmth.Runs

namespace Warmth

open Codec Std TreeMaps

/-- A `warm` call between phase 1 and phase 3; `serial` tells the calls apart. -/
structure HoldingCall where
  id : WarmthObjectId
  held : WarmReservations
  serial : Nat
deriving DecidableEq

/-- A fabric with its `warm` calls in progress. The history keeps how many calls have passed
phase 1 and which of them obtained the reservation last entered under an id. -/
structure Reserving where
  fabric : WarmthFabric
  calls : List HoldingCall := []
  passed : Nat := 0
  obtainedBy : UInt64 → Nat := fun _ => 0

inductive FabricStep
  | operation (op : FabricOp)
  | upsert (o : WarmthObject)
  | recover (file : FileContents)
  | warmBegin (id : WarmthObjectId)
  | warmFinish (k : Nat) (outcome : WarmOutcome) (now : Nat → Timestamp)

def FabricStep.isRecover : FabricStep → Bool
  | .recover _ => true
  | _ => false

namespace Reserving

def start (cfg : FabricConfig) : Reserving := { fabric := .new cfg }

/-- A call passes phase 1 holding `held`; an id that is outstanding already keeps its entry. -/
def pass (s : Reserving) (f : WarmthFabric) (id : WarmthObjectId) (held : WarmReservations) :
    Reserving where
  fabric := f
  calls := s.calls ++ [⟨id, held, s.passed⟩]
  passed := s.passed + 1
  obtainedBy := fun i => if i ∈ held.ids ∧ i ∉ s.fabric.budget.ids then s.passed else s.obtainedBy i

def step (s : Reserving) : FabricStep → Reserving
  | .operation op => { s with fabric := op.apply s.fabric }
  | .upsert o => { s with fabric := s.fabric.upsert o }
  | .recover file => { s with fabric := (s.fabric.recover file).1 }
  | .warmBegin id =>
    match s.fabric.warmBegin id with
    | (f, none) => { s with fabric := f }
    | (f, some held) => s.pass f id held
  | .warmFinish k outcome now =>
    match s.calls[k]? with
    | none => s
    | some c =>
      { s with
        fabric := (s.fabric.warmFinish c.id c.held outcome now).1
        calls := s.calls.eraseIdx k }

def heldIds (s : Reserving) : List UInt64 := s.calls.flatMap fun c => c.held.ids

/-- Phase 1 is handed an id that a call in progress still holds. -/
def HandedHeld (s : Reserving) (id : WarmthObjectId) : Prop :=
  (s.fabric.objects[id]?).isSome = true ∧ s.fabric.budget.fitsDevice = true ∧
    ∃ i ∈ s.fabric.budget.nextPair.ids, i ∈ s.heldIds

def Reuses (s : Reserving) (a : FabricStep) : Prop := ∃ id, a = .warmBegin id ∧ s.HandedHeld id

/-- The outstanding reservations are exactly those the calls in progress hold, each held once. -/
structure Accounted (s : Reserving) : Prop where
  distinct : s.heldIds.Nodup
  outstanding : ∀ i, i ∈ s.fabric.budget.ids ↔ i ∈ s.heldIds

theorem Accounted.balanced {s : Reserving} (inv : s.Accounted) (h : s.calls = []) :
    s.fabric.budget.balanced = true := by
  apply isEmpty_iff_getElem?.mpr
  intro i
  cases hr : s.fabric.budget.reservations[i]? with
  | none => rfl
  | some r =>
    have held := (inv.outstanding i).mp (BudgetTracker.mem_ids.mpr ⟨r, hr⟩)
    rw [heldIds, h] at held
    cases held

theorem onObject_budget (f : WarmthFabric) (id : WarmthObjectId)
    (g : WarmthObject → WarmthObject × Bool) : (f.onObject id g).1.budget = f.budget := by
  unfold WarmthFabric.onObject
  split <;> rfl

theorem apply_budget (f : WarmthFabric) (op : FabricOp) : (op.apply f).budget = f.budget := by
  cases op with
  | registerObject | decay | bumpDependencyGeneration | bumpWarmthGeneration => rfl
  | _ => exact onObject_budget f _ _

theorem warmFinish_budget (f : WarmthFabric) (id : WarmthObjectId) (held : WarmReservations)
    (outcome : WarmOutcome) (now : Nat → Timestamp) :
    (f.warmFinish id held outcome now).1.budget = f.budget.releasePair held :=
  onObject_budget _ _ _

/-- What a step does to the reservations: nothing, or a recovery that loads a file, or one of the
three ways in which phases 1 and 3 come out. -/
inductive Moved (s : Reserving) : FabricStep → Reserving → Prop
  | same {a : FabricStep} {f : WarmthFabric} (budget : f.budget = s.fabric.budget) :
      Moved s a { s with fabric := f }
  | recover {file : FileContents} {snap : Snapshot} (loaded : loadSnapshotFile file = .ok snap) :
      Moved s (.recover file) { s with fabric := s.fabric.restore snap }
  | turnBack {id : WarmthObjectId} {o : WarmthObject} (object : s.fabric.objects[id]? = some o)
      (device : s.fabric.budget.fitsDevice = true)
      (edge : transitionAllowed o.state .preparing = false) :
      Moved s (.warmBegin id)
        { s with fabric :=
          { s.fabric with
            budget := s.fabric.budget.taken.releasePair s.fabric.budget.nextPair } }
  | pass {id : WarmthObjectId} {o : WarmthObject} (object : s.fabric.objects[id]? = some o)
      (device : s.fabric.budget.fitsDevice = true)
      (edge : transitionAllowed o.state .preparing = true) :
      Moved s (.warmBegin id)
        (s.pass
          { s.fabric with
            budget := s.fabric.budget.taken
            objects := s.fabric.objects.insert id (o.moveTo .preparing (text "warming")) }
          id s.fabric.budget.nextPair)
  | finish {k : Nat} {outcome : WarmOutcome} {now : Nat → Timestamp} {c : HoldingCall}
      {f : WarmthFabric} (call : s.calls[k]? = some c)
      (budget : f.budget = s.fabric.budget.releasePair c.held) :
      Moved s (.warmFinish k outcome now) { s with fabric := f, calls := s.calls.eraseIdx k }

/-- Phase 1 once its object is there and the device reservation is granted. -/
theorem step_warmBegin {s : Reserving} {id : WarmthObjectId} {o : WarmthObject}
    (object : s.fabric.objects[id]? = some o) (device : s.fabric.budget.fitsDevice = true) :
    s.step (.warmBegin id) =
      if transitionAllowed o.state .preparing then
        s.pass
          { s.fabric with
            budget := s.fabric.budget.taken
            objects := s.fabric.objects.insert id (o.moveTo .preparing (text "warming")) }
          id s.fabric.budget.nextPair
      else
        { s with fabric :=
          { s.fabric with
            budget := s.fabric.budget.taken.releasePair s.fabric.budget.nextPair } } := by
  simp only [step, WarmthFabric.warmBegin_eq, object, device]
  cases transitionAllowed o.state .preparing <;> rfl

theorem moved_step (s : Reserving) (a : FabricStep) : Moved s a (s.step a) := by
  cases a with
  | operation op => exact .same (apply_budget s.fabric op)
  | upsert o => exact .same rfl
  | recover file =>
    simp only [step, WarmthFabric.recover]
    split
    next => exact .same rfl
    next snap loaded => exact .recover loaded
  | warmBegin id =>
    cases object : s.fabric.objects[id]? with
    | none =>
      simp only [step, WarmthFabric.warmBegin_eq, object]
      exact .same rfl
    | some o =>
      cases device : s.fabric.budget.fitsDevice with
      | false =>
        simp only [step, WarmthFabric.warmBegin_eq, object, device]
        exact .same rfl
      | true =>
        rw [step_warmBegin object device]
        split
        next edge => exact .pass object device edge
        next edge => exact .turnBack object device (Bool.eq_false_of_not_eq_true edge)
  | warmFinish k outcome now =>
    simp only [step]
    split
    next => exact .same rfl
    next c call => exact .finish call (warmFinish_budget _ _ _ _ _)

theorem heldIds_pass (s : Reserving) (f : WarmthFabric) (id : WarmthObjectId)
    (held : WarmReservations) : (s.pass f id held).heldIds = s.heldIds ++ held.ids := by
  simp [heldIds, pass]

theorem heldIds_finish {s : Reserving} {k : Nat} {c : HoldingCall} (call : s.calls[k]? = some c)
    (f : WarmthFabric) :
    s.heldIds.Perm
      (c.held.ids ++ heldIds { s with fabric := f, calls := s.calls.eraseIdx k }) := by
  obtain ⟨hk, rfl⟩ := List.getElem?_eq_some_iff.mp call
  exact ((List.getElem_cons_eraseIdx_perm hk).flatMap_right _).symm

theorem nodup_nextPair (t : BudgetTracker) : t.nextPair.ids.Nodup := by
  apply List.Nodup.filter
  unfold BudgetTracker.nextPair
  split
  · simpa using t.takeId_takeId_ne.symm
  · simpa using t.takeId_ne_zero

theorem accounted_start (cfg : FabricConfig) : (start cfg).Accounted := by
  refine ⟨List.nodup_nil, fun i => ⟨fun hi => ?_, nofun⟩⟩
  obtain ⟨r, hr⟩ := BudgetTracker.mem_ids.mp hi
  cases hr

theorem Accounted.step {s : Reserving} {a : FabricStep} (inv : s.Accounted)
    (noRecover : a.isRecover = false) (h : ¬ s.Reuses a) : (s.step a).Accounted := by
  have moved := moved_step s a
  generalize s.step a = t at moved
  cases moved with
  | same budget => exact ⟨inv.distinct, fun i => by rw [budget]; exact inv.outstanding i⟩
  | recover => cases noRecover
  | @turnBack id o object device edge =>
    have fresh : ∀ i ∈ s.fabric.budget.nextPair.ids, i ∉ s.heldIds := fun i hi held =>
      h ⟨id, rfl, by simp [object], device, i, hi, held⟩
    refine ⟨inv.distinct, fun i => ?_⟩
    rw [BudgetTracker.mem_ids_releasePair, BudgetTracker.mem_ids_taken, inv.outstanding]
    constructor
    · rintro ⟨handed | held, spared⟩
      · exact absurd handed spared
      · exact held
    · intro held
      exact ⟨Or.inr held, fun handed => fresh i handed held⟩
  | @pass id o object device edge =>
    have fresh : ∀ i ∈ s.fabric.budget.nextPair.ids, i ∉ s.heldIds := fun i hi held =>
      h ⟨id, rfl, by simp [object], device, i, hi, held⟩
    constructor
    · rw [heldIds_pass]
      exact List.nodup_append.mpr ⟨inv.distinct, nodup_nextPair _,
        fun i held j handed he => fresh j handed (he ▸ held)⟩
    · intro i
      rw [heldIds_pass, List.mem_append, ← inv.outstanding, Or.comm]
      exact BudgetTracker.mem_ids_taken
  | @finish k outcome now c f call budget =>
    have perm := heldIds_finish call f
    have distinct := perm.nodup_iff.mp inv.distinct
    refine ⟨(List.nodup_append.mp distinct).2.1, fun i => ?_⟩
    rw [budget, BudgetTracker.mem_ids_releasePair, inv.outstanding, perm.mem_iff, List.mem_append]
    constructor
    · rintro ⟨own | other, spared⟩
      · exact absurd own spared
      · exact other
    · intro other
      exact ⟨Or.inr other, fun own => (List.nodup_append.mp distinct).2.2 i own i other rfl⟩

/-- A reused id is held twice, or is freed under the call that still holds it. -/
theorem Reuses.not_accounted {s : Reserving} {a : FabricStep} (h : s.Reuses a) :
    ¬ (s.step a).Accounted := by
  obtain ⟨id, rfl, present, device, i, handed, held⟩ := h
  obtain ⟨o, object⟩ := Option.isSome_iff_exists.mp present
  rw [step_warmBegin object device]
  intro inv
  split at inv
  next =>
    have distinct := inv.distinct
    rw [heldIds_pass] at distinct
    exact (List.nodup_append.mp distinct).2.2 i held i handed rfl
  next =>
    have freed := (inv.outstanding i).mpr held
    exact (BudgetTracker.mem_ids_releasePair.mp freed).2 handed

/-- Fabric accounting, without recoveries: the books are exact in exactly the interleavings in
which no phase 1 is handed an id that a call in progress still holds. -/
theorem reservations_accounted (cfg : FabricConfig) {steps : List FabricStep}
    (noRecover : ∀ a ∈ steps, a.isRecover = false) :
    Runs.Along step (fun s a => (s.step a).Accounted ∧
      ((s.step a).calls = [] → (s.step a).fabric.budget.balanced = true)) (start cfg) steps ↔
      Runs.Along step (fun s a => ¬ s.Reuses a) (start cfg) steps := by
  constructor
  · intro h
    exact h.imp fun s a accounted reuses => reuses.not_accounted accounted.1
  · intro h
    exact Runs.along_of_invariant (I := Accounted) (fun _ _ inv h => inv.step h.1 h.2)
      (fun _ _ inv h => ⟨inv.step h.1 h.2, (inv.step h.1 h.2).balanced⟩) (accounted_start cfg)
      ((Runs.along_of_forall noRecover).and h)

def registeredWarm : List FabricStep :=
  [.upsert { id := ⟨0, 1⟩ }, .warmBegin ⟨0, 1⟩, .warmFinish 0 (syntheticWarm ⟨0⟩) fun _ => 5]

theorem reservations_accounted_registeredWarm :
    Runs.Along step (fun s a => (s.step a).Accounted ∧
      ((s.step a).calls = [] → (s.step a).fabric.budget.balanced = true)) (start {})
      registeredWarm := by
  refine (reservations_accounted {} (by simp [registeredWarm, FabricStep.isRecover])).mpr
    ⟨nofun, ?_, nofun, trivial⟩
  rintro ⟨_, _, _, _, _, _, held⟩
  cases held

/-- With no limits a phase 1 that is turned back uses up two ids and leaves the rest alone. -/
theorem step_turnBack {s : Reserving} {id : WarmthObjectId} {o : WarmthObject}
    (object : s.fabric.objects[id]? = some o) (edge : transitionAllowed o.state .preparing = false)
    (unlimited : s.fabric.budget.limits = {}) {n : Nat} (next : s.fabric.budget.nextId.toNat = n)
    (pos : 0 < n) (room : n + 2 < 2 ^ 64) :
    (s.step (.warmBegin id)).calls = s.calls ∧
      (s.step (.warmBegin id)).fabric.objects = s.fabric.objects ∧
      (s.step (.warmBegin id)).fabric.budget.limits = {} ∧
      (s.step (.warmBegin id)).fabric.budget.nextId.toNat = n + 2 := by
  have device : s.fabric.budget.fitsDevice = true :=
    BudgetTracker.fits_unlimited (by rw [unlimited]; rfl) _
  have op : s.fabric.budget.fitsOp = true :=
    BudgetTracker.fits_unlimited (by rw [unlimited]; rfl) _
  rw [step_warmBegin object device, edge]
  refine ⟨rfl, rfl, ?_, ?_⟩
  · simp only [Bool.false_eq_true, if_false]
    rw [BudgetTracker.releasePair_frame]
    exact s.fabric.budget.taken_limits.trans unlimited
  · simp only [Bool.false_eq_true, if_false]
    rw [BudgetTracker.releasePair_frame]
    exact BudgetTracker.taken_nextId op next pos room

theorem run_turnBack {s : Reserving} {id : WarmthObjectId} {o : WarmthObject}
    (object : s.fabric.objects[id]? = some o) (edge : transitionAllowed o.state .preparing = false)
    (unlimited : s.fabric.budget.limits = {}) {n : Nat} (next : s.fabric.budget.nextId.toNat = n)
    (pos : 0 < n) {k : Nat} (room : n + 2 * k < 2 ^ 64) :
    let t := Runs.run step s (List.replicate k (.warmBegin id))
    t.calls = s.calls ∧ t.fabric.objects = s.fabric.objects ∧ t.fabric.budget.limits = {} ∧
      t.fabric.budget.nextId.toNat = n + 2 * k := by
  induction k with
  | zero => exact ⟨rfl, rfl, unlimited, next⟩
  | succ k ih =>
    obtain ⟨calls, objects, limits, counter⟩ := ih (by omega)
    rw [List.replicate_succ', Runs.run_concat]
    obtain ⟨calls', objects', limits', counter'⟩ :=
      step_turnBack (objects ▸ object) edge limits counter (by omega) (by omega)
    exact ⟨calls'.trans calls, objects'.trans objects, limits', by omega⟩

def beforeWrap : List FabricStep :=
  [.upsert { id := ⟨0, 1⟩ }, .upsert { id := ⟨0, 2⟩ }, .upsert { id := ⟨0, 3⟩, state := .failed },
    .warmBegin ⟨0, 1⟩]

/-- While one call holds the ids 1 and 2, `k` calls on a FAILED object use up two ids each. -/
def wrapping (k : Nat) : List FabricStep := beforeWrap ++ List.replicate k (.warmBegin ⟨0, 3⟩)

theorem wrapping_noRecover (k : Nat) : ∀ a ∈ wrapping k, a.isRecover = false := by
  intro a ha
  rcases List.mem_append.mp ha with ha | ha
  · simp only [beforeWrap, List.mem_cons, List.not_mem_nil, or_false] at ha
    rcases ha with rfl | rfl | rfl | rfl <;> rfl
  · rw [List.eq_of_mem_replicate ha]
    rfl

/-- With the counter at the last id, the next call gets that one and, after the wrap, the id 1. -/
theorem wrapping_reuses {k : Nat} (last : 2 * k + 4 = 2 ^ 64) :
    (Runs.run step (start {}) (wrapping k)).Reuses (.warmBegin ⟨0, 2⟩) := by
  have failed : (Runs.run step (start {}) beforeWrap).fabric.objects[(⟨0, 3⟩ : WarmthObjectId)]?.map
      WarmthObject.state = some .failed := by decide +kernel
  obtain ⟨o, object, state⟩ := Option.map_eq_some_iff.mp failed
  obtain ⟨calls, objects, limits, counter⟩ := run_turnBack object (by rw [state]; rfl)
    (by decide +kernel) (n := 3) (by decide +kernel) (by decide) (k := k) (by omega)
  rw [← Runs.run_append] at calls objects limits counter
  have counter : (Runs.run step (start {}) (wrapping k)).fabric.budget.nextId =
      18446744073709551615 := by
    apply UInt64.toNat_inj.mp
    have value : (18446744073709551615 : UInt64).toNat = 2 ^ 64 - 1 := rfl
    rw [wrapping, counter, value]
    omega
  have op : (Runs.run step (start {}) (wrapping k)).fabric.budget.fitsOp = true :=
    BudgetTracker.fits_unlimited (by rw [wrapping, limits]; rfl) _
  refine ⟨⟨0, 2⟩, rfl, ?_, ?_, 1, ?_, ?_⟩
  · rw [wrapping, objects]
    decide +kernel
  · exact BudgetTracker.fits_unlimited (by rw [wrapping, limits]; rfl) _
  · simp [BudgetTracker.nextPair, op, BudgetTracker.takeId, counter, WarmReservations.ids]
  · rw [heldIds, wrapping, calls]
    decide +kernel

/-- After 2 ^ 63 - 2 of those calls the id 1 is held twice. -/
theorem wrapping_holds_twice :
    ¬ ∀ (cfg : FabricConfig) (steps : List FabricStep), (∀ a ∈ steps, a.isRecover = false) →
      (Runs.run step (start cfg) steps).Accounted := by
  intro always
  have accounted := always {} (wrapping (2 ^ 63 - 2) ++ [.warmBegin ⟨0, 2⟩]) fun a ha => by
    rcases List.mem_append.mp ha with ha | ha
    · exact wrapping_noRecover _ a ha
    · cases List.mem_singleton.mp ha
      rfl
  rw [Runs.run_concat] at accounted
  exact (wrapping_reuses (by decide)).not_accounted accounted

end Reserving

end Warmth
