import Warmth.Recovery

namespace Warmth

open Codec Std TreeMaps

/-- The object keeps its id, its warmth generation and numbers that a snapshot can hold. -/
structure Keeps (o o' : WarmthObject) : Prop where
  id : o'.id = o.id
  warmthGen : o'.warmthGen = o.warmthGen
  numeric : o.Numeric → o'.Numeric

theorem Keeps.refl (o : WarmthObject) : Keeps o o := ⟨rfl, rfl, fun h => h⟩

theorem Keeps.trans {a b c : WarmthObject} (h : Keeps a b) (k : Keeps b c) : Keeps a c :=
  ⟨k.id.trans h.id, k.warmthGen.trans h.warmthGen, fun hn => k.numeric (h.numeric hn)⟩

theorem keeps_moveTo (o : WarmthObject) (target : WarmthState) (reason : CString) :
    Keeps o (o.moveTo target reason) := by
  rw [WarmthObject.moveTo_frame]
  exact ⟨rfl, rfl, fun h => ⟨h.1, h.2, h.3, h.4⟩⟩

theorem keeps_setAll (o : WarmthObject) (is : List DimensionIndex) (status : DimensionStatus) :
    Keeps o (o.setAll is status) := by
  rw [WarmthObject.setAll_frame]
  exact ⟨rfl, rfl, fun h => ⟨h.1, h.2, h.3, h.4⟩⟩

theorem keeps_setReason (o : WarmthObject) (r : Option CString) :
    Keeps o { o with invalidationReason := r } :=
  ⟨rfl, rfl, fun h => ⟨h.1, h.2, h.3, h.4⟩⟩

theorem keeps_setResidency (o : WarmthObject) (r : ResidencyState) (p : Provenance) :
    Keeps o { o with residency := r, provenance := p } :=
  ⟨rfl, rfl, fun h => ⟨h.1, h.2, h.3, h.4⟩⟩

theorem keeps_setDims (o : WarmthObject) (dims : WarmthDimensions) : Keeps o { o with dims } :=
  ⟨rfl, rfl, fun h => ⟨h.1, h.2, h.3, h.4⟩⟩

theorem keeps_makeWarm (o : WarmthObject) (why : CString) : Keeps o (makeWarm o why) := by
  have prepared : (o.transition .preparing why).1 = o.moveTo .preparing why := rfl
  unfold makeWarm
  split
  next => exact Keeps.refl o
  next =>
    split
    next p ht =>
      have hp : p = o.moveTo .preparing why := by rw [← prepared, ht]
      rw [hp]
      exact (keeps_moveTo _ _ _).trans ((keeps_moveTo _ _ _).trans (keeps_setReason _ _))
    next =>
      exact (keeps_moveTo _ _ _).trans ((keeps_moveTo _ _ _).trans ((keeps_moveTo _ _ _).trans
        (keeps_setReason _ _)))

theorem keeps_decayed (policy : DecayPolicy) (now : Timestamp)
    (memoryPressure dependencyChanged deviceReset processRestart : Bool) (o : WarmthObject) :
    Keeps o (WarmthFabric.decayed policy now memoryPressure dependencyChanged deviceReset
      processRestart o) := by
  unfold WarmthFabric.decayed
  simp only
  split
  · exact keeps_moveTo _ _ _
  · exact Keeps.refl o

theorem syntheticWarm_finite (action : WarmthAction) :
    (syntheticWarm action).durationMs.isFinite = true := by
  have all : ∀ n < 256, (Double.ofNatDiv (n + 2) 4).isFinite = true := by decide +kernel
  exact all action.value.toNat action.value.toNat_lt

theorem BasicGeneration.le_next {Tag : Type} (g : BasicGeneration Tag) : g.value ≤ g.next.value := by
  have := g.value.toNat_lt
  rw [UInt64.le_iff_toNat_le, BasicGeneration.next_value_toNat]
  omega

namespace WarmthFabric

/-- Every stored object stands in the relation to one stored under its id before. -/
def Kept (R : WarmthObject → WarmthObject → Prop) (f f' : WarmthFabric) : Prop :=
  ∀ (id : WarmthObjectId) o', f'.objects[id]? = some o' → ∃ o, f.objects[id]? = some o ∧ R o o'

section
variable {f : WarmthFabric} {R : WarmthObject → WarmthObject → Prop}

theorem Kept.of_same (refl : ∀ o, R o o) {f' : WarmthFabric} (same : f'.objects = f.objects) :
    Kept R f f' :=
  fun _ o' ho => ⟨o', same ▸ ho, refl o'⟩

theorem kept_insert (refl : ∀ o, R o o) {id : WarmthObjectId} {o o' : WarmthObject}
    (object : f.objects[id]? = some o) (related : R o o') {f' : WarmthFabric}
    (objects : f'.objects = f.objects.insert id o') : Kept R f f' := by
  intro i p hp
  rw [objects] at hp
  rcases getElem?_insert_some hp with ⟨rfl, rfl⟩ | ⟨_, hp⟩
  · exact ⟨o, object, related⟩
  · exact ⟨p, hp, refl p⟩

theorem kept_onObject (refl : ∀ o, R o o) (id : WarmthObjectId)
    {g : WarmthObject → WarmthObject × Bool} (keeps : ∀ o, R o (g o).1) :
    Kept R f (f.onObject id g).1 := by
  unfold WarmthFabric.onObject
  split
  next => exact Kept.of_same refl rfl
  next o ho => exact kept_insert refl ho (keeps o) rfl

theorem kept_map {g : WarmthObject → WarmthObject} (keeps : ∀ o, R o (g o)) :
    Kept R f { f with objects := f.objects.map fun _ o => g o } := by
  intro id o' ho
  obtain ⟨o, before, rfl⟩ := Option.map_eq_some_iff.mp (ExtTreeMap.getElem?_map.symm.trans ho)
  exact ⟨o, before, keeps o⟩

end

/-- An operation enters a new object under the object's own id, or keeps what it finds. -/
theorem apply_kept (f : WarmthFabric) (op : FabricOp) :
    Kept Keeps f (op.apply f) ∨
      ∃ o : WarmthObject, o.warmthGen = f.gen.warmth ∧ o.Numeric ∧
        op.apply f = { f with objects := f.objects.insert o.id o } := by
  cases op with
  | registerObject category owner model artifact replica engine =>
    let o : WarmthObject :=
      { id := Id128.derive (owner ++ text "|" ++ categoryName category), category
        workload := f.cfg.workload, node := f.cfg.node, device := f.cfg.device
        backend := f.cfg.backend, logicalOwner := owner, model, artifact, replica, engine
        warmthGen := f.gen.warmth }
    exact Or.inr ⟨o, rfl, WarmthObject.numeric_of_zero rfl rfl rfl rfl, rfl⟩
  | transition id target reason =>
    exact Or.inl (kept_onObject Keeps.refl id fun o => keeps_moveTo o target reason)
  | setDimension id idx status =>
    refine Or.inl (kept_onObject Keeps.refl id fun o => ?_)
    exact keeps_setAll o [idx] status
  | setDimensions id dims =>
    exact Or.inl (kept_onObject Keeps.refl id fun o => keeps_setDims o dims)
  | markUsed id now =>
    refine Or.inl (kept_onObject Keeps.refl id fun o => ?_)
    exact ⟨rfl, rfl, fun hn => ⟨hn.1, hn.2, hn.3, hn.4⟩⟩
  | invalidate id reason =>
    refine Or.inl (kept_onObject Keeps.refl id fun o => ?_)
    split
    · exact Keeps.refl o
    · exact (keeps_setReason o _).trans ((keeps_moveTo _ _ _).trans (keeps_setAll _ _ _))
  | demote id =>
    refine Or.inl (kept_onObject Keeps.refl id fun o => ?_)
    split
    · exact keeps_moveTo _ _ _
    · exact keeps_moveTo _ _ _
    · exact keeps_moveTo _ _ _
    · exact Keeps.refl o
  | evict id =>
    refine Or.inl (kept_onObject Keeps.refl id fun o => ?_)
    have moved : (o.transition .evicted (text "evict")).1 = o.moveTo .evicted (text "evict") := rfl
    have keeps := keeps_moveTo o .evicted (text "evict")
    rw [← moved] at keeps
    split
    next o' ht =>
      rw [ht] at keeps
      exact keeps
    next o' ht =>
      rw [ht] at keeps
      refine keeps.trans (Keeps.trans ?_ (keeps_setAll _ _ _))
      split
      · exact keeps_setResidency o' _ _
      · exact Keeps.refl o'
  | warmToReady id =>
    refine Or.inl (kept_onObject Keeps.refl id fun o => ?_)
    exact (keeps_setDims o allValid).trans ((keeps_makeWarm _ _).trans (keeps_setResidency _ _ _))
  | decay now memoryPressure dependencyChanged deviceReset processRestart =>
    exact Or.inl (kept_map fun o => keeps_decayed _ _ _ _ _ _ o)
  | bumpDependencyGeneration => exact Or.inl (Kept.of_same Keeps.refl rfl)
  | bumpWarmthGeneration => exact Or.inl (Kept.of_same Keeps.refl rfl)

theorem warmBegin_kept (f : WarmthFabric) (id : WarmthObjectId) :
    Kept Keeps f (f.warmBegin id).1 := by
  rcases f.warmBegin_cases id with ⟨budget, he⟩ | ⟨o, budget, held, ho, _, he⟩
  · rw [he]
    exact Kept.of_same Keeps.refl rfl
  · rw [he]
    exact kept_insert Keeps.refl ho (keeps_moveTo o _ _) rfl

/-- What a fabric has to keep so that its snapshots keep the decoder's relations. -/
structure Storable (f : WarmthFabric) : Prop where
  keyed : ∀ (id : WarmthObjectId) o, f.objects[id]? = some o → o.id = id
  generations : ∀ (id : WarmthObjectId) o, f.objects[id]? = some o →
    o.warmthGen.value ≤ f.gen.warmth.value
  numeric : ∀ (id : WarmthObjectId) o, f.objects[id]? = some o → o.Numeric
  finite : f.cfg.policy.Finite
  synthetic : f.op = none

theorem storable_new {cfg : FabricConfig} (h : cfg.policy.Finite) : (new cfg).Storable := by
  refine ⟨?_, ?_, ?_, h, rfl⟩ <;>
  · intro id o ho
    cases ho

theorem Storable.of_kept {f f' : WarmthFabric} (h : f.Storable) (kept : Kept Keeps f f')
    (gen : f.gen.warmth.value ≤ f'.gen.warmth.value) (cfg : f'.cfg = f.cfg) (op : f'.op = f.op) :
    f'.Storable := by
  refine ⟨?_, ?_, ?_, cfg ▸ h.finite, op.trans h.synthetic⟩
  · intro id o' ho'
    obtain ⟨o, ho, keeps⟩ := kept id o' ho'
    exact keeps.id.trans (h.keyed id o ho)
  · intro id o' ho'
    obtain ⟨o, ho, keeps⟩ := kept id o' ho'
    rw [keeps.warmthGen]
    exact UInt64.le_trans (h.generations id o ho) gen
  · intro id o' ho'
    obtain ⟨o, ho, keeps⟩ := kept id o' ho'
    exact keeps.numeric (h.numeric id o ho)

theorem Storable.insert {f : WarmthFabric} (h : f.Storable) {o : WarmthObject}
    (gen : o.warmthGen.value ≤ f.gen.warmth.value) (numeric : o.Numeric) :
    { f with objects := f.objects.insert o.id o }.Storable := by
  refine ⟨?_, ?_, ?_, h.finite, h.synthetic⟩
  · intro id o' ho
    rcases getElem?_insert_some ho with ⟨rfl, rfl⟩ | ⟨_, ho⟩
    · rfl
    · exact h.keyed id o' ho
  · intro id o' ho
    rcases getElem?_insert_some ho with ⟨rfl, rfl⟩ | ⟨_, ho⟩
    · exact gen
    · exact h.generations id o' ho
  · intro id o' ho
    rcases getElem?_insert_some ho with ⟨rfl, rfl⟩ | ⟨_, ho⟩
    · exact numeric
    · exact h.numeric id o' ho

theorem onObject_frame (f : WarmthFabric) (id : WarmthObjectId)
    (g : WarmthObject → WarmthObject × Bool) :
    ∃ objects, (f.onObject id g).1 = { f with objects } := by
  unfold onObject
  split
  · exact ⟨f.objects, rfl⟩
  · exact ⟨_, rfl⟩

theorem onObject_given (f : WarmthFabric) (id : WarmthObjectId)
    (g : WarmthObject → WarmthObject × Bool) :
    f.gen.warmth.value ≤ (f.onObject id g).1.gen.warmth.value ∧ (f.onObject id g).1.cfg = f.cfg ∧
      (f.onObject id g).1.op = f.op := by
  obtain ⟨objects, he⟩ := f.onObject_frame id g
  rw [he]
  exact ⟨UInt64.le_refl _, rfl, rfl⟩

/-- Only a bump of the warmth generation moves it, and no operation moves the configuration. -/
theorem apply_frame (f : WarmthFabric) (op : FabricOp) :
    f.gen.warmth.value ≤ (op.apply f).gen.warmth.value ∧ (op.apply f).cfg = f.cfg ∧
      (op.apply f).op = f.op := by
  cases op with
  | registerObject | decay | bumpDependencyGeneration => exact ⟨UInt64.le_refl _, rfl, rfl⟩
  | bumpWarmthGeneration => exact ⟨BasicGeneration.le_next f.gen.warmth, rfl, rfl⟩
  | _ => exact f.onObject_given _ _

theorem Storable.apply {f : WarmthFabric} (h : f.Storable) (op : FabricOp) :
    (op.apply f).Storable := by
  rcases f.apply_kept op with kept | ⟨o, gen, numeric, he⟩
  · obtain ⟨gen, cfg, sameOp⟩ := f.apply_frame op
    exact h.of_kept kept gen cfg sameOp
  · rw [he]
    exact h.insert (UInt64.le_of_eq (congrArg BasicGeneration.value gen)) numeric

theorem Storable.warmBegin {f : WarmthFabric} (h : f.Storable) (id : WarmthObjectId) :
    (f.warmBegin id).1.Storable := by
  have kept := f.warmBegin_kept id
  rcases f.warmBegin_cases id with ⟨budget, he⟩ | ⟨o, budget, held, ho, _, he⟩
  · rw [he] at kept ⊢
    exact h.of_kept kept (UInt64.le_refl _) rfl rfl
  · rw [he] at kept ⊢
    exact h.of_kept kept (UInt64.le_refl _) rfl rfl

theorem Storable.warmFinish {f : WarmthFabric} (h : f.Storable) (id : WarmthObjectId)
    (held : WarmReservations) {outcome : WarmOutcome} (now : Nat → Timestamp)
    (finite : outcome.durationMs.isFinite = true) :
    (f.warmFinish id held outcome now).1.Storable := by
  let released := { f with budget := f.budget.releasePair held }
  have kept : Kept Keeps f (f.warmFinish id held outcome now).1 := by
    refine kept_onObject (f := released) Keeps.refl id fun o => ?_
    split
    · have measured : Keeps (o.moveTo .warm (text "warm_completed")) (warmed o outcome now) :=
        ⟨rfl, rfl, fun hn => ⟨hn.1, finite, hn.3, hn.4⟩⟩
      exact (keeps_moveTo _ _ _).trans measured
    · exact keeps_moveTo _ _ _
  obtain ⟨objects, he⟩ := released.onObject_frame id _
  rw [WarmthFabric.warmFinish, he] at kept ⊢
  exact h.of_kept kept (UInt64.le_refl _) rfl rfl

theorem Storable.warm {f : WarmthFabric} (h : f.Storable) (id : WarmthObjectId)
    (action : WarmthAction) (now : Nat → Timestamp) : (f.warm id action now).1.Storable := by
  have begun := h.warmBegin id
  unfold WarmthFabric.warm
  split
  next f' he =>
    rw [he] at begun
    exact begun
  next f' held he =>
    rw [he] at begun
    refine begun.warmFinish id held now ?_
    rw [warmOperation, begun.synthetic]
    exact syntheticWarm_finite action

theorem Storable.restore {f : WarmthFabric} (h : f.Storable) {s : Snapshot} (wf : s.WellFormed) :
    (f.restore s).Storable := by
  refine ⟨?_, ?_, ?_, wf.policyFinite, h.synthetic⟩
  · intro id o' ho'
    obtain ⟨o, _, rfl, rfl⟩ := restore_getElem? wf.distinct ho'
    exact recovered_id o
  · intro id o' ho'
    obtain ⟨o, ho, _, rfl⟩ := restore_getElem? wf.distinct ho'
    rw [recovered_durable o]
    exact UInt64.le_trans (wf.generations o ho) (BasicGeneration.le_next s.warmthGeneration)
  · intro id o' ho'
    obtain ⟨o, ho, _, rfl⟩ := restore_getElem? wf.distinct ho'
    have hn := wf.numeric o ho
    rw [recovered_durable o]
    exact ⟨hn.1, hn.2, hn.3, hn.4⟩

theorem Storable.recover {f : WarmthFabric} (h : f.Storable) (file : FileContents) :
    (f.recover file).1.Storable := by
  unfold WarmthFabric.recover
  cases file with
  | error e => exact h
  | ok bytes =>
    cases hd : decodeSnapshot bytes with
    | error e =>
      rw [show loadSnapshotFile (.ok bytes) = .error e from hd]
      exact h
    | ok s =>
      rw [show loadSnapshotFile (.ok bytes) = .ok s from hd]
      exact h.restore (decodeSnapshot_wellFormed hd).1

theorem mem_snapshot {f : WarmthFabric} {o : WarmthObject} (h : o ∈ f.snapshot.objects) :
    ∃ id : WarmthObjectId, f.objects[id]? = some o := by
  obtain ⟨⟨id, _⟩, he, rfl⟩ := List.mem_map.mp h
  exact ⟨id, ExtTreeMap.mem_toList_iff_getElem?_eq_some.mp he⟩

theorem Storable.snapshot_numeric {f : WarmthFabric} (h : f.Storable) :
    ∀ o ∈ f.snapshot.objects, o.Numeric := by
  intro o ho
  obtain ⟨id, ho⟩ := mem_snapshot ho
  exact h.numeric id o ho

/-- Apart from the policy's generation the snapshot of a storable fabric keeps every relation
that the decoder checks. -/
theorem Storable.snapshot {f : WarmthFabric} (h : f.Storable) (count : f.objects.size ≤ 1000000)
    (policy : f.cfg.policy.generation = f.gen.policy) : f.snapshot.WellFormed := by
  have ids : f.snapshot.objects.map WarmthObject.id = f.objects.toList.map Prod.fst := by
    rw [WarmthFabric.snapshot, List.map_map]
    refine List.map_congr_left fun e he => ?_
    exact h.keyed e.1 e.2 (ExtTreeMap.mem_toList_iff_getElem?_eq_some.mp he)
  constructor
  · rw [ids]
    exact keys_nodup_toList f.objects
  · intro o ho
    obtain ⟨id, ho⟩ := mem_snapshot ho
    exact h.generations id o ho
  · exact policy
  · rw [WarmthFabric.snapshot, List.length_map, ExtTreeMap.length_toList]
    exact count
  · exact h.finite
  · exact h.snapshot_numeric

end WarmthFabric

end Warmth
