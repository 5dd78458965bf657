import Warmth.FabricReservations

namespace Warmth

open Codec Std TreeMaps

/-- `make_warm` clears the reason of every object that it does not find ready. -/
theorem WarmthObject.ReadyValid.makeWarm {o : WarmthObject} (h : o.ReadyValid) (why : CString) :
    (makeWarm o why).ReadyValid := by
  unfold Warmth.makeWarm
  split
  next => exact h
  next => exact readyValid_of_valid rfl

theorem WarmthObject.ReadyValid.decayed {o : WarmthObject} (h : o.ReadyValid) (policy : DecayPolicy)
    (now : Timestamp) (memoryPressure dependencyChanged deviceReset processRestart : Bool) :
    (WarmthFabric.decayed policy now memoryPressure dependencyChanged deviceReset processRestart
      o).ReadyValid := by
  unfold WarmthFabric.decayed
  simp only
  split
  next => exact h.moveTo decayObject_ready _
  next => exact h

namespace WarmthFabric

/-- No execution-ready object carries an invalidation reason. -/
def ReadyValid (f : WarmthFabric) : Prop :=
  ∀ (id : WarmthObjectId) (o : WarmthObject), f.objects[id]? = some o → o.ReadyValid

variable {f : WarmthFabric}

theorem ReadyValid.insert (inv : f.ReadyValid) {o : WarmthObject} (h : o.ReadyValid)
    (id : WarmthObjectId) : { f with objects := f.objects.insert id o }.ReadyValid := by
  intro j o' ho
  rcases getElem?_insert_some ho with ⟨_, rfl⟩ | ⟨_, ho⟩
  · exact h
  · exact inv j o' ho

theorem ReadyValid.onObject (inv : f.ReadyValid) (id : WarmthObjectId)
    {g : WarmthObject → WarmthObject × Bool} (keeps : ∀ o, o.ReadyValid → (g o).1.ReadyValid) :
    (f.onObject id g).1.ReadyValid := by
  unfold WarmthFabric.onObject
  split
  next => exact inv
  next o ho => exact inv.insert (keeps o (inv id o ho)) id

theorem ReadyValid.demote (inv : f.ReadyValid) (id : WarmthObjectId) :
    (f.demote id).1.ReadyValid := by
  refine inv.onObject id fun o h => ?_
  split
  next hot => exact h.moveTo (fun _ => by rw [hot]; rfl) _
  next => exact h.moveTo_unready rfl _
  next => exact h.moveTo_unready rfl _
  next => exact h

theorem ReadyValid.invalidate (inv : f.ReadyValid) (id : WarmthObjectId)
    (reason : InvalidationReason) : (f.invalidate id reason).1.ReadyValid := by
  refine inv.onObject id fun o h => ?_
  split
  next => exact h
  next edge =>
    have allowed : transitionAllowed o.state .invalidated = true := by simpa using edge
    apply WarmthObject.readyValid_of_unready
    simp [WarmthObject.moveTo_state, allowed, isExecutionReady]

theorem ReadyValid.evict (inv : f.ReadyValid) (id : WarmthObjectId) :
    (f.evict id).1.ReadyValid := by
  refine inv.onObject id fun o h => ?_
  have moved : (o.moveTo .evicted (text "evict")).ReadyValid := h.moveTo_unready rfl _
  rw [WarmthObject.moveTo] at moved
  split
  next o' ht =>
    rw [ht] at moved
    exact moved
  next o' ht =>
    rw [ht] at moved
    split
    · exact moved.of_down (by simp) (by simp)
    · exact moved.of_down (by simp) (by simp)

theorem ReadyValid.warmBegin (inv : f.ReadyValid) (id : WarmthObjectId) :
    (f.warmBegin id).1.ReadyValid := by
  rcases warmBegin_cases f id with ⟨budget, he⟩ | ⟨o, budget, held, ho, _, he⟩
  · rw [he]
    exact inv
  · rw [he]
    have moved : (o.moveTo .preparing (text "warming")).ReadyValid :=
      (inv id o ho).moveTo_unready rfl _
    exact inv.insert moved id

theorem ReadyValid.warmFinish (inv : f.ReadyValid) (id : WarmthObjectId) (held : WarmReservations)
    (outcome : WarmOutcome) (now : Nat → Timestamp) :
    (f.warmFinish id held outcome now).1.ReadyValid := by
  have released : { f with budget := f.budget.releasePair held }.ReadyValid := inv
  refine released.onObject id fun o h => ?_
  split
  next => exact WarmthObject.readyValid_of_valid rfl
  next => exact h.moveTo_unready rfl _

end WarmthFabric

/-- Everything but `upsert`, `recover` and the bare `transition`, which take an object's state from
the caller. -/
def FabricStep.governed : FabricStep → Bool
  | .operation (.transition ..) | .upsert _ | .recover _ => false
  | _ => true

namespace Reserving

theorem readyValid_operation {f : WarmthFabric} (inv : f.ReadyValid) {op : FabricOp}
    (governed : (FabricStep.operation op).governed = true) : (op.apply f).ReadyValid := by
  cases op with
  | registerObject category owner model artifact replica engine =>
    exact inv.insert (WarmthObject.readyValid_of_valid rfl) _
  | transition => cases governed
  | setDimension id idx status =>
    exact inv.onObject id fun o h => h.of_down (by simp) (by simp)
  | setDimensions id dims => exact inv.onObject id fun o h => h
  | markUsed id now => exact inv.onObject id fun o h => h
  | invalidate id reason => exact inv.invalidate id reason
  | demote id => exact inv.demote id
  | evict id => exact inv.evict id
  | warmToReady id =>
    refine inv.onObject id fun o h => ?_
    have stillValid : { o with dims := allValid }.ReadyValid := h
    exact stillValid.makeWarm _
  | decay now memoryPressure dependencyChanged deviceReset processRestart =>
    intro id o ho
    obtain ⟨before, hb, rfl⟩ := Option.map_eq_some_iff.mp (ExtTreeMap.getElem?_map.symm.trans ho)
    exact (inv id before hb).decayed _ _ _ _ _ _
  | bumpDependencyGeneration | bumpWarmthGeneration => exact inv

theorem readyValid_step {s : Reserving} {a : FabricStep} (inv : s.fabric.ReadyValid)
    (governed : a.governed = true) : (s.step a).fabric.ReadyValid := by
  cases a with
  | operation op => exact readyValid_operation inv governed
  | upsert | recover => cases governed
  | warmBegin id =>
    have begun := inv.warmBegin id
    simp only [step]
    split
    next he =>
      rw [he] at begun
      exact begun
    next he =>
      rw [he] at begun
      exact begun
  | warmFinish k outcome now =>
    simp only [step]
    split
    next => exact inv
    next => exact inv.warmFinish _ _ _ _

/-- However the governed operations and the two phases of any number of `warm` calls interleave,
the ready objects of the fabric carry no invalidation reason. -/
theorem fabric_ready_valid (cfg : FabricConfig) {steps : List FabricStep}
    (governed : ∀ a ∈ steps, a.governed = true) :
    (Runs.run step (start cfg) steps).fabric.ReadyValid := by
  refine Runs.invariant (I := fun s : Reserving => s.fabric.ReadyValid)
    (fun s a inv ha => readyValid_step inv ha) ?_ (Runs.along_of_forall governed)
  intro id o ho
  cases ho

/-- An invalidation that lands between the two phases of a `warm` call. -/
def invalidatedWarming : List FabricStep :=
  let id := Id128.derive (text "model" ++ text "|" ++ categoryName .modelWeights)
  [.operation (.registerObject .modelWeights (text "model") none none none none), .warmBegin id,
    .operation (.invalidate id .kernelGenerationChange),
    .warmFinish 0 (syntheticWarm ⟨0⟩) fun _ => 5, .operation (.warmToReady id)]

theorem fabric_ready_valid_invalidatedWarming :
    (Runs.run step (start {}) invalidatedWarming).fabric.ReadyValid :=
  fabric_ready_valid {} (by simp [invalidatedWarming, FabricStep.governed])

end Reserving

end Warmth
