import Warmth.Fabric
import Warmth.SnapshotAccepted

namespace Warmth

open Codec Std TreeMaps

def WarmthDimensions.ephemeralCold (d : WarmthDimensions) : WarmthDimensions :=
  { d with
    cudaContextReadiness := .cold
    kernelReadiness := .cold
    graphReadiness := .cold
    allocatorReadiness := .cold }

theorem dropEphemeral_cold (o : WarmthObject) :
    o.dropEphemeral .cold = { o with dims := o.dims.ephemeralCold } := by
  simp only [WarmthObject.dropEphemeral, WarmthObject.setAll, ephemeralDimensions, List.foldl_cons,
    List.foldl_nil, WarmthObject.setDimension, WarmthDimensions.ephemeralCold]

/-- An object of a snapshot that is durable knowledge only: nothing is lost but the state, its
reasons, the provenance and the device-local dimensions. -/
def Durable (o o' : WarmthObject) : Prop :=
  o' = { o with
    state := o'.state
    stateChangeReason := o'.stateChangeReason
    invalidationReason := o'.invalidationReason
    provenance := o'.provenance
    dims := o.dims.ephemeralCold }

theorem revalidated_frame (o : WarmthObject) :
    revalidated o = { o with
      state := (revalidated o).state
      stateChangeReason := (revalidated o).stateChangeReason } := by
  unfold revalidated
  split
  · exact WarmthObject.moveTo_frame o _ _
  · rfl

theorem recovered_durable (o : WarmthObject) : Durable o (recovered o) := by
  simp only [Durable, recovered, dropEphemeral_cold]
  rw [revalidated_frame o]

theorem recovered_id (o : WarmthObject) : (recovered o).id = o.id := by
  rw [recovered_durable o]

theorem recovered_state (o : WarmthObject) :
    (recovered o).state = if o.state = .warm then .discovered else o.state := by
  simp only [recovered, WarmthObject.dropEphemeral_state, revalidated]
  cases hs : o.state <;>
    simp [hs, isExecutionReady, WarmthObject.moveTo, WarmthObject.transition, transitionAllowed]

theorem recovered_ready (o : WarmthObject) :
    isExecutionReady (recovered o).state = (o.state == .hot) := by
  rw [recovered_state]
  cases o.state <;> rfl

theorem recovered_level (o : WarmthObject) :
    (toLevel (recovered o).state).value ≤ (toLevel o.state).value := by
  rw [recovered_state]
  cases o.state <;> decide

namespace WarmthFabric

/-- What recovery of a snapshot should leave behind: no object is execution-ready, the
device-local dimensions are cold, the ids are those of the snapshot, every object is kept as
durable knowledge and none is warmer than before. -/
structure RecoveredFrom (s : Snapshot) (f : WarmthFabric) : Prop where
  notReady : ∀ (id : WarmthObjectId) o, f.objects[id]? = some o → isExecutionReady o.state = false
  cold : ∀ (id : WarmthObjectId) o, f.objects[id]? = some o →
    ∀ i ∈ ephemeralDimensions, o.dimension i = .cold
  ids : ∀ id : WarmthObjectId, (f.objects[id]?).isSome = true ↔ id ∈ s.objects.map WarmthObject.id
  kept : ∀ o ∈ s.objects, ∃ o', f.objects[o.id]? = some o' ∧ Durable o o' ∧
    (toLevel o'.state).value ≤ (toLevel o.state).value

section
variable {f : WarmthFabric} {s : Snapshot}

theorem restore_getElem?_of_mem (distinct : (s.objects.map WarmthObject.id).Nodup) {o : WarmthObject}
    (h : o ∈ s.objects) : (f.restore s).objects[o.id]? = some (recovered o) := by
  have keys : (s.objects.map fun o => (recovered o).id) = s.objects.map WarmthObject.id :=
    List.map_congr_left fun o _ => recovered_id o
  rw [← recovered_id o]
  exact getElem?_foldl_insert_of_mem (keys ▸ distinct) h ∅

theorem restore_getElem? (distinct : (s.objects.map WarmthObject.id).Nodup) {id : WarmthObjectId}
    {o' : WarmthObject} (h : (f.restore s).objects[id]? = some o') :
    ∃ o ∈ s.objects, o.id = id ∧ o' = recovered o := by
  by_cases hm : id ∈ s.objects.map WarmthObject.id
  · obtain ⟨o, ho, rfl⟩ := List.mem_map.mp hm
    rw [restore_getElem?_of_mem distinct ho] at h
    exact ⟨o, ho, rfl, (Option.some.inj h).symm⟩
  · have keys : id ∉ s.objects.map fun o => (recovered o).id := by
      rwa [List.map_congr_left fun o _ => recovered_id o]
    have missing : (f.restore s).objects[id]? = none :=
      (getElem?_foldl_insert_of_notMem keys ∅).trans ExtTreeMap.getElem?_empty
    rw [missing] at h
    cases h

/-- Everything but readiness holds whatever the snapshot contains. -/
theorem restore_recoveredFrom (distinct : (s.objects.map WarmthObject.id).Nodup) :
    RecoveredFrom s (f.restore s) ↔ ∀ o ∈ s.objects, o.state ≠ .hot := by
  constructor
  · intro r o ho hot
    have := r.notReady o.id _ (restore_getElem?_of_mem distinct ho)
    rw [recovered_ready, hot] at this
    cases this
  · intro cold
    constructor
    · intro id o' h
      obtain ⟨o, ho, _, rfl⟩ := restore_getElem? distinct h
      rw [recovered_ready]
      exact beq_false_of_ne (cold o ho)
    · intro id o' h i hi
      obtain ⟨o, _, _, rfl⟩ := restore_getElem? distinct h
      rw [recovered_durable o]
      simp only [ephemeralDimensions, List.mem_cons, List.not_mem_nil, or_false] at hi
      rcases hi with rfl | rfl | rfl | rfl <;> rfl
    · intro id
      constructor
      · intro h
        obtain ⟨o', h⟩ := Option.isSome_iff_exists.mp h
        obtain ⟨o, ho, rfl, _⟩ := restore_getElem? distinct h
        exact List.mem_map_of_mem ho
      · intro h
        obtain ⟨o, ho, rfl⟩ := List.mem_map.mp h
        rw [restore_getElem?_of_mem distinct ho]
        rfl
    · intro o ho
      exact ⟨_, restore_getElem?_of_mem distinct ho, recovered_durable o, recovered_level o⟩

theorem recover_ok {bytes : Bytes} (h : decodeSnapshot bytes = .ok s) :
    f.recover (.ok bytes) = (f.restore s, none) := by
  have load : loadSnapshotFile (.ok bytes) = .ok s := h
  rw [recover, load]

/-- Recovery never resurrects readiness and keeps the durable knowledge exactly for the accepted
files without a HOT object. -/
theorem recover_keeps_durable {bytes : Bytes} (h : decodeSnapshot bytes = .ok s) :
    RecoveredFrom s (f.recover (.ok bytes)).1 ↔ ∀ o ∈ s.objects, o.state ≠ .hot := by
  rw [recover_ok h]
  exact restore_recoveredFrom (decodeSnapshot_wellFormed h).1.distinct

end

def oneObject (state : WarmthState) : Snapshot :=
  { policyGeneration := ⟨1⟩, policy := .defaults ⟨1⟩, objects := [{ id := ⟨0, 1⟩, state }] }

theorem oneObject_wellFormed (state : WarmthState) : (oneObject state).WellFormed where
  distinct := List.nodup_singleton (⟨0, 1⟩ : Id128)
  generations := by
    intro o ho
    cases List.mem_singleton.mp ho
    exact UInt64.le_refl _
  policyGeneration := rfl
  count := Nat.le_of_ble_eq_true rfl
  policyFinite := WarmthPolicy.defaults_finite ⟨1⟩
  numeric := by
    intro o ho
    cases List.mem_singleton.mp ho
    exact WarmthObject.numeric_of_zero rfl rfl rfl rfl

theorem oneObject_decodes (state : WarmthState) :
    ∃ bytes, decodeSnapshot bytes = .ok (oneObject state) := by
  have wf := oneObject_wellFormed state
  have short : ∀ o ∈ (oneObject state).objects, o.Short := by
    intro o ho
    cases List.mem_singleton.mp ho
    exact ⟨Nat.two_pow_pos 32, Nat.two_pow_pos 32, Nat.two_pow_pos 32, Nat.two_pow_pos 32, nofun⟩
  have size : (snapshotFields (oneObject state)).flatten.length < 2 ^ 32 := by
    rw [snapshotFields_length]
    cases state <;> decide
  exact ⟨_, decodeSnapshot_encoded wf short size (encodeSnapshot_eq wf.policyFinite wf.numeric)⟩

theorem recover_keeps_durable_warm :
    ∃ bytes, decodeSnapshot bytes = .ok (oneObject .warm) ∧
      (RecoveredFrom (oneObject .warm) ((new {}).recover (.ok bytes)).1 ↔
        ∀ o ∈ (oneObject .warm).objects, o.state ≠ .hot) := by
  obtain ⟨bytes, h⟩ := oneObject_decodes .warm
  exact ⟨bytes, h, recover_keeps_durable h⟩

/-- A HOT object is still HOT after recovery: the demotion is no edge of the table. -/
theorem recover_resurrects_hot :
    ¬ ∀ (f : WarmthFabric) bytes s, decodeSnapshot bytes = .ok s →
      RecoveredFrom s (f.recover (.ok bytes)).1 := by
  intro always
  obtain ⟨bytes, h⟩ := oneObject_decodes .hot
  have r := always (new {}) bytes _ h
  rw [recover_ok h] at r
  have distinct := (decodeSnapshot_wellFormed h).1.distinct
  exact (restore_recoveredFrom distinct).mp r { id := ⟨0, 1⟩, state := .hot }
    List.mem_cons_self rfl

end WarmthFabric

end Warmth
