import Mathlib.Algebra.Order.BigOperators.Group.List
import Mathlib.Algebra.Order.Monoid.NatCast
import Warmth.Runs
import Warmth.Storable

namespace Warmth

open Codec Runs

theorem BasicGeneration.next_eq_self {Tag : Type} (g : BasicGeneration Tag) :
    g = g.next ↔ g.value.toNat = 2 ^ 64 - 1 := by
  have hlt := g.value.toNat_lt
  have hn := g.next_value_toNat
  constructor
  · intro h
    rw [← h] at hn
    omega
  · intro h
    rw [BasicGeneration.next, if_pos h]

theorem length_le_optionalReasonSize (r : CString) : r.length ≤ optionalReasonSize (some r) := by
  cases hs : r.isEmpty with
  | true =>
    rw [List.isEmpty_iff.mp hs]
    exact Nat.zero_le _
  | false =>
    simp only [optionalReasonSize, storedReason, Option.filter, hs, Bool.not_false, if_true]
    omega

theorem WarmthObject.short_of_size {o : WarmthObject} (h : objectSize o < 2 ^ 32) : o.Short := by
  unfold objectSize at h
  refine ⟨by omega, by omega, by omega, by omega, fun r hr => ?_⟩
  have hle := length_le_optionalReasonSize r
  rw [hr] at h
  omega

theorem Snapshot.short_of_size {s : Snapshot} (h : snapshotSize s < 2 ^ 32) :
    ∀ o ∈ s.objects, o.Short := by
  intro o ho
  have hle := List.le_sum_of_mem (List.mem_map_of_mem (f := objectSize) ho)
  unfold snapshotSize at h
  exact WarmthObject.short_of_size (by omega)

/-- A public operation of the fabric: one of a single section, a whole `warm` call, or a recovery
from a file. -/
inductive SaveOp
  | section (op : FabricOp)
  | warm (id : WarmthObjectId) (action : WarmthAction) (now : Nat → Timestamp)
  | recover (file : FileContents)

def SaveOp.apply (f : WarmthFabric) : SaveOp → WarmthFabric
  | .section op => op.apply f
  | .warm id action now => (f.warm id action now).1
  | .recover file => (f.recover file).1

def recoveredBy (last : Option Snapshot) : SaveOp → Option Snapshot
  | .recover file => (loadSnapshotFile file).toOption.orElse fun _ => last
  | _ => last

def lastRecovered (ops : List SaveOp) : Option Snapshot := ops.foldl recoveredBy none

namespace WarmthFabric

/-- What is saved can be loaded: the snapshot is encoded without an exception and the decoder
accepts the encoding. -/
def Loads (f : WarmthFabric) : Prop :=
  ∃ bytes s, encodeSnapshot f.snapshot = .ok bytes ∧ decodeSnapshot bytes = .ok s

/-- The policy generation in force and that of the policy: the same until a recovery, which takes
the policy from the snapshot and the successor of the snapshot's policy generation. -/
def Authority (last : Option Snapshot) (f : WarmthFabric) : Prop :=
  match last with
  | none => f.gen.policy = f.cfg.policy.generation
  | some s => f.gen.policy = s.policyGeneration.next ∧ f.cfg.policy.generation = s.policyGeneration

section
variable {f : WarmthFabric} {last : Option Snapshot}

theorem Authority.same {f' : WarmthFabric} (h : Authority last f)
    (gen : f'.gen.policy = f.gen.policy) (cfg : f'.cfg = f.cfg) : Authority last f' := by
  cases last with
  | none => exact (gen.trans h).trans (by rw [cfg])
  | some s => exact ⟨gen.trans h.1, (by rw [cfg]; exact h.2)⟩

theorem Authority.onObject (h : Authority last f) (id : WarmthObjectId)
    (g : WarmthObject → WarmthObject × Bool) : Authority last (f.onObject id g).1 := by
  obtain ⟨objects, he⟩ := f.onObject_frame id g
  rw [he]
  exact h.same rfl rfl

theorem Authority.apply (h : Authority last f) (op : FabricOp) : Authority last (op.apply f) := by
  cases op with
  | registerObject | decay | bumpDependencyGeneration | bumpWarmthGeneration =>
    exact h.same rfl rfl
  | transition | setDimension | setDimensions | markUsed | invalidate | demote | evict
  | warmToReady => exact h.onObject _ _

theorem Authority.warm (h : Authority last f) (id : WarmthObjectId) (action : WarmthAction)
    (now : Nat → Timestamp) : Authority last (f.warm id action now).1 := by
  unfold WarmthFabric.warm
  rcases f.warmBegin_cases id with ⟨budget, he⟩ | ⟨o, budget, held, _, _, he⟩
  · rw [he]
    exact h.same rfl rfl
  · rw [he]
    refine Authority.onObject ?_ id _
    exact h.same rfl rfl

theorem Authority.recover (h : Authority last f) (file : FileContents)
    (fits : ∀ s, loadSnapshotFile file = .ok s → s.policy.generation = s.policyGeneration) :
    Authority (recoveredBy last (.recover file)) (f.recover file).1 := by
  cases hl : loadSnapshotFile file with
  | error e =>
    simp only [WarmthFabric.recover, recoveredBy, hl]
    exact h
  | ok s =>
    simp only [WarmthFabric.recover, recoveredBy, hl]
    exact ⟨rfl, fits s hl⟩

/-- The policy's generation is the one in force only before a recovery, or after one from a
snapshot whose policy generation has no successor. -/
theorem Authority.matches_iff (h : Authority last f) :
    f.cfg.policy.generation = f.gen.policy ↔
      ∀ s, last = some s → s.policyGeneration.value.toNat = 2 ^ 64 - 1 := by
  cases last with
  | none =>
    constructor
    · intro _ s hs
      cases hs
    · intro _
      exact h.symm
  | some s =>
    rw [h.1, h.2, BasicGeneration.next_eq_self]
    constructor
    · intro hm s' hs
      cases hs
      exact hm
    · intro hm
      exact hm s rfl

end

theorem Storable.loads_iff {f : WarmthFabric} (h : f.Storable)
    (count : f.objects.size ≤ 1000000) :
    f.Loads ↔ f.cfg.policy.generation = f.gen.policy ∧ snapshotSize f.snapshot < 2 ^ 32 := by
  have numeric : ∀ o ∈ f.snapshot.objects, o.Numeric := h.snapshot_numeric
  have encoded := encodeSnapshot_eq h.finite numeric
  have length := snapshotFields_length f.snapshot
  constructor
  · rintro ⟨bytes, s, he, hd⟩
    rw [encoded] at he
    cases he
    by_cases size : snapshotSize f.snapshot < 2 ^ 32
    · refine ⟨?_, size⟩
      by_contra hne
      rw [decodeSnapshot_withHeader (by omega), readPayload, bind_apply,
        readBody_mismatch h.finite hne] at hd
      cases hd
    · rw [decodeSnapshot_oversized (by omega)] at hd
      cases hd
  · rintro ⟨policy, size⟩
    have wf := h.snapshot count policy
    exact ⟨_, _, encoded, decodeSnapshot_encoded wf (Snapshot.short_of_size size) (by omega) encoded⟩

theorem run_storable {f : WarmthFabric} {last : Option Snapshot} (ops : List SaveOp)
    (h : f.Storable) (ha : Authority last f) :
    (run SaveOp.apply f ops).Storable ∧
      Authority (ops.foldl recoveredBy last) (run SaveOp.apply f ops) := by
  induction ops generalizing f last with
  | nil => exact ⟨h, ha⟩
  | cons op ops ih =>
    cases op with
    | «section» op => exact ih (h.apply op) (ha.apply op)
    | warm id action now => exact ih (h.warm id action now) (ha.warm id action now)
    | recover file =>
      refine ih (h.recover file) (ha.recover file fun s hl => ?_)
      cases file with
      | error e => cases hl
      | ok bytes => exact (decodeSnapshot_wellFormed hl).1.policyGeneration

/-- What a fabric saves loads exactly when no recovery succeeded since its construction, or the
last one was from a snapshot at the greatest policy generation, and the payload fits 32 bits. -/
theorem saved_loads {cfg : FabricConfig} (finite : cfg.policy.Finite) (ops : List SaveOp)
    (count : (run SaveOp.apply (new cfg) ops).objects.size ≤ 1000000) :
    (run SaveOp.apply (new cfg) ops).Loads ↔
      (∀ s, lastRecovered ops = some s → s.policyGeneration.value.toNat = 2 ^ 64 - 1) ∧
        snapshotSize (run SaveOp.apply (new cfg) ops).snapshot < 2 ^ 32 := by
  have start : Authority none (new cfg) := rfl
  obtain ⟨storable, authority⟩ := run_storable ops (storable_new finite) start
  rw [storable.loads_iff count, authority.matches_iff]
  rfl

theorem saved_loads_registered :
    (run SaveOp.apply (new {})
      [.section (.registerObject .adapters [] none none none none)]).Loads := by
  let ops : List SaveOp := [.section (.registerObject .adapters [] none none none none)]
  have finite : ({} : FabricConfig).policy.Finite := WarmthPolicy.defaults_finite ⟨1⟩
  have count : (run SaveOp.apply (new {}) ops).objects.size ≤ 1000000 := by decide +kernel
  have size : snapshotSize (run SaveOp.apply (new {}) ops).snapshot < 2 ^ 32 := by decide +kernel
  have absent : ∀ s, lastRecovered ops = some s → s.policyGeneration.value.toNat = 2 ^ 64 - 1 := by
    intro s hs
    cases hs
  exact (saved_loads finite ops count).mpr ⟨absent, size⟩

/-- A recovered fabric cannot load what it saves: its snapshot carries the successor of the policy
generation that its policy still has. -/
theorem recovered_does_not_load :
    ¬ ∀ (cfg : FabricConfig) (ops : List SaveOp), cfg.policy.Finite →
      (run SaveOp.apply (new cfg) ops).objects.size ≤ 1000000 →
      (run SaveOp.apply (new cfg) ops).Loads := by
  intro always
  obtain ⟨bytes, h⟩ := oneObject_decodes .warm
  have finite : ({} : FabricConfig).policy.Finite := WarmthPolicy.defaults_finite ⟨1⟩
  have count : ((new {}).restore (oneObject .warm)).objects.size ≤ 1000000 := by decide
  have recovered : run SaveOp.apply (new {}) [.recover (.ok bytes)] =
      (new {}).restore (oneObject .warm) := congrArg Prod.fst (recover_ok h)
  have loads := always {} [.recover (.ok bytes)] finite (by rw [recovered]; exact count)
  have storable := (storable_new finite).restore (oneObject_wellFormed .warm)
  rw [recovered, storable.loads_iff count] at loads
  exact absurd loads.1 (by decide)

end WarmthFabric

end Warmth
