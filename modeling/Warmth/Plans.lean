import Warmth.FabricReservations
import Warmth.Planning
import Warmth.Storable

namespace Warmth

open Codec TreeMaps
open Std (ExtTreeMap LawfulEqOrd OrientedCmp TransCmp)

/-- The order of a plan: descending score, then ascending id. -/
def PlanStep.Precedes (a b : PlanStep) : Prop :=
  b.score < a.score ∨ a.score = b.score ∧ compare a.object b.object = .lt

theorem PlanStep.Precedes.asymm {a b : PlanStep} (h : a.Precedes b) : ¬ b.Precedes a := by
  rintro (higher | ⟨same', first'⟩)
  · rcases h with lower | ⟨same, _⟩
    · exact absurd higher (lt_asymm lower)
    · exact absurd higher (same ▸ lt_irrefl _)
  · rcases h with lower | ⟨_, first⟩
    · exact absurd lower (same' ▸ lt_irrefl _)
    · exact OrientedCmp.not_lt_of_lt first first'

/-- There is one way to order the steps of a plan. -/
theorem steps_unique {xs ys : List PlanStep} (hx : xs.Pairwise PlanStep.Precedes)
    (hy : ys.Pairwise PlanStep.Precedes) (perm : xs.Perm ys) : xs = ys :=
  perm.eq_of_pairwise (fun _ _ _ _ hab hba => absurd hba hab.asymm) hx hy

namespace PlanBuilder

/-- The step that a candidate becomes. -/
def stepOf (policy : WarmthPolicy) (c : Candidate) : PlanStep where
  object := c.id
  action := c.suggestedAction
  score := preferenceScore c.preference ((policyWeights policy).map Double.toRat)
  estimatedCostMs := c.estimatedCostMs
  rationale := rationale c.preference

/-- The steps are those of the candidates, each once, in the order of a plan, which is the only
such list. -/
structure Ordered (policy : WarmthPolicy) (cs : List Candidate) (steps : List PlanStep) : Prop where
  complete : steps.Perm (cs.map (stepOf policy))
  sorted : steps.Pairwise PlanStep.Precedes
  unique : ∀ other : List PlanStep, other.Perm (cs.map (stepOf policy)) →
    other.Pairwise PlanStep.Precedes → other = steps

section
variable (w : List Rat)

/-- Not being beaten: a higher score, or the same score and an id that is not greater. -/
theorem not_before {a b : Candidate} :
    (!before w b a) = true ↔
      preferenceScore b.preference w < preferenceScore a.preference w ∨
        preferenceScore a.preference w = preferenceScore b.preference w ∧
          (compare a.id b.id).isLE = true := by
  simp only [before, Bool.not_eq_true']
  by_cases same : preferenceScore b.preference w = preferenceScore a.preference w
  · rw [if_neg (by simp [same]), same]
    simp only [lt_irrefl, true_and, false_or, beq_eq_false_iff_ne]
    constructor
    · intro beaten
      by_contra later
      exact beaten (OrientedCmp.lt_of_not_isLE later)
    · exact OrientedCmp.not_lt_of_isLE
  · have differ : preferenceScore a.preference w ≠ preferenceScore b.preference w := Ne.symm same
    rw [if_pos same]
    simp only [differ, false_and, or_false, decide_eq_false_iff_not, not_lt]
    exact ⟨fun least => lt_of_le_of_ne least same, le_of_lt⟩

theorem before_trans (a b c : Candidate) (hab : (!before w b a) = true)
    (hbc : (!before w c b) = true) : (!before w c a) = true := by
  rw [not_before] at hab hbc ⊢
  rcases hab with hab | ⟨sab, iab⟩
  · rcases hbc with hbc | ⟨sbc, _⟩
    · exact Or.inl (lt_trans hbc hab)
    · exact Or.inl (sbc ▸ hab)
  · rcases hbc with hbc | ⟨sbc, ibc⟩
    · exact Or.inl (sab ▸ hbc)
    · exact Or.inr ⟨sab.trans sbc, TransCmp.isLE_trans iab ibc⟩

theorem before_total (a b : Candidate) : ((!before w b a) || (!before w a b)) = true := by
  rw [Bool.or_eq_true, not_before, not_before]
  rcases lt_trichotomy (preferenceScore a.preference w) (preferenceScore b.preference w) with
    lower | same | higher
  · exact Or.inr (Or.inl lower)
  · cases h : (compare a.id b.id).isLE with
    | true => exact Or.inl (Or.inr ⟨same, rfl⟩)
    | false =>
      refine Or.inr (Or.inr ⟨same.symm, ?_⟩)
      have first : compare b.id a.id = .lt := OrientedCmp.lt_of_not_isLE (by rw [h]; decide)
      rw [first]
      rfl
  · exact Or.inl (Or.inl higher)

end

variable {policy : WarmthPolicy} {cs : List Candidate}

theorem sort_perm : (sort policy cs).Perm cs := List.mergeSort_perm cs _

theorem build_steps {workload : WorkloadId} {replica : ReplicaId} :
    (build policy workload replica cs).steps = (sort policy cs).map (stepOf policy) := rfl

theorem sort_sorted (distinct : (cs.map Candidate.id).Nodup) :
    ((sort policy cs).map (stepOf policy)).Pairwise PlanStep.Precedes := by
  have ordered := List.pairwise_mergeSort (before_trans ((policyWeights policy).map Double.toRat))
    (before_total _) cs
  have perm : (sort policy cs).Perm cs := sort_perm
  have apart := List.pairwise_map.mp ((perm.map Candidate.id).nodup_iff.mpr distinct)
  refine List.pairwise_map.mpr (ordered.imp₂ (fun a b unbeaten differ => ?_) apart)
  rcases (not_before _).mp unbeaten with higher | ⟨same, first⟩
  · exact Or.inl higher
  · refine Or.inr ⟨same, ?_⟩
    rcases Ordering.isLE_iff_eq_lt_or_eq_eq.mp first with lt | eq
    · exact lt
    · exact absurd (LawfulEqOrd.eq_of_compare eq) differ

theorem build_ordered (workload : WorkloadId) (replica : ReplicaId)
    (distinct : (cs.map Candidate.id).Nodup) :
    Ordered policy cs (build policy workload replica cs).steps where
  complete := sort_perm.map _
  sorted := sort_sorted distinct
  unique := fun _ perm sorted =>
    steps_unique sorted (sort_sorted distinct) (perm.trans (sort_perm.map _).symm)

theorem build_perm (workload : WorkloadId) (replica : ReplicaId)
    (distinct : (cs.map Candidate.id).Nodup) {cs' : List Candidate} (perm : cs'.Perm cs) :
    build policy workload replica cs' = build policy workload replica cs := by
  have distinct' := (perm.map Candidate.id).nodup_iff.mpr distinct
  have same : (build policy workload replica cs').steps = (build policy workload replica cs).steps :=
    (build_ordered workload replica distinct).unique _
      ((build_ordered workload replica distinct').complete.trans (perm.map _))
      (build_ordered workload replica distinct').sorted
  rw [build_steps, build_steps] at same
  exact congrArg (fun steps => WarmthPlan.mk workload replica steps policy.generation
    (text "score_desc_then_id_asc")) same

end PlanBuilder

namespace WarmthFabric

/-- Every object is stored under its own id. -/
def Keyed (f : WarmthFabric) : Prop := ∀ (id : WarmthObjectId) o, f.objects[id]? = some o → o.id = id

theorem Keyed.of_kept {f f' : WarmthFabric} (h : f.Keyed)
    (kept : Kept (fun o o' => o'.id = o.id) f f') : f'.Keyed := by
  intro id o' ho'
  obtain ⟨o, ho, same⟩ := kept id o' ho'
  exact same.trans (h id o ho)

theorem Keyed.insert {f : WarmthFabric} (h : f.Keyed) (o : WarmthObject) :
    { f with objects := f.objects.insert o.id o }.Keyed := by
  intro id o' ho
  rcases getElem?_insert_some ho with ⟨rfl, rfl⟩ | ⟨_, ho⟩
  · rfl
  · exact h id o' ho

theorem Kept.ids {f f' : WarmthFabric} (kept : Kept Keeps f f') :
    Kept (fun o o' => o'.id = o.id) f f' := by
  intro id o' ho'
  obtain ⟨o, ho, keeps⟩ := kept id o' ho'
  exact ⟨o, ho, keeps.id⟩

theorem warmFinish_ids (f : WarmthFabric) (id : WarmthObjectId) (held : WarmReservations)
    (outcome : WarmOutcome) (now : Nat → Timestamp) :
    Kept (fun o o' => o'.id = o.id) f (f.warmFinish id held outcome now).1 := by
  refine kept_onObject (f := { f with budget := f.budget.releasePair held })
    (R := fun o o' => o'.id = o.id) (fun _ => rfl) id fun o => ?_
  split
  next => exact (keeps_moveTo o .warm _).id
  next => exact (keeps_moveTo o .failed _).id

end WarmthFabric

namespace Reserving

open WarmthFabric

theorem keyed_step {s : Reserving} (inv : s.fabric.Keyed) (a : FabricStep) :
    (s.step a).fabric.Keyed := by
  cases a with
  | operation op =>
    rcases s.fabric.apply_kept op with kept | ⟨o, _, _, he⟩
    · exact inv.of_kept kept.ids
    · rw [step, he]
      exact inv.insert o
  | upsert o => exact inv.insert o
  | recover file =>
    rw [step, WarmthFabric.recover]
    cases loaded : loadSnapshotFile file with
    | error e => exact inv
    | ok snap =>
      intro id o' ho'
      have accepted : ∃ bytes, decodeSnapshot bytes = .ok snap := by
        cases file with
        | error e => cases loaded
        | ok bytes => exact ⟨bytes, loaded⟩
      obtain ⟨bytes, decoded⟩ := accepted
      obtain ⟨o, _, rfl, rfl⟩ := restore_getElem? (decodeSnapshot_wellFormed decoded).1.distinct ho'
      exact recovered_id o
  | warmBegin id =>
    have begun := inv.of_kept (s.fabric.warmBegin_kept id).ids
    simp only [step]
    split
    next f he =>
      rw [he] at begun
      exact begun
    next f held he =>
      rw [he] at begun
      exact begun
  | warmFinish k outcome now =>
    simp only [step]
    split
    next => exact inv
    next c _ => exact inv.of_kept (s.fabric.warmFinish_ids c.id c.held outcome now)

theorem keyed_run (cfg : FabricConfig) (steps : List FabricStep) :
    (Runs.run step (start cfg) steps).fabric.Keyed := by
  have fresh : (start cfg).fabric.Keyed := by
    intro id o ho
    cases ho
  exact Runs.reachable_invariant (I := fun s : Reserving => s.fabric.Keyed) fresh
    (fun _ a inv => keyed_step inv a) (Runs.reachable_run steps)

end Reserving

namespace WarmthFabric

/-- The candidates of a plan, in the order of the objects' ids. -/
def candidates (f : WarmthFabric) (modelBytes : UInt64) : List Candidate :=
  f.objects.toList.map fun kv => candidateOf modelBytes kv.2

theorem Keyed.candidates_ids {f : WarmthFabric} (h : f.Keyed) (modelBytes : UInt64) :
    (f.candidates modelBytes).map Candidate.id = f.objects.toList.map Prod.fst := by
  rw [candidates, List.map_map]
  refine List.map_congr_left fun e he => ?_
  exact h e.1 e.2 (ExtTreeMap.mem_toList_iff_getElem?_eq_some.mp he)

theorem Keyed.candidates_distinct {f : WarmthFabric} (h : f.Keyed) (modelBytes : UInt64) :
    ((f.candidates modelBytes).map Candidate.id).Nodup :=
  h.candidates_ids modelBytes ▸ keys_nodup_toList f.objects

/-- The plan of a fabric names each registered object exactly once. -/
theorem Keyed.planOf_objects {f : WarmthFabric} (h : f.Keyed) (modelBytes : UInt64) :
    ((f.planOf modelBytes).steps.map PlanStep.object).Perm (f.objects.toList.map Prod.fst) := by
  have built : PlanBuilder.Ordered f.cfg.policy (f.candidates modelBytes) (f.planOf modelBytes).steps :=
    PlanBuilder.build_ordered f.cfg.workload {} (h.candidates_distinct modelBytes)
  have complete := built.complete.map PlanStep.object
  rw [List.map_map] at complete
  rw [← h.candidates_ids modelBytes]
  exact complete

end WarmthFabric

/-- A plan is complete and ordered, the order of its candidates makes no difference, and the plan of
a fabric names every registered object exactly once. -/
theorem plan_complete_ordered (policy : WarmthPolicy) (workload : WorkloadId) (replica : ReplicaId)
    {cs : List Candidate} (distinct : (cs.map Candidate.id).Nodup) :
    PlanBuilder.Ordered policy cs (PlanBuilder.build policy workload replica cs).steps ∧
      (∀ cs' : List Candidate, cs'.Perm cs →
        PlanBuilder.build policy workload replica cs' =
          PlanBuilder.build policy workload replica cs) ∧
      ∀ (cfg : FabricConfig) (steps : List FabricStep) (modelBytes : UInt64),
        let f := (Runs.run Reserving.step (Reserving.start cfg) steps).fabric
        f.planOf modelBytes = PlanBuilder.build f.cfg.policy f.cfg.workload {}
            (f.candidates modelBytes) ∧
          PlanBuilder.Ordered f.cfg.policy (f.candidates modelBytes) (f.planOf modelBytes).steps ∧
          ((f.planOf modelBytes).steps.map PlanStep.object).Perm (f.objects.toList.map Prod.fst) := by
  refine ⟨PlanBuilder.build_ordered workload replica distinct,
    fun cs' perm => PlanBuilder.build_perm workload replica distinct perm,
    fun cfg steps modelBytes => ?_⟩
  have keyed := Reserving.keyed_run cfg steps
  exact ⟨rfl, PlanBuilder.build_ordered _ _ (keyed.candidates_distinct modelBytes),
    keyed.planOf_objects modelBytes⟩

def tiedCandidates : List Candidate :=
  [⟨⟨0, 2⟩, {}, 0, .initEngine⟩, ⟨⟨0, 1⟩, {}, 0, .initEngine⟩]

theorem plan_complete_ordered_tied :
    PlanBuilder.Ordered (.defaults ⟨1⟩) tiedCandidates
      (PlanBuilder.build (.defaults ⟨1⟩) {} {} tiedCandidates).steps :=
  (plan_complete_ordered (.defaults ⟨1⟩) {} {} (by decide)).1

end Warmth
