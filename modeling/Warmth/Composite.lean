import Mathlib.Algebra.Order.BigOperators.Group.List
import Mathlib.Data.List.Forall2
import Warmth.Planning

namespace Warmth

/-- The enumerator's underlying value, in which levels are compared. -/
def CompositeLevel.value : CompositeLevel → Nat
  | .cold => 0 | .discovered => 1 | .partialLevel => 2 | .ready => 3 | .hot => 4

namespace WarmthDimensions

/-- Each of the twelve dimensions scores at least as much. -/
def Improves (d d' : WarmthDimensions) : Prop :=
  List.Forall₂ (fun s s' => dimensionScore s ≤ dimensionScore s') d.all d'.all

instance (d d' : WarmthDimensions) : Decidable (Improves d d') :=
  inferInstanceAs (Decidable (List.Forall₂ _ _ _))

/-- No dimension is ready and the raw score makes the level PARTIAL. -/
def PartialByScore (d : WarmthDimensions) : Prop := d.readyCount = 0 ∧ 12 ≤ d.rawScore

/-- Some dimensions are ready, but fewer than half: the level is DISCOVERED. -/
def FewReady (d : WarmthDimensions) : Prop := 0 < d.readyCount ∧ d.readyCount * 2 < componentCount

theorem countP_mono {α : Type} {p : α → Bool} {R : α → α → Prop}
    (h : ∀ a b, R a b → p a = true → p b = true) {as bs : List α} (all : List.Forall₂ R as bs) :
    as.countP p ≤ bs.countP p := by
  induction all with
  | nil => exact Nat.le_refl _
  | @cons a b as bs rel _ ih =>
    rw [List.countP_cons, List.countP_cons]
    by_cases ha : p a = true
    · rw [if_pos ha, if_pos (h a b rel ha)]
      omega
    · rw [if_neg ha]
      omega

variable {d d' : WarmthDimensions}

theorem Improves.readyCount (h : d.Improves d') : d.readyCount ≤ d'.readyCount := by
  refine countP_mono (fun s s' better ready => ?_) h
  rw [decide_eq_true_eq] at ready ⊢
  exact Nat.le_trans ready better

theorem Improves.validCount (h : d.Improves d') : d.validCount ≤ d'.validCount := by
  refine countP_mono (fun s s' better valid => ?_) h
  rw [beq_iff_eq] at valid ⊢
  subst valid
  cases s' with
  | valid => rfl
  | cold | discovered | partialStatus | ready | suspect => exact absurd better (by decide)

theorem Improves.rawScore (h : d.Improves d') : d.rawScore ≤ d'.rawScore :=
  List.Forall₂.sum_le_sum (List.forall₂_map_left_iff.mpr (List.forall₂_map_right_iff.mpr h))

theorem readyCount_le (d : WarmthDimensions) : d.readyCount ≤ componentCount :=
  List.countP_le_length

theorem validCount_le_readyCount (d : WarmthDimensions) : d.validCount ≤ d.readyCount := by
  refine List.countP_mono_left fun s _ valid => ?_
  rw [beq_iff_eq.mp valid]
  rfl

/-- The level is a function of the three aggregates. -/
theorem compositeLevel_value (d : WarmthDimensions) :
    d.compositeLevel.value =
      if d.validCount = 12 then 4
      else if d.readyCount = 12 then 3
      else if d.readyCount = 0 then if 12 ≤ d.rawScore then 2 else if 0 < d.rawScore then 1 else 0
      else if 12 ≤ d.readyCount * 2 then 2 else 1 := by
  unfold compositeLevel componentCount
  split_ifs <;> rfl

/-- Improving components lowers the composite level in one case only: without a ready dimension the
raw score made the level PARTIAL, and the first ready dimensions are fewer than half. -/
theorem Improves.compositeLevel_le_iff (h : d.Improves d') :
    d.compositeLevel.value ≤ d'.compositeLevel.value ↔ ¬(d.PartialByScore ∧ d'.FewReady) := by
  have ready := h.readyCount
  have valid := h.validCount
  have score := h.rawScore
  have most : d'.readyCount ≤ 12 := d'.readyCount_le
  have fewer := d.validCount_le_readyCount
  have fewer' := d'.validCount_le_readyCount
  simp only [compositeLevel_value, PartialByScore, FewReady, componentCount]
  split_ifs <;> omega

/-- With every dimension PARTIAL the level is PARTIAL; one of them READY makes it DISCOVERED. -/
theorem first_ready_lowers :
    ∃ d d' : WarmthDimensions, d.Improves d' ∧ d'.compositeLevel.value < d.compositeLevel.value := by
  let d : WarmthDimensions := ⟨.partialStatus, .partialStatus, .partialStatus, .partialStatus,
    .partialStatus, .partialStatus, .partialStatus, .partialStatus, .partialStatus, .partialStatus,
    .partialStatus, .partialStatus⟩
  exact ⟨d, { d with modelResidency := .ready }, by decide, by decide⟩

theorem compositeLevel_le_valid :
    (WarmthDimensions.compositeLevel {}).value ≤
        (WarmthDimensions.compositeLevel { modelResidency := .valid }).value ↔
      ¬(PartialByScore {} ∧ FewReady { modelResidency := .valid }) :=
  Improves.compositeLevel_le_iff (by decide : Improves {} { modelResidency := .valid })

end WarmthDimensions

end Warmth
