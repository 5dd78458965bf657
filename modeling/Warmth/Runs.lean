import Mathlib.Data.List.Basic
import Mathlib.Data.List.Induction

namespace Runs

variable {σ α : Type}

def run (step : σ → α → σ) (s : σ) (steps : List α) : σ := steps.foldl step s

/-- Every step of the list meets `P` in the state it is taken in. -/
def Along (step : σ → α → σ) (P : σ → α → Prop) : σ → List α → Prop
  | _, [] => True
  | s, a :: rest => P s a ∧ Along step P (step s a) rest

def Reachable (step : σ → α → σ) (init s : σ) : Prop := ∃ steps, run step init steps = s

/-- What the steps of a run give out, in their order. -/
def emitted {β : Type} (step : σ → α → σ) (emit : σ → α → List β) : σ → List α → List β
  | _, [] => []
  | s, a :: rest => emit s a ++ emitted step emit (step s a) rest

def leaveOut (drop : Nat → Bool) (steps : List α) : List α :=
  (steps.zipIdx.filter (fun entry => !drop entry.2)).map Prod.fst

section
variable {step : σ → α → σ} {s : σ} {P Q : σ → α → Prop}

@[simp] theorem run_nil : run step s [] = s := rfl

@[simp] theorem run_cons (a : α) (rest : List α) :
    run step s (a :: rest) = run step (step s a) rest := rfl

theorem run_append (xs ys : List α) : run step s (xs ++ ys) = run step (run step s xs) ys :=
  List.foldl_append

theorem run_concat (xs : List α) (a : α) :
    run step s (xs ++ [a]) = step (run step s xs) a := by
  rw [run_append]; rfl

theorem run_replicate_fixed {a : α} (h : step s a = s) (n : Nat) :
    run step s (List.replicate n a) = s := by
  induction n with
  | zero => rfl
  | succ n ih => rw [List.replicate_succ, run_cons, h, ih]

/-- A step that lowers a rank whenever it changes anything settles within that many repetitions. -/
theorem run_replicate_settled (rank : σ → Nat) {a : α}
    (descends : ∀ t, step t a ≠ t → rank (step t a) < rank t) {n : Nat} (h : rank s ≤ n) :
    step (run step s (List.replicate n a)) a = run step s (List.replicate n a) := by
  induction n generalizing s with
  | zero =>
    by_contra moves
    have lower := descends s moves
    omega
  | succ n ih =>
    by_cases fixed : step s a = s
    · rw [run_replicate_fixed fixed, fixed]
    · have lower := descends s fixed
      rw [List.replicate_succ, run_cons]
      exact ih (by omega)

theorem Reachable.start : Reachable step s s := ⟨[], rfl⟩

theorem reachable_run (steps : List α) : Reachable step s (run step s steps) := ⟨steps, rfl⟩

theorem along_append (xs ys : List α) :
    Along step P s (xs ++ ys) ↔ Along step P s xs ∧ Along step P (run step s xs) ys := by
  induction xs generalizing s with
  | nil => simp [Along]
  | cons a xs ih => simp [Along, ih, and_assoc]

theorem Along.imp {steps : List α} (h : Along step P s steps) (hpq : ∀ t a, P t a → Q t a) :
    Along step Q s steps := by
  induction steps generalizing s with
  | nil => trivial
  | cons a rest ih => exact ⟨hpq s a h.1, ih h.2⟩

theorem Along.and {steps : List α} (hp : Along step P s steps) (hq : Along step Q s steps) :
    Along step (fun s a => P s a ∧ Q s a) s steps := by
  induction steps generalizing s with
  | nil => trivial
  | cons a rest ih => exact ⟨⟨hp.1, hq.1⟩, ih hp.2 hq.2⟩

theorem along_of_forall {R : α → Prop} {steps : List α} (h : ∀ a ∈ steps, R a) :
    Along step (fun _ a => R a) s steps := by
  induction steps generalizing s with
  | nil => trivial
  | cons a rest ih =>
    exact ⟨h a List.mem_cons_self, ih fun b hb => h b (List.mem_cons_of_mem a hb)⟩

/-- The invariant rule: what holds at the start and is kept by every step that meets the
condition holds after every run whose steps all meet it. -/
theorem invariant {I : σ → Prop} {steps : List α}
    (keep : ∀ t a, I t → P t a → I (step t a)) (hs : I s)
    (h : Along step P s steps) : I (run step s steps) := by
  induction steps generalizing s with
  | nil => exact hs
  | cons a rest ih => exact ih (keep s a hs h.1) h.2

theorem emitted_from {β : Type} {emit : σ → α → List β} {I : List β → σ → Prop} {steps : List α}
    (keep : ∀ h t a, I h t → P t a → I (h ++ emit t a) (step t a)) {h : List β} (hs : I h s)
    (along : Along step P s steps) : I (h ++ emitted step emit s steps) (run step s steps) := by
  induction steps generalizing s h with
  | nil =>
    rw [emitted, List.append_nil]
    exact hs
  | cons a rest ih =>
    have whole := ih (keep h s a hs along.1) along.2
    rwa [List.append_assoc] at whole

/-- The invariant rule with what has been given out so far. -/
theorem emitted_invariant {β : Type} {emit : σ → α → List β} {I : List β → σ → Prop} {steps : List α}
    (keep : ∀ h t a, I h t → P t a → I (h ++ emit t a) (step t a)) (hs : I [] s)
    (along : Along step P s steps) : I (emitted step emit s steps) (run step s steps) :=
  emitted_from keep hs along

/-- Under the invariant rule a step property that follows from the invariant holds all along. -/
theorem along_of_invariant {I : σ → Prop} {steps : List α}
    (keep : ∀ t a, I t → P t a → I (step t a)) (use : ∀ t a, I t → P t a → Q t a)
    (hs : I s) (h : Along step P s steps) : Along step Q s steps := by
  induction steps generalizing s with
  | nil => trivial
  | cons a rest ih => exact ⟨use s a hs h.1, ih (keep s a hs h.1) h.2⟩

/-- Two conditions that agree under an invariant of all steps agree along every run. -/
theorem along_congr {I : σ → Prop} {steps : List α} (keep : ∀ t a, I t → I (step t a))
    (agree : ∀ t a, I t → (P t a ↔ Q t a)) (hs : I s) :
    Along step P s steps ↔ Along step Q s steps :=
  ⟨along_of_invariant (fun t a ht _ => keep t a ht) (fun t a ht => (agree t a ht).mp) hs,
    along_of_invariant (fun t a ht _ => keep t a ht) (fun t a ht => (agree t a ht).mpr) hs⟩

/-- A property that every step keeps under exactly one condition holds after all steps of
exactly the runs that meet the condition all along. -/
theorem along_iff_of_step {I : σ → Prop} {C : σ → α → Prop}
    (agree : ∀ t a, I t → (I (step t a) ↔ C t a)) (hs : I s) (steps : List α) :
    Along step (fun t a => I (step t a)) s steps ↔ Along step C s steps := by
  induction steps generalizing s with
  | nil => exact Iff.rfl
  | cons a rest ih =>
    constructor
    · intro h
      exact ⟨(agree s a hs).mp h.1, (ih h.1).mp h.2⟩
    · intro h
      have next := (agree s a hs).mpr h.1
      exact ⟨next, (ih next).mpr h.2⟩

theorem along_true (steps : List α) : Along step (fun _ _ => True) s steps := by
  induction steps generalizing s with
  | nil => trivial
  | cons a rest ih => exact ⟨trivial, ih⟩

theorem reachable_invariant {I : σ → Prop} {init : σ} (hi : I init)
    (keep : ∀ t a, I t → I (step t a)) (h : Reachable step init s) : I s := by
  obtain ⟨steps, rfl⟩ := h
  exact invariant (P := fun _ _ => True) (fun t a ht _ => keep t a ht) hi (along_true steps)

/-- Steps that each lower a rank are no more than the rank they start from. -/
theorem Along.length_le (rank : σ → Nat) (descends : ∀ t a, P t a → rank (step t a) < rank t)
    {steps : List α} (h : Along step P s steps) : steps.length + rank (run step s steps) ≤ rank s := by
  induction steps generalizing s with
  | nil => simp
  | cons a rest ih =>
    have lower := descends s a h.1
    have later := ih h.2
    rw [List.length_cons, run_cons]
    omega

/-- Where each step lowers a rank, taking steps comes to an end. -/
theorem exists_exhausted (rank : σ → Nat) (descends : ∀ t a, P t a → rank (step t a) < rank t) (s : σ) :
    ∃ steps, Along step P s steps ∧ ∀ a, ¬P (run step s steps) a := by
  induction n : rank s using Nat.strongRecOn generalizing s with
  | ind n ih =>
    by_cases more : ∃ a, P s a
    · obtain ⟨a, ha⟩ := more
      obtain ⟨steps, along, last⟩ := ih (rank (step s a)) (n ▸ descends s a ha) (step s a) rfl
      exact ⟨a :: steps, ⟨ha, along⟩, last⟩
    · exact ⟨[], trivial, fun a ha => more ⟨a, ha⟩⟩

theorem leaveOut_concat (drop : Nat → Bool) (steps : List α) (a : α) :
    leaveOut drop (steps ++ [a]) =
      leaveOut drop steps ++ (if drop steps.length then [] else [a]) := by
  unfold leaveOut
  rw [List.zipIdx_append, List.filter_append, List.map_append]
  cases h : drop steps.length <;> simp [h]

/-- Steps that change nothing where they stand can be left out of a run. -/
theorem run_leaveOut {drop : Nat → Bool} {steps : List α}
    (inert : ∀ i a, drop i = true → steps[i]? = some a →
      step (run step s (steps.take i)) a = run step s (steps.take i)) :
    run step s (leaveOut drop steps) = run step s steps := by
  induction steps using List.reverseRecOn with
  | nil => rfl
  | append_singleton steps a ih =>
    have before : run step s (leaveOut drop steps) = run step s steps := by
      apply ih
      intro i b hd hb
      have hi : i < steps.length := (List.getElem?_eq_some_iff.mp hb).1
      have := inert i b hd (by rw [List.getElem?_append_left hi]; exact hb)
      simpa only [List.take_append_of_le_length (Nat.le_of_lt hi)] using this
    rw [leaveOut_concat, run_append, before, run_concat]
    cases hd : drop steps.length with
    | false => rfl
    | true =>
      have := inert steps.length a hd (by simp)
      simpa using this.symm

end

end Runs
