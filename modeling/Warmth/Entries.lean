import Warmth.SystemSteps

namespace Warmth

open Codec Std TreeMaps

namespace Coordinator

/-- A stored object after some REPORT entries for it, one applied after the other. -/
inductive Updated : WarmthObject → WarmthObject → Prop
  | refl (o : WarmthObject) : Updated o o
  | report {cur next : WarmthObject} (o : WarmthObject) (now : Timestamp)
      (later : Updated (reportedUpdate cur o now) next) : Updated cur next

/-- One turn of a loop over a peer's objects: an object of a new id is copied in, a known one
stays or takes the report over, and the others are left alone. -/
structure Visit (c c' : Coordinator) (o : WarmthObject) : Prop where
  new : c.objects[o.id]? = none → c'.objects[o.id]? = some (observedCopy o)
  known : ∀ cur, c.objects[o.id]? = some cur → ∃ next, c'.objects[o.id]? = some next ∧
    (next = cur ∨ ∃ now, next = reportedUpdate cur o now)
  others : ∀ id, id ≠ o.id → c'.objects[id]? = c.objects[id]?

theorem observe_visit (w : WorkerId) (c : Coordinator) (o : WarmthObject) :
    Visit c (observe w c o) o := by
  cases h : c.objects[o.id]? with
  | none =>
    have objects : (observe w c o).objects = c.objects.insert o.id (observedCopy o) := by
      simp only [observe, h]
      rfl
    refine ⟨fun _ => ?_, fun cur hc => ?_, fun id hne => ?_⟩
    · rw [objects]; exact ExtTreeMap.getElem?_insert_self
    · rw [h] at hc; cases hc
    · rw [objects]; exact getElem?_insert_of_ne hne
  | some cur =>
    have objects : (observe w c o).objects = c.objects := by
      simp only [observe, h]
      rfl
    refine ⟨fun hn => ?_, fun cur' hc => ⟨cur', by rw [objects]; exact hc, Or.inl rfl⟩,
      fun id _ => ?_⟩
    · rw [h] at hn; cases hn
    · rw [objects]

theorem report_visit (w : WorkerId) (c : Coordinator) (o : WarmthObject) (now : Timestamp) :
    Visit c (c.report w o now) o := by
  cases h : c.objects[o.id]? with
  | none =>
    have objects : (c.report w o now).objects = c.objects.insert o.id (observedCopy o) := by
      simp only [report, h]
      rfl
    refine ⟨fun _ => ?_, fun cur hc => ?_, fun id hne => ?_⟩
    · rw [objects]; exact ExtTreeMap.getElem?_insert_self
    · rw [h] at hc; cases hc
    · rw [objects]; exact getElem?_insert_of_ne hne
  | some cur =>
    have objects : (c.report w o now).objects =
        c.objects.insert o.id (reportedUpdate cur o now) := by
      simp only [report, h]
      rfl
    refine ⟨fun hn => ?_, fun cur' hc => ?_, fun id hne => ?_⟩
    · rw [h] at hn; cases hn
    · rw [h] at hc
      cases hc
      exact ⟨_, by rw [objects]; exact ExtTreeMap.getElem?_insert_self, Or.inr ⟨now, rfl⟩⟩
    · rw [objects]; exact getElem?_insert_of_ne hne

section
variable {β : Type} {f : Coordinator → β → Coordinator} {g : β → WarmthObject}

theorem foldl_visit_known (visit : ∀ c b, Visit c (f c b) (g b)) {l : List β} {c : Coordinator}
    {id : WarmthObjectId} {cur : WarmthObject} (h : c.objects[id]? = some cur) :
    ∃ next, (l.foldl f c).objects[id]? = some next ∧ Updated cur next := by
  induction l generalizing c cur with
  | nil => exact ⟨cur, h, .refl cur⟩
  | cons b l ih =>
    rw [List.foldl_cons]
    by_cases hid : id = (g b).id
    · subst hid
      obtain ⟨mid, hm, rfl | ⟨now, rfl⟩⟩ := (visit c b).known cur h
      · exact ih hm
      · obtain ⟨next, hn, updated⟩ := ih hm
        exact ⟨next, hn, .report (g b) now updated⟩
    · exact ih (((visit c b).others id hid).trans h)

theorem foldl_visit_new (visit : ∀ c b, Visit c (f c b) (g b)) {l : List β} {c : Coordinator}
    {id : WarmthObjectId} (h : c.objects[id]? = none) :
    ((l.map g).find? (fun o => o.id == id) = none ∧ (l.foldl f c).objects[id]? = none) ∨
    ∃ o next, (l.map g).find? (fun o => o.id == id) = some o ∧
      (l.foldl f c).objects[id]? = some next ∧ Updated (observedCopy o) next := by
  induction l generalizing c with
  | nil => exact Or.inl ⟨rfl, h⟩
  | cons b l ih =>
    rw [List.foldl_cons, List.map_cons, List.find?_cons]
    by_cases hid : id = (g b).id
    · subst hid
      rw [beq_self_eq_true]
      obtain ⟨next, hn, updated⟩ := foldl_visit_known visit (l := l) ((visit c b).new h)
      exact Or.inr ⟨g b, next, rfl, hn, updated⟩
    · rw [beq_false_of_ne (Ne.symm hid)]
      exact ih (((visit c b).others id hid).trans h)

end

/-- A trait of an object that no report changes is the same after any number of them. -/
theorem Updated.trait {α : Type} {g : WarmthObject → α} {cur next : WarmthObject}
    (stable : ∀ cur o now, g (reportedUpdate cur o now) = g cur) (h : Updated cur next) :
    g next = g cur := by
  induction h with
  | refl => rfl
  | report o now _ ih => rw [ih, stable]

end Coordinator

end Warmth
