import Warmth.EntrySteps
import Warmth.StaleAuthority

namespace Warmth

open Codec Std TreeMaps

namespace Coordinator

/-- No stored object is of a warmth generation that the coordinator has not reached. -/
def NoFuture (c : Coordinator) : Prop :=
  ∀ (id : WarmthObjectId) (o : WarmthObject), c.objects[id]? = some o →
    o.warmthGen.value ≤ c.warmthGenValue

theorem observedCopy_warmthGen (o : WarmthObject) : (observedCopy o).warmthGen = o.warmthGen := by
  unfold observedCopy
  split <;> simp

theorem reportedUpdate_warmthGen (cur o : WarmthObject) (now : Timestamp) :
    (reportedUpdate cur o now).warmthGen = cur.warmthGen := by
  unfold reportedUpdate
  simp only
  split <;> simp

theorem fenced_warmthGen (o : WarmthObject) (why reason : CString) :
    (fenced o why reason).warmthGen = o.warmthGen := by
  unfold fenced
  simp only [WarmthObject.dropEphemeral_warmthGen]
  split <;> simp

theorem disconnectedObject_warmthGen (policy : DecayPolicy) (now : Timestamp) (o : WarmthObject) :
    (disconnectedObject policy now o).warmthGen = o.warmthGen := by
  unfold disconnectedObject
  simp only [WarmthObject.dropEphemeral_warmthGen]
  split <;> simp

theorem completeObject_warmthGen (c : Coordinator) (res : WarmResult) (now : Nat → Timestamp) :
    (c.completeObject res now).warmthGen = ⟨c.warmthGenValue⟩ := by
  unfold completeObject
  split <;> rfl

theorem Updated.warmthGen {cur next : WarmthObject} (h : Updated cur next) :
    next.warmthGen = cur.warmthGen := h.trait reportedUpdate_warmthGen

end Coordinator

namespace System

open Coordinator

/-- The step is an accepted HELLO or REPORT in which the first entry for an id that the
coordinator does not know is of a generation above the current one. -/
def BringsFuture (s : System) (a : Step) : Prop :=
  ∃ os id o, s.Carries a os ∧ s.coord.objects[id]? = none ∧
    os.find? (fun o => o.id == id) = some o ∧ s.coord.warmthGenValue < o.warmthGen.value

/-- The step takes the generation from 2^64 - 1 to 0 while an object of a positive one is stored. -/
def WrapsWarmth (s : System) (a : Step) : Prop :=
  a.raisesWarmth = true ∧ s.coord.warmthGenValue + 1 = 0 ∧
    ∃ (id : WarmthObjectId) (o : WarmthObject),
      s.coord.objects[id]? = some o ∧ o.warmthGen.value ≠ 0

theorem Carries.raisesWarmth {s : System} {a : Step} {os : List WarmthObject}
    (h : s.Carries a os) : a.raisesWarmth = false := by
  cases h <;> rfl

theorem Completes.raisesWarmth {s : System} {a : Step} {id : WarmthObjectId}
    (h : s.Completes a id) : a.raisesWarmth = false := by
  obtain ⟨cs, f, now, _, _, rfl, _⟩ := h
  rfl

theorem warmthGenValue_of_not_raises {s : System} {a : Step} (h : a.raisesWarmth = false) :
    (s.step a).coord.warmthGenValue = s.coord.warmthGenValue := by
  have := (step_generations s a).1
  rwa [h, if_neg Bool.false_ne_true, UInt64.add_zero] at this

/-- Where the generation of a stored object comes from: the object stored before, the entry that
brought it, or the completion of its warming. -/
theorem stored_warmthGen {s : System} {a : Step} {id : WarmthObjectId} {next : WarmthObject}
    (h : (s.step a).coord.objects[id]? = some next) :
    (∃ cur, s.coord.objects[id]? = some cur ∧ next.warmthGen = cur.warmthGen) ∨
    (∃ os o, s.Carries a os ∧ s.coord.objects[id]? = none ∧
      os.find? (fun o => o.id == id) = some o ∧ next.warmthGen = o.warmthGen) ∨
    (s.Completes a id ∧ next.warmthGen = ⟨s.coord.warmthGenValue⟩) := by
  have touched := touched_step s a id
  rw [h] at touched
  generalize he : some next = entry at touched
  cases touched with
  | same => exact Or.inl ⟨next, he.symm, rfl⟩
  | @copied os o _ carries unknown first updated =>
    cases he
    exact Or.inr (Or.inl ⟨os, o, carries, unknown, first,
      updated.warmthGen.trans (observedCopy_warmthGen o)⟩)
  | updated known updated =>
    cases he
    exact Or.inl ⟨_, known, updated.warmthGen⟩
  | fenced known updated =>
    cases he
    exact Or.inl ⟨_, known, updated.warmthGen.trans (fenced_warmthGen _ _ _)⟩
  | disconnected known =>
    cases he
    exact Or.inl ⟨_, known, disconnectedObject_warmthGen _ _ _⟩
  | completed completes =>
    cases he
    exact Or.inr (Or.inr ⟨completes, completeObject_warmthGen _ _ _⟩)
  | failed known =>
    cases he
    exact Or.inl ⟨_, known, WarmthObject.moveTo_warmthGen _ _ _⟩

theorem known_warmthGen {s : System} {a : Step} {id : WarmthObjectId} {cur : WarmthObject}
    (h : s.coord.objects[id]? = some cur) (raises : a.raisesWarmth = true) :
    ∃ next, (s.step a).coord.objects[id]? = some next ∧ next.warmthGen = cur.warmthGen := by
  cases a with
  | rollEpoch =>
    refine ⟨fenced cur (text "authority roll") (text "coordinator_epoch_rolled"), ?_,
      fenced_warmthGen _ _ _⟩
    have entry : s.coord.rollEpoch.1.objects[id]? = s.coord.objects[id]?.map fun o =>
        fenced o (text "authority roll") (text "coordinator_epoch_rolled") :=
      ExtTreeMap.getElem?_map
    rw [step, after, entry, h, Option.map_some]
  | bumpWarmthGeneration => exact ⟨cur, h, rfl⟩
  | _ => cases raises

theorem not_brings_of_noFuture {s : System} {a : Step} (next : (s.step a).coord.NoFuture) :
    ¬ s.BringsFuture a := by
  rintro ⟨os, id, o, carries, unknown, first, newer⟩
  obtain ⟨stored, entry, updated⟩ := carries.stored unknown first
  have bound := next id stored entry
  rw [updated.warmthGen, observedCopy_warmthGen,
    warmthGenValue_of_not_raises carries.raisesWarmth] at bound
  exact absurd newer (UInt64.not_lt.mpr bound)

theorem not_wraps_of_noFuture {s : System} {a : Step} (next : (s.step a).coord.NoFuture) :
    ¬ s.WrapsWarmth a := by
  rintro ⟨raises, wraps, id, o, entry, positive⟩
  obtain ⟨stored, hs, same⟩ := known_warmthGen entry raises
  have bound := next id stored hs
  rw [same, (step_generations s a).1, raises, if_pos rfl, wraps] at bound
  exact positive (UInt64.le_zero_iff.mp bound)

theorem noFuture_step {s : System} {a : Step} (inv : s.coord.NoFuture)
    (brings : ¬ s.BringsFuture a) (wraps : ¬ s.WrapsWarmth a) : (s.step a).coord.NoFuture := by
  intro id next h
  rcases stored_warmthGen h with ⟨cur, known, same⟩ | ⟨os, o, carries, unknown, first, same⟩ |
    ⟨completes, same⟩
  · have bound := inv id cur known
    rw [same, (step_generations s a).1]
    cases raises : a.raisesWarmth with
    | false => simpa using bound
    | true =>
      by_cases top : s.coord.warmthGenValue + 1 = 0
      · have zero : cur.warmthGen.value = 0 := by
          by_contra positive
          exact wraps ⟨raises, top, id, cur, known, positive⟩
        rw [zero]
        exact UInt64.zero_le
      · rw [if_pos rfl]
        grind
  · rw [same, warmthGenValue_of_not_raises carries.raisesWarmth]
    by_contra newer
    exact brings ⟨os, id, o, carries, unknown, first, UInt64.not_le.mp newer⟩
  · rw [same, warmthGenValue_of_not_raises completes.raisesWarmth]
    exact UInt64.le_refl _

/-- Every state of a run is free of objects from the future exactly if no accepted HELLO or REPORT
of it brings one and no authority operation wraps the generation around. -/
theorem no_object_from_the_future (steps : List Step) :
    Runs.Along step (fun s a => (s.step a).coord.NoFuture) init steps ↔
      Runs.Along step (fun s a => ¬ s.BringsFuture a ∧ ¬ s.WrapsWarmth a) init steps := by
  refine Runs.along_iff_of_step (I := fun s : System => s.coord.NoFuture) (fun s a inv => ?_) ?_
    steps
  · exact ⟨fun h => ⟨not_brings_of_noFuture h, not_wraps_of_noFuture h⟩,
      fun h => noFuture_step inv h.1 h.2⟩
  · intro id o h
    cases h

def survivorHello : Step :=
  .frame 0 (helloFrame { worker := ⟨0, 1⟩, boot := ⟨0, 1⟩, observed := [{ id := ⟨0, 9⟩, warmthGen := ⟨7⟩ }] })
    fun _ => 0

/-- A worker that outlived an earlier coordinator reports what that one had stamped. -/
theorem survivorHello_from_the_future : ¬ ∀ s, Reached s → s.coord.NoFuture := by
  intro h
  have stored : ((init.step survivorHello).coord.objects[(⟨0, 9⟩ : WarmthObjectId)]?).map
      WarmthObject.warmthGen = some ⟨7⟩ := by decide +kernel
  obtain ⟨o, entry, generation⟩ := Option.map_eq_some_iff.mp stored
  have bound := h _ (Runs.reachable_run [survivorHello]) ⟨0, 9⟩ o entry
  rw [generation] at bound
  have current : (init.step survivorHello).coord.warmthGenValue = 0 := by decide +kernel
  have bound : (7 : UInt64) ≤ (init.step survivorHello).coord.warmthGenValue := bound
  rw [current] at bound
  exact absurd bound (by decide)

end System

end Warmth
