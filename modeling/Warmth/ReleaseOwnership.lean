import Warmth.FabricReservations

namespace Warmth

open Codec Std TreeMaps

namespace Reserving

/-- Whatever the fabric's tracker holds was obtained by a call that has passed phase 1, and is held
by a call in progress. -/
structure Traced (s : Reserving) : Prop where
  held : ∀ i ∈ s.fabric.budget.ids, i ∈ s.heldIds
  obtained : ∀ i ∈ s.fabric.budget.ids, s.obtainedBy i < s.passed
  serials : ∀ c ∈ s.calls, c.serial < s.passed

/-- Whichever call executes its phase 3 now frees reservations of its own or none. -/
def FreesOwn (s : Reserving) : Prop :=
  ∀ c ∈ s.calls, ∀ i ∈ s.fabric.budget.ids, i ∉ (s.fabric.budget.releasePair c.held).ids →
    s.obtainedBy i = c.serial

/-- Phase 1 passes with an id that a call in progress still holds. -/
def PassesReusing (s : Reserving) (a : FabricStep) : Prop :=
  ∃ id o, a = .warmBegin id ∧ s.fabric.objects[id]? = some o ∧
    transitionAllowed o.state .preparing = true ∧ s.HandedHeld id

theorem freed_iff {t : BudgetTracker} {r : WarmReservations} {i : UInt64} (h : i ∈ t.ids) :
    i ∉ (t.releasePair r).ids ↔ i ∈ r.ids := by
  rw [BudgetTracker.mem_ids_releasePair, not_and_not_right]
  exact ⟨fun own => own h, fun mem _ => mem⟩

theorem mem_heldIds {s : Reserving} {i : UInt64} :
    i ∈ s.heldIds ↔ ∃ c ∈ s.calls, i ∈ c.held.ids := List.mem_flatMap

theorem no_ids (limits : BudgetLimits) (i : UInt64) : i ∉ ({ limits } : BudgetTracker).ids := by
  intro hi
  obtain ⟨r, hr⟩ := BudgetTracker.mem_ids.mp hi
  cases hr

theorem traced_start (cfg : FabricConfig) : (start cfg).Traced :=
  ⟨fun i hi => absurd hi (no_ids _ i), fun i hi => absurd hi (no_ids _ i), nofun⟩

theorem Traced.step {s : Reserving} (inv : s.Traced) (a : FabricStep) : (s.step a).Traced := by
  have moved := moved_step s a
  generalize s.step a = t at moved
  cases moved with
  | same budget =>
    exact ⟨fun i hi => inv.held i (by rwa [← budget]),
      fun i hi => inv.obtained i (by rwa [← budget]), inv.serials⟩
  | recover =>
    exact ⟨fun i hi => absurd hi (no_ids _ i), fun i hi => absurd hi (no_ids _ i), inv.serials⟩
  | turnBack =>
    have kept : ∀ i ∈ (s.fabric.budget.taken.releasePair s.fabric.budget.nextPair).ids,
        i ∈ s.fabric.budget.ids := by
      intro i hi
      obtain ⟨taken, spared⟩ := BudgetTracker.mem_ids_releasePair.mp hi
      exact (BudgetTracker.mem_ids_taken.mp taken).resolve_left spared
    exact ⟨fun i hi => inv.held i (kept i hi), fun i hi => inv.obtained i (kept i hi), inv.serials⟩
  | @pass id o object device edge =>
    constructor
    · intro i hi
      rw [heldIds_pass, List.mem_append]
      exact (BudgetTracker.mem_ids_taken.mp hi).symm.imp_left (inv.held i)
    · intro i hi
      simp only [pass]
      split
      next => exact Nat.lt_succ_self _
      next old =>
        have before : i ∈ s.fabric.budget.ids := by
          rcases BudgetTracker.mem_ids_taken.mp hi with handed | before
          · by_contra absent
            exact old ⟨handed, absent⟩
          · exact before
        exact Nat.lt_succ_of_lt (inv.obtained i before)
    · intro c hc
      rcases List.mem_append.mp hc with hc | hc
      · exact Nat.lt_succ_of_lt (inv.serials c hc)
      · cases List.mem_singleton.mp hc
        exact Nat.lt_succ_self _
  | @finish k outcome now c f call budget =>
    have kept : ∀ i ∈ f.budget.ids, i ∈ s.fabric.budget.ids ∧ i ∉ c.held.ids := by
      intro i hi
      rw [budget] at hi
      exact BudgetTracker.mem_ids_releasePair.mp hi
    refine ⟨fun i hi => ?_, fun i hi => inv.obtained i (kept i hi).1,
      fun d hd => inv.serials d (List.mem_of_mem_eraseIdx hd)⟩
    have held := (heldIds_finish call f).mem_iff.mp (inv.held i (kept i hi).1)
    exact (List.mem_append.mp held).resolve_left (kept i hi).2

theorem pass_obtainedBy {s : Reserving} {i : UInt64} {held : WarmReservations}
    (handed : i ∈ held.ids) (absent : i ∉ s.fabric.budget.ids) (f : WarmthFabric)
    (id : WarmthObjectId) : (s.pass f id held).obtainedBy i = s.passed :=
  if_pos ⟨handed, absent⟩

theorem pass_obtainedBy_old {s : Reserving} {i : UInt64} {held : WarmReservations}
    (old : i ∉ held.ids ∨ i ∈ s.fabric.budget.ids) (f : WarmthFabric) (id : WarmthObjectId) :
    (s.pass f id held).obtainedBy i = s.obtainedBy i :=
  if_neg fun both => old.elim (fun h => h both.1) fun h => both.2 h

theorem freesOwn_start (cfg : FabricConfig) : (start cfg).FreesOwn := nofun

theorem FreesOwn.step {s : Reserving} {a : FabricStep} (traced : s.Traced) (inv : s.FreesOwn)
    (h : ¬ s.PassesReusing a) : (s.step a).FreesOwn := by
  have moved := moved_step s a
  generalize s.step a = t at moved
  cases moved with
  | same budget =>
    intro c hc i hi
    rw [budget] at hi ⊢
    exact inv c hc i hi
  | recover => exact fun c hc i hi => absurd hi (no_ids _ i)
  | turnBack =>
    intro c hc i hi freed
    obtain ⟨taken, spared⟩ := BudgetTracker.mem_ids_releasePair.mp hi
    have before := (BudgetTracker.mem_ids_taken.mp taken).resolve_left spared
    exact inv c hc i before ((freed_iff before).mpr ((freed_iff hi).mp freed))
  | @pass id o object device edge =>
    have fresh : ∀ i ∈ s.fabric.budget.nextPair.ids, i ∉ s.heldIds := fun i hi held =>
      h ⟨id, o, rfl, object, edge, by simp [object], device, i, hi, held⟩
    intro c hc i hi freed
    have own := (freed_iff hi).mp freed
    rcases List.mem_append.mp hc with hc | hc
    · -- a call that was in progress before holds none of the ids just handed out
      have old : i ∉ s.fabric.budget.nextPair.ids := fun handed =>
        fresh i handed (mem_heldIds.mpr ⟨c, hc, own⟩)
      have before := (BudgetTracker.mem_ids_taken.mp hi).resolve_left old
      rw [pass_obtainedBy_old (Or.inl old)]
      exact inv c hc i before ((freed_iff before).mpr own)
    · cases List.mem_singleton.mp hc
      have absent : i ∉ s.fabric.budget.ids := fun before => fresh i own (traced.held i before)
      exact pass_obtainedBy own absent _ _
  | @finish k outcome now c f call budget =>
    intro d hd i hi freed
    have own := (freed_iff hi).mp freed
    simp only [budget] at hi
    have before := (BudgetTracker.mem_ids_releasePair.mp hi).1
    exact inv d (List.mem_of_mem_eraseIdx hd) i before ((freed_iff before).mpr own)

/-- With a reused id, either the older holder frees the new call's reservation or the new call the
older one's. -/
theorem PassesReusing.not_freesOwn {s : Reserving} {a : FabricStep} (traced : s.Traced)
    (h : s.PassesReusing a) : ¬ (s.step a).FreesOwn := by
  obtain ⟨id, o, rfl, object, edge, _, device, i, handed, held⟩ := h
  rw [step_warmBegin object device, if_pos edge]
  intro inv
  have taken : i ∈ s.fabric.budget.taken.ids := BudgetTracker.mem_ids_taken.mpr (Or.inl handed)
  by_cases before : i ∈ s.fabric.budget.ids
  · have own := inv ⟨id, s.fabric.budget.nextPair, s.passed⟩ (by simp [pass]) i taken
      ((freed_iff taken).mpr handed)
    rw [pass_obtainedBy_old (Or.inr before)] at own
    exact Nat.ne_of_lt (traced.obtained i before) own
  · obtain ⟨c, hc, older⟩ := mem_heldIds.mp held
    have own := inv c (List.mem_append_left _ hc) i taken ((freed_iff taken).mpr older)
    rw [pass_obtainedBy handed before] at own
    exact Nat.ne_of_gt (traced.serials c hc) own

/-- Releases hit their own reservation in exactly the interleavings, recoveries included, in which
no phase 1 passes with an id that a call in progress still holds. -/
theorem releases_hit_own (cfg : FabricConfig) (steps : List FabricStep) :
    Runs.Along step (fun s a => (s.step a).FreesOwn) (start cfg) steps ↔
      Runs.Along step (fun s a => ¬ s.PassesReusing a) (start cfg) steps := by
  constructor
  · exact Runs.along_of_invariant (I := Traced) (fun _ a inv _ => inv.step a)
      (fun _ _ traced own reuses => reuses.not_freesOwn traced own) (traced_start cfg)
  · exact Runs.along_of_invariant (I := fun s => s.Traced ∧ s.FreesOwn)
      (fun _ a inv h => ⟨inv.1.step a, inv.2.step inv.1 h⟩)
      (fun _ _ inv h => inv.2.step inv.1 h) ⟨traced_start cfg, freesOwn_start cfg⟩

/-- A call begins, the fabric is recovered from a file, and a call begins on the recovered object:
the new tracker hands out the ids 1 and 2 again. -/
def recoveredBetween (file : FileContents) : List FabricStep :=
  [.upsert { id := ⟨0, 1⟩ }, .warmBegin ⟨0, 1⟩, .recover file, .warmBegin ⟨0, 1⟩]

theorem recoveredBetween_frees_other :
    ¬ ∀ (cfg : FabricConfig) s, Runs.Reachable step (start cfg) s → s.FreesOwn := by
  intro always
  obtain ⟨bytes, decodes⟩ := WarmthFabric.oneObject_decodes .warm
  have own := always {} _ (Runs.reachable_run (recoveredBetween (.ok bytes)))
  let s := Runs.run step (start {}) [.upsert { id := ⟨0, 1⟩ }, .warmBegin ⟨0, 1⟩]
  let t : Reserving := { s with fabric := s.fabric.restore (WarmthFabric.oneObject .warm) }
  have recover : s.step (.recover (.ok bytes)) = t := by
    rw [step, WarmthFabric.recover_ok decodes]
  have traced : t.Traced :=
    recover ▸ (((traced_start {}).step (.upsert { id := ⟨0, 1⟩ })).step (.warmBegin ⟨0, 1⟩)).step _
  have object : t.fabric.objects[(⟨0, 1⟩ : WarmthObjectId)]? =
      some (recovered { id := ⟨0, 1⟩, state := .warm }) :=
    WarmthFabric.restore_getElem?_of_mem (WarmthFabric.oneObject_wellFormed .warm).distinct
      List.mem_cons_self
  have reuses : t.PassesReusing (.warmBegin ⟨0, 1⟩) := by
    refine ⟨⟨0, 1⟩, _, rfl, object, by rw [recovered_state]; rfl, by rw [object]; rfl, ?_, 1, ?_, ?_⟩
    · exact BudgetTracker.fits_unlimited rfl _
    · decide
    · decide +kernel
  apply reuses.not_freesOwn traced
  rw [← recover]
  exact own

end Reserving

end Warmth
