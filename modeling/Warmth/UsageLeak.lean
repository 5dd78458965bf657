import Warmth.Admission
import Warmth.BudgetLedger

namespace Warmth

open Codec Std TreeMaps

namespace BudgetTracker

section
variable {t : BudgetTracker} {kind : WarmthBudgetKind} {amount : UInt64} {tag : CString}

/-- An id that is outstanding keeps its entry when it is handed out again. -/
theorem grant_get_of_mem {i : UInt64} {r : Res} (h : t.reservations[i]? = some r) :
    (t.grant kind amount tag).reservations[i]? = some r := by
  by_cases hi : i = t.takeId.1
  · subst hi
    have known : t.takeId.1 ∈ t.reservations := mem_ids_iff.mp (mem_ids.mpr ⟨r, h⟩)
    rw [grant, ExtTreeMap.getElem?_insertIfNew, if_neg fun new => new.2 known, h]
  · rw [grant_get_of_ne hi, h]

theorem grant_get_cases {i : UInt64} {r : Res}
    (h : (t.grant kind amount tag).reservations[i]? = some r) :
    t.reservations[i]? = some r ∨ i = t.takeId.1 ∧ r = ⟨kind, amount, tag⟩ := by
  cases before : t.reservations[i]? with
  | some r' => exact Or.inl ((grant_get_of_mem before).symm.trans h)
  | none =>
    by_cases hi : i = t.takeId.1
    · subst hi
      have fresh : t.takeId.1 ∉ t.ids := fun mem => by
        obtain ⟨r', held⟩ := mem_ids.mp mem
        rw [before] at held
        cases held
      rw [grant_get_self fresh] at h
      exact Or.inr ⟨rfl, (Option.some.inj h).symm⟩
    · rw [grant_get_of_ne hi, before] at h
      cases h

theorem release_get_self {i : UInt64} (h : i ≠ 0) : (t.release i).2.reservations[i]? = none := by
  cases after : (t.release i).2.reservations[i]? with
  | none => rfl
  | some r =>
    have left := (mem_ids_release h).mp (mem_ids.mpr ⟨r, after⟩)
    exact absurd rfl left.2

end

/-- One warming operation is allowed at a time and is counted, under the id 2; all else that is
outstanding is device memory, of which the counter shows `units` times what warming takes. -/
structure Leaking (t : BudgetTracker) (units : Nat) : Prop where
  limits : t.limits = { concurrentWarmingOps := 1 }
  op : t.usage .concurrentWarmingOps = 1
  device : (t.usage .deviceMemory).toNat = units * 2 ^ 30
  counted : ∃ r, t.reservations[(2 : UInt64)]? = some r ∧ r.kind = .concurrentWarmingOps
  rest : ∀ (i : UInt64) (r : Res), t.reservations[i]? = some r → i ≠ 2 →
    i ≠ 0 ∧ r.kind = .deviceMemory ∧ r.amount = kDefaultWarmBytes

section
variable {t : BudgetTracker} {units : Nat}

theorem Leaking.fitsDevice (h : t.Leaking units) : t.fitsDevice = true :=
  fits_unlimited (by rw [h.limits]; rfl) _

theorem Leaking.fitsOp (h : t.Leaking units) : t.fitsOp = false := by
  simp only [BudgetTracker.fitsOp, fits, h.limits, h.op]
  decide

theorem Leaking.taken_eq (h : t.Leaking units) :
    t.taken = t.grant .deviceMemory kDefaultWarmBytes (text "warm") := by
  simp [BudgetTracker.taken, h.fitsOp]

/-- A call that passes counts one unit more, also under an id that is outstanding. -/
theorem Leaking.taken (h : t.Leaking units) (room : units + 1 < 2 ^ 34) :
    t.taken.Leaking (units + 1) := by
  have bits : (t.usage .deviceMemory).toNat + kDefaultWarmBytes.toNat < 2 ^ 64 := by
    rw [h.device, kDefaultWarmBytes_toNat]
    omega
  obtain ⟨r, entry, kind⟩ := h.counted
  refine ⟨t.taken_limits.trans h.limits, ?_, ?_, ⟨r, ?_, kind⟩, ?_⟩
  · rw [h.taken_eq, grant_usage_of_ne (by decide), h.op]
  · rw [h.taken_eq, usage_grant bits, h.device, kDefaultWarmBytes_toNat, if_pos rfl]
    omega
  · rw [h.taken_eq]
    exact grant_get_of_mem entry
  · intro i r entry other
    rw [h.taken_eq] at entry
    rcases grant_get_cases entry with before | ⟨rfl, rfl⟩
    · exact h.rest i r before other
    · exact ⟨t.takeId_ne_zero, rfl, rfl⟩

/-- A call that is turned back frees whatever its id stands for and leaves the counters alone. -/
theorem Leaking.turnedBack (h : t.Leaking units) (room : units + 1 < 2 ^ 34)
    (spared : t.takeId.1 ≠ 2) :
    (t.taken.releasePair t.nextPair).Leaking units ∧
      ∀ i : UInt64, (t.taken.releasePair t.nextPair).reservations[i]? =
        if i = t.takeId.1 then none else t.reservations[i]? := by
  have passed := h.taken room
  have entered : t.takeId.1 ∈ t.taken.ids := by
    rw [h.taken_eq]
    exact mem_ids_grant.mpr (Or.inl rfl)
  obtain ⟨r, entry⟩ := mem_ids.mp entered
  obtain ⟨nonzero, kind, amount⟩ := passed.rest _ r entry spared
  rw [turnedBack_single h.fitsOp]
  have entries (i : UInt64) : (t.taken.release t.takeId.1).2.reservations[i]? =
      if i = t.takeId.1 then none else t.reservations[i]? := by
    split
    next same =>
      subst same
      exact release_get_self nonzero
    next other => rw [release_get_of_ne other, h.taken_eq, grant_get_of_ne other]
  have usage := release_usage entry nonzero
  rw [kind, amount, kDefaultWarmBytes_toNat] at usage
  refine ⟨⟨?_, ?_, ?_, ?_, ?_⟩, entries⟩
  · rw [release_frame]
    exact passed.limits
  · apply UInt64.toNat_inj.mp
    rw [usage, passed.op]
    rfl
  · rw [usage, passed.device, if_pos rfl]
    omega
  · rw [entries, if_neg spared.symm]
    exact h.counted
  · intro i r left other
    rw [entries] at left
    split at left
    next => cases left
    next => exact h.rest i r left other

theorem releasePair_takeId (t : BudgetTracker) (r : WarmReservations) :
    (t.releasePair r).takeId.1 = t.takeId.1 := by
  rw [releasePair_frame]
  unfold takeId
  dsimp only
  split <;> rfl

theorem Leaking.taken_next (h : t.Leaking units) {d : Nat}
    (next : t.takeId.1.toNat = d % idCycle + 1) :
    t.taken.takeId.1.toNat = (d + 1) % idCycle + 1 := by
  rw [h.taken_eq]
  exact grant_takeId_next next _ _ _

/-- The counter shows units of device memory of which none is outstanding. -/
structure Spilled (t : BudgetTracker) (units : Nat) : Prop where
  limits : t.limits = { concurrentWarmingOps := 1 }
  device : (t.usage .deviceMemory).toNat = units * 2 ^ 30
  others : ∀ (i : UInt64) (r : Res), t.reservations[i]? = some r → r.kind ≠ .deviceMemory

theorem Spilled.release (h : t.Spilled units) (i : UInt64) : (t.release i).2.Spilled units := by
  by_cases zero : i = 0
  · subst zero
    exact h
  · cases held : t.reservations[i]? with
    | none =>
      have same : (t.release i).2 = t := by simp [BudgetTracker.release, zero, held]
      rw [same]
      exact h
    | some r =>
      have usage := release_usage held zero .deviceMemory
      rw [if_neg (h.others i r held).symm, h.device] at usage
      refine ⟨?_, usage, fun j r' left => ?_⟩
      · rw [release_frame]
        exact h.limits
      · by_cases same : j = i
        · rw [same, release_get_self zero] at left
          cases left
        · rw [release_get_of_ne same] at left
          exact h.others j r' left

theorem Spilled.releasePair (h : t.Spilled units) (r : WarmReservations) :
    (t.releasePair r).Spilled units := by
  unfold BudgetTracker.releasePair
  simp only
  split
  · exact (h.release _).release _
  · exact h.release _

end

end BudgetTracker

namespace Reserving

/-- A fabric whose budget leaks, with an object that a call may warm and one that turns every
call back; the next id is the one after `d` others. -/
structure Leaking (s : Reserving) (units d : Nat) : Prop where
  budget : s.fabric.budget.Leaking units
  next : s.fabric.budget.takeId.1.toNat = d % idCycle + 1
  warmable : ∃ o, s.fabric.objects[(⟨0, 1⟩ : WarmthObjectId)]? = some o ∧
    transitionAllowed o.state .preparing = true
  failed : ∃ o, s.fabric.objects[(⟨0, 2⟩ : WarmthObjectId)]? = some o ∧
    transitionAllowed o.state .preparing = false

section
variable {s : Reserving} {units d : Nat}

theorem Leaking.pass (h : s.Leaking units d) (room : units + 1 < 2 ^ 34) :
    (s.step (.warmBegin ⟨0, 1⟩)).Leaking (units + 1) (d + 1) ∧
      (s.step (.warmBegin ⟨0, 1⟩)).fabric.budget = s.fabric.budget.taken ∧
      (s.step (.warmBegin ⟨0, 1⟩)).calls.length = s.calls.length + 1 := by
  obtain ⟨o, object, edge⟩ := h.warmable
  rw [step_warmBegin object h.budget.fitsDevice, if_pos edge]
  refine ⟨⟨h.budget.taken room, h.budget.taken_next h.next, ?_, ?_⟩, rfl, pass_length s _ _ _⟩
  · refine ⟨_, ExtTreeMap.getElem?_insert_self, ?_⟩
    rw [WarmthObject.moveTo_state, if_pos edge]
    rfl
  · obtain ⟨turned, other, away⟩ := h.failed
    exact ⟨turned, (getElem?_insert_of_ne (by decide)).trans other, away⟩

theorem Leaking.passes (h : s.Leaking units d) {k : Nat} (room : units + k < 2 ^ 34) :
    (Runs.run step s (List.replicate k (.warmBegin ⟨0, 1⟩))).Leaking (units + k) (d + k) ∧
      (Runs.run step s (List.replicate k (.warmBegin ⟨0, 1⟩))).calls.length =
        s.calls.length + k := by
  induction k with
  | zero => exact ⟨h, rfl⟩
  | succ k ih =>
    obtain ⟨leaking, length⟩ := ih (by omega)
    obtain ⟨next, -, one⟩ := leaking.pass (by omega)
    rw [List.replicate_succ', Runs.run_concat]
    exact ⟨next, by omega⟩

theorem Leaking.turnBack (h : s.Leaking units d) (room : units + 1 < 2 ^ 34)
    (spared : d % idCycle ≠ 1) :
    (s.step (.warmBegin ⟨0, 2⟩)).Leaking units (d + 1) ∧
      (s.step (.warmBegin ⟨0, 2⟩)).calls = s.calls ∧
      ∀ i : UInt64, (s.step (.warmBegin ⟨0, 2⟩)).fabric.budget.reservations[i]? =
        if i = s.fabric.budget.takeId.1 then none else s.fabric.budget.reservations[i]? := by
  obtain ⟨o, object, edge⟩ := h.failed
  have other : s.fabric.budget.takeId.1 ≠ 2 := by
    intro two
    have next := h.next
    rw [two] at next
    have number : (2 : UInt64).toNat = 2 := rfl
    omega
  obtain ⟨leaking, entries⟩ := h.budget.turnedBack room other
  rw [step_warmBegin object h.budget.fitsDevice, edge]
  refine ⟨⟨leaking, ?_, h.warmable, h.failed⟩, rfl, entries⟩
  exact (congrArg UInt64.toNat (BudgetTracker.releasePair_takeId _ _)).trans
    (h.budget.taken_next h.next)

/-- Calls that are turned back, as long as none of them is handed the id 2, free every id they
are handed and leave the rest alone. -/
theorem Leaking.sweep (h : s.Leaking units d) (room : units + 1 < 2 ^ 34) {k : Nat}
    (spared : ∀ j < k, (d + j) % idCycle ≠ 1) :
    (Runs.run step s (List.replicate k (.warmBegin ⟨0, 2⟩))).Leaking units (d + k) ∧
      (Runs.run step s (List.replicate k (.warmBegin ⟨0, 2⟩))).calls = s.calls ∧
      ∀ (i : UInt64) (j : Nat), j < k → i.toNat = (d + j) % idCycle + 1 →
        (Runs.run step s (List.replicate k (.warmBegin ⟨0, 2⟩))).fabric.budget.reservations[i]? =
          none := by
  induction k with
  | zero => exact ⟨h, rfl, fun i j small => absurd small (Nat.not_lt_zero j)⟩
  | succ k ih =>
    obtain ⟨leaking, calls, freed⟩ := ih fun j small => spared j (by omega)
    obtain ⟨next, same, entries⟩ := leaking.turnBack room (spared k (by omega))
    rw [List.replicate_succ', Runs.run_concat]
    refine ⟨next, same.trans calls, fun i j small number => ?_⟩
    rw [entries]
    split
    next => rfl
    next other =>
      refine freed i j ?_ number
      have last : j ≠ k := by
        rintro rfl
        exact other (UInt64.toNat_inj.mp (number.trans leaking.next.symm))
      omega

theorem finish_spilled (h : s.fabric.budget.Spilled units) (outcome : WarmOutcome)
    (now : Nat → Timestamp) :
    (s.step (.warmFinish 0 outcome now)).fabric.budget.Spilled units ∧
      (s.step (.warmFinish 0 outcome now)).calls = s.calls.tail := by
  simp only [step]
  split
  next absent =>
    have empty : s.calls = [] := by simpa using absent
    exact ⟨h, by rw [empty]; rfl⟩
  next c call =>
    dsimp only
    rw [warmFinish_budget]
    exact ⟨h.releasePair _, List.eraseIdx_zero⟩

/-- Finishing all calls gives none of the units back. -/
theorem finishAll_spilled (h : s.fabric.budget.Spilled units) (outcome : WarmOutcome)
    (now : Nat → Timestamp) (k : Nat) :
    (Runs.run step s (List.replicate k (.warmFinish 0 outcome now))).fabric.budget.Spilled units ∧
      (Runs.run step s (List.replicate k (.warmFinish 0 outcome now))).calls = s.calls.drop k := by
  induction k with
  | zero => exact ⟨h, rfl⟩
  | succ k ih =>
    obtain ⟨spilled, calls⟩ := ih
    rw [List.replicate_succ', Runs.run_concat]
    obtain ⟨next, tail⟩ := finish_spilled spilled outcome now
    exact ⟨next, by rw [tail, calls, List.tail_drop]⟩

end

/-- A fabric that may run one warming operation at once, with no other limit. -/
def oneAtATime : FabricConfig := { policy := { budgets := { concurrentWarmingOps := 1 } } }

def turnedAway : WarmthObject := { id := ⟨0, 2⟩, state := .failed }

def firstCall : List FabricStep :=
  [.upsert { id := ⟨0, 1⟩ }, .upsert turnedAway, .warmBegin ⟨0, 1⟩]

theorem leaking_firstCall : (Runs.run step (start oneAtATime) firstCall).Leaking 1 2 := by
  have entered : (Runs.run step (start oneAtATime) firstCall).fabric.budget =
      ((start oneAtATime).fabric.budget.grant .deviceMemory kDefaultWarmBytes (text "warm")).grant
        .concurrentWarmingOps 1 (text "warm") := rfl
  have edges (id : WarmthObjectId) (edge : Bool)
      (h : ((Runs.run step (start oneAtATime) firstCall).fabric.objects[id]?.map fun o =>
        transitionAllowed o.state .preparing) = some edge) :
      ∃ o, (Runs.run step (start oneAtATime) firstCall).fabric.objects[id]? = some o ∧
        transitionAllowed o.state .preparing = edge := Option.map_eq_some_iff.mp h
  refine ⟨⟨rfl, by decide +kernel, by decide +kernel, ?_, fun i r entry other => ?_⟩,
    by decide +kernel, edges _ _ (by decide +kernel), edges _ _ (by decide +kernel)⟩
  · exact ⟨⟨.concurrentWarmingOps, 1, text "warm"⟩, by decide +kernel, rfl⟩
  · rw [entered] at entry
    rcases BudgetTracker.grant_get_cases entry with before | ⟨rfl, -⟩
    · rcases BudgetTracker.grant_get_cases before with never | ⟨rfl, rfl⟩
      · cases never
      · exact ⟨BudgetTracker.takeId_ne_zero _, rfl, rfl⟩
    · exact absurd rfl other

theorem step_run (s : Reserving) (steps : List FabricStep) (a : FabricStep) :
    (Runs.run step s steps).step a = Runs.run step s (steps ++ [a]) :=
  (Runs.run_concat steps a).symm

/-- Once around the ids, from the id 3 to the id 1, only the reservation under the id 2 is left. -/
theorem Leaking.lap {s : Reserving} {units d l : Nat} (h : s.Leaking units d)
    (room : units + 1 < 2 ^ 34) (third : d % idCycle = 2) (lap : l + 1 = idCycle) :
    (Runs.run step s (List.replicate l (.warmBegin ⟨0, 2⟩))).Leaking units (d + l) ∧
      (Runs.run step s (List.replicate l (.warmBegin ⟨0, 2⟩))).calls = s.calls ∧
      ∀ (i : UInt64) (r : Res),
        (Runs.run step s (List.replicate l (.warmBegin ⟨0, 2⟩))).fabric.budget.reservations[i]? =
          some r → i = 2 := by
  unfold idCycle at lap third
  obtain ⟨leaking, calls, freed⟩ := h.sweep room (k := l) fun j small => by
    unfold idCycle
    omega
  refine ⟨leaking, calls, fun i r entry => ?_⟩
  by_contra other
  have nonzero : i.toNat ≠ 0 := fun zero =>
    (leaking.budget.rest i r entry other).1 (UInt64.toNat_inj.mp zero)
  have spared : i.toNat ≠ 2 := fun two => other (UInt64.toNat_inj.mp two)
  have bits := i.toNat_lt
  -- the id `i` was the one of the call at this place of the lap
  have handed : ∃ j, j < l ∧ i.toNat = (d + j) % idCycle + 1 := by
    unfold idCycle
    by_cases one : i.toNat = 1
    · exact ⟨l - 1, by omega, by omega⟩
    · exact ⟨i.toNat - 3, by omega, by omega⟩
  obtain ⟨j, small, number⟩ := handed
  rw [freed i j small number] at entry
  cases entry

/-- The calls that pass while only the id 2 is outstanding, and are handed that id, spill. -/
theorem Leaking.spill {s : Reserving} {units d : Nat} (h : s.Leaking units d)
    (room : units + 1 < 2 ^ 34) (second : d % idCycle = 1)
    (alone : ∀ (i : UInt64) (r : Res), s.fabric.budget.reservations[i]? = some r → i = 2) :
    (s.step (.warmBegin ⟨0, 1⟩)).fabric.budget.Spilled (units + 1) := by
  obtain ⟨leaking, budget, -⟩ := h.pass room
  refine ⟨leaking.budget.limits, leaking.budget.device, fun i r entry => ?_⟩
  have two : i = 2 := by
    rw [budget, h.budget.taken_eq] at entry
    rcases BudgetTracker.grant_get_cases entry with before | ⟨rfl, -⟩
    · exact alone i r before
    · apply UInt64.toNat_inj.mp
      rw [h.next, second]
      rfl
  obtain ⟨r', counted, kind⟩ := leaking.budget.counted
  rw [two, counted] at entry
  cases entry
  rw [kind]
  decide

/-- The calls that count `k + 3` units, `m` and `l` calls that are turned back before the id 2
comes up again, and the end of all calls. -/
def leakingRun (k m l : Nat) : List FabricStep :=
  firstCall ++ List.replicate k (.warmBegin ⟨0, 1⟩) ++ List.replicate m (.warmBegin ⟨0, 2⟩) ++
    [.warmBegin ⟨0, 1⟩] ++ List.replicate l (.warmBegin ⟨0, 2⟩) ++ [.warmBegin ⟨0, 1⟩] ++
    List.replicate (k + 3) (.warmFinish 0 (syntheticWarm ⟨0⟩) fun _ => 5) ++ [.upsert turnedAway]

/-- Up to the last unit that the counter holds, device memory is counted for good: no call is in
progress and the counter shows `k + 3` units. -/
theorem leakingRun_spills {k m l : Nat} (room : k + 3 < 2 ^ 34) (rest : m + k + 1 = idCycle)
    (lap : l + 1 = idCycle) :
    (Runs.run step (start oneAtATime) (leakingRun k m l)).calls = [] ∧
      (Runs.run step (start oneAtATime) (leakingRun k m l)).fabric.budget.Spilled (k + 3) ∧
      (Runs.run step (start oneAtATime) (leakingRun k m l)).fabric.objects[turnedAway.id]? =
        some turnedAway := by
  have one : (Runs.run step (start oneAtATime) firstCall).calls.length = 1 := rfl
  obtain ⟨passed, many⟩ := leaking_firstCall.passes (k := k) (by omega)
  rw [← Runs.run_append] at passed many
  obtain ⟨swept, calls, -⟩ := passed.sweep (k := m) (by omega) fun j small => by
    unfold idCycle at rest ⊢
    omega
  rw [← Runs.run_append] at swept calls
  obtain ⟨again, -, more⟩ := swept.pass (by omega)
  rw [step_run] at again more
  have third : (2 + k + m + 1) % idCycle = 2 := by
    unfold idCycle at rest ⊢
    omega
  obtain ⟨around, same, alone⟩ := again.lap (by omega) third lap
  rw [← Runs.run_append] at around same alone
  have second : (2 + k + m + 1 + l) % idCycle = 1 := by
    unfold idCycle at rest lap ⊢
    omega
  have spilled := around.spill (by omega) second alone
  obtain ⟨-, -, most⟩ := around.pass (by omega)
  rw [step_run] at spilled most
  obtain ⟨still, finished⟩ := finishAll_spilled spilled (syntheticWarm ⟨0⟩) (fun _ => 5) (k + 3)
  rw [← Runs.run_append] at still finished
  have units : 1 + k + 1 + 1 = k + 3 := by omega
  rw [units] at still
  rw [leakingRun, Runs.run_concat]
  refine ⟨?_, still, ExtTreeMap.getElem?_insert_self⟩
  refine finished.trans (List.drop_eq_nil_of_le ?_)
  rw [most, same, more, calls, many, one]
  omega

end Reserving

end Warmth
