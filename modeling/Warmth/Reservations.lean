import Warmth.Fabric

namespace Warmth

open Std TreeMaps

/-- The nonzero ids of a call's two reservations. -/
def WarmReservations.ids (r : WarmReservations) : List UInt64 :=
  [r.reservation, r.opReservation].filter (· != 0)

namespace BudgetTracker

theorem releasePair_eq (t : BudgetTracker) (r : WarmReservations) :
    t.releasePair r = (t.releaseAll r.ids).2 := by
  unfold releasePair WarmReservations.ids
  by_cases device : r.reservation = 0 <;> by_cases op : r.opReservation = 0 <;>
    simp [device, op, releaseAll, release_zero]

/-- Releasing the pair of a call frees the ids of the call and no other. -/
theorem mem_ids_releasePair {t : BudgetTracker} {r : WarmReservations} {i : UInt64} :
    i ∈ (t.releasePair r).ids ↔ i ∈ t.ids ∧ i ∉ r.ids := by
  have nonzero : (0 : UInt64) ∉ r.ids := by simp [WarmReservations.ids]
  rw [releasePair_eq, mem_ids_releaseAll nonzero]

/-- Whether phase 1 of `warm` gets its device reservation. -/
def fitsDevice (t : BudgetTracker) : Bool := t.fits .deviceMemory kDefaultWarmBytes

/-- Whether phase 1 of `warm` gets its second reservation, for one more warming operation. -/
def fitsOp (t : BudgetTracker) : Bool := t.fits .concurrentWarmingOps 1

/-- The ids that phase 1 of `warm` is handed once the device reservation is granted. -/
def nextPair (t : BudgetTracker) : WarmReservations :=
  ⟨t.takeId.1, if t.fitsOp then t.takeId.2.takeId.1 else 0⟩

/-- The tracker after both reservations of phase 1. -/
def taken (t : BudgetTracker) : BudgetTracker :=
  let device := t.grant .deviceMemory kDefaultWarmBytes (text "warm")
  if t.fitsOp then device.grant .concurrentWarmingOps 1 (text "warm") else device

theorem fitsOp_grant_device (t : BudgetTracker) (amount : UInt64) (tag : CString) :
    (t.grant .deviceMemory amount tag).fits .concurrentWarmingOps 1 = t.fitsOp := by
  rw [grant, takeId_frame]
  rfl

theorem mem_ids_taken {t : BudgetTracker} {i : UInt64} :
    i ∈ t.taken.ids ↔ i ∈ t.nextPair.ids ∨ i ∈ t.ids := by
  unfold taken nextPair WarmReservations.ids
  cases t.fitsOp with
  | true =>
    have pair : [t.takeId.1, t.takeId.2.takeId.1].filter (· != 0) =
        [t.takeId.1, t.takeId.2.takeId.1] := by simp [takeId_ne_zero]
    simp only [if_true, mem_ids_grant, takeId_grant, pair, List.mem_cons, List.not_mem_nil, or_false,
      or_assoc]
    exact or_left_comm
  | false => simp [mem_ids_grant, takeId_ne_zero]

theorem releasePair_frame (t : BudgetTracker) (r : WarmReservations) :
    t.releasePair r = { t with
      usage := (t.releasePair r).usage
      reservations := (t.releasePair r).reservations } := by
  unfold releasePair
  simp only
  split
  · rw [release_frame (t.release _).2, release_frame t]
  · exact release_frame t _

theorem taken_limits (t : BudgetTracker) : t.taken.limits = t.limits := by
  unfold taken
  simp only
  split
  · rw [grant_limits, grant_limits]
  · rw [grant_limits]

/-- The counter moves by two when it is not about to wrap. -/
theorem taken_nextId {t : BudgetTracker} (op : t.fitsOp = true) {n : Nat} (next : t.nextId.toNat = n)
    (pos : 0 < n) (room : n + 2 < 2 ^ 64) : t.taken.nextId.toNat = n + 2 := by
  have first : (t.nextId == 0) = false := by
    apply beq_false_of_ne
    intro zero
    rw [zero] at next
    simp at next
    omega
  have after : (t.nextId + 1).toNat = n + 1 := by
    rw [UInt64.toNat_add, next, UInt64.toNat_one]
    omega
  have second : (t.nextId + 1 == 0) = false := by
    apply beq_false_of_ne
    intro zero
    rw [zero] at after
    simp at after
  simp only [taken, op, if_true, grant, takeId, first, second, Bool.false_eq_true, if_false]
  rw [UInt64.toNat_add, after, UInt64.toNat_one]
  omega

end BudgetTracker

namespace WarmthFabric

/-- Phase 1 of `warm`, with what the tracker hands out spelled out. -/
theorem warmBegin_eq (f : WarmthFabric) (id : WarmthObjectId) :
    f.warmBegin id =
      match f.objects[id]? with
      | none => (f, none)
      | some o =>
        if !f.budget.fitsDevice then (f, none)
        else if !transitionAllowed o.state .preparing then
          ({ f with budget := f.budget.taken.releasePair f.budget.nextPair }, none)
        else
          ({ f with
              budget := f.budget.taken
              objects := f.objects.insert id (o.moveTo .preparing (text "warming")) },
            some f.budget.nextPair) := by
  unfold warmBegin
  cases f.objects[id]? with
  | none => rfl
  | some o =>
    simp only
    rw [BudgetTracker.reserve_eq _ _ (by decide), ← BudgetTracker.fitsDevice]
    cases device : f.budget.fitsDevice with
    | false => rfl
    | true =>
      simp only [if_true]
      rw [if_neg (by simpa using f.budget.takeId_ne_zero), BudgetTracker.reserve_eq _ _ (by decide),
        BudgetTracker.fitsOp_grant_device, BudgetTracker.takeId_grant]
      unfold BudgetTracker.taken BudgetTracker.nextPair
      cases f.budget.fitsOp <;> rfl

end WarmthFabric

end Warmth
