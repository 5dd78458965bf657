import Warmth.FabricReservations

namespace Warmth

open Codec Std TreeMaps

theorem kDefaultWarmBytes_toNat : kDefaultWarmBytes.toNat = 2 ^ 30 := rfl

namespace BudgetTracker

section
variable {t : BudgetTracker} {kind : WarmthBudgetKind} {amount : UInt64}
variable {r r' : WarmReservations}

theorem mem_ids_of_ne {i : UInt64} (h : i ≠ 0) :
    (i = r.reservation ∨ i = r.opReservation) ↔ i ∈ r.ids := by
  simp [WarmReservations.ids, h]

theorem releasePair_get {i : UInt64} (h : i ∉ r.ids) (hi : i ≠ 0) :
    (t.releasePair r).reservations[i]? = t.reservations[i]? := by
  have other := (not_congr (mem_ids_of_ne hi)).mpr h
  unfold releasePair
  simp only
  split
  · rw [release_get_of_ne fun he => other (Or.inr he), release_get_of_ne fun he => other (Or.inl he)]
  · exact release_get_of_ne fun he => other (Or.inl he)

theorem taken_get {i : UInt64} (h : i ∉ t.nextPair.ids) (hi : i ≠ 0) :
    t.taken.reservations[i]? = t.reservations[i]? := by
  have other := (not_congr (mem_ids_of_ne hi)).mpr h
  unfold nextPair at other
  unfold taken
  simp only
  split
  next op =>
    rw [if_pos op] at other
    rw [grant_get_of_ne fun he => other (Or.inr (he.trans (takeId_grant t _ _ _))),
      grant_get_of_ne fun he => other (Or.inl he)]
  next => exact grant_get_of_ne (fun he => other (Or.inl he)) _

/-- The tracker has entered both reservations of a call as phase 1 made them. -/
structure Holds (t : BudgetTracker) (r : WarmReservations) : Prop where
  device : t.reservations[r.reservation]? = some ⟨.deviceMemory, kDefaultWarmBytes, text "warm"⟩
  op : t.reservations[r.opReservation]? = some ⟨.concurrentWarmingOps, 1, text "warm"⟩
  device_ne : r.reservation ≠ 0
  op_ne : r.opReservation ≠ 0

theorem Holds.taken (h : t.Holds r) (fresh : ∀ i ∈ r.ids, i ∉ t.nextPair.ids) :
    t.taken.Holds r where
  device := by
    rw [taken_get (fresh _ ((mem_ids_of_ne h.device_ne).mp (Or.inl rfl))) h.device_ne]
    exact h.device
  op := by
    rw [taken_get (fresh _ ((mem_ids_of_ne h.op_ne).mp (Or.inr rfl))) h.op_ne]
    exact h.op
  device_ne := h.device_ne
  op_ne := h.op_ne

theorem Holds.releasePair (h : t.Holds r) (other : ∀ i ∈ r.ids, i ∉ r'.ids) :
    (t.releasePair r').Holds r where
  device := by
    rw [releasePair_get (other _ ((mem_ids_of_ne h.device_ne).mp (Or.inl rfl))) h.device_ne]
    exact h.device
  op := by
    rw [releasePair_get (other _ ((mem_ids_of_ne h.op_ne).mp (Or.inr rfl))) h.op_ne]
    exact h.op
  device_ne := h.device_ne
  op_ne := h.op_ne

theorem Holds.usage (h : t.Holds r) (k : WarmthBudgetKind) :
    ((t.releasePair r).usage k).toNat = (t.usage k).toNat -
      (if k = .deviceMemory then kDefaultWarmBytes.toNat else 0) -
      (if k = .concurrentWarmingOps then 1 else 0) := by
  have hne : r.opReservation ≠ r.reservation := by
    intro he
    have both := h.op
    rw [he, h.device] at both
    cases both
  have entry : (t.release r.reservation).2.reservations[r.opReservation]? = _ :=
    (release_get_of_ne hne).trans h.op
  simp only [BudgetTracker.releasePair, bne_iff_ne, ne_eq, h.op_ne, not_false_eq_true, if_true]
  rw [release_usage entry h.op_ne, release_usage h.device h.device_ne]
  rfl

theorem taken_holds (op : t.fitsOp = true) (fresh : ∀ i ∈ t.nextPair.ids, i ∉ t.ids) :
    t.taken.Holds t.nextPair := by
  have ids : t.nextPair = ⟨t.takeId.1, t.takeId.2.takeId.1⟩ := by simp [nextPair, op]
  rw [ids] at fresh ⊢
  have first := fresh _ ((mem_ids_of_ne t.takeId_ne_zero).mp (Or.inl rfl))
  have second := fresh _ ((mem_ids_of_ne t.takeId.2.takeId_ne_zero).mp (Or.inr rfl))
  simp only [BudgetTracker.taken, op, if_true]
  refine ⟨?_, ?_, t.takeId_ne_zero, t.takeId.2.takeId_ne_zero⟩
  · rw [grant_get_of_ne (by rw [takeId_grant]; exact t.takeId_takeId_ne.symm)]
    exact grant_get_self first _
  · simp only [← takeId_grant t .deviceMemory kDefaultWarmBytes (text "warm")]
    apply grant_get_self
    rw [takeId_grant, mem_ids_grant]
    exact fun h => h.elim t.takeId_takeId_ne second

theorem taken_usage_device (limited : t.limits.get .deviceMemory ≠ 0)
    (device : t.fitsDevice = true) :
    (t.taken.usage .deviceMemory).toNat = (t.usage .deviceMemory).toNat + 2 ^ 30 := by
  have granted := grant_usage_self limited device (text "warm")
  unfold BudgetTracker.taken
  simp only
  split
  · rw [grant_usage_of_ne (by decide)]
    exact granted
  · exact granted

theorem taken_usage_op (limited : t.limits.get .concurrentWarmingOps ≠ 0) :
    (t.taken.usage .concurrentWarmingOps).toNat =
      (t.usage .concurrentWarmingOps).toNat + if t.fitsOp then 1 else 0 := by
  unfold BudgetTracker.taken
  simp only
  split
  next op =>
    rw [grant_usage_self (by rw [grant_limits]; exact limited) (by rw [fitsOp_grant_device]; exact op),
      grant_usage_of_ne (by decide)]
    rfl
  next => rw [grant_usage_of_ne (by decide)]; rfl

/-- While the limit on warming operations is used up, phase 1 takes a device reservation alone. -/
theorem turnedBack_single (op : t.fitsOp = false) :
    t.taken.releasePair t.nextPair = (t.taken.release t.takeId.1).2 := by
  have ids : t.nextPair = ⟨t.takeId.1, 0⟩ := by simp [nextPair, op]
  rw [ids]
  rfl

theorem turnedBack_entry (op : t.fitsOp = false) (fresh : ∀ i ∈ t.nextPair.ids, i ∉ t.ids) :
    t.taken.reservations[t.takeId.1]? =
      some ⟨.deviceMemory, kDefaultWarmBytes, text "warm"⟩ := by
  have ids : t.nextPair = ⟨t.takeId.1, 0⟩ := by simp [nextPair, op]
  have first := fresh t.takeId.1 (by
    rw [ids]
    exact (mem_ids_of_ne t.takeId_ne_zero).mp (Or.inl rfl))
  simp only [BudgetTracker.taken, op, Bool.false_eq_true, if_false]
  exact grant_get_self first _

/-- A phase 1 that is turned back leaves the two budgets as it found them. -/
theorem turnedBack_usage (limitedDevice : t.limits.get .deviceMemory ≠ 0)
    (limitedOp : t.limits.get .concurrentWarmingOps ≠ 0) (device : t.fitsDevice = true)
    (fresh : ∀ i ∈ t.nextPair.ids, i ∉ t.ids) :
    ((t.taken.releasePair t.nextPair).usage .deviceMemory).toNat =
        (t.usage .deviceMemory).toNat ∧
      ((t.taken.releasePair t.nextPair).usage .concurrentWarmingOps).toNat =
        (t.usage .concurrentWarmingOps).toNat := by
  have usageDevice := taken_usage_device limitedDevice device
  have usageOp := taken_usage_op limitedOp
  cases op : t.fitsOp with
  | true =>
    have holds := taken_holds op fresh
    rw [holds.usage, holds.usage, usageDevice, usageOp, op, kDefaultWarmBytes_toNat]
    simp only [if_true, reduceCtorEq, if_false]
    omega
  | false =>
    have entry := turnedBack_entry op fresh
    rw [turnedBack_single op, release_usage entry t.takeId_ne_zero,
      release_usage entry t.takeId_ne_zero, usageDevice, usageOp, op, kDefaultWarmBytes_toNat]
    simp only [if_true, reduceCtorEq, if_false]
    omega

end

end BudgetTracker

namespace Reserving

/-- The calls between phase 1 and phase 3 stay within both limits. -/
def WithinLimits (limits : BudgetLimits) (s : Reserving) : Prop :=
  s.calls.length ≤ limits.concurrentWarmingOps.toNat ∧
    s.calls.length * 2 ^ 30 ≤ limits.deviceMemoryBytes.toNat

/-- Phase 1 passes although the limit on warming operations leaves no room for one more. -/
def PassesUncounted (s : Reserving) (a : FabricStep) : Prop :=
  ∃ id o, a = .warmBegin id ∧ s.fabric.objects[id]? = some o ∧
    transitionAllowed o.state .preparing = true ∧ s.fabric.budget.fitsDevice = true ∧
    s.fabric.budget.fitsOp = false

/-- Each call in progress holds both its reservations, and the two budgets count the calls. -/
structure Counted (limits : BudgetLimits) (s : Reserving) : Prop where
  accounted : s.Accounted
  limited : s.fabric.budget.limits = limits
  holds : ∀ c ∈ s.calls, s.fabric.budget.Holds c.held
  device : (s.fabric.budget.usage .deviceMemory).toNat = s.calls.length * 2 ^ 30
  op : (s.fabric.budget.usage .concurrentWarmingOps).toNat = s.calls.length
  within : s.WithinLimits limits

theorem pass_length (s : Reserving) (f : WarmthFabric) (id : WarmthObjectId)
    (held : WarmReservations) : (s.pass f id held).calls.length = s.calls.length + 1 :=
  List.length_append

theorem counted_start (cfg : FabricConfig) : (start cfg).Counted cfg.policy.budgets where
  accounted := accounted_start cfg
  limited := rfl
  holds := nofun
  device := by simp [start, WarmthFabric.new]
  op := rfl
  within := ⟨Nat.zero_le _, by simp [start]⟩

section
variable {limits : BudgetLimits} {s : Reserving} {a : FabricStep}

theorem Counted.limit_device (inv : s.Counted limits) (h : limits.deviceMemoryBytes ≠ 0) :
    s.fabric.budget.limits.get .deviceMemory ≠ 0 := by
  rw [inv.limited]
  exact h

theorem Counted.limit_op (inv : s.Counted limits) (h : limits.concurrentWarmingOps ≠ 0) :
    s.fabric.budget.limits.get .concurrentWarmingOps ≠ 0 := by
  rw [inv.limited]
  exact h

theorem unheld_of_not_reuses {id : WarmthObjectId} {o : WarmthObject}
    (fresh : ¬ s.Reuses (.warmBegin id)) (object : s.fabric.objects[id]? = some o)
    (device : s.fabric.budget.fitsDevice = true) :
    ∀ i ∈ s.fabric.budget.nextPair.ids, i ∉ s.heldIds :=
  fun i handed held => fresh ⟨id, rfl, by simp [object], device, i, handed, held⟩

theorem Counted.same (inv : s.Counted limits) {f : WarmthFabric}
    (budget : f.budget = s.fabric.budget) (accounted : Accounted { s with fabric := f }) :
    Counted limits { s with fabric := f } := by
  refine ⟨accounted, ?_, fun c hc => ?_, ?_, ?_, inv.within⟩
  · rw [budget]
    exact inv.limited
  · rw [budget]
    exact inv.holds c hc
  · rw [budget]
    exact inv.device
  · rw [budget]
    exact inv.op

theorem Counted.turnBack (inv : s.Counted limits) (hC : limits.concurrentWarmingOps ≠ 0)
    (hM : limits.deviceMemoryBytes ≠ 0) {f : WarmthFabric}
    (budget : f.budget = s.fabric.budget.taken.releasePair s.fabric.budget.nextPair)
    (device : s.fabric.budget.fitsDevice = true)
    (unheld : ∀ i ∈ s.fabric.budget.nextPair.ids, i ∉ s.heldIds)
    (accounted : Accounted { s with fabric := f }) : Counted limits { s with fabric := f } := by
  have spared (c : HoldingCall) (hc : c ∈ s.calls) :
      ∀ i ∈ c.held.ids, i ∉ s.fabric.budget.nextPair.ids := fun i own handed =>
    unheld i handed (List.mem_flatMap.mpr ⟨c, hc, own⟩)
  have usage := BudgetTracker.turnedBack_usage (inv.limit_device hM) (inv.limit_op hC) device
    fun i hi => by
      rw [inv.accounted.outstanding]
      exact unheld i hi
  rw [← budget] at usage
  refine ⟨accounted, ?_, fun c hc => ?_, usage.1.trans inv.device, usage.2.trans inv.op, inv.within⟩
  · rw [budget, BudgetTracker.releasePair_frame, BudgetTracker.taken_limits]
    exact inv.limited
  · rw [budget]
    exact ((inv.holds c hc).taken (spared c hc)).releasePair (spared c hc)

theorem Counted.pass (inv : s.Counted limits) (hC : limits.concurrentWarmingOps ≠ 0)
    (hM : limits.deviceMemoryBytes ≠ 0) {f : WarmthFabric} {id : WarmthObjectId}
    (budget : f.budget = s.fabric.budget.taken) (device : s.fabric.budget.fitsDevice = true)
    (op : s.fabric.budget.fitsOp = true)
    (unheld : ∀ i ∈ s.fabric.budget.nextPair.ids, i ∉ s.heldIds)
    (accounted : (s.pass f id s.fabric.budget.nextPair).Accounted) :
    (s.pass f id s.fabric.budget.nextPair).Counted limits := by
  have roomDevice := (BudgetTracker.fits_iff (inv.limit_device hM)).mp device
  have roomOp := (BudgetTracker.fits_iff (inv.limit_op hC)).mp op
  have usageDevice := BudgetTracker.taken_usage_device (inv.limit_device hM) device
  have usageOp := BudgetTracker.taken_usage_op (inv.limit_op hC)
  rw [inv.device, inv.limited, kDefaultWarmBytes_toNat] at roomDevice
  rw [inv.op, inv.limited] at roomOp
  rw [inv.device, ← budget] at usageDevice
  rw [inv.op, op, ← budget] at usageOp
  refine ⟨accounted, ?_, fun c hc => ?_, ?_, ?_, ?_, ?_⟩
  · exact (congrArg BudgetTracker.limits budget).trans
      (s.fabric.budget.taken_limits.trans inv.limited)
  · change f.budget.Holds c.held
    rw [budget]
    rcases List.mem_append.mp hc with hc | hc
    · exact (inv.holds c hc).taken fun i own handed =>
        unheld i handed (List.mem_flatMap.mpr ⟨c, hc, own⟩)
    · cases List.mem_singleton.mp hc
      refine BudgetTracker.taken_holds op fun i hi => ?_
      rw [inv.accounted.outstanding]
      exact unheld i hi
  · rw [pass_length, Nat.add_mul, Nat.one_mul]
    exact usageDevice
  · rw [pass_length]
    exact usageOp
  · rw [pass_length]
    exact roomOp
  · rw [pass_length, Nat.add_mul, Nat.one_mul]
    exact roomDevice

theorem Counted.finish (inv : s.Counted limits) {k : Nat} {c : HoldingCall} {f : WarmthFabric}
    (call : s.calls[k]? = some c) (budget : f.budget = s.fabric.budget.releasePair c.held)
    (accounted : Accounted { s with fabric := f, calls := s.calls.eraseIdx k }) :
    Counted limits { s with fabric := f, calls := s.calls.eraseIdx k } := by
  have hc := List.mem_of_getElem? call
  have hk : k < s.calls.length := (List.getElem?_eq_some_iff.mp call).1
  have length := List.length_eraseIdx_of_lt hk
  have device := (inv.holds c hc).usage .deviceMemory
  have op := (inv.holds c hc).usage .concurrentWarmingOps
  simp only [reduceCtorEq, if_true, if_false, kDefaultWarmBytes_toNat, inv.device, inv.op,
    Nat.sub_zero] at device op
  have distinct := (heldIds_finish call f).nodup_iff.mp inv.accounted.distinct
  refine ⟨accounted, ?_, fun d hd => ?_, ?_, ?_, ?_, ?_⟩
  · simp only [budget]
    rw [BudgetTracker.releasePair_frame]
    exact inv.limited
  · simp only [budget]
    refine (inv.holds d (List.mem_of_mem_eraseIdx hd)).releasePair fun i other own => ?_
    exact (List.nodup_append.mp distinct).2.2 i own i (List.mem_flatMap.mpr ⟨d, hd, other⟩) rfl
  · simp only [budget, length]
    omega
  · simp only [budget, length]
    omega
  · exact Nat.le_trans (List.length_eraseIdx_le _ _) inv.within.1
  · exact Nat.le_trans (Nat.mul_le_mul_right _ (List.length_eraseIdx_le _ _)) inv.within.2

theorem Counted.step (inv : s.Counted limits) (hC : limits.concurrentWarmingOps ≠ 0)
    (hM : limits.deviceMemoryBytes ≠ 0) (noRecover : a.isRecover = false) (fresh : ¬ s.Reuses a)
    (counts : ¬ s.PassesUncounted a) : (s.step a).Counted limits := by
  have accounted := inv.accounted.step noRecover fresh
  have moved := moved_step s a
  generalize s.step a = t at moved accounted
  cases moved with
  | same budget => exact inv.same budget accounted
  | recover => cases noRecover
  | turnBack object device edge =>
    exact inv.turnBack hC hM rfl device (unheld_of_not_reuses fresh object device) accounted
  | @pass id o object device edge =>
    have op : s.fabric.budget.fitsOp = true := by
      by_contra full
      exact counts ⟨id, o, rfl, object, edge, device, Bool.eq_false_of_not_eq_true full⟩
    exact inv.pass hC hM rfl device op (unheld_of_not_reuses fresh object device) accounted
  | finish call budget => exact inv.finish call budget accounted

/-- A call that passes uncounted is one call too many. -/
theorem PassesUncounted.not_within (inv : s.Counted limits) (hC : limits.concurrentWarmingOps ≠ 0)
    (h : s.PassesUncounted a) : ¬ (s.step a).WithinLimits limits := by
  obtain ⟨id, o, rfl, object, edge, device, full⟩ := h
  rw [step_warmBegin object device, if_pos edge]
  intro within
  have more := within.1
  simp only [pass, List.length_append, List.length_singleton] at more
  have fits : s.fabric.budget.fitsOp = true := by
    apply (BudgetTracker.fits_iff (inv.limit_op hC)).mpr
    rw [inv.op, inv.limited]
    exact more
  rw [full] at fits
  cases fits

end

/-- Admission never overcommits in exactly the interleavings, without recoveries and reused ids, in
which no phase 1 passes while the limit on warming operations is used up. -/
theorem admission_within_limits (cfg : FabricConfig)
    (hC : cfg.policy.budgets.concurrentWarmingOps ≠ 0)
    (hM : cfg.policy.budgets.deviceMemoryBytes ≠ 0) {steps : List FabricStep}
    (noRecover : ∀ a ∈ steps, a.isRecover = false)
    (fresh : Runs.Along step (fun s a => ¬ s.Reuses a) (start cfg) steps) :
    Runs.Along step (fun s a => (s.step a).WithinLimits cfg.policy.budgets) (start cfg) steps ↔
      Runs.Along step (fun s a => ¬ s.PassesUncounted a) (start cfg) steps := by
  have clean := (Runs.along_of_forall noRecover).and fresh
  constructor
  · intro within
    refine Runs.along_of_invariant (I := Counted cfg.policy.budgets) ?_ ?_ (counted_start cfg)
      (clean.and within)
    · exact fun s a inv h => inv.step hC hM h.1.1 h.1.2 fun passes => passes.not_within inv hC h.2
    · exact fun s a inv h passes => passes.not_within inv hC h.2
  · intro counts
    refine Runs.along_of_invariant (I := Counted cfg.policy.budgets) ?_ ?_ (counted_start cfg)
      (clean.and counts)
    · exact fun s a inv h => inv.step hC hM h.1.1 h.1.2 h.2
    · exact fun s a inv h => (inv.step hC hM h.1.1 h.1.2 h.2).within

/-- A fabric that may run `ops` warming operations at once in 4 GiB of device memory. -/
def limitedTo (ops : UInt64) : FabricConfig :=
  { policy := { budgets := { deviceMemoryBytes := 4294967296, concurrentWarmingOps := ops } } }

def overlapping : List FabricStep :=
  [.upsert { id := ⟨0, 1⟩ }, .upsert { id := ⟨0, 2⟩ }, .warmBegin ⟨0, 1⟩, .warmBegin ⟨0, 2⟩]

theorem not_reuses_of_fresh {s : Reserving} {id : WarmthObjectId}
    (h : s.fabric.budget.nextPair.ids.filter (· ∈ s.heldIds) = []) :
    ¬ s.Reuses (.warmBegin id) := by
  rintro ⟨_, _, _, _, i, handed, held⟩
  have fresh := List.filter_eq_nil_iff.mp h i handed
  exact fresh (decide_eq_true held)

theorem not_reuses_upsert (s : Reserving) (o : WarmthObject) : ¬ s.Reuses (.upsert o) := nofun

theorem not_passesUncounted_upsert (s : Reserving) (o : WarmthObject) :
    ¬ s.PassesUncounted (.upsert o) := by
  rintro ⟨_, _, begins, _⟩
  cases begins

theorem not_passesUncounted_of_fits {s : Reserving} {id : WarmthObjectId}
    (h : s.fabric.budget.fitsOp = true) : ¬ s.PassesUncounted (.warmBegin id) := by
  rintro ⟨_, _, _, _, _, _, full⟩
  rw [h] at full
  cases full

theorem admission_within_limits_overlapping :
    Runs.Along step (fun s a => (s.step a).WithinLimits (limitedTo 2).policy.budgets)
      (start (limitedTo 2)) overlapping := by
  refine (admission_within_limits (limitedTo 2) (by decide) (by decide)
    (by simp [overlapping, FabricStep.isRecover]) ?_).mpr ?_
  · exact ⟨not_reuses_upsert _ _, not_reuses_upsert _ _, not_reuses_of_fresh (by decide +kernel),
      not_reuses_of_fresh (by decide +kernel), trivial⟩
  · exact ⟨not_passesUncounted_upsert _ _, not_passesUncounted_upsert _ _,
      not_passesUncounted_of_fits (by decide +kernel),
      not_passesUncounted_of_fits (by decide +kernel), trivial⟩

/-- With room for one warming operation two calls are under way at once. -/
theorem overlapping_overcommits :
    ¬ ∀ (cfg : FabricConfig), cfg.policy.budgets.concurrentWarmingOps ≠ 0 →
      cfg.policy.budgets.deviceMemoryBytes ≠ 0 → ∀ steps : List FabricStep,
        (∀ a ∈ steps, a.isRecover = false) →
        (Runs.run step (start cfg) steps).WithinLimits cfg.policy.budgets := by
  intro always
  have within := always (limitedTo 1) (by decide) (by decide) overlapping
    (by simp [overlapping, FabricStep.isRecover])
  have two : (Runs.run step (start (limitedTo 1)) overlapping).calls.length = 2 := by
    decide +kernel
  have one := within.1
  rw [two] at one
  exact absurd one (by decide)

end Reserving

end Warmth
