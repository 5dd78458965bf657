import Warmth.Budget
import Warmth.Runs

namespace Warmth

open Runs Std TreeMaps

inductive BudgetOp
  | reserve (kind : WarmthBudgetKind) (amount : UInt64) (tag : CString)
  | release (id : UInt64)
  | setLimit (kind : WarmthBudgetKind) (value : UInt64)

def BudgetOp.reserves : BudgetOp → Bool
  | .reserve .. => true
  | .release _ | .setLimit .. => false

/-- The operation changes the limit of the kind. -/
def BudgetOp.sets (k : WarmthBudgetKind) : BudgetOp → Bool
  | .setLimit kind _ => decide (kind = k)
  | .reserve .. | .release _ => false

namespace BudgetTracker

def step (t : BudgetTracker) : BudgetOp → BudgetTracker
  | .reserve kind amount tag => (t.reserve kind amount tag).2.2
  | .release id => (t.release id).2
  | .setLimit kind value => t.setLimit kind value

/-- The ids that the operation hands out. -/
def granted (t : BudgetTracker) : BudgetOp → List UInt64
  | .reserve kind amount tag =>
    if (t.reserve kind amount tag).1 = 0 then [] else [(t.reserve kind amount tag).1]
  | .release _ | .setLimit _ _ => []

/-- What the outstanding reservations of a kind add up to. -/
def outstandingSum (t : BudgetTracker) (kind : WarmthBudgetKind) : Nat :=
  sumValues t.reservations fun r => if r.kind = kind then r.amount.toNat else 0

/-- The counter of a kind shows the sum of what is outstanding. -/
def ExactAt (t : BudgetTracker) (kind : WarmthBudgetKind) : Prop :=
  (t.usage kind).toNat = t.outstandingSum kind

def UsageExact (t : BudgetTracker) : Prop := ∀ kind, t.ExactAt kind

/-- The operation keeps the usage exact, and its effect on the usage is that of exact arithmetic:
a grant raises it by its amount, a release lowers it by the amount released, a failure changes
nothing at all. -/
structure Accounted (t : BudgetTracker) (op : BudgetOp) : Prop where
  exact : (t.step op).UsageExact
  granted : ∀ kind amount tag, op = .reserve kind amount tag → (t.reserve kind amount tag).1 ≠ 0 →
    ∀ k, ((t.step op).usage k).toNat = (t.usage k).toNat + if k = kind then amount.toNat else 0
  refused : ∀ kind amount tag, op = .reserve kind amount tag → (t.reserve kind amount tag).1 = 0 →
    t.step op = t
  released : ∀ id, op = .release id → (t.release id).1 = .none →
    ∃ r, t.reservations[id]? = some r ∧
      ∀ k, ((t.step op).usage k).toNat + (if k = r.kind then r.amount.toNat else 0) =
        (t.usage k).toNat
  unknown : ∀ id, op = .release id → (t.release id).1 ≠ .none → t.step op = t

/-- A reservation of a kind without a limit leaves room in the 64 bits of its counter. -/
def CounterRoom (t : BudgetTracker) (op : BudgetOp) : Prop :=
  ∀ kind amount tag, op = .reserve kind amount tag → t.limits.get kind = 0 →
    t.outstandingSum kind + amount.toNat < 2 ^ 64

theorem outstandingSum_grant {t : BudgetTracker} (fresh : t.takeId.1 ∉ t.ids)
    (kind k : WarmthBudgetKind) (amount : UInt64) (tag : CString) :
    (t.grant kind amount tag).outstandingSum k =
      (if kind = k then amount.toNat else 0) + t.outstandingSum k := by
  have unknown : t.reservations[t.takeId.1]? = none := by
    apply ExtTreeMap.getElem?_eq_none
    exact fun mem => fresh (mem_ids_iff.mpr mem)
  have inserted := grant_reservations fresh kind amount tag
  unfold outstandingSum
  rw [inserted, sumValues_insert unknown]

theorem ExactAt.sum_lt {t : BudgetTracker} {kind : WarmthBudgetKind} (exact : t.ExactAt kind) :
    t.outstandingSum kind < 2 ^ 64 := by
  rw [← exact]
  exact (t.usage kind).toNat_lt

/-- With an exact counter the limit check is the comparison of exact integers. -/
theorem ExactAt.fits_iff {t : BudgetTracker} {kind : WarmthBudgetKind} (exact : t.ExactAt kind)
    (limited : t.limits.get kind ≠ 0) (amount : UInt64) :
    t.fits kind amount = true ↔
      t.outstandingSum kind + amount.toNat ≤ (t.limits.get kind).toNat := by
  rw [BudgetTracker.fits_iff limited, exact]

/-- A grant keeps the counter exact just when the new sum fits it. -/
theorem ExactAt.grant_iff {t : BudgetTracker} {k : WarmthBudgetKind} (exact : t.ExactAt k)
    (fresh : t.takeId.1 ∉ t.ids) (kind : WarmthBudgetKind) (amount : UInt64) (tag : CString) :
    (t.grant kind amount tag).ExactAt k ↔
      (kind = k → t.outstandingSum k + amount.toNat < 2 ^ 64) := by
  unfold ExactAt
  rw [outstandingSum_grant fresh]
  by_cases hk : kind = k
  · subst hk
    have counter : (t.grant kind amount tag).usage kind = t.usage kind + amount := if_pos rfl
    have bits := (t.usage kind + amount).toNat_lt
    rw [counter, if_pos rfl]
    constructor
    · intro sum _
      omega
    · intro room
      rw [UInt64.toNat_add, exact, Nat.mod_eq_of_lt (room rfl), Nat.add_comm]
  · rw [grant_usage_of_ne (Ne.symm hk), if_neg hk, Nat.zero_add]
    exact ⟨fun _ same => absurd same hk, fun _ => exact⟩

theorem outstandingSum_released {t : BudgetTracker} {id : UInt64} (hid : id ≠ 0) {r : Res}
    (held : t.reservations[id]? = some r) (k : WarmthBudgetKind) :
    t.outstandingSum k =
      (if k = r.kind then r.amount.toNat else 0) + (t.release id).2.outstandingSum k := by
  have nonzero : (id == 0) = false := by simpa using hid
  have left : (t.release id).2.reservations = t.reservations.erase id := by
    simp only [release, nonzero, Bool.false_eq_true, if_false, held]
  unfold outstandingSum
  rw [left, sumValues_erase held]
  by_cases hk : k = r.kind
  · rw [if_pos hk, if_pos hk.symm]
  · rw [if_neg hk, if_neg (Ne.symm hk)]

/-- From an exact counter a release takes exactly its amount. -/
theorem ExactAt.release {t : BudgetTracker} {k : WarmthBudgetKind} (exact : t.ExactAt k)
    {id : UInt64} (hid : id ≠ 0) {r : Res} (held : t.reservations[id]? = some r) :
    (t.release id).2.ExactAt k ∧
      ((t.release id).2.usage k).toNat + (if k = r.kind then r.amount.toNat else 0) =
        (t.usage k).toNat := by
  have usage := release_usage held hid k
  have sum := outstandingSum_released hid held k
  unfold ExactAt at exact ⊢
  constructor <;> omega

/-- What an operation does: nothing but perhaps set limits, grant a reservation, or release one. -/
theorem step_cases (t : BudgetTracker) (op : BudgetOp) :
    (∃ limits, t.step op = { t with limits } ∧
      ∀ k, op.sets k = false → limits.get k = t.limits.get k) ∨
    (∃ kind amount tag, op = .reserve kind amount tag ∧ amount ≠ 0 ∧ t.fits kind amount = true ∧
      t.reserve kind amount tag = (t.takeId.1, .none, t.grant kind amount tag)) ∨
    ∃ id r, op = .release id ∧ id ≠ 0 ∧ t.reservations[id]? = some r := by
  cases op with
  | setLimit kind value =>
    refine Or.inl ⟨_, rfl, fun k other => ?_⟩
    rw [BudgetLimits.get_set, if_neg]
    exact fun same => of_decide_eq_false other same.symm
  | release id =>
    by_cases hid : id = 0
    · subst hid
      exact Or.inl ⟨t.limits, rfl, fun _ _ => rfl⟩
    · cases held : t.reservations[id]? with
      | some r => exact Or.inr (Or.inr ⟨id, r, rfl, hid, held⟩)
      | none =>
        have nonzero : (id == 0) = false := by simpa using hid
        refine Or.inl ⟨t.limits, ?_, fun _ _ => rfl⟩
        simp only [step, release, nonzero, Bool.false_eq_true, if_false, held]
  | reserve kind amount tag =>
    by_cases nothing : amount = 0
    · subst nothing
      exact Or.inl ⟨t.limits, rfl, fun _ _ => rfl⟩
    · have outcome := reserve_eq t kind nothing tag
      cases fits : t.fits kind amount with
      | true =>
        rw [fits, if_pos rfl] at outcome
        exact Or.inr (Or.inl ⟨kind, amount, tag, rfl, nothing, fits, outcome⟩)
      | false =>
        rw [fits] at outcome
        refine Or.inl ⟨t.limits, ?_, fun _ _ => rfl⟩
        rw [step, outcome]
        rfl

/-- While the counter is exact, what a limit admits leaves room in the counter. -/
theorem ExactAt.room_of_fits {t : BudgetTracker} {kind : WarmthBudgetKind} (exact : t.ExactAt kind)
    {amount : UInt64} (unlimited : t.limits.get kind = 0 →
      t.outstandingSum kind + amount.toNat < 2 ^ 64) (fits : t.fits kind amount = true) :
    t.outstandingSum kind + amount.toNat < 2 ^ 64 := by
  by_cases limited : t.limits.get kind = 0
  · exact unlimited limited
  · have bits := (t.limits.get kind).toNat_lt
    have admitted := (exact.fits_iff limited amount).mp fits
    omega

theorem usage_grant {t : BudgetTracker} {kind : WarmthBudgetKind} {amount : UInt64}
    (room : (t.usage kind).toNat + amount.toNat < 2 ^ 64) (tag : CString) (k : WarmthBudgetKind) :
    ((t.grant kind amount tag).usage k).toNat =
      (t.usage k).toNat + if k = kind then amount.toNat else 0 := by
  by_cases hk : k = kind
  · subst hk
    have counter : (t.grant k amount tag).usage k = t.usage k + amount := if_pos rfl
    rw [counter, UInt64.toNat_add, Nat.mod_eq_of_lt room, if_pos rfl]
  · rw [grant_usage_of_ne hk, if_neg hk, Nat.add_zero]

theorem accounted_reserve_iff {t : BudgetTracker} (exact : t.UsageExact)
    (fresh : t.takeId.1 ∉ t.ids) (kind : WarmthBudgetKind) (amount : UInt64) (tag : CString) :
    t.Accounted (.reserve kind amount tag) ↔ t.CounterRoom (.reserve kind amount tag) := by
  have small := (exact kind).sum_lt
  by_cases nothing : amount = 0
  · subst nothing
    have room : t.CounterRoom (.reserve kind 0 tag) := by
      rintro _ _ _ ⟨⟩ _
      simpa using small
    refine ⟨fun _ => room, fun _ => ⟨exact, ?_, ?_, nofun, nofun⟩⟩
    · rintro _ _ _ ⟨⟩ granted
      exact absurd rfl granted
    · rintro _ _ _ ⟨⟩ _
      rfl
  · have outcome := reserve_eq t kind nothing tag
    cases fits : t.fits kind amount with
    | false =>
      rw [fits] at outcome
      have same : t.step (.reserve kind amount tag) = t := by rw [step, outcome]; rfl
      have room : t.CounterRoom (.reserve kind amount tag) := by
        rintro _ _ _ ⟨⟩ unlimited
        rw [fits_unlimited unlimited] at fits
        cases fits
      refine ⟨fun _ => room, fun _ => ⟨same.symm ▸ exact, ?_, ?_, nofun, nofun⟩⟩
      · rintro _ _ _ ⟨⟩ granted
        rw [outcome] at granted
        exact absurd rfl granted
      · rintro _ _ _ ⟨⟩ _
        exact same
    | true =>
      rw [fits, if_pos rfl] at outcome
      have next : t.step (.reserve kind amount tag) = t.grant kind amount tag := by
        rw [step, outcome]
      constructor
      · rintro ⟨after, -⟩ _ _ _ ⟨⟩ _
        rw [next] at after
        exact ((exact kind).grant_iff fresh kind amount tag).mp (after kind) rfl
      · intro unlimited
        have room := (exact kind).room_of_fits (unlimited kind amount tag rfl) fits
        refine ⟨?_, ?_, ?_, nofun, nofun⟩
        · rw [next]
          intro k
          refine ((exact k).grant_iff fresh kind amount tag).mpr ?_
          rintro rfl
          exact room
        · rintro _ _ _ ⟨⟩ _ k
          rw [next]
          rw [← exact kind] at room
          exact usage_grant room tag k
        · rintro _ _ _ ⟨⟩ refused
          rw [outcome] at refused
          exact absurd refused t.takeId_ne_zero

theorem accounted_release {t : BudgetTracker} (exact : t.UsageExact) (id : UInt64) :
    t.Accounted (.release id) := by
  have noReserve {kind : WarmthBudgetKind} {amount : UInt64} {tag : CString} :
      BudgetOp.release id ≠ .reserve kind amount tag := by
    intro same
    cases same
  by_cases hid : id = 0
  · subst hid
    refine ⟨exact, fun _ _ _ same => absurd same noReserve, fun _ _ _ same => absurd same noReserve, ?_, ?_⟩
    · rintro _ ⟨⟩ success
      cases success
    · rintro _ ⟨⟩ _
      rfl
  · have nonzero : (id == 0) = false := by simpa using hid
    cases held : t.reservations[id]? with
    | none =>
      have outcome : t.release id = (.doubleRelease, t) := by
        simp only [release, nonzero, Bool.false_eq_true, if_false, held]
      have same : t.step (.release id) = t := by rw [step, outcome]
      refine ⟨same.symm ▸ exact, fun _ _ _ same => absurd same noReserve,
        fun _ _ _ same => absurd same noReserve, ?_, ?_⟩
      · rintro _ ⟨⟩ success
        rw [outcome] at success
        cases success
      · rintro _ ⟨⟩ _
        exact same
    | some r =>
      refine ⟨fun k => ((exact k).release hid held).1, fun _ _ _ same => absurd same noReserve,
        fun _ _ _ same => absurd same noReserve, ?_, ?_⟩
      · rintro _ ⟨⟩ _
        exact ⟨r, held, fun k => ((exact k).release hid held).2⟩
      · rintro _ ⟨⟩ failure
        simp only [release, nonzero, Bool.false_eq_true, if_false, held] at failure
        exact absurd rfl failure

theorem accounted_iff {t : BudgetTracker} (exact : t.UsageExact) (fresh : t.takeId.1 ∉ t.ids)
    (op : BudgetOp) : t.Accounted op ↔ t.CounterRoom op := by
  cases op with
  | reserve kind amount tag => exact accounted_reserve_iff exact fresh kind amount tag
  | release id => exact ⟨fun _ => nofun, fun _ => accounted_release exact id⟩
  | setLimit kind value =>
    exact ⟨fun _ => nofun, fun _ => ⟨exact, nofun, nofun, nofun, nofun⟩⟩

/-- An operation hands out at most one id, the next one, and that only if it is a reservation. -/
theorem Issued.step {t : BudgetTracker} {n : Nat} (h : t.Issued n) (op : BudgetOp)
    (room : n + 2 < 2 ^ 64) : ∃ m, n ≤ m ∧ m ≤ n + (if op.reserves then 1 else 0) ∧
      (t.step op).Issued m ∧ ∀ id ∈ t.granted op, id.toNat ≤ m := by
  have quiet (none : t.granted op = []) (issued : (t.step op).Issued n) :
      ∃ m, n ≤ m ∧ m ≤ n + (if op.reserves then 1 else 0) ∧
        (t.step op).Issued m ∧ ∀ id ∈ t.granted op, id.toNat ≤ m :=
    ⟨n, Nat.le_refl n, Nat.le_add_right _ _, issued, by simp [none]⟩
  cases op with
  | reserve kind amount tag =>
    obtain ⟨refused, same⟩ | ⟨number, -, -, issued⟩ := reserve_cases h kind amount tag
    · refine quiet (if_pos refused) ?_
      change (t.reserve kind amount tag).2.2.Issued n
      rw [same]
      exact h
    · have nonzero : (t.reserve kind amount tag).1 ≠ 0 := by
        intro zero
        rw [zero] at number
        cases number
      exact ⟨n + 1, Nat.le_succ n, Nat.le_refl _, issued room, by simp [granted, nonzero, number]⟩
  | setLimit kind value => exact quiet rfl ⟨h.counter, h.bound⟩
  | release id =>
    refine quiet rfl ?_
    obtain ⟨limits, same, -⟩ | ⟨_, _, _, reserve, -⟩ | ⟨_, r, held, -, found⟩ :=
      step_cases t (.release id)
    · rw [same]
      exact ⟨h.counter, h.bound⟩
    · cases reserve
    · cases held
      exact (release_held h (mem_ids.mpr ⟨r, found⟩)).2.2

/-- In a whole run the ids are handed out in order. -/
theorem Issued.run {t : BudgetTracker} {n : Nat} (h : t.Issued n) {ops : List BudgetOp}
    (few : n + ops.countP BudgetOp.reserves < 2 ^ 63) :
    ∃ m, n ≤ m ∧ (Runs.run BudgetTracker.step t ops).Issued m ∧
      ∀ id ∈ emitted BudgetTracker.step granted t ops, id.toNat ≤ m := by
  induction ops generalizing t n with
  | nil => exact ⟨n, Nat.le_refl n, h, by simp [emitted]⟩
  | cons op rest ih =>
    rw [List.countP_cons] at few
    obtain ⟨m, more, bound, issued, now⟩ := h.step op (by omega)
    obtain ⟨k, later, last, others⟩ := ih issued (by omega)
    refine ⟨k, Nat.le_trans more later, last, fun id given => ?_⟩
    rw [emitted, List.mem_append] at given
    rcases given with first | after
    · exact Nat.le_trans (now id first) later
    · exact others id after

/-- The next id has never been handed out. -/
theorem Issued.ungiven {t : BudgetTracker} {n : Nat} (h : t.Issued n) {given : List UInt64}
    (numbered : ∀ id ∈ given, id.toNat ≤ n) : t.takeId.1 ∉ given := by
  intro mem
  have bound := numbered _ mem
  have counter := h.counter
  simp only [h.takeId_eq] at bound
  omega

theorem usage_exact_from_iff {t : BudgetTracker} {n : Nat} (exact : t.UsageExact) (h : t.Issued n)
    (ops : List BudgetOp) (few : n + ops.countP BudgetOp.reserves < 2 ^ 63) :
    Along step Accounted t ops ↔ Along step CounterRoom t ops := by
  induction ops generalizing t n with
  | nil => rfl
  | cons op rest ih =>
    rw [List.countP_cons] at few
    obtain ⟨m, -, bound, issued, -⟩ := h.step op (by omega)
    have once := accounted_iff exact h.fresh op
    constructor
    · rintro ⟨accounted, later⟩
      exact ⟨once.mp accounted, (ih accounted.exact issued (by omega)).mp later⟩
    · rintro ⟨room, later⟩
      have accounted := once.mpr room
      exact ⟨accounted, (ih accounted.exact issued (by omega)).mpr later⟩

theorem usageExact_init (limits : BudgetLimits) : ({ limits } : BudgetTracker).UsageExact :=
  fun _ => rfl

/-- Over a run the usage stays the exact sum of what is outstanding, and every operation does to
it what exact arithmetic would, just when no reservation of a kind that has no limit takes the sum
of its kind to 2^64. -/
theorem usage_exact_iff (limits : BudgetLimits) (ops : List BudgetOp)
    (few : ops.countP BudgetOp.reserves < 2 ^ 63) :
    Along step Accounted { limits } ops ↔ Along step CounterRoom { limits } ops :=
  usage_exact_from_iff (usageExact_init limits) (issued_init limits) ops (by omega)

theorem usage_exact_once :
    Along step Accounted {} [.reserve .hostMemory 5 [], .release 1] :=
  (usage_exact_iff {} [.reserve .hostMemory 5 [], .release 1] (by decide)).mpr
    ⟨by rintro _ _ _ ⟨⟩ _; decide, nofun, trivial⟩

/-- Two reservations of a kind without a limit that add up to 2^64 leave its usage at zero. -/
theorem unlimited_usage_wraps :
    [BudgetOp.reserve .hostMemory 0xFFFFFFFFFFFFFFFF [], .reserve .hostMemory 1 []].countP
      BudgetOp.reserves < 2 ^ 63 ∧
    (run step ({} : BudgetTracker)
      [.reserve .hostMemory 0xFFFFFFFFFFFFFFFF [], .reserve .hostMemory 1 []]).usage .hostMemory = 0 ∧
    ¬Along step Accounted ({} : BudgetTracker)
      [.reserve .hostMemory 0xFFFFFFFFFFFFFFFF [], .reserve .hostMemory 1 []] := by
  refine ⟨by decide, by decide, ?_⟩
  rintro ⟨_, second, _⟩
  have raised := second.granted .hostMemory 1 [] rfl (by decide) .hostMemory
  revert raised
  decide

/-- No reservation of the kind is granted. -/
def GrantsNone (k : WarmthBudgetKind) (t : BudgetTracker) (op : BudgetOp) : Prop :=
  ∀ amount tag, op = .reserve k amount tag → (t.reserve k amount tag).1 = 0

/-- A counter that is exact and whose sum is bounded stays so while grants respect the bound. -/
theorem ExactAt.step {t : BudgetTracker} {k : WarmthBudgetKind} {bound : Nat}
    (exact : t.ExactAt k) (under : t.outstandingSum k ≤ bound) (small : bound < 2 ^ 64)
    (fresh : t.takeId.1 ∉ t.ids) (op : BudgetOp)
    (within : ∀ amount tag, op = .reserve k amount tag → (t.reserve k amount tag).1 ≠ 0 →
      t.fits k amount = true → t.outstandingSum k + amount.toNat ≤ bound) :
    (t.step op).ExactAt k ∧ (t.step op).outstandingSum k ≤ bound := by
  rcases step_cases t op with ⟨limits, same, _⟩ | ⟨kind, amount, tag, rfl, _, fits, granted⟩ |
    ⟨id, r, rfl, hid, held⟩
  · rw [same]
    exact ⟨exact, under⟩
  · have next : t.step (.reserve kind amount tag) = t.grant kind amount tag := by
      rw [BudgetTracker.step, granted]
    have room : kind = k → t.outstandingSum k + amount.toNat ≤ bound := by
      rintro rfl
      exact within amount tag rfl (by rw [granted]; exact t.takeId_ne_zero) fits
    rw [next, exact.grant_iff fresh, outstandingSum_grant fresh]
    refine ⟨fun same => Nat.lt_of_le_of_lt (room same) small, ?_⟩
    by_cases same : kind = k
    · have admitted := room same
      rw [if_pos same]
      omega
    · rw [if_neg same]
      omega
  · refine ⟨(exact.release hid held).1, ?_⟩
    have less := outstandingSum_released hid held k
    change (t.release id).2.outstandingSum k ≤ bound
    omega

/-- A kind nothing has been granted of: whatever the limits are set to, its counter is at zero. -/
theorem unused_run {t : BudgetTracker} {n : Nat} {k : WarmthBudgetKind} (exact : t.ExactAt k)
    (unused : t.outstandingSum k ≤ 0) (h : t.Issued n) {ops : List BudgetOp}
    (none : Along BudgetTracker.step (GrantsNone k) t ops)
    (few : n + ops.countP BudgetOp.reserves < 2 ^ 63) :
    (run BudgetTracker.step t ops).ExactAt k ∧ (run BudgetTracker.step t ops).outstandingSum k ≤ 0 ∧
      ∃ m, m ≤ n + ops.countP BudgetOp.reserves ∧ (run BudgetTracker.step t ops).Issued m := by
  induction ops generalizing t n with
  | nil => exact ⟨exact, unused, n, by simp, h⟩
  | cons op rest ih =>
    rw [List.countP_cons] at few ⊢
    obtain ⟨m, -, bound, issued, -⟩ := h.step op (by omega)
    obtain ⟨exact', unused'⟩ := exact.step unused (by omega) h.fresh op
      fun amount tag reserved granted _ => absurd (none.1 amount tag reserved) granted
    obtain ⟨last, zero, m', bound', issued'⟩ := ih exact' unused' issued none.2 (by omega)
    exact ⟨last, zero, m', by omega, issued'⟩

theorem limited_run {t : BudgetTracker} {n : Nat} {k : WarmthBudgetKind} {limit : UInt64}
    (limited : limit ≠ 0) (fixed : t.limits.get k = limit) (exact : t.ExactAt k)
    (under : t.outstandingSum k ≤ limit.toNat) (h : t.Issued n) {ops : List BudgetOp}
    (keeps : ∀ op ∈ ops, op.sets k = false) (few : n + ops.countP BudgetOp.reserves < 2 ^ 63) :
    (run BudgetTracker.step t ops).limits.get k = limit ∧ (run BudgetTracker.step t ops).ExactAt k ∧
      (run BudgetTracker.step t ops).outstandingSum k ≤ limit.toNat ∧
      ∃ m, m < 2 ^ 63 ∧ (run BudgetTracker.step t ops).Issued m := by
  induction ops generalizing t n with
  | nil => exact ⟨fixed, exact, under, n, by simpa using few, h⟩
  | cons op rest ih =>
    rw [List.countP_cons] at few
    obtain ⟨m, -, bound, issued, -⟩ := h.step op (by omega)
    obtain ⟨exact', under'⟩ := exact.step under limit.toNat_lt h.fresh op
      fun amount tag _ _ fits => fixed ▸ (exact.fits_iff (fixed ▸ limited) amount).mp fits
    have kept : (t.step op).limits.get k = limit := by
      rcases step_cases t op with ⟨limits, same, others⟩ | ⟨kind, amount, tag, rfl, _, _, granted⟩ |
        ⟨id, r, rfl, _, _⟩
      · rw [same]
        exact (others k (keeps op List.mem_cons_self)).trans fixed
      · rw [BudgetTracker.step, granted, grant_limits, fixed]
      · rw [BudgetTracker.step, release_frame, fixed]
    exact ih kept exact' under' issued (fun o mem => keeps o (List.mem_cons_of_mem op mem)) (by omega)

/-- A grant taken back leaves every counter and every reservation as it was. -/
theorem release_grant {t : BudgetTracker} (fresh : t.takeId.1 ∉ t.ids) {kind : WarmthBudgetKind}
    {amount : UInt64} (room : (t.usage kind).toNat + amount.toNat < 2 ^ 64) (tag : CString) :
    ((t.grant kind amount tag).release t.takeId.1).1 = .none ∧
      ((t.grant kind amount tag).release t.takeId.1).2.usage = t.usage ∧
      ((t.grant kind amount tag).release t.takeId.1).2.reservations = t.reservations := by
  have held : (t.grant kind amount tag).reservations[t.takeId.1]? = some ⟨kind, amount, tag⟩ :=
    grant_get_self fresh tag
  have nonzero : (t.takeId.1 == 0) = false := by simpa using t.takeId_ne_zero
  refine ⟨?_, ?_, ?_⟩
  · simp only [release, nonzero, Bool.false_eq_true, if_false, held]
  · funext k
    apply UInt64.toNat_inj.mp
    rw [release_usage held t.takeId_ne_zero, usage_grant room]
    exact Nat.add_sub_cancel _ _
  · have unknown : t.reservations[t.takeId.1]? = none :=
      ExtTreeMap.getElem?_eq_none fun mem => fresh (mem_ids_iff.mpr mem)
    have left : ((t.grant kind amount tag).release t.takeId.1).2.reservations =
        (t.grant kind amount tag).reservations.erase t.takeId.1 := by
      simp only [release, nonzero, Bool.false_eq_true, if_false, held]
    rw [left, grant_reservations fresh]
    apply ExtTreeMap.ext_getElem?
    intro i
    by_cases hi : i = t.takeId.1
    · rw [hi, ExtTreeMap.getElem?_erase_self, unknown]
    · rw [getElem?_erase_of_ne hi, getElem?_insert_of_ne hi]

/-- Under a limit that has stood since before the kind's first reservation, the kind's outstanding
sum stays within the limit, a reservation is granted exactly if the new sum would too, with an id
that was never handed out, a refused one changes nothing, and a granted one can be taken back
without a trace. -/
theorem admission_exact (limits : BudgetLimits) (before ops : List BudgetOp) (k : WarmthBudgetKind)
    (unused : Along step (GrantsNone k) { limits } before)
    (limited : (run step { limits } before).limits.get k ≠ 0)
    (fixed : ∀ op ∈ ops, op.sets k = false)
    (few : (before ++ ops).countP BudgetOp.reserves < 2 ^ 63) :
    let limit := ((run step { limits } before).limits.get k).toNat
    let t := run step { limits } (before ++ ops)
    t.outstandingSum k ≤ limit ∧
      ∀ amount tag,
        let (id, _, after) := t.reserve k amount tag
        (id ≠ 0 ↔ 0 < amount.toNat ∧ t.outstandingSum k + amount.toNat ≤ limit) ∧
        (id = 0 → after = t) ∧
        (id ≠ 0 → id ∉ t.ids ∧ id ∉ emitted step granted { limits } (before ++ ops) ∧
          (after.release id).1 = .none ∧ (after.release id).2.usage = t.usage ∧
          (after.release id).2.reservations = t.reservations) := by
  intro limit t
  have whole : ∃ m, 0 ≤ m ∧ t.Issued m ∧
      ∀ id ∈ emitted step granted { limits } (before ++ ops), id.toNat ≤ m :=
    (issued_init limits).run (by omega)
  obtain ⟨last, -, all, numbered⟩ := whole
  have ungiven := all.ungiven numbered
  rw [List.countP_append] at few
  obtain ⟨exact₀, zero, n, bound, issued₀⟩ := unused_run (usageExact_init limits k)
    (Nat.le_refl 0) (issued_init limits) unused (by omega)
  have split : t = run step (run step { limits } before) ops := run_append before ops
  obtain ⟨current, exact, under, m, small, issued⟩ := limited_run limited rfl exact₀ (by omega)
    issued₀ fixed (by omega)
  rw [← split] at current exact under issued
  refine ⟨under, fun amount tag => ?_⟩
  have bits := ((run step { limits } before).limits.get k).toNat_lt
  by_cases nothing : amount = 0
  · subst nothing
    have refused : t.reserve k 0 tag = (0, .none, t) := rfl
    simp [refused]
  · have positive : 0 < amount.toNat := by
      have nonzero := mt UInt64.toNat_inj.mp nothing
      rw [UInt64.toNat_zero] at nonzero
      omega
    have admits := exact.fits_iff (current ▸ limited) amount
    rw [current] at admits
    rw [reserve_eq t k nothing tag]
    cases fits : t.fits k amount with
    | false =>
      rw [fits] at admits
      have large := mt admits.mpr Bool.false_ne_true
      simp [limit, large]
    | true =>
      have within := admits.mp fits
      have taken := t.takeId_ne_zero
      have room : (t.usage k).toNat + amount.toNat < 2 ^ 64 := by
        rw [exact]
        omega
      refine ⟨⟨fun _ => ⟨positive, within⟩, fun _ => taken⟩, fun zero => absurd zero taken,
        fun _ => ⟨issued.fresh, ungiven, release_grant issued.fresh room tag⟩⟩

theorem admission_exact_filled :
    let t := run step ({} : BudgetTracker) ([.setLimit .hostMemory 8] ++ [.reserve .hostMemory 5 []])
    t.outstandingSum .hostMemory ≤ 8 ∧
      ∀ amount tag,
        let (id, _, after) := t.reserve .hostMemory amount tag
        (id ≠ 0 ↔ 0 < amount.toNat ∧ t.outstandingSum .hostMemory + amount.toNat ≤ 8) ∧
        (id = 0 → after = t) ∧
        (id ≠ 0 → id ∉ t.ids ∧
          id ∉ emitted step granted ({} : BudgetTracker)
            ([.setLimit .hostMemory 8] ++ [.reserve .hostMemory 5 []]) ∧
          (after.release id).1 = .none ∧ (after.release id).2.usage = t.usage ∧
          (after.release id).2.reservations = t.reservations) :=
  admission_exact {} [.setLimit .hostMemory 8] [.reserve .hostMemory 5 []] .hostMemory
    ⟨nofun, trivial⟩ (by decide) (by simp [BudgetOp.sets]) (by decide)

end BudgetTracker

end Warmth
