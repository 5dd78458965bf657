import Warmth.Identity
import Warmth.TreeMaps

namespace Warmth

open Std

/-- What warming reserves of the device memory, 1 GiB. -/
def kDefaultWarmBytes : UInt64 := (1 : UInt64) <<< (30 : UInt64)

inductive WarmthBudgetKind
  | deviceMemory | pinnedHostMemory | hostMemory | storageFootprint | concurrentWarmingOps
  | transferBandwidth | activeEngines | warmReplicas
deriving DecidableEq, Repr

structure BudgetLimits where
  deviceMemoryBytes : UInt64 := 0
  pinnedHostMemoryBytes : UInt64 := 0
  hostMemoryBytes : UInt64 := 0
  storageFootprintBytes : UInt64 := 0
  concurrentWarmingOps : UInt64 := 0
  transferBandwidthBps : UInt64 := 0
  activeEngines : UInt64 := 0
  warmReplicas : UInt64 := 0
deriving DecidableEq, Repr

def BudgetLimits.get (l : BudgetLimits) : WarmthBudgetKind → UInt64
  | .deviceMemory => l.deviceMemoryBytes
  | .pinnedHostMemory => l.pinnedHostMemoryBytes
  | .hostMemory => l.hostMemoryBytes
  | .storageFootprint => l.storageFootprintBytes
  | .concurrentWarmingOps => l.concurrentWarmingOps
  | .transferBandwidth => l.transferBandwidthBps
  | .activeEngines => l.activeEngines
  | .warmReplicas => l.warmReplicas

def BudgetLimits.set (l : BudgetLimits) (kind : WarmthBudgetKind) (value : UInt64) : BudgetLimits :=
  match kind with
  | .deviceMemory => { l with deviceMemoryBytes := value }
  | .pinnedHostMemory => { l with pinnedHostMemoryBytes := value }
  | .hostMemory => { l with hostMemoryBytes := value }
  | .storageFootprint => { l with storageFootprintBytes := value }
  | .concurrentWarmingOps => { l with concurrentWarmingOps := value }
  | .transferBandwidth => { l with transferBandwidthBps := value }
  | .activeEngines => { l with activeEngines := value }
  | .warmReplicas => { l with warmReplicas := value }

theorem BudgetLimits.get_set (l : BudgetLimits) (kind k : WarmthBudgetKind) (value : UInt64) :
    (l.set kind value).get k = if k = kind then value else l.get k := by
  cases kind <;> cases k <;> rfl

inductive BudgetError
  | none | limitExceeded | unknownReservation | doubleRelease | overflow
deriving DecidableEq, Repr

structure Res where
  kind : WarmthBudgetKind
  amount : UInt64
  tag : CString
deriving DecidableEq, Repr

structure BudgetTracker where
  limits : BudgetLimits := {}
  reservations : ExtTreeMap UInt64 Res := ∅
  /-- A kind never used has no entry in the source's map and reads as zero. -/
  usage : WarmthBudgetKind → UInt64 := fun _ => 0
  nextId : UInt64 := 1

namespace BudgetTracker

def setLimit (t : BudgetTracker) (kind : WarmthBudgetKind) (value : UInt64) : BudgetTracker :=
  { t with limits := t.limits.set kind value }

def fits (t : BudgetTracker) (kind : WarmthBudgetKind) (amount : UInt64) : Bool :=
  let u := t.usage kind
  let lim := t.limits.get kind
  if lim == 0 then true else decide (amount ≤ lim) && decide (u ≤ lim - amount)

/-- `next_id`: the counter's value, or the one after it when the counter stands at zero. -/
def takeId (t : BudgetTracker) : UInt64 × BudgetTracker :=
  if t.nextId == 0 then (1, { t with nextId := 2 })
  else (t.nextId, { t with nextId := t.nextId + 1 })

/-- The reservation id (zero when refused), the error, and the tracker after the call. -/
def reserve (t : BudgetTracker) (kind : WarmthBudgetKind) (amount : UInt64) (tag : CString) :
    UInt64 × BudgetError × BudgetTracker :=
  if amount == 0 then (0, .none, t) else
  let lim := t.limits.get kind
  if lim != 0 && decide (lim < amount) then (0, .limitExceeded, t) else
  if !t.fits kind amount then (0, .limitExceeded, t) else
  let (id, t) := t.takeId
  let reservations := t.reservations.insertIfNew id ⟨kind, amount, tag⟩
  let usage := fun k => if k = kind then t.usage k + amount else t.usage k
  (id, .none, { t with reservations, usage })

def release (t : BudgetTracker) (reservationId : UInt64) : BudgetError × BudgetTracker :=
  if reservationId == 0 then (.unknownReservation, t) else
  match t.reservations[reservationId]? with
  | none => (.doubleRelease, t)
  | some r =>
    let u := t.usage r.kind
    let left := if u ≤ r.amount then 0 else u - r.amount
    (.none, { t with
      usage := fun k => if k = r.kind then left else t.usage k
      reservations := t.reservations.erase reservationId })

def outstanding (t : BudgetTracker) : Nat := t.reservations.size
def balanced (t : BudgetTracker) : Bool := t.reservations.isEmpty

end BudgetTracker

/-- How many ids there are to hand out before the first comes up again: all but zero. -/
def idCycle : Nat := 18446744073709551615

/-- A reservation given back and the error that `release` returned, which no caller looks at. -/
abbrev Release := UInt64 × BudgetError

namespace BudgetTracker

def releaseAll (t : BudgetTracker) : List UInt64 → List Release × BudgetTracker
  | [] => ([], t)
  | id :: rest =>
    let (err, t) := t.release id
    let (done, t) := t.releaseAll rest
    ((id, err) :: done, t)

def ids (t : BudgetTracker) : List UInt64 := t.reservations.toList.map Prod.fst

/-- So far `n` ids have been handed out, in order from one. -/
structure Issued (t : BudgetTracker) (n : Nat) : Prop where
  counter : t.nextId.toNat = n + 1
  bound : ∀ id ∈ t.ids, 1 ≤ id.toNat ∧ id.toNat ≤ n

theorem mem_ids {t : BudgetTracker} {id : UInt64} :
    id ∈ t.ids ↔ ∃ r, t.reservations[id]? = some r := by
  simp only [ids, List.mem_map, Prod.exists, ExtTreeMap.mem_toList_iff_getElem?_eq_some]
  constructor
  · rintro ⟨a, r, h, rfl⟩
    exact ⟨r, h⟩
  · rintro ⟨r, h⟩
    exact ⟨id, r, h, rfl⟩

theorem nodup_ids (t : BudgetTracker) : t.ids.Nodup := TreeMaps.keys_nodup_toList t.reservations

theorem outstanding_eq (t : BudgetTracker) : t.outstanding = t.ids.length := by
  simp [outstanding, ids]

theorem issued_init (limits : BudgetLimits) : ({ limits } : BudgetTracker).Issued 0 := by
  refine ⟨rfl, fun id h => ?_⟩
  obtain ⟨r, hr⟩ := mem_ids.mp h
  cases hr

/-- The tracker after a granted reservation. -/
def grant (t : BudgetTracker) (kind : WarmthBudgetKind) (amount : UInt64) (tag : CString) :
    BudgetTracker :=
  { t.takeId.2 with
    reservations := t.reservations.insertIfNew t.takeId.1 ⟨kind, amount, tag⟩
    usage := fun k => if k = kind then t.usage k + amount else t.usage k }

theorem takeId_frame (t : BudgetTracker) : t.takeId.2 = { t with nextId := t.takeId.2.nextId } := by
  unfold takeId
  split <;> rfl

theorem takeId_ne_zero (t : BudgetTracker) : t.takeId.1 ≠ 0 := by
  unfold takeId
  split
  next => exact nofun
  next h => simpa using h

theorem takeId_takeId_ne (t : BudgetTracker) : t.takeId.2.takeId.1 ≠ t.takeId.1 := by
  by_cases zero : t.nextId = 0
  · simp [takeId, zero]
  · by_cases last : t.nextId + 1 = 0
    · have hne : t.nextId ≠ 1 := by
        intro one
        rw [one] at last
        exact absurd last (by decide)
      simpa [takeId, zero, last] using hne.symm
    · simp [takeId, zero, last]

/-- A reservation of a nonzero amount is granted exactly if it fits. -/
theorem reserve_eq (t : BudgetTracker) (kind : WarmthBudgetKind) {amount : UInt64}
    (h : amount ≠ 0) (tag : CString) :
    t.reserve kind amount tag =
      if t.fits kind amount then (t.takeId.1, .none, t.grant kind amount tag)
      else (0, .limitExceeded, t) := by
  unfold reserve
  rw [if_neg (by simpa using h)]
  simp only
  split
  next exceeded =>
    simp only [Bool.and_eq_true, bne_iff_ne, ne_eq, decide_eq_true_eq] at exceeded
    have refused : t.fits kind amount = false := by
      simp [fits, exceeded.1, UInt64.not_le.mpr exceeded.2]
    rw [refused]
    rfl
  next =>
    cases fits : t.fits kind amount with
    | false => rfl
    | true =>
      simp only [Bool.not_true, Bool.false_eq_true, if_false, if_true, grant]
      rw [takeId_frame t]

theorem mem_ids_iff {t : BudgetTracker} {i : UInt64} : i ∈ t.ids ↔ i ∈ t.reservations := by
  rw [mem_ids, ExtTreeMap.mem_iff_isSome_getElem?, Option.isSome_iff_exists]

theorem mem_ids_grant {t : BudgetTracker} {kind : WarmthBudgetKind} {amount : UInt64}
    {tag : CString} {i : UInt64} :
    i ∈ (t.grant kind amount tag).ids ↔ i = t.takeId.1 ∨ i ∈ t.ids := by
  rw [mem_ids_iff, mem_ids_iff, grant, ExtTreeMap.mem_insertIfNew, Std.compare_eq_iff_eq]
  rw [eq_comm]

theorem mem_ids_release {t : BudgetTracker} {i j : UInt64} (h : j ≠ 0) :
    i ∈ (t.release j).2.ids ↔ i ∈ t.ids ∧ i ≠ j := by
  have hj : (j == 0) = false := by simpa using h
  simp only [release, hj, Bool.false_eq_true, if_false]
  split
  next absent =>
    refine ⟨fun hi => ⟨hi, ?_⟩, And.left⟩
    rintro rfl
    obtain ⟨r, hr⟩ := mem_ids.mp hi
    rw [absent] at hr
    cases hr
  next =>
    rw [mem_ids_iff, mem_ids_iff, ExtTreeMap.mem_erase, ne_eq, Std.compare_eq_iff_eq, eq_comm]
    exact and_comm

theorem release_zero (t : BudgetTracker) : (t.release 0).2 = t := rfl

theorem release_frame (t : BudgetTracker) (i : UInt64) :
    (t.release i).2 = { t with
      usage := (t.release i).2.usage
      reservations := (t.release i).2.reservations } := by
  unfold release
  split
  · rfl
  · split <;> rfl

theorem grant_limits (t : BudgetTracker) (kind : WarmthBudgetKind) (amount : UInt64)
    (tag : CString) : (t.grant kind amount tag).limits = t.limits := by
  rw [grant, takeId_frame]

theorem takeId_grant (t : BudgetTracker) (kind : WarmthBudgetKind) (amount : UInt64)
    (tag : CString) : (t.grant kind amount tag).takeId.1 = t.takeId.2.takeId.1 := by
  unfold grant takeId
  split <;> simp only <;> split <;> rfl

theorem takeId_next {t : BudgetTracker} {d : Nat} (h : t.takeId.1.toNat = d % idCycle + 1) :
    t.takeId.2.takeId.1.toNat = (d + 1) % idCycle + 1 := by
  unfold idCycle at h ⊢
  by_cases zero : t.nextId = 0
  · have first : t.takeId.1.toNat = 1 := by simp [takeId, zero]
    have second : t.takeId.2.takeId.1.toNat = 2 := by simp [takeId, zero]
    omega
  · have current : t.takeId.1 = t.nextId := by simp [takeId, zero]
    rw [current] at h
    by_cases last : t.nextId + 1 = 0
    · have wrapped : t.takeId.2.takeId.1.toNat = 1 := by simp [takeId, zero, last]
      have top := congrArg UInt64.toNat last
      rw [UInt64.toNat_add, UInt64.toNat_one, UInt64.toNat_zero] at top
      have bits := t.nextId.toNat_lt
      omega
    · have next : t.takeId.2.takeId.1 = t.nextId + 1 := by simp [takeId, zero, last]
      have bits := t.nextId.toNat_lt
      have small : t.nextId.toNat + 1 < 2 ^ 64 := by
        by_contra large
        apply last
        apply UInt64.toNat_inj.mp
        rw [UInt64.toNat_add, UInt64.toNat_one, UInt64.toNat_zero]
        omega
      rw [next, UInt64.toNat_add, UInt64.toNat_one, Nat.mod_eq_of_lt small]
      omega

theorem grant_takeId_next {t : BudgetTracker} {d : Nat} (h : t.takeId.1.toNat = d % idCycle + 1)
    (kind : WarmthBudgetKind) (amount : UInt64) (tag : CString) :
    (t.grant kind amount tag).takeId.1.toNat = (d + 1) % idCycle + 1 := by
  rw [takeId_grant]
  exact takeId_next h

theorem reserve_limits (t : BudgetTracker) (kind : WarmthBudgetKind) (amount : UInt64)
    (tag : CString) : (t.reserve kind amount tag).2.2.limits = t.limits := by
  by_cases nothing : amount = 0
  · subst nothing
    rfl
  · rw [reserve_eq t kind nothing tag]
    split
    · exact grant_limits t kind amount tag
    · rfl

theorem fits_unlimited {t : BudgetTracker} {kind : WarmthBudgetKind} (h : t.limits.get kind = 0)
    (amount : UInt64) : t.fits kind amount = true := by
  simp [fits, h]

/-- While ids are handed out in order the counter does not stand at zero. -/
theorem Issued.takeId_eq {t : BudgetTracker} {n : Nat} (h : t.Issued n) :
    t.takeId = (t.nextId, { t with nextId := t.nextId + 1 }) := by
  have nonzero : (t.nextId == 0) = false := by
    apply beq_false_of_ne
    intro zero
    have counter := h.counter
    rw [zero] at counter
    simp at counter
  simp only [takeId, nonzero, Bool.false_eq_true, if_false]

theorem Issued.fresh {t : BudgetTracker} {n : Nat} (h : t.Issued n) : t.takeId.1 ∉ t.ids := by
  rw [h.takeId_eq]
  intro mem
  have bound : t.nextId.toNat ≤ n := (h.bound _ mem).2
  have counter := h.counter
  omega

theorem grant_reservations {t : BudgetTracker} (fresh : t.takeId.1 ∉ t.ids) (kind : WarmthBudgetKind)
    (amount : UInt64) (tag : CString) :
    (t.grant kind amount tag).reservations = t.reservations.insert t.takeId.1 ⟨kind, amount, tag⟩ := by
  have unknown : t.takeId.1 ∉ t.reservations := fun mem => fresh (mem_ids_iff.mpr mem)
  apply ExtTreeMap.ext_getElem?
  intro k
  rw [grant, ExtTreeMap.getElem?_insertIfNew, ExtTreeMap.getElem?_insert]
  by_cases hk : compare t.takeId.1 k = .eq
  · simp [hk, unknown]
  · simp [hk]

theorem ids_grant_perm {t : BudgetTracker} (fresh : t.takeId.1 ∉ t.ids) (kind : WarmthBudgetKind)
    (amount : UInt64) (tag : CString) :
    (t.grant kind amount tag).ids.Perm (t.takeId.1 :: t.ids) := by
  have unknown : t.takeId.1 ∉ t.reservations := fun mem => fresh (mem_ids_iff.mpr mem)
  rw [ids, grant_reservations fresh]
  exact (TreeMaps.toList_insert_perm (ExtTreeMap.getElem?_eq_none unknown)).map Prod.fst

theorem Issued.grant {t : BudgetTracker} {n : Nat} (h : t.Issued n) (kind : WarmthBudgetKind)
    (amount : UInt64) (tag : CString) (room : n + 2 < 2 ^ 64) :
    (t.grant kind amount tag).Issued (n + 1) := by
  have counter := h.counter
  have next : (t.grant kind amount tag).nextId = t.nextId + 1 := by rw [BudgetTracker.grant, h.takeId_eq]
  refine ⟨?_, fun id mem => ?_⟩
  · rw [next, UInt64.toNat_add, UInt64.toNat_one]
    omega
  · rcases mem_ids_grant.mp mem with rfl | mem
    · have last : t.takeId.1.toNat = n + 1 := by rw [h.takeId_eq, counter]
      omega
    · have bound := h.bound id mem
      omega

/-- A reservation is refused and changes nothing, or gets the next id. -/
theorem reserve_cases {t : BudgetTracker} {n : Nat} (h : t.Issued n) (kind : WarmthBudgetKind)
    (amount : UInt64) (tag : CString) :
    ((t.reserve kind amount tag).1 = 0 ∧ (t.reserve kind amount tag).2.2 = t) ∨
    ((t.reserve kind amount tag).1.toNat = n + 1 ∧
      (t.reserve kind amount tag).1 ∉ t.ids ∧
      (t.reserve kind amount tag).2.2.ids.Perm ((t.reserve kind amount tag).1 :: t.ids) ∧
      (n + 2 < 2 ^ 64 → (t.reserve kind amount tag).2.2.Issued (n + 1))) := by
  by_cases nothing : amount = 0
  · subst nothing
    exact Or.inl ⟨rfl, rfl⟩
  · rw [reserve_eq t kind nothing tag]
    cases t.fits kind amount with
    | false => exact Or.inl ⟨rfl, rfl⟩
    | true =>
      have number : t.takeId.1.toNat = n + 1 := by rw [h.takeId_eq, h.counter]
      exact Or.inr ⟨number, h.fresh, ids_grant_perm h.fresh kind amount tag,
        h.grant kind amount tag⟩

theorem release_held {t : BudgetTracker} {n : Nat} (h : t.Issued n) {id : UInt64} (hid : id ∈ t.ids) :
    (t.release id).1 = .none ∧ t.ids.Perm (id :: (t.release id).2.ids) ∧
      (t.release id).2.Issued n := by
  obtain ⟨r, hr⟩ := mem_ids.mp hid
  have nonzero : (id == 0) = false := by
    apply beq_false_of_ne
    rintro rfl
    have := (h.bound _ hid).1
    simp at this
  have perm := (TreeMaps.toList_erase_perm hr).map Prod.fst
  simp only [release, nonzero, Bool.false_eq_true, if_false, hr]
  exact ⟨trivial, perm, h.counter, fun j hj => h.bound j (perm.mem_iff.mpr (List.mem_cons_of_mem _ hj))⟩

theorem releaseAll_cons (t : BudgetTracker) (id : UInt64) (rest : List UInt64) :
    t.releaseAll (id :: rest) =
      ((id, (t.release id).1) :: ((t.release id).2.releaseAll rest).1,
        ((t.release id).2.releaseAll rest).2) := rfl

theorem releaseAll_frame (t : BudgetTracker) (held : List UInt64) :
    (t.releaseAll held).2 = { t with
      usage := (t.releaseAll held).2.usage
      reservations := (t.releaseAll held).2.reservations } := by
  induction held generalizing t with
  | nil => rfl
  | cons id rest ih => rw [releaseAll_cons, ih, release_frame]

theorem mem_ids_releaseAll {t : BudgetTracker} {i : UInt64} {held : List UInt64}
    (h : (0 : UInt64) ∉ held) :
    i ∈ (t.releaseAll held).2.ids ↔ i ∈ t.ids ∧ i ∉ held := by
  induction held generalizing t with
  | nil => simp [releaseAll]
  | cons j held ih =>
    have nonzero : j ≠ 0 := fun zero => h (zero ▸ List.mem_cons_self)
    have rest := ih (t := (t.release j).2) fun mem => h (List.mem_cons_of_mem j mem)
    rw [releaseAll_cons, rest, mem_ids_release nonzero, List.mem_cons, not_or, and_assoc]

theorem releaseAll_held {t : BudgetTracker} {n : Nat} (h : t.Issued n) {held left : List UInt64}
    (perm : t.ids.Perm (held ++ left)) :
    (t.releaseAll held).1 = held.map (·, BudgetError.none) ∧
      (t.releaseAll held).2.ids.Perm left ∧ (t.releaseAll held).2.Issued n := by
  induction held generalizing t with
  | nil => exact ⟨rfl, perm, h⟩
  | cons id held ih =>
    have hid : id ∈ t.ids := perm.mem_iff.mpr (by simp)
    obtain ⟨ok, less, issued⟩ := release_held h hid
    obtain ⟨oks, rest, final⟩ := ih issued ((less.symm.trans perm).cons_inv)
    refine ⟨?_, rest, final⟩
    rw [releaseAll_cons, oks, ok]
    rfl

section
variable {t : BudgetTracker} {kind : WarmthBudgetKind} {amount : UInt64}

theorem fits_iff (h : t.limits.get kind ≠ 0) :
    t.fits kind amount = true ↔
      (t.usage kind).toNat + amount.toNat ≤ (t.limits.get kind).toNat := by
  have limited : (t.limits.get kind == 0) = false := by simpa using h
  simp only [fits, limited, Bool.false_eq_true, if_false, Bool.and_eq_true, decide_eq_true_eq]
  constructor
  · rintro ⟨small, room⟩
    have sub := UInt64.toNat_sub_of_le _ _ small
    have small := UInt64.le_iff_toNat_le.mp small
    have room := UInt64.le_iff_toNat_le.mp room
    omega
  · intro room
    have small : amount ≤ t.limits.get kind := UInt64.le_iff_toNat_le.mpr (by omega)
    refine ⟨small, UInt64.le_iff_toNat_le.mpr ?_⟩
    rw [UInt64.toNat_sub_of_le _ _ small]
    omega

theorem grant_usage_self (h : t.limits.get kind ≠ 0) (fits : t.fits kind amount = true)
    (tag : CString) :
    ((t.grant kind amount tag).usage kind).toNat = (t.usage kind).toNat + amount.toNat := by
  have room := (fits_iff h).mp fits
  have bound := (t.limits.get kind).toNat_lt
  simp only [grant, if_true]
  rw [UInt64.toNat_add, Nat.mod_eq_of_lt (by omega)]

theorem grant_usage_of_ne {k : WarmthBudgetKind} (h : k ≠ kind) (tag : CString) :
    (t.grant kind amount tag).usage k = t.usage k := if_neg h

theorem grant_get_self (fresh : t.takeId.1 ∉ t.ids) (tag : CString) :
    (t.grant kind amount tag).reservations[t.takeId.1]? = some ⟨kind, amount, tag⟩ := by
  rw [mem_ids_iff] at fresh
  rw [grant, ExtTreeMap.getElem?_insertIfNew,
    if_pos ⟨Std.compare_eq_iff_eq.mpr rfl, fresh⟩]

theorem grant_get_of_ne {i : UInt64} (h : i ≠ t.takeId.1) (tag : CString) :
    (t.grant kind amount tag).reservations[i]? = t.reservations[i]? := by
  have other : compare t.takeId.1 i ≠ .eq := by
    rw [ne_eq, Std.compare_eq_iff_eq]
    exact h.symm
  simp [grant, ExtTreeMap.getElem?_insertIfNew, other]

theorem release_usage {i : UInt64} {r : Res} (entry : t.reservations[i]? = some r) (h : i ≠ 0)
    (k : WarmthBudgetKind) :
    ((t.release i).2.usage k).toNat =
      (t.usage k).toNat - if k = r.kind then r.amount.toNat else 0 := by
  have hi : (i == 0) = false := by simpa using h
  simp only [release, hi, Bool.false_eq_true, if_false, entry]
  by_cases hk : k = r.kind
  · subst hk
    simp only [if_true]
    split
    next small =>
      have small := UInt64.le_iff_toNat_le.mp small
      simp only [UInt64.toNat_zero]
      omega
    next large =>
      exact UInt64.toNat_sub_of_le _ _ (UInt64.le_iff_toNat_le.mpr (by
        have large := mt UInt64.le_iff_toNat_le.mpr large
        omega))
  · simp [hk]

theorem release_get_of_ne {i j : UInt64} (h : i ≠ j) :
    (t.release j).2.reservations[i]? = t.reservations[i]? := by
  unfold release
  split
  · rfl
  · split
    · rfl
    · exact TreeMaps.getElem?_erase_of_ne h

end

end BudgetTracker

end Warmth
