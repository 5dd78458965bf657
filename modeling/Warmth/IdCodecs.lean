import Warmth.Identity

namespace Warmth

open Codec
open Std (LawfulEqOrd OrientedCmp)

namespace Id128

/-- `to_bytes` by its shifts: byte `i` of a half is `half >> (56 - i * 8)`. -/
def storeBytes (x : Id128) : Bytes :=
  let half (v : UInt64) : Bytes :=
    (List.range 8).map fun i => (v >>> UInt64.ofNat (56 - i * 8)).toUInt8
  half x.hi ++ half x.lo

/-- `from_bytes` by its shifts. -/
def loadBytes (b : Bytes) : Id128 :=
  let half (bs : Bytes) : UInt64 := bs.foldl (fun v b => (v <<< (8 : UInt64)) ||| b.toUInt64) 0
  ⟨half (b.take 8), half ((b.drop 8).take 8)⟩

/-- The value of a hexadecimal digit; without one the source's `nib` returns -1. -/
def nib (c : UInt8) : Option UInt8 :=
  if 48 ≤ c ∧ c ≤ 57 then some (c - 48)
  else if 97 ≤ c ∧ c ≤ 102 then some (c - 97 + 10)
  else if 65 ≤ c ∧ c ≤ 70 then some (c - 65 + 10)
  else none

def removePrefix (s : CString) : CString :=
  if s.take 2 = text "0x" ∨ s.take 2 = text "0X" then s.drop 2 else s

/-- One turn of the loop of `from_string`, on the digits `i` and `i + 16`. -/
def shiftDigits (x : Id128) (c : UInt8 × UInt8) : Option Id128 := do
  let nh ← nib c.1
  let nl ← nib c.2
  return ⟨(x.hi <<< (4 : UInt64)) ||| nh.toUInt64, (x.lo <<< (4 : UInt64)) ||| nl.toUInt64⟩

def fromString (s : CString) : Option Id128 :=
  let hex := removePrefix s
  if hex.length ≠ 32 then none else ((hex.take 16).zip (hex.drop 16)).foldlM shiftDigits {}

def IsHexDigit (c : UInt8) : Prop := 48 ≤ c ∧ c ≤ 57 ∨ 97 ≤ c ∧ c ≤ 102 ∨ 65 ≤ c ∧ c ≤ 70

def toLower (c : UInt8) : UInt8 := if 65 ≤ c ∧ c ≤ 90 then c + 32 else c

/-- A shift makes room for the digit that is put in. -/
theorem shiftIn_eq {k : Nat} (hk : k < 64) (v : UInt64) {d : UInt64} (hd : d.toNat < 2 ^ k) :
    (v <<< UInt64.ofNat k) ||| d = v * UInt64.ofNat (2 ^ k) + d := by
  have room : 2 ^ 64 = 2 ^ (64 - k) * 2 ^ k := by
    rw [← Nat.pow_add, Nat.sub_add_cancel (Nat.le_of_lt hk)]
  have wrapped : v.toNat * 2 ^ k % 2 ^ 64 = v.toNat % 2 ^ (64 - k) * 2 ^ k := by
    rw [room, Nat.mul_mod_mul_right]
  have power : (UInt64.ofNat (2 ^ k)).toNat = 2 ^ k :=
    UInt64.toNat_ofNat_of_lt' (Nat.pow_lt_pow_right (by decide) hk)
  have low : v.toNat % 2 ^ (64 - k) * 2 ^ k + d.toNat < 2 ^ 64 := by
    have bound : v.toNat % 2 ^ (64 - k) + 1 ≤ 2 ^ (64 - k) := Nat.mod_lt _ (Nat.two_pow_pos _)
    calc v.toNat % 2 ^ (64 - k) * 2 ^ k + d.toNat
        < (v.toNat % 2 ^ (64 - k) + 1) * 2 ^ k := by rw [Nat.add_mul]; omega
      _ ≤ 2 ^ (64 - k) * 2 ^ k := Nat.mul_le_mul_right _ bound
      _ = 2 ^ 64 := room.symm
  apply UInt64.toNat_inj.mp
  rw [UInt64.toNat_or, UInt64.toNat_shiftLeft, UInt64.toNat_ofNat_of_lt' (by simp [UInt64.size]; omega),
    Nat.mod_eq_of_lt hk, Nat.shiftLeft_eq, UInt64.toNat_add, UInt64.toNat_mul, power, wrapped,
    Nat.mod_eq_of_lt low, Nat.mul_comm, Nat.two_pow_add_eq_or_of_lt hd]

theorem foldl_shiftIn (bs : Bytes) (acc : Nat) :
    bs.foldl (fun v b => (v <<< (8 : UInt64)) ||| b.toUInt64) (UInt64.ofNat acc) =
      UInt64.ofNat (bs.foldl (fun acc b => acc * 256 + b.toNat) acc) := by
  induction bs generalizing acc with
  | nil => rfl
  | cons b bs ih =>
    have byte : b.toUInt64 = UInt64.ofNat b.toNat := by simp
    have shifted := shiftIn_eq (k := 8) (by decide) (UInt64.ofNat acc) (d := b.toUInt64)
      (by simpa using b.toNat_lt)
    rw [List.foldl_cons, List.foldl_cons, ← ih, UInt64.ofNat_add, UInt64.ofNat_mul, ← byte]
    exact congrArg (fun v => bs.foldl _ v) shifted

theorem loadBytes_eq (b : Bytes) : loadBytes b = fromBytes b := by
  simp only [loadBytes, fromBytes, ofBe]
  rw [← foldl_shiftIn, ← foldl_shiftIn]
  rfl

theorem beBytes_shifts (v : UInt64) :
    ((List.range 8).map fun i => (v >>> UInt64.ofNat (56 - i * 8)).toUInt8) =
      beBytes 8 v.toNat := by
  have shifted : ∀ k < 64, (v >>> UInt64.ofNat k).toUInt8 = UInt8.ofNat (v.toNat / 2 ^ k) := by
    intro k hk
    apply UInt8.toNat_inj.mp
    rw [UInt64.toNat_toUInt8, UInt64.toNat_shiftRight,
      UInt64.toNat_ofNat_of_lt' (by simp [UInt64.size]; omega), Nat.mod_eq_of_lt hk,
      Nat.shiftRight_eq_div_pow, UInt8.toNat_ofNat']
  calc ((List.range 8).map fun i => (v >>> UInt64.ofNat (56 - i * 8)).toUInt8)
      = (List.range 8).map fun i => UInt8.ofNat (v.toNat / 2 ^ (56 - i * 8)) :=
        List.map_congr_left fun i _ => shifted (56 - i * 8) (by omega)
    _ = beBytes 8 v.toNat := by simp [List.range_succ, beBytes]

theorem storeBytes_eq (x : Id128) : x.storeBytes = x.toBytes := by
  simp only [storeBytes, beBytes_shifts]
  rfl

/-- A number of two digits compares by the first one first. -/
theorem compare_digits {m q q' r r' : Nat} (hr : r < m) (hr' : r' < m) :
    compare (r + m * q) (r' + m * q') = (compare q q').then (compare r r') := by
  rcases Nat.lt_trichotomy q q' with lower | same | higher
  · have apart : m * q + m ≤ m * q' := by
      rw [← Nat.mul_succ]
      exact Nat.mul_le_mul_left m lower
    rw [Nat.compare_eq_lt.mpr lower, Nat.compare_eq_lt.mpr (by omega)]
    rfl
  · subst same
    rw [Nat.compare_eq_eq.mpr rfl, Ordering.eq_then]
    rcases Nat.lt_trichotomy r r' with lower | same | higher
    · rw [Nat.compare_eq_lt.mpr lower, Nat.compare_eq_lt.mpr (by omega)]
    · rw [same, Nat.compare_eq_eq.mpr rfl, Nat.compare_eq_eq.mpr rfl]
    · rw [Nat.compare_eq_gt.mpr higher, Nat.compare_eq_gt.mpr (by omega)]
  · have apart : m * q' + m ≤ m * q := by
      rw [← Nat.mul_succ]
      exact Nat.mul_le_mul_left m higher
    rw [Nat.compare_eq_gt.mpr higher, Nat.compare_eq_gt.mpr (by omega)]
    rfl

theorem compare_toNat8 (a b : UInt8) : compare a b = compare a.toNat b.toNat := by
  change compareOfLessAndEq a b = compareOfLessAndEq a.toNat b.toNat
  simp only [compareOfLessAndEq, UInt8.lt_iff_toNat_lt, UInt8.toNat_inj]

theorem compare_toNat64 (a b : UInt64) : compare a b = compare a.toNat b.toNat := by
  change compareOfLessAndEq a b = compareOfLessAndEq a.toNat b.toNat
  simp only [compareOfLessAndEq, UInt64.lt_iff_toNat_lt, UInt64.toNat_inj]

theorem compare_beBytes (n v w : Nat) :
    compare (beBytes n v) (beBytes n w) = compare (v % 256 ^ n) (w % 256 ^ n) := by
  induction n with
  | zero => simp [beBytes, Nat.mod_one]
  | succ n ih =>
    have pos : 0 < 256 ^ n := Nat.pow_pos (by decide)
    have split : ∀ v : Nat, v % 256 ^ (n + 1) = v % 256 ^ n + 256 ^ n * (v / 256 ^ n % 256) :=
      fun v => by rw [Nat.pow_succ, Nat.mod_mul]
    rw [beBytes, beBytes, List.compare_cons_cons, ih, split, split,
      compare_digits (Nat.mod_lt _ pos) (Nat.mod_lt _ pos), compare_toNat8, UInt8.toNat_ofNat',
      UInt8.toNat_ofNat']

theorem compare_append {as bs cs ds : Bytes} (h : as.length = bs.length) :
    compare (as ++ cs) (bs ++ ds) = (compare as bs).then (compare cs ds) := by
  induction as generalizing bs with
  | nil =>
    rw [List.eq_nil_of_length_eq_zero h.symm]
    rfl
  | cons a as ih =>
    cases bs with
    | nil => cases h
    | cons b bs =>
      rw [List.cons_append, List.cons_append, List.compare_cons_cons, List.compare_cons_cons,
        ih (Nat.succ.inj h), Ordering.then_assoc]

/-- Bytes compare like ids. -/
theorem compare_toBytes (x y : Id128) : compare x.toBytes y.toBytes = compare x y := by
  have half : ∀ v w : UInt64, compare (beBytes 8 v.toNat) (beBytes 8 w.toNat) = compare v w := by
    intro v w
    have small : ∀ v : UInt64, v.toNat % 256 ^ 8 = v.toNat := fun v => Nat.mod_eq_of_lt v.toNat_lt
    rw [compare_beBytes, small, small, compare_toNat64]
  rw [toBytes, toBytes, compare_append (by simp), half, half]
  rfl

theorem compare_hexDigit {m n : UInt8} (hm : m.toNat < 16) (hn : n.toNat < 16) :
    compare (hexDigit m) (hexDigit n) = compare m.toNat n.toNat := by
  have all : ∀ i < 16, ∀ j < 16,
      compare (hexDigit (UInt8.ofNat i)) (hexDigit (UInt8.ofNat j)) = compare i j := by decide
  have digits := all m.toNat hm n.toNat hn
  rwa [UInt8.ofNat_toNat, UInt8.ofNat_toNat] at digits

theorem high_digit_lt (c : UInt8) : (c / 16).toNat < 16 := by
  have := c.toNat_lt
  rw [UInt8.toNat_div]
  simp only [UInt8.reduceToNat]
  omega

theorem low_digit_lt (c : UInt8) : (c % 16).toNat < 16 := by
  rw [UInt8.toNat_mod]
  simp only [UInt8.reduceToNat]
  omega

theorem compare_hexByte (a b : UInt8) : compare (hexByte a) (hexByte b) = compare a b := by
  have value : compare a b = (compare (a.toNat / 16) (b.toNat / 16)).then
      (compare (a.toNat % 16) (b.toNat % 16)) := by
    rw [compare_toNat8, ← compare_digits (m := 16) (Nat.mod_lt _ (by decide))
      (Nat.mod_lt _ (by decide)), Nat.mod_add_div, Nat.mod_add_div]
  rw [value, hexByte, hexByte, List.compare_cons_cons, List.compare_cons_cons,
    compare_hexDigit (high_digit_lt a) (high_digit_lt b),
    compare_hexDigit (low_digit_lt a) (low_digit_lt b), UInt8.toNat_div, UInt8.toNat_div,
    UInt8.toNat_mod, UInt8.toNat_mod, LawfulEqOrd.compare_eq_iff_eq.mpr rfl, Ordering.then_eq]
  rfl

theorem compare_flatMap_hexByte {as bs : Bytes} (h : as.length = bs.length) :
    compare (as.flatMap hexByte) (bs.flatMap hexByte) = compare as bs := by
  induction as generalizing bs with
  | nil =>
    rw [List.eq_nil_of_length_eq_zero h.symm]
    rfl
  | cons a as ih =>
    cases bs with
    | nil => cases h
    | cons b bs =>
      have widths : (hexByte a).length = (hexByte b).length := rfl
      rw [List.flatMap_cons, List.flatMap_cons, compare_append widths, compare_hexByte,
        ih (Nat.succ.inj h), List.compare_cons_cons]

theorem compare_toString (x y : Id128) : compare x.toString y.toString = compare x y := by
  rw [toString, toString, compare_flatMap_hexByte (by simp), compare_toBytes]

theorem nib_none {c : UInt8} (h : ¬ IsHexDigit c) : nib c = none := by
  unfold IsHexDigit at h
  unfold nib
  rw [if_neg (fun decimal => h (Or.inl decimal)), if_neg (fun lower => h (Or.inr (Or.inl lower))),
    if_neg (fun upper => h (Or.inr (Or.inr upper)))]

/-- A hexadecimal digit has a value below 16, and printing it gives the lower-case digit. -/
theorem nib_some {c : UInt8} (h : IsHexDigit c) :
    ∃ n : UInt8, nib c = some n ∧ n.toNat < 16 ∧ hexDigit n = toLower c := by
  have all : ∀ i < 256, IsHexDigit (UInt8.ofNat i) → ((nib (UInt8.ofNat i)).any fun n =>
      decide (n.toNat < 16) && hexDigit n == toLower (UInt8.ofNat i)) = true := by
    unfold IsHexDigit
    decide +kernel
  have digit := all c.toNat c.toNat_lt
  rw [UInt8.ofNat_toNat] at digit
  obtain ⟨n, value, holds⟩ := Option.any_eq_true _ _ |>.mp (digit h)
  rw [Bool.and_eq_true, decide_eq_true_eq, beq_iff_eq] at holds
  exact ⟨n, value, holds⟩

theorem isHexDigit_hexDigit {n : UInt8} (h : n.toNat < 16) :
    IsHexDigit (hexDigit n) ∧ toLower (hexDigit n) = hexDigit n := by
  have all : ∀ i < 16, IsHexDigit (hexDigit (UInt8.ofNat i)) ∧
      toLower (hexDigit (UInt8.ofNat i)) = hexDigit (UInt8.ofNat i) := by
    unfold IsHexDigit
    decide
  have digit := all n.toNat h
  rwa [UInt8.ofNat_toNat] at digit

/-- Two digits a byte. -/
def pairUp : Bytes → Bytes
  | a :: b :: rest => (a * 16 + b) :: pairUp rest
  | _ => []

theorem pairUp_spec {ds : Bytes} (small : ∀ d ∈ ds, d.toNat < 16) {n : Nat}
    (even : ds.length = 2 * n) (acc : Nat) :
    (pairUp ds).length = n ∧ (pairUp ds).flatMap hexByte = ds.map hexDigit ∧
      (pairUp ds).foldl (fun acc b => acc * 256 + b.toNat) acc =
        ds.foldl (fun acc d => acc * 16 + d.toNat) acc := by
  induction ds using pairUp.induct generalizing n acc with
  | case1 a b rest ih =>
    obtain ⟨m, rfl⟩ : ∃ m, n = m + 1 := ⟨n - 1, by simp only [List.length_cons] at even; omega⟩
    have ha := small a List.mem_cons_self
    have hb := small b (List.mem_cons_of_mem _ List.mem_cons_self)
    have byte : (a * 16 + b).toNat = a.toNat * 16 + b.toNat := by
      rw [UInt8.toNat_add, UInt8.toNat_mul]
      simp only [UInt8.reduceToNat]
      omega
    have high : (a * 16 + b) / 16 = a := by
      apply UInt8.toNat_inj.mp
      rw [UInt8.toNat_div, byte]
      simp only [UInt8.reduceToNat]
      omega
    have low : (a * 16 + b) % 16 = b := by
      apply UInt8.toNat_inj.mp
      rw [UInt8.toNat_mod, byte]
      simp only [UInt8.reduceToNat]
      omega
    have value : (acc * 16 + a.toNat) * 16 + b.toNat = acc * 256 + (a * 16 + b).toNat := by
      rw [byte]
      omega
    obtain ⟨length, printed, folded⟩ := ih
      (fun d hd => small d (List.mem_cons_of_mem _ (List.mem_cons_of_mem _ hd)))
      (n := m) (by simp only [List.length_cons] at even; omega) (acc * 256 + (a * 16 + b).toNat)
    refine ⟨by rw [pairUp, List.length_cons, length], ?_, ?_⟩
    · rw [pairUp, List.flatMap_cons, hexByte, high, low, printed]
      rfl
    · rw [pairUp, List.foldl_cons, folded, List.foldl_cons, List.foldl_cons, value]
  | case2 ds short =>
    cases ds with
    | nil => exact ⟨by simp at even; simp [pairUp]; omega, rfl, rfl⟩
    | cons a ds =>
      cases ds with
      | nil => simp only [List.length_cons, List.length_nil] at even; omega
      | cons b rest => exact absurd rfl (short a b rest)

/-- Sixteen digits shifted in one after the other. -/
def ofDigits (ds : Bytes) : UInt64 := UInt64.ofNat (ds.foldl (fun acc d => acc * 16 + d.toNat) 0)

theorem beBytes_ofDigits {ds : Bytes} (small : ∀ d ∈ ds, d.toNat < 16) (length : ds.length = 16) :
    (beBytes 8 (ofDigits ds).toNat).flatMap hexByte = ds.map hexDigit := by
  obtain ⟨width, printed, folded⟩ := pairUp_spec small (n := 8) length 0
  have bound : ofBe (pairUp ds) < 2 ^ 64 := by
    have := ofBe_lt (pairUp ds)
    rwa [width] at this
  rw [ofDigits, ← folded, ← ofBe, UInt64.toNat_ofNat_of_lt' bound, beBytes_ofBe width, printed]

theorem shiftDigits_none {x : Id128} {c : UInt8 × UInt8} (h : ¬ (IsHexDigit c.1 ∧ IsHexDigit c.2)) :
    shiftDigits x c = none := by
  unfold shiftDigits
  by_cases first : IsHexDigit c.1
  · obtain ⟨n, value, _⟩ := nib_some first
    rw [value, nib_none (fun second => h ⟨first, second⟩)]
    rfl
  · rw [nib_none first]
    rfl

theorem foldlM_shiftDigits_none {cs : List (UInt8 × UInt8)} {c : UInt8 × UInt8} (hc : c ∈ cs)
    (h : ¬ (IsHexDigit c.1 ∧ IsHexDigit c.2)) (x : Id128) : cs.foldlM shiftDigits x = none := by
  induction cs generalizing x with
  | nil => cases hc
  | cons d cs ih =>
    rw [List.foldlM_cons]
    rcases List.mem_cons.mp hc with rfl | later
    · rw [shiftDigits_none h]
      rfl
    · cases shiftDigits x d with
      | none => rfl
      | some x => exact ih later x

theorem shiftIn_digit (acc : Nat) {n : UInt8} (h : n.toNat < 16) :
    (UInt64.ofNat acc <<< (4 : UInt64)) ||| n.toUInt64 = UInt64.ofNat (acc * 16 + n.toNat) := by
  have digit : n.toUInt64 = UInt64.ofNat n.toNat := by simp
  have shifted := shiftIn_eq (k := 4) (by decide) (UInt64.ofNat acc) (d := n.toUInt64)
    (by simpa using h)
  rw [UInt64.ofNat_add, UInt64.ofNat_mul, ← digit]
  exact shifted

/-- Over digits alone the loop puts in the values of both columns. -/
theorem foldlM_shiftDigits {as bs : CString} (same : as.length = bs.length)
    (has : ∀ c ∈ as, IsHexDigit c) (hbs : ∀ c ∈ bs, IsHexDigit c) (hi lo : Nat) :
    ∃ ns ms : Bytes, (∀ d ∈ ns, d.toNat < 16) ∧ (∀ d ∈ ms, d.toNat < 16) ∧
      ns.map hexDigit = as.map toLower ∧ ms.map hexDigit = bs.map toLower ∧
      (as.zip bs).foldlM shiftDigits ⟨UInt64.ofNat hi, UInt64.ofNat lo⟩ =
        some ⟨UInt64.ofNat (ns.foldl (fun acc d => acc * 16 + d.toNat) hi),
          UInt64.ofNat (ms.foldl (fun acc d => acc * 16 + d.toNat) lo)⟩ := by
  induction as generalizing bs hi lo with
  | nil =>
    rw [List.eq_nil_of_length_eq_zero same.symm]
    exact ⟨[], [], List.forall_mem_nil _, List.forall_mem_nil _, rfl, rfl, rfl⟩
  | cons a as ih =>
    cases bs with
    | nil => cases same
    | cons b bs =>
      rw [List.forall_mem_cons] at has hbs
      obtain ⟨n, nibA, smallA, printA⟩ := nib_some has.1
      obtain ⟨m, nibB, smallB, printB⟩ := nib_some hbs.1
      obtain ⟨ns, ms, smallN, smallM, printN, printM, folded⟩ :=
        ih (Nat.succ.inj same) has.2 hbs.2 (hi * 16 + n.toNat) (lo * 16 + m.toNat)
      have turn : shiftDigits ⟨UInt64.ofNat hi, UInt64.ofNat lo⟩ (a, b) =
          some ⟨UInt64.ofNat (hi * 16 + n.toNat), UInt64.ofNat (lo * 16 + m.toNat)⟩ := by
        rw [shiftDigits, nibA, nibB, ← shiftIn_digit _ smallA, ← shiftIn_digit _ smallB]
        rfl
      refine ⟨n :: ns, m :: ms, List.forall_mem_cons.mpr ⟨smallA, smallN⟩,
        List.forall_mem_cons.mpr ⟨smallB, smallM⟩, ?_, ?_, ?_⟩
      · rw [List.map_cons, List.map_cons, printA, printN]
      · rw [List.map_cons, List.map_cons, printB, printM]
      · rw [List.zip_cons_cons, List.foldlM_cons, turn]
        exact folded

/-- Thirty-two digits make the id that prints them in lower case. -/
theorem fromString_digits {hex : CString} (length : hex.length = 32)
    (digits : ∀ c ∈ hex, IsHexDigit c) :
    ∃ x, ((hex.take 16).zip (hex.drop 16)).foldlM shiftDigits {} = some x ∧
      x.toString = hex.map toLower := by
  obtain ⟨ns, ms, smallN, smallM, printN, printM, folded⟩ :=
    @foldlM_shiftDigits (hex.take 16) (hex.drop 16) (by simp [length])
      (fun c hc => digits c (List.mem_of_mem_take hc)) (fun c hc => digits c (List.mem_of_mem_drop hc))
      0 0
  have widthN : ns.length = 16 := by simpa [length] using congrArg List.length printN
  have widthM : ms.length = 16 := by simpa [length] using congrArg List.length printM
  refine ⟨⟨ofDigits ns, ofDigits ms⟩, folded, ?_⟩
  rw [toString, toBytes, List.flatMap_append, beBytes_ofDigits smallN widthN,
    beBytes_ofDigits smallM widthM, printN, printM, ← List.map_append, List.take_append_drop]

theorem removePrefix_cases (t : CString) :
    t = removePrefix t ∨ t = text "0x" ++ removePrefix t ∨ t = text "0X" ++ removePrefix t := by
  unfold removePrefix
  split
  next prefixed =>
    rcases prefixed with small | capital
    · exact Or.inr (Or.inl (by rw [← small, List.take_append_drop]))
    · exact Or.inr (Or.inr (by rw [← capital, List.take_append_drop]))
  next => exact Or.inl rfl

theorem removePrefix_digits {hex : CString} (digits : ∀ c ∈ hex, IsHexDigit c) :
    removePrefix hex = hex := by
  refine if_neg fun prefixed => ?_
  rcases prefixed with small | capital
  · have letter := digits 120 (List.mem_of_mem_take (small ▸ (by decide : (120 : UInt8) ∈ text "0x")))
    exact absurd letter (by unfold IsHexDigit; decide)
  · have letter := digits 88 (List.mem_of_mem_take (capital ▸ (by decide : (88 : UInt8) ∈ text "0X")))
    exact absurd letter (by unfold IsHexDigit; decide)

/-- Exactly the strings of thirty-two hexadecimal digits are read, with or without a prefix, as the
id that prints them in lower case. -/
theorem fromString_eq_some {t : CString} {x : Id128} :
    fromString t = some x ↔
      ∃ hex : CString, (t = hex ∨ t = text "0x" ++ hex ∨ t = text "0X" ++ hex) ∧ hex.length = 32 ∧
        (∀ c ∈ hex, IsHexDigit c) ∧ x.toString = hex.map toLower := by
  have read : ∀ hex : CString, removePrefix t = hex → hex.length = 32 →
      (∀ c ∈ hex, IsHexDigit c) → ∃ y, fromString t = some y ∧ y.toString = hex.map toLower := by
    intro hex stripped length digits
    obtain ⟨y, folded, printed⟩ := fromString_digits length digits
    refine ⟨y, ?_, printed⟩
    simp only [fromString, stripped]
    rw [if_neg (fun other => other length), folded]
  constructor
  · intro h
    have length : (removePrefix t).length = 32 := by
      by_contra other
      simp only [fromString, if_pos other] at h
      cases h
    have digits : ∀ c ∈ removePrefix t, IsHexDigit c := by
      intro c hc
      by_contra other
      have bad : ∃ p ∈ ((removePrefix t).take 16).zip ((removePrefix t).drop 16),
          ¬ (IsHexDigit p.1 ∧ IsHexDigit p.2) := by
        have halves : ((removePrefix t).take 16).length = ((removePrefix t).drop 16).length := by
          simp [length]
        rw [← List.take_append_drop 16 (removePrefix t)] at hc
        rcases List.mem_append.mp hc with high | low
        · rw [← List.map_fst_zip (Nat.le_of_eq halves)] at high
          obtain ⟨p, hp, rfl⟩ := List.mem_map.mp high
          exact ⟨p, hp, fun both => other both.1⟩
        · rw [← List.map_snd_zip (Nat.le_of_eq halves.symm)] at low
          obtain ⟨p, hp, rfl⟩ := List.mem_map.mp low
          exact ⟨p, hp, fun both => other both.2⟩
      obtain ⟨p, hp, bad⟩ := bad
      simp only [fromString, length, ne_eq, not_true_eq_false, if_false,
        foldlM_shiftDigits_none hp bad] at h
      cases h
    obtain ⟨y, same, printed⟩ := read _ rfl length digits
    have unique : y = x := Option.some.inj (same.symm.trans h)
    exact ⟨removePrefix t, removePrefix_cases t, length, digits, unique ▸ printed⟩
  · rintro ⟨hex, spelled, length, digits, printed⟩
    have stripped : removePrefix t = hex := by
      rcases spelled with rfl | rfl | rfl
      · exact removePrefix_digits digits
      · exact if_pos (Or.inl rfl)
      · exact if_pos (Or.inr rfl)
    obtain ⟨y, same, printed'⟩ := read hex stripped length digits
    rw [same, toString_injective (printed'.trans printed.symm)]

theorem isHexDigit_toString (x : Id128) {c : UInt8} (hc : c ∈ x.toString) :
    IsHexDigit c ∧ toLower c = c := by
  obtain ⟨b, _, hc⟩ := List.mem_flatMap.mp hc
  rcases List.mem_cons.mp hc with rfl | hc
  · exact isHexDigit_hexDigit (high_digit_lt b)
  · rw [List.mem_singleton.mp hc]
    exact isHexDigit_hexDigit (low_digit_lt b)

theorem fromString_toString (x : Id128) : fromString x.toString = some x := by
  have length : x.toString.length = 32 := by simp [toString, hexByte, List.length_flatMap]
  have lower : x.toString.map toLower = x.toString :=
    (List.map_congr_left fun c hc => (isHexDigit_toString x hc).2).trans (List.map_id _)
  exact fromString_eq_some.mpr
    ⟨x.toString, Or.inl rfl, length, fun c hc => (isHexDigit_toString x hc).1, lower.symm⟩

/-- The codecs of an id lose nothing, keep the order, and read exactly the spellings of an id. -/
theorem id_codecs_faithful (x : Id128) :
    (x.storeBytes = x.toBytes ∧ ∀ b, loadBytes b = fromBytes b) ∧
      fromString x.toString = some x ∧ fromBytes x.toBytes = x ∧
      (∀ y : Id128, compare x.toString y.toString = compare x y ∧
        compare x.toBytes y.toBytes = compare x y ∧ (x.toString = y.toString ↔ x = y)) ∧
      ∀ t : CString, fromString t = some x ↔
        ∃ hex : CString, (t = hex ∨ t = text "0x" ++ hex ∨ t = text "0X" ++ hex) ∧
          hex.length = 32 ∧ (∀ c ∈ hex, IsHexDigit c) ∧ x.toString = hex.map toLower :=
  ⟨⟨storeBytes_eq x, loadBytes_eq⟩, fromString_toString x, fromBytes_toBytes x,
    fun y => ⟨compare_toString x y, compare_toBytes x y, toString_injective, congrArg toString⟩,
    fun _ => fromString_eq_some⟩

end Id128

end Warmth
