import Mathlib.Data.List.TakeWhile
import Mathlib.Data.Nat.Digits.Lemmas
import Warmth.Binary64
import Warmth.Identity

/-! Numbers as `printf` writes them and `stod` reads them. -/

namespace Double

/-- The magnitude of a finite number as a fraction. -/
def fraction (d : Double) : Nat × Nat :=
  let e := d.magnitude / 2 ^ 52
  let m := d.magnitude % 2 ^ 52
  if e = 0 then (m, 2 ^ 1074)
  else if 1075 ≤ e then ((2 ^ 52 + m) * 2 ^ (e - 1075), 1)
  else (2 ^ 52 + m, 2 ^ (1075 - e))

/-- `static_cast<std::int64_t>` of a number in its range: the integer towards zero. -/
def truncate (d : Double) : Int :=
  let n := d.fraction.1 / d.fraction.2
  if d.negative then -n else n

/-- `static_cast<double>` of an integer. -/
def ofInt (n : Int) : Double := if n < 0 then (ofNatDiv n.natAbs 1).neg else ofNatDiv n.natAbs 1

def eq (a b : Double) : Bool := !a.isNan && !b.isNan && decide (a.key = b.key)

@[simp] theorem neg_magnitude (d : Double) : d.neg.magnitude = d.magnitude := by
  have sign : (0x8000000000000000 : UInt64).toNat % 2 ^ 63 = 0 := by decide
  rw [magnitude, neg, UInt64.toNat_xor, Nat.xor_mod_two_pow, sign, Nat.xor_zero, magnitude]

theorem negative_eq_testBit (d : Double) : d.negative = d.bits.toNat.testBit 63 := by
  have bound := d.bits.toNat_lt
  rw [negative, Nat.testBit_eq_decide_div_mod_eq, decide_eq_decide]
  omega

@[simp] theorem neg_negative (d : Double) : d.neg.negative = !d.negative := by
  have sign : (0x8000000000000000 : UInt64).toNat.testBit 63 = true := by decide
  rw [negative_eq_testBit, negative_eq_testBit, neg, UInt64.toNat_xor, Nat.testBit_xor, sign,
    Bool.xor_true]

theorem significand_lt {n : Nat} (positive : 0 < n) (small : n < 10 ^ 15) :
    Nat.log2 n < 50 ∧ n * 2 ^ (52 - Nat.log2 n) < 2 ^ 53 := by
  have few : Nat.log2 n < 50 := (Nat.log2_lt (Nat.ne_of_gt positive)).mpr (by omega)
  have high : n < 2 ^ (Nat.log2 n + 1) := Nat.lt_log2_self
  refine ⟨few, ?_⟩
  calc n * 2 ^ (52 - Nat.log2 n) < 2 ^ (Nat.log2 n + 1) * 2 ^ (52 - Nat.log2 n) :=
        Nat.mul_lt_mul_of_pos_right high (Nat.two_pow_pos _)
    _ = 2 ^ 53 := by
        rw [← Nat.pow_add]
        congr 1
        omega

/-- The bits of an integer that fits the significand. -/
theorem ofNatDiv_one {n : Nat} (positive : 0 < n) (small : n < 10 ^ 15) :
    (ofNatDiv n 1).bits.toNat =
      (Nat.log2 n + 1023) * 2 ^ 52 + (n * 2 ^ (52 - Nat.log2 n) - 2 ^ 52) := by
  have low := Nat.log2_self_le (Nat.ne_of_gt positive)
  obtain ⟨few, bound⟩ := significand_lt positive small
  have whole (m : Nat) : roundDiv m 1 = m := by
    simp only [roundDiv, Nat.div_one, Nat.mod_one]
    rfl
  have one : Nat.log2 1 = 0 := rfl
  simp only [ofNatDiv, if_neg (Nat.ne_of_gt positive), one, whole]
  generalize Nat.log2 n = l at *
  simp only [Int.ofNat_zero, Int.sub_zero, Int.natCast_nonneg, if_true, Int.toNat_natCast, Nat.one_mul, low]
  have exponent : ((l : Int) + 1023).toNat = l + 1023 := by omega
  have shift : (52 - (l : Int)).toNat = 52 - l := by omega
  rw [if_pos (by omega), exponent, shift]
  apply UInt64.toNat_ofNat_of_lt'
  generalize n * 2 ^ (52 - l) = m at *
  change _ < 2 ^ 64
  omega

theorem ofNatDiv_fields {n : Nat} (positive : 0 < n) (small : n < 10 ^ 15) :
    (ofNatDiv n 1).negative = false ∧
      (ofNatDiv n 1).magnitude / 2 ^ 52 = Nat.log2 n + 1023 ∧
      2 ^ 52 + (ofNatDiv n 1).magnitude % 2 ^ 52 = n * 2 ^ (52 - Nat.log2 n) := by
  have bits := ofNatDiv_one positive small
  obtain ⟨few, bound⟩ := significand_lt positive small
  have low : 2 ^ 52 ≤ n * 2 ^ (52 - Nat.log2 n) := by
    calc 2 ^ 52 = 2 ^ Nat.log2 n * 2 ^ (52 - Nat.log2 n) := by
          rw [← Nat.pow_add]
          congr 1
          omega
      _ ≤ n * 2 ^ (52 - Nat.log2 n) :=
          Nat.mul_le_mul_right _ (Nat.log2_self_le (Nat.ne_of_gt positive))
  unfold negative magnitude
  rw [bits]
  generalize n * 2 ^ (52 - Nat.log2 n) = m at *
  generalize Nat.log2 n = l at *
  refine ⟨decide_eq_false (by omega), by omega, by omega⟩

theorem fraction_ofNatDiv {n : Nat} (positive : 0 < n) (small : n < 10 ^ 15) :
    (ofNatDiv n 1).fraction = (n * 2 ^ (52 - Nat.log2 n), 2 ^ (52 - Nat.log2 n)) := by
  obtain ⟨-, exponent, significand⟩ := ofNatDiv_fields positive small
  obtain ⟨few, -⟩ := significand_lt positive small
  have shift : 1075 - (Nat.log2 n + 1023) = 52 - Nat.log2 n := by omega
  have normal : ¬Nat.log2 n + 1023 = 0 := by omega
  have below : ¬1075 ≤ Nat.log2 n + 1023 := by omega
  simp only [fraction, exponent, significand, shift, normal, below, if_false]

theorem truncate_ofInt {n : Int} (small : n.natAbs < 10 ^ 15) : (ofInt n).truncate = n := by
  rcases Nat.eq_zero_or_pos n.natAbs with zero | positive
  · have nothing : (ofInt 0).fraction.1 = 0 := by decide
    have plain : (ofInt 0).negative = false := by decide
    rw [Int.natAbs_eq_zero.mp zero]
    simp only [truncate, nothing, plain, Nat.zero_div]
    rfl
  · have quotient : (ofNatDiv n.natAbs 1).fraction.1 / (ofNatDiv n.natAbs 1).fraction.2 = n.natAbs := by
      rw [fraction_ofNatDiv positive small]
      exact Nat.mul_div_cancel _ (Nat.two_pow_pos _)
    have plain := (ofNatDiv_fields positive small).1
    have same : (ofNatDiv n.natAbs 1).neg.fraction = (ofNatDiv n.natAbs 1).fraction := by
      simp only [fraction, neg_magnitude]
    unfold ofInt
    split
    next below =>
      simp only [truncate, same, quotient, neg_negative, plain, Bool.not_false, if_true]
      omega
    next =>
      simp only [truncate, quotient, plain, Bool.false_eq_true, if_false]
      omega

/-- `1e15` -/
def quadrillion : Double := ⟨0x430C6BF526340000⟩

/-- The magnitude of a small integer is that of a finite number below 10^15. -/
theorem magnitude_ofNatDiv {n : Nat} (small : n < 10 ^ 15) :
    (ofNatDiv n 1).magnitude < quadrillion.magnitude := by
  have limit : quadrillion.magnitude = 0x430C6BF526340000 := by decide
  rw [limit]
  rcases Nat.eq_zero_or_pos n with rfl | positive
  · decide
  · obtain ⟨-, exponent, significand⟩ := ofNatDiv_fields positive small
    obtain ⟨few, -⟩ := significand_lt positive small
    generalize (ofNatDiv n 1).magnitude = m at *
    rcases Nat.lt_or_ge (Nat.log2 n) 49 with below | top
    · omega
    · have exactly : Nat.log2 n = 49 := by omega
      rw [exactly] at exponent significand
      omega

theorem magnitude_ofInt {n : Int} (small : n.natAbs < 10 ^ 15) :
    (ofInt n).magnitude < quadrillion.magnitude := by
  unfold ofInt
  split
  · rw [neg_magnitude]
    exact magnitude_ofNatDiv small
  · exact magnitude_ofNatDiv small

/-- An integer of magnitude below 10^15, as C++ compares numbers: -0.0 is one. -/
def Integral (d : Double) : Prop := ∃ n : Int, n.natAbs < 10 ^ 15 ∧ d.eq (ofInt n) = true

/-- The number without the sign of a zero, which comparison does not see. -/
def plain (d : Double) : Double := if d.magnitude = 0 then zero else d

theorem eq_of_fields {a b : Double} (sign : a.negative = b.negative)
    (size : a.magnitude = b.magnitude) : a = b := by
  obtain ⟨a⟩ := a
  obtain ⟨b⟩ := b
  have ha := a.toNat_lt
  have hb := b.toNat_lt
  simp only [negative, magnitude, decide_eq_decide] at sign size
  rw [Double.mk.injEq, ← UInt64.toNat_inj]
  omega

theorem eq_or_zero_of_key {a b : Double} (h : a.key = b.key) :
    a = b ∨ a.magnitude = 0 ∧ b.magnitude = 0 := by
  unfold key at h
  cases ha : a.negative <;> cases hb : b.negative
  all_goals
    simp only [ha, hb, Bool.false_eq_true, if_false, if_true] at h
  · exact Or.inl (eq_of_fields (ha.trans hb.symm) (by omega))
  · exact Or.inr (by omega)
  · exact Or.inr (by omega)
  · exact Or.inl (eq_of_fields (ha.trans hb.symm) (by omega))

theorem plain_magnitude (d : Double) : d.plain.magnitude = d.magnitude := by
  unfold plain
  split
  next none =>
    rw [none]
    decide
  next => rfl

theorem plain_plain (d : Double) : d.plain.plain = d.plain := by
  by_cases none : d.magnitude = 0
  · rw [plain, plain_magnitude, if_pos none, plain, if_pos none]
  · rw [plain, plain_magnitude, if_neg none]

theorem isNan_plain {d : Double} (h : d.isNan = false) : d.plain.isNan = false := by
  rwa [isNan, plain_magnitude]

/-- Comparison sees just that number. -/
theorem eq_iff_plain {a b : Double} (ha : a.isNan = false) (hb : b.isNan = false) :
    a.eq b = true ↔ a.plain = b.plain := by
  have key (d : Double) : d.plain.key = d.key := by
    unfold plain
    split
    next none =>
      have origin : d.key = 0 := by
        rw [Double.key, none]
        cases d.negative <;> rfl
      rw [origin]
      decide
    next => rfl
  simp only [eq, ha, hb, Bool.not_false, Bool.and_self, Bool.true_and, decide_eq_true_eq]
  constructor
  · intro same
    rcases eq_or_zero_of_key same with rfl | ⟨za, zb⟩
    · rfl
    · rw [plain, plain, if_pos za, if_pos zb]
  · intro same
    rw [← key a, ← key b, same]

theorem truncate_of_zero {d : Double} (h : d.magnitude = 0) : d.truncate = 0 := by
  have nothing : d.fraction.1 = 0 := by
    rw [fraction, h]
    rfl
  unfold truncate
  rw [nothing, Nat.zero_div]
  split <;> rfl

/-- What the integer branch of the writer needs of a number, and what the text gives back. -/
theorem Integral.text {d : Double} (h : d.Integral) :
    d.truncate.natAbs < 10 ^ 15 ∧ ofInt d.truncate = d.plain ∧ d.magnitude < quadrillion.magnitude := by
  obtain ⟨n, small, same⟩ := h
  simp only [eq, Bool.and_eq_true, decide_eq_true_eq] at same
  rcases eq_or_zero_of_key same.2 with rfl | ⟨zero, -⟩
  · rw [truncate_ofInt small]
    refine ⟨small, ?_, magnitude_ofInt small⟩
    unfold plain
    split
    next none =>
      have origin : n = 0 := (truncate_ofInt small).symm.trans (truncate_of_zero none)
      rw [origin]
      decide
    next => rfl
  · rw [truncate_of_zero zero, plain, if_pos zero, zero]
    decide

end Double

namespace Numerals

open Codec

def isDigit (b : UInt8) : Bool := 48 ≤ b && b ≤ 57

def digitByte (n : Nat) : UInt8 := 48 + UInt8.ofNat n

def naturalText (n : Nat) : Bytes :=
  if n = 0 then [48] else ((Nat.digits 10 n).map digitByte).reverse

/-- `%lld`. -/
def decimal (n : Int) : Bytes := if n < 0 then 45 :: naturalText n.natAbs else naturalText n.natAbs

/-- The number that digits stand for. -/
def ofDigits (ds : Bytes) : Nat := ds.foldl (fun n b => 10 * n + (b.toNat - 48)) 0

/-- Seventeen significant digits of a positive fraction, and the power of ten of the first. -/
def significant (n d : Nat) : Nat × Int :=
  let x : Int := if d ≤ n then Nat.log 10 (n / d) else -(Nat.clog 10 ((d + n - 1) / n) : Int)
  let digits := if 16 ≤ x then Double.roundDiv n (d * 10 ^ (x - 16).toNat)
    else Double.roundDiv (n * 10 ^ (16 - x).toNat) d
  if digits = 10 ^ 17 then (10 ^ 16, x + 1) else (digits, x)

/-- Decimals behind a point, without the zeros at their end; without any, no point either. -/
def fractionText (ds : Bytes) : Bytes :=
  let ds := (ds.reverse.dropWhile (· == 48)).reverse
  if ds.isEmpty then [] else 46 :: ds

/-- `%.17g`. -/
def format17g (d : Double) : Bytes :=
  let sign : Bytes := if d.negative then [45] else []
  if d.isNan then sign ++ Warmth.text "nan" else
  if d.isInf then sign ++ Warmth.text "inf" else
  if d.magnitude = 0 then sign ++ [48] else
  let (digits, x) := significant d.fraction.1 d.fraction.2
  let ds := naturalText digits
  if x < -4 ∨ 17 ≤ x then
    let power := naturalText x.natAbs
    sign ++ ds.take 1 ++ fractionText (ds.drop 1) ++ [101, if x < 0 then 45 else 43] ++
      (if power.length < 2 then 48 :: power else power)
  else if x < 0 then sign ++ [48] ++ fractionText (List.replicate (-x - 1).toNat 48 ++ ds)
  else sign ++ ds.take (x.toNat + 1) ++ fractionText (ds.drop (x.toNat + 1))

/-- The double nearest to a fraction, unless it overflows or loses digits below the normal range. -/
def nearestFraction (n d : Nat) : Option Double :=
  if n = 0 then some .zero
  else if n * 2 ^ 1022 < d then
    if n * 2 ^ 1074 % d = 0 then some ⟨.ofNat (n * 2 ^ 1074 / d)⟩ else none
  else if d * 2 ^ 1024 ≤ n then none
  else if (Double.ofNatDiv n d).isFinite then some (.ofNatDiv n d) else none

/-- The double nearest to `m * 10 ^ e`. -/
def nearest (negative : Bool) (m : Nat) (e : Int) : Option Double :=
  (nearestFraction (m * 10 ^ e.toNat) (10 ^ (-e).toNat)).map fun x => if negative then x.neg else x

/-- `std::stod` of a number token; `none` is the `out_of_range` it throws. -/
def stod (token : Bytes) : Option Double :=
  let negative := token.head? == some 45
  let s := if negative then token.tail else token
  let whole := s.takeWhile isDigit
  let s := s.dropWhile isDigit
  let decimals := if s.head? == some 46 then s.tail.takeWhile isDigit else []
  let s := if s.head? == some 46 then s.tail.dropWhile isDigit else s
  let power : Int := match s.tail with
    | 45 :: ds => -(ofDigits ds : Int)
    | 43 :: ds => ofDigits ds
    | ds => ofDigits ds
  nearest negative (ofDigits (whole ++ decimals)) (power - decimals.length)

theorem naturalText_digits (n : Nat) : ∀ b ∈ naturalText n, isDigit b = true := by
  unfold naturalText
  split
  · exact List.forall_mem_singleton.mpr rfl
  · intro b hb
    obtain ⟨k, hk, rfl⟩ := List.mem_map.mp (List.mem_reverse.mp hb)
    have few := Nat.digits_lt_base (by decide) hk
    have digits : ∀ j < 10, isDigit (digitByte j) = true := by decide
    exact digits k few

theorem ofDigits_naturalText (n : Nat) : ofDigits (naturalText n) = n := by
  have value (ds : List Nat) (small : ∀ k ∈ ds, k < 10) :
      ofDigits (ds.map digitByte).reverse = Nat.ofDigits 10 ds := by
    induction ds with
    | nil => rfl
    | cons k ds ih =>
      obtain ⟨few, small⟩ := List.forall_mem_cons.mp small
      have digits : ∀ j < 10, (digitByte j).toNat - 48 = j := by decide
      rw [List.map_cons, List.reverse_cons, ofDigits, List.foldl_append, ← ofDigits, ih small,
        Nat.ofDigits_cons, List.foldl_cons, List.foldl_nil, digits k few, Nat.add_comm]
  unfold naturalText
  split
  next zero => rw [zero]; rfl
  next =>
    rw [value _ fun k hk => Nat.digits_lt_base (by decide) hk, Nat.ofDigits_digits]

theorem naturalText_ne_nil (n : Nat) : naturalText n ≠ [] := by
  unfold naturalText
  split
  next => simp
  next positive => simpa using Nat.digits_ne_nil_iff_ne_zero.mpr positive

theorem naturalText_first {n : Nat} (positive : 0 < n) :
    ∃ b ds, naturalText n = b :: ds ∧ 49 ≤ b ∧ b ≤ 57 := by
  have some : Nat.digits 10 n ≠ [] := Nat.digits_ne_nil_iff_ne_zero.mpr (Nat.ne_of_gt positive)
  have last := Nat.getLast_digit_ne_zero 10 (Nat.ne_of_gt positive)
  have few : (Nat.digits 10 n).getLast some < 10 :=
    Nat.digits_lt_base (by decide) (List.getLast_mem some)
  have digits : ∀ j < 10, j ≠ 0 → 49 ≤ digitByte j ∧ digitByte j ≤ 57 := by decide
  have split := List.dropLast_append_getLast some
  rw [naturalText, if_neg (Nat.ne_of_gt positive), ← split, List.map_append, List.reverse_append]
  exact ⟨_, _, rfl, digits _ few last⟩

theorem stod_naturalText (negative : Bool) (n : Nat) :
    stod ((if negative then [45] else []) ++ naturalText n) = nearest negative n 0 := by
  obtain ⟨b, ds, whole⟩ := List.exists_cons_of_ne_nil (naturalText_ne_nil n)
  have digit : ∀ c ∈ naturalText n, isDigit c = true := naturalText_digits n
  have first : b ≠ 45 := by
    rintro rfl
    have := digit 45 (whole ▸ List.mem_cons_self)
    revert this
    decide
  have sign : (((if negative then [45] else []) ++ naturalText n).head? == some 45) = negative := by
    cases negative
    · simpa [whole] using first
    · rfl
  have rest : (if negative then ((if negative then [45] else []) ++ naturalText n).tail
      else (if negative then [45] else []) ++ naturalText n) = naturalText n := by
    cases negative <;> rfl
  have taken : (naturalText n).takeWhile isDigit = naturalText n := List.takeWhile_eq_self_iff.mpr digit
  have dropped : (naturalText n).dropWhile isDigit = [] := List.dropWhile_eq_nil_iff.mpr digit
  simp only [stod, sign, rest, taken, dropped]
  change nearest negative (ofDigits (naturalText n ++ [])) 0 = _
  rw [List.append_nil, ofDigits_naturalText]

theorem one_le_scaled {n : Nat} (positive : 0 < n) (k : Nat) : ¬n * 2 ^ k < 1 :=
  Nat.not_lt.mpr (Nat.mul_pos positive (Nat.two_pow_pos k))

theorem below_scaled {n k : Nat} (small : n < 10 ^ 15) (h : 50 ≤ k) : ¬1 * 2 ^ k ≤ n := by
  have large : 2 ^ 50 ≤ 2 ^ k := Nat.pow_le_pow_right (by decide) h
  omega

theorem nearestFraction_small {n : Nat} (small : n < 10 ^ 15) :
    nearestFraction n 1 = some (.ofNatDiv n 1) := by
  rcases Nat.eq_zero_or_pos n with rfl | positive
  · rfl
  · have finite : (Double.ofNatDiv n 1).isFinite = true := by
      have below := Double.magnitude_ofNatDiv small
      have quadrillion : Double.quadrillion.magnitude < Double.infinity := by decide
      exact decide_eq_true (Nat.lt_trans below quadrillion)
    unfold nearestFraction
    rw [if_neg (Nat.ne_of_gt positive), if_neg (one_le_scaled positive 1022),
      if_neg (below_scaled small (show 50 ≤ 1024 by decide)), if_pos finite]

theorem nearest_small (negative : Bool) {n : Nat} (small : n < 10 ^ 15) :
    nearest negative n 0 =
      some (if negative then (Double.ofNatDiv n 1).neg else Double.ofNatDiv n 1) := by
  have num : n * 10 ^ (0 : Int).toNat = n := Nat.mul_one n
  have den : 10 ^ (-(0 : Int)).toNat = 1 := rfl
  rw [nearest, num, den, nearestFraction_small small, Option.map_some]

theorem stod_decimal {n : Int} (small : n.natAbs < 10 ^ 15) : stod (decimal n) = some (.ofInt n) := by
  unfold decimal Double.ofInt
  split
  next below =>
    have text := stod_naturalText true n.natAbs
    rwa [nearest_small true small, if_pos rfl, if_pos rfl, List.singleton_append] at text
  next =>
    have text := stod_naturalText false n.natAbs
    rwa [nearest_small false small, if_neg Bool.false_ne_true, if_neg Bool.false_ne_true,
      List.nil_append] at text

example : format17g (.ofNatDiv 1 10) = Warmth.text "0.10000000000000001" := by decide +kernel

example : stod (Warmth.text "-12.5e-1") = some (Double.ofNatDiv 5 4).neg := by decide +kernel

end Numerals
