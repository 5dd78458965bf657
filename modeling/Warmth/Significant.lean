import Mathlib.Tactic.Positivity
import Warmth.Nearest
import Warmth.Numerals

/-! Seventeen digits tell a double from every other one. -/

namespace Double

/-- A number below the normal range, other than a zero. -/
def isSubnormal (d : Double) : Bool := 0 < d.magnitude && d.magnitude < 2 ^ 52

/-- The magnitude of a finite number. -/
def size (d : Double) : Rat := (d.fraction.1 : Rat) / d.fraction.2

theorem fraction_pos (d : Double) : 0 < d.fraction.2 := by
  simp only [fraction]
  split
  · positivity
  · split
    · exact Nat.one_pos
    · exact Nat.two_pow_pos _

/-- The significand and the exponent of a normal number. -/
theorem size_normal {d : Double} (finite : d.isFinite = true) (normal : 2 ^ 52 ≤ d.magnitude) :
    ∃ m : Nat, ∃ k : Int, 2 ^ 52 ≤ m ∧ m < 2 ^ 53 ∧ -1074 ≤ k ∧ k ≤ 971 ∧ d.size = m * 2 ^ k ∧
      d.magnitude = (k + 1075).toNat * 2 ^ 52 + (m - 2 ^ 52) := by
  have bound : d.magnitude < infinity := of_decide_eq_true finite
  unfold infinity at bound
  have two : (2 : Rat) ≠ 0 := by norm_num
  have some : ¬d.magnitude / 2 ^ 52 = 0 := by omega
  refine ⟨2 ^ 52 + d.magnitude % 2 ^ 52, (d.magnitude / 2 ^ 52 : Nat) - 1075, by omega, by omega,
    by omega, by omega, ?_, by omega⟩
  simp only [size, fraction, if_neg some]
  generalize d.magnitude / 2 ^ 52 = e at *
  generalize d.magnitude % 2 ^ 52 = r at *
  split
  next large =>
    have whole : ((e : Int) - 1075) = (e - 1075 : Nat) := by omega
    rw [whole, zpow_natCast]
    push_cast
    rw [div_one]
  next small =>
    have below : ((e : Int) - 1075) = -(1075 - e : Nat) := by omega
    rw [below, zpow_neg, zpow_natCast]
    push_cast
    rw [div_eq_mul_inv]

theorem size_subnormal {d : Double} (small : d.magnitude < 2 ^ 52) :
    d.size = d.magnitude / 2 ^ 1074 := by
  have none : d.magnitude / 2 ^ 52 = 0 := Nat.div_eq_of_lt small
  have rest : d.magnitude % 2 ^ 52 = d.magnitude := Nat.mod_eq_of_lt small
  simp only [size, fraction, none, rest, if_true]
  rw [Nat.cast_pow, Nat.cast_ofNat]

end Double

namespace Numerals

open Double

/-- `m * 10 ^ e` -/
def scientific (m : Nat) (e : Int) : Rat := m * 10 ^ e

theorem ten_pow_toNat (e : Int) : (10 : Rat) ^ e.toNat = 10 ^ e * 10 ^ (-e).toNat := by
  have ten : (10 : Rat) ≠ 0 := by norm_num
  rw [← zpow_natCast, ← zpow_natCast, ← zpow_add₀ ten]
  congr 1
  omega

theorem scientific_eq (m : Nat) (e : Int) :
    ((m * 10 ^ e.toNat : Nat) : Rat) / (10 ^ (-e).toNat : Nat) = scientific m e := by
  have positive : (10 : Rat) ^ (-e).toNat ≠ 0 := pow_ne_zero _ (by norm_num)
  push_cast
  rw [ten_pow_toNat, scientific]
  field_simp

theorem below_iff {n e : Nat} (he : 0 < e) :
    (n : Rat) / e < 2 ^ (-1022 : Int) ↔ n * 2 ^ 1022 < e := by
  have positive : (0 : Rat) < e := by exact_mod_cast he
  have power : (0 : Rat) < 2 ^ 1022 := by positivity
  have cast : (n : Rat) * 2 ^ 1022 < e ↔ n * 2 ^ 1022 < e := by exact_mod_cast Iff.rfl
  rw [zpow_neg, zpow_ofNat, div_lt_iff₀ positive, lt_inv_mul_iff₀ power, mul_comm, cast]

/-- A decimal within `2 ^ -54` of a normal number, relatively, and not below the normal range, is
converted to it. -/
theorem nearestFraction_close {d : Double} (finite : d.isFinite = true) (normal : 2 ^ 52 ≤ d.magnitude)
    {n e : Nat} (hn : 0 < n) (he : 0 < e) (least : (2 : Rat) ^ (-1022 : Int) ≤ n / e)
    (close : |(n : Rat) / e - d.size| * 2 ^ 54 < d.size) :
    nearestFraction n e = some ⟨UInt64.ofNat d.magnitude⟩ := by
  obtain ⟨m, k, lower, upper, small, large, value, fields⟩ := size_normal finite normal
  have bound : d.magnitude < infinity := of_decide_eq_true finite
  have positive : (0 : Rat) < e := by exact_mod_cast he
  have two : (2 : Rat) ≠ 0 := by norm_num
  rw [value] at close
  have rounded := ofNatDiv_close hn he lower upper small close
  rw [← fields] at rounded
  have same : (ofNatDiv n e).magnitude = d.magnitude := by
    rw [rounded, magnitude, UInt64.toNat_ofNat']
    unfold infinity at bound
    omega
  have above : ¬n * 2 ^ 1022 < e := fun short => absurd ((below_iff he).mpr short) (not_lt.mpr least)
  have below : ¬e * 2 ^ 1024 ≤ n := by
    have unit : (0 : Rat) < 2 ^ k := zpow_pos (by norm_num) _
    have most : (m : Rat) + 1 ≤ 2 ^ 53 := by exact_mod_cast upper
    have top : (2 : Rat) ^ k ≤ 2 ^ (971 : Int) := zpow_le_zpow_right₀ (by norm_num) large
    have high : (n : Rat) / e < 2 ^ 1024 := by
      have within : |(n : Rat) / e - m * 2 ^ k| < m / 2 ^ 54 * 2 ^ k := by
        have scaled : (m : Rat) / 2 ^ 54 * 2 ^ k = m * 2 ^ k / 2 ^ 54 := by ring
        rw [scaled, lt_div_iff₀ (by norm_num)]
        exact close
      calc (n : Rat) / e < (m + m / 2 ^ 54) * 2 ^ k := by linarith [(abs_lt.mp within).2]
        _ ≤ 2 ^ 53 * 2 ^ k := by
            refine mul_le_mul_of_nonneg_right ?_ unit.le
            have fine : (m : Rat) / 2 ^ 54 ≤ 1 := by
              rw [div_le_one (by norm_num)]
              linarith
            linarith
        _ ≤ 2 ^ 53 * 2 ^ (971 : Int) := mul_le_mul_of_nonneg_left top (by norm_num)
        _ = 2 ^ 1024 := by
            have parts : (2 : Rat) ^ (971 : Int) = 2 ^ 971 := rfl
            rw [parts, ← pow_add]
    rw [div_lt_iff₀ positive] at high
    refine Nat.not_le.mpr ?_
    have scaled : (n : Rat) < e * 2 ^ 1024 := by rwa [mul_comm (e : Rat)]
    exact_mod_cast scaled
  have proper : (ofNatDiv n e).isFinite = true := by
    rw [isFinite, same]
    exact finite
  rw [nearestFraction, if_neg (Nat.ne_of_gt hn), if_neg above, if_neg below, if_pos proper, rounded]

/-- The power of ten of the first digit of a positive fraction. -/
def tens (n d : Nat) : Int :=
  if d ≤ n then Nat.log 10 (n / d) else -(Nat.clog 10 ((d + n - 1) / n) : Int)

/-- The digits of a fraction, a power of ten to the right. -/
def shifted (n d : Nat) (x : Int) : Nat :=
  if 16 ≤ x then roundDiv n (d * 10 ^ (x - 16).toNat) else roundDiv (n * 10 ^ (16 - x).toNat) d

theorem significant_eq (n d : Nat) :
    significant n d = if shifted n d (tens n d) = 10 ^ 17 then (10 ^ 16, tens n d + 1)
      else (shifted n d (tens n d), tens n d) := rfl

theorem tens_spec {n d : Nat} (hn : 0 < n) (hd : 0 < d) :
    (10 : Rat) ^ tens n d ≤ n / d ∧ (n : Rat) / d < 10 ^ (tens n d + 1) := by
  have positive : (0 : Rat) < d := by exact_mod_cast hd
  have some : (0 : Rat) < n := by exact_mod_cast hn
  unfold tens
  split
  next whole =>
    have quotient : n / d ≠ 0 := Nat.ne_of_gt (Nat.div_pos whole hd)
    have low : 10 ^ Nat.log 10 (n / d) ≤ n / d := Nat.pow_log_le_self 10 quotient
    have high : n / d < 10 ^ (Nat.log 10 (n / d) + 1) := Nat.lt_pow_succ_log_self (by decide) _
    generalize Nat.log 10 (n / d) = x at *
    constructor
    · rw [le_div_iff₀ positive, zpow_natCast]
      have scaled : 10 ^ x * d ≤ n := (Nat.le_div_iff_mul_le hd).mp low
      exact_mod_cast scaled
    · rw [div_lt_iff₀ positive]
      have next : ((x : Int) + 1) = ((x + 1 : Nat) : Int) := rfl
      rw [next, zpow_natCast]
      have scaled : n < 10 ^ (x + 1) * d := (Nat.div_lt_iff_lt_mul hd).mp high
      exact_mod_cast scaled
  next part =>
    have up (c : Nat) : (d + n - 1) / n ≤ c ↔ d ≤ c * n := by
      rw [← Nat.lt_succ_iff, Nat.div_lt_iff_lt_mul hn, Nat.succ_mul]
      omega
    have several : 1 < (d + n - 1) / n := by
      rw [← Nat.not_le, up, Nat.one_mul]
      exact part
    have high : (d + n - 1) / n ≤ 10 ^ Nat.clog 10 ((d + n - 1) / n) := Nat.le_pow_clog (by decide) _
    have low : 10 ^ (Nat.clog 10 ((d + n - 1) / n)).pred < (d + n - 1) / n :=
      Nat.pow_pred_clog_lt_self (by decide) several
    have first : 0 < Nat.clog 10 ((d + n - 1) / n) := Nat.clog_pos (by decide) several
    generalize Nat.clog 10 ((d + n - 1) / n) = c at *
    have power (j : Nat) : (0 : Rat) < 10 ^ j := by positivity
    constructor
    · rw [zpow_neg, zpow_natCast, le_div_iff₀ positive, inv_mul_le_iff₀ (power c)]
      exact_mod_cast (up _).mp high
    · have next : -(c : Int) + 1 = -((c.pred : Nat) : Int) := by
        have : c.pred = c - 1 := rfl
        omega
      rw [next, zpow_neg, zpow_natCast, div_lt_iff₀ positive, lt_inv_mul_iff₀ (power _)]
      have beyond : 10 ^ c.pred * n < d := by
        rw [← Nat.not_le, ← up, Nat.not_le]
        exact low
      exact_mod_cast beyond

theorem shifted_spec {n d : Nat} (hd : 0 < d) (x : Int) :
    |(shifted n d x : Rat) - (n : Rat) / d * 10 ^ (16 - x)| ≤ 1 / 2 := by
  have ten : (10 : Rat) ≠ 0 := by norm_num
  unfold shifted
  split
  next large =>
    have error := roundDiv_error (n := n) (Nat.mul_pos hd (Nat.pow_pos (n := (x - 16).toNat) (show 0 < 10 by decide)))
    have quotient : (n : Rat) / (d * 10 ^ (x - 16).toNat : Nat) = n / d * 10 ^ (16 - x) := by
      have power : (10 : Rat) ^ (16 - x) = (10 ^ (x - 16).toNat)⁻¹ := by
        rw [← zpow_natCast, ← zpow_neg]
        congr 1
        omega
      push_cast
      rw [power]
      field_simp
    rwa [quotient] at error
  next small =>
    have error := roundDiv_error (n := n * 10 ^ (16 - x).toNat) hd
    have quotient : ((n * 10 ^ (16 - x).toNat : Nat) : Rat) / d = n / d * 10 ^ (16 - x) := by
      have power : (10 : Rat) ^ (16 - x) = 10 ^ (16 - x).toNat := by
        rw [← zpow_natCast]
        congr 1
        omega
      push_cast
      rw [power]
      field_simp
    rwa [quotient] at error

section

variable {n d : Nat}

theorem shifted_bounds (hn : 0 < n) (hd : 0 < d) :
    10 ^ 16 ≤ shifted n d (tens n d) ∧ shifted n d (tens n d) ≤ 10 ^ 17 := by
  have ten : (10 : Rat) ≠ 0 := by norm_num
  obtain ⟨low, high⟩ := tens_spec hn hd
  obtain ⟨under, beyond⟩ := abs_le.mp (shifted_spec (n := n) hd (tens n d))
  generalize shifted n d (tens n d) = m at *
  generalize tens n d = x at *
  have power : (0 : Rat) < 10 ^ (16 - x) := zpow_pos (by norm_num) _
  have least : (10 : Rat) ^ 16 ≤ (n : Rat) / d * 10 ^ (16 - x) := by
    calc (10 : Rat) ^ 16 = 10 ^ x * 10 ^ (16 - x) := by
          rw [← zpow_add₀ ten, add_sub_cancel]
          rfl
      _ ≤ (n : Rat) / d * 10 ^ (16 - x) := mul_le_mul_of_nonneg_right low power.le
  have most : (n : Rat) / d * 10 ^ (16 - x) < 10 ^ 17 := by
    calc (n : Rat) / d * 10 ^ (16 - x) < 10 ^ (x + 1) * 10 ^ (16 - x) := mul_lt_mul_of_pos_right high power
      _ = 10 ^ 17 := by
          have sum : x + 1 + (16 - x) = 17 := by omega
          rw [← zpow_add₀ ten, sum]
          rfl
  have atLeast : (10 ^ 16 : Rat) - 1 < m := by linarith
  have atMost : (m : Rat) < 10 ^ 17 + 1 := by linarith
  constructor
  · have : (10 ^ 16 : Rat) < m + 1 := by linarith
    have whole : 10 ^ 16 < m + 1 := by exact_mod_cast this
    omega
  · have whole : m < 10 ^ 17 + 1 := by exact_mod_cast atMost
    omega

/-- The carry into an eighteenth digit moves the point instead. -/
theorem significant_value :
    scientific (significant n d).1 ((significant n d).2 - 16) =
      scientific (shifted n d (tens n d)) (tens n d - 16) := by
  have ten : (10 : Rat) ≠ 0 := by norm_num
  rw [significant_eq]
  split
  next carry =>
    have next : tens n d + 1 - 16 = tens n d - 16 + 1 := by omega
    simp only [scientific, carry, next]
    rw [zpow_add_one₀ ten]
    push_cast
    ring
  next => rfl

theorem significant_bounds (hn : 0 < n) (hd : 0 < d) :
    10 ^ 16 ≤ (significant n d).1 ∧ (significant n d).1 < 10 ^ 17 := by
  obtain ⟨low, high⟩ := shifted_bounds hn hd
  rw [significant_eq]
  split
  next => exact ⟨Nat.le_refl _, Nat.pow_lt_pow_right (by decide) (by decide)⟩
  next uncarried => exact ⟨low, Nat.lt_of_le_of_ne high uncarried⟩

/-- Seventeen digits are within `2 ^ -54` of the number, relatively. -/
theorem significant_close (hn : 0 < n) (hd : 0 < d) :
    |scientific (significant n d).1 ((significant n d).2 - 16) - (n : Rat) / d| * 2 ^ 54 < n / d := by
  have ten : (10 : Rat) ≠ 0 := by norm_num
  obtain ⟨low, -⟩ := tens_spec hn hd
  have error := shifted_spec (n := n) hd (tens n d)
  rw [significant_value]
  generalize shifted n d (tens n d) = m at *
  generalize tens n d = x at *
  have power : (0 : Rat) < 10 ^ (x - 16) := zpow_pos (by norm_num) _
  have positive : (0 : Rat) < 10 ^ x := zpow_pos (by norm_num) _
  have back : (n : Rat) / d = (n : Rat) / d * 10 ^ (16 - x) * 10 ^ (x - 16) := by
    have none : 16 - x + (x - 16) = 0 := by omega
    rw [mul_assoc, ← zpow_add₀ ten, none, zpow_zero, mul_one]
  have distance : |scientific m (x - 16) - (n : Rat) / d| ≤ 1 / 2 * 10 ^ (x - 16) := by
    rw [scientific, back, ← sub_mul, abs_mul, abs_of_pos power]
    exact mul_le_mul_of_nonneg_right error power.le
  have place : (10 : Rat) ^ (x - 16) = 10 ^ x / 10 ^ 16 := by
    rw [zpow_sub₀ ten]
    rfl
  calc |scientific m (x - 16) - (n : Rat) / d| * 2 ^ 54 ≤ 1 / 2 * 10 ^ (x - 16) * 2 ^ 54 :=
        mul_le_mul_of_nonneg_right distance (by norm_num)
    _ < 10 ^ x := by
        rw [place]
        linarith
    _ ≤ n / d := low

end

section

variable {d : Double}

theorem fraction_numerator (h : 0 < d.magnitude) : 0 < d.fraction.1 := by
  simp only [fraction]
  split
  next none =>
    change 0 < d.magnitude % 2 ^ 52
    omega
  next =>
    split
    · exact Nat.mul_pos (by omega) (Nat.two_pow_pos _)
    · change 0 < 2 ^ 52 + d.magnitude % 2 ^ 52
      omega

/-- The least normal number is below its seventeen digits. -/
theorem least_normal_digits : significant (2 ^ 52) (2 ^ 1074) = (22250738585072014, -308) := by
  decide +kernel

theorem least_normal_below : (2 : Rat) ^ (-1022 : Int) ≤ scientific 22250738585072014 (-324) := by
  have scaled : 10 ^ 324 ≤ 22250738585072014 * 2 ^ 1022 := by decide +kernel
  have cast : (10 : Rat) ^ 324 ≤ 22250738585072014 * 2 ^ 1022 := by exact_mod_cast scaled
  have low : (2 : Rat) ^ (-1022 : Int) = (2 ^ 1022)⁻¹ := zpow_neg 2 1022
  have place : (10 : Rat) ^ (-324 : Int) = (10 ^ 324)⁻¹ := zpow_neg 10 324
  have twos : (0 : Rat) < 2 ^ 1022 := by positivity
  have tens : (0 : Rat) < 10 ^ 324 := by positivity
  rw [scientific, low, place, Nat.cast_ofNat, inv_le_iff_one_le_mul₀ twos, mul_assoc,
    inv_mul_eq_div, ← mul_div_assoc, one_le_div tens]
  exact cast

/-- The digits of a normal number are those of one. -/
theorem normal_digits (finite : d.isFinite = true) (normal : 2 ^ 52 ≤ d.magnitude) :
    (2 : Rat) ^ (-1022 : Int) ≤
      scientific (significant d.fraction.1 d.fraction.2).1 ((significant d.fraction.1 d.fraction.2).2 - 16) := by
  rcases Nat.lt_or_eq_of_le normal with more | least
  · obtain ⟨m, k, lower, -, small, -, value, fields⟩ := size_normal finite normal
    have positive : 0 < d.fraction.1 := fraction_numerator (by omega)
    have quotient : (d.fraction.1 : Rat) / d.fraction.2 = m * 2 ^ k := value
    have close := significant_close positive d.fraction_pos
    rw [quotient] at close
    generalize scientific _ _ = v at close ⊢
    have unit : (2 : Rat) ^ (-1074 : Int) ≤ 2 ^ k := zpow_le_zpow_right₀ (by norm_num) small
    have bottom : (2 : Rat) ^ (-1022 : Int) = 2 ^ 52 * 2 ^ (-1074 : Int) := by
      have sum : (-1022 : Int) = 52 + -1074 := rfl
      rw [sum, zpow_add₀ (by norm_num), zpow_ofNat]
    have big : (2 ^ 52 + 1 : Rat) * 2 ^ (-1074 : Int) ≤ m * 2 ^ k := by
      rcases Int.lt_or_eq_of_le small with above | rfl
      · have twice : (2 : Rat) * 2 ^ (-1074 : Int) ≤ 2 ^ k := by
          rw [mul_comm, ← zpow_add_one₀ (by norm_num)]
          exact zpow_le_zpow_right₀ (by norm_num) above
        have digits : (2 ^ 52 : Rat) ≤ m := by exact_mod_cast lower
        have low : (0 : Rat) < 2 ^ (-1074 : Int) := zpow_pos (by norm_num) _
        calc (2 ^ 52 + 1 : Rat) * 2 ^ (-1074 : Int) ≤ 2 ^ 52 * (2 * 2 ^ (-1074 : Int)) := by linarith
          _ ≤ m * 2 ^ k := mul_le_mul digits twice (by linarith) (by linarith)
      · have digits : (2 ^ 52 + 1 : Rat) ≤ m := by
          have : 2 ^ 52 + 1 ≤ m := by omega
          exact_mod_cast this
        exact mul_le_mul_of_nonneg_right digits (zpow_nonneg (by norm_num) _)
    have low : (0 : Rat) < 2 ^ (-1074 : Int) := zpow_pos (by norm_num) _
    have within := (abs_lt.mp ((lt_div_iff₀ (by norm_num)).mpr close)).1
    rw [bottom]
    linarith
  · have bottom : d.fraction = (2 ^ 52, 2 ^ 1074) := by
      have field : d.magnitude / 2 ^ 52 = 1 := by omega
      have rest : d.magnitude % 2 ^ 52 = 0 := by omega
      simp only [fraction, field, rest, Nat.one_ne_zero, Nat.reduceLeDiff, if_false, Nat.add_zero,
        Nat.reduceSub]
    rw [bottom, least_normal_digits]
    exact least_normal_below

/-- Seventeen digits behind a point this far left are no whole number of small powers of two. -/
theorem inexact {n j m e t : Nat} (positive : 0 < n) (few : n < 10 ^ 17) (far : 25 ≤ j) (he : 0 < e)
    (same : (m : Rat) / e = n / 10 ^ j) : m * 2 ^ t % e ≠ 0 := by
  intro whole
  obtain ⟨c, product⟩ := Nat.dvd_of_mod_eq_zero whole
  have he' : (e : Rat) ≠ 0 := by exact_mod_cast Nat.ne_of_gt he
  have ten : (10 : Rat) ^ j ≠ 0 := pow_ne_zero _ (by norm_num)
  rw [div_eq_div_iff he' ten] at same
  have cross : m * 10 ^ j = n * e := by exact_mod_cast same
  have digits : n * 2 ^ t = c * 10 ^ j := by
    apply Nat.eq_of_mul_eq_mul_left he
    calc e * (n * 2 ^ t) = m * 10 ^ j * 2 ^ t := by
          rw [cross]
          ring
      _ = m * 2 ^ t * 10 ^ j := Nat.mul_right_comm _ _ _
      _ = e * (c * 10 ^ j) := by rw [product, Nat.mul_assoc]
  have fives : 5 ^ 25 ∣ n * 2 ^ t := by
    have tens : 5 ^ 25 ∣ 10 ^ j := (pow_dvd_pow_of_dvd (by decide) 25).trans (pow_dvd_pow 10 far)
    rw [digits]
    exact tens.trans (Nat.dvd_mul_left _ _)
  have coprime : Nat.Coprime (5 ^ 25) (2 ^ t) := Nat.Coprime.pow 25 t (by decide)
  have large := Nat.le_of_dvd positive (coprime.dvd_of_dvd_mul_right fives)
  omega

/-- The sign put back before a magnitude. -/
theorem signed_magnitude (d : Double) :
    (if d.negative then (⟨UInt64.ofNat d.magnitude⟩ : Double).neg else ⟨UInt64.ofNat d.magnitude⟩) = d := by
  have bound : d.magnitude < 2 ^ 63 := Nat.mod_lt _ (by decide)
  have bits : (UInt64.ofNat d.magnitude).toNat = d.magnitude :=
    UInt64.toNat_ofNat_of_lt' (Nat.lt_trans bound (by decide))
  have unsigned : (⟨UInt64.ofNat d.magnitude⟩ : Double).negative = false := by
    rw [negative, bits]
    exact decide_eq_false (by omega)
  have size : (⟨UInt64.ofNat d.magnitude⟩ : Double).magnitude = d.magnitude := by
    rw [magnitude, bits]
    exact Nat.mod_eq_of_lt bound
  split
  next below =>
    refine eq_of_fields ?_ ?_
    · rw [neg_negative, unsigned, below]
      rfl
    · rw [neg_magnitude, size]
  next above =>
    refine eq_of_fields ?_ size
    rw [unsigned]
    exact (Bool.eq_false_iff.mpr above).symm

theorem subnormal_below (small : d.magnitude < 2 ^ 52) (some : 0 < d.magnitude) :
    scientific (significant d.fraction.1 d.fraction.2).1 ((significant d.fraction.1 d.fraction.2).2 - 16) <
      2 ^ (-1022 : Int) := by
  have close := significant_close (fraction_numerator some) d.fraction_pos
  have quotient : (d.fraction.1 : Rat) / d.fraction.2 = d.magnitude / 2 ^ 1074 := size_subnormal small
  rw [quotient] at close
  generalize scientific _ _ = v at close ⊢
  have most : (d.magnitude : Rat) + 1 ≤ 2 ^ 52 := by exact_mod_cast small
  have bottom : (2 : Rat) ^ (-1022 : Int) = 2 ^ 52 * (2 ^ 1074)⁻¹ := by
    have sum : (-1022 : Int) = 52 + -1074 := rfl
    rw [sum, zpow_add₀ (by norm_num), zpow_ofNat, zpow_neg, zpow_ofNat]
  have unit : (0 : Rat) < (2 ^ 1074)⁻¹ := by positivity
  rw [div_eq_mul_inv] at close
  rw [bottom]
  generalize ((2 : Rat) ^ 1074)⁻¹ = u at *
  have within := (abs_lt.mp ((lt_div_iff₀ (by norm_num)).mpr close)).2
  have top : (d.magnitude : Rat) * u + u ≤ 2 ^ 52 * u := by
    rw [← add_one_mul]
    exact mul_le_mul_of_nonneg_right most unit.le
  linarith

theorem far_left {n : Nat} {x : Int} (low : 10 ^ 16 ≤ n) (below : scientific n (x - 16) < 2 ^ (-1022 : Int)) :
    25 ≤ (16 - x).toNat := by
  have digits : (10 : Rat) ^ 16 ≤ n := by exact_mod_cast low
  by_contra near
  have place : (10 : Rat) ^ (-24 : Int) ≤ 10 ^ (x - 16) := zpow_le_zpow_right₀ (by norm_num) (by omega)
  have small : (2 : Rat) ^ (-1022 : Int) ≤ 2 ^ (-27 : Int) := zpow_le_zpow_right₀ (by norm_num) (by decide)
  have large : (10 : Rat) ^ 16 * 10 ^ (-24 : Int) ≤ scientific n (x - 16) :=
    mul_le_mul digits place (by positivity) (by positivity)
  have apart : (2 : Rat) ^ (-27 : Int) < 10 ^ 16 * 10 ^ (-24 : Int) := by norm_num
  linarith

theorem significant_place (n : Nat) {x : Int} (left : 25 ≤ (16 - x).toNat) :
    scientific n (x - 16) = n / 10 ^ (16 - x).toNat := by
  have flip : x - 16 = -((16 - x).toNat : Int) := by omega
  rw [scientific, flip, zpow_neg, zpow_natCast, div_eq_mul_inv]

/-- A decimal of seventeen digits of a finite number is converted to the number, but one below the
normal range is out of range. -/
theorem nearest_digits (finite : d.isFinite = true) (some : 0 < d.magnitude) {m : Nat} {e : Int}
    (same : scientific m e = scientific (significant d.fraction.1 d.fraction.2).1
      ((significant d.fraction.1 d.fraction.2).2 - 16)) :
    nearest d.negative m e = if d.isSubnormal then none else .some d := by
  have numerator := fraction_numerator some
  obtain ⟨low, high⟩ := significant_bounds numerator d.fraction_pos
  have close := significant_close numerator d.fraction_pos
  have positive : 0 < m * 10 ^ e.toNat := by
    have power : 0 < 10 ^ e.toNat := Nat.pow_pos (by decide)
    refine Nat.mul_pos (Nat.pos_of_ne_zero ?_) power
    rintro rfl
    have first : (0 : Rat) < (significant d.fraction.1 d.fraction.2).1 := by
      exact_mod_cast Nat.lt_of_lt_of_le (by decide) low
    have place : (0 : Rat) < 10 ^ ((significant d.fraction.1 d.fraction.2).2 - 16) :=
      zpow_pos (by norm_num) _
    rw [scientific, Nat.cast_zero, zero_mul, scientific] at same
    exact absurd same (mul_pos first place).ne
  have scale : 0 < 10 ^ (-e).toNat := Nat.pow_pos (by decide)
  have quotient := (scientific_eq m e).trans same
  rw [nearest]
  rcases Nat.lt_or_ge d.magnitude (2 ^ 52) with small | normal
  · have below := subnormal_below small some
    have tiny : d.isSubnormal = true := by
      rw [isSubnormal, decide_eq_true some, decide_eq_true small]
      rfl
    have under := (below_iff scale).mp (quotient ▸ below)
    have left := far_left low below
    have digits := significant_place (significant d.fraction.1 d.fraction.2).1 left
    have part := inexact (t := 1074) (Nat.lt_of_lt_of_le (by decide) low) high left scale
      (quotient.trans digits)
    rw [nearestFraction, if_neg (Nat.ne_of_gt positive), if_pos under, if_neg part, tiny]
    rfl
  · have regular : d.isSubnormal = false := by
      simp only [isSubnormal, Bool.and_eq_false_iff, decide_eq_false_iff_not]
      exact Or.inr (Nat.not_lt.mpr normal)
    have least := normal_digits finite normal
    rw [← quotient] at least close
    rw [nearestFraction_close finite normal positive scale least close, Option.map_some,
      signed_magnitude, regular]
    rfl

end

end Numerals
