import Mathlib.Algebra.Order.Ring.Abs
import Mathlib.Tactic.Positivity
import Warmth.Rounding

/-! Rounding a quotient that lies close to a double. -/

namespace Double

theorem roundDiv_eq {n d m : Nat} (low : 2 * m * d < 2 * n + d) (high : 2 * n < (2 * m + 1) * d) :
    roundDiv n d = m := by
  have hd : 0 < d := by
    rcases Nat.eq_zero_or_pos d with rfl | hd
    · omega
    · exact hd
  have whole := Nat.div_add_mod n d
  have rest := Nat.mod_lt n hd
  simp only [roundDiv]
  generalize n / d = q at *
  generalize n % d = r at *
  have above : 2 * m * d < (2 * q + 3) * d := by
    calc 2 * m * d < 2 * n + d := low
      _ ≤ (2 * q + 3) * d := by
        have expanded : (2 * q + 3) * d = 2 * (d * q) + 3 * d := by ring
        omega
  have below : 2 * q * d < (2 * m + 1) * d := by
    calc 2 * q * d ≤ 2 * n := by
          have expanded : 2 * q * d = 2 * (d * q) := by ring
          omega
      _ < (2 * m + 1) * d := high
  have atMost := Nat.lt_of_mul_lt_mul_right above
  have atLeast := Nat.lt_of_mul_lt_mul_right below
  rcases Nat.lt_or_ge q m with less | same
  · obtain rfl : m = q + 1 := by omega
    have up : d < 2 * r := by
      have expanded : 2 * (q + 1) * d = 2 * (d * q) + 2 * d := by ring
      omega
    exact if_pos (Or.inl up)
  · obtain rfl : q = m := by omega
    have down : 2 * r < d := by
      have expanded : (2 * q + 1) * d = 2 * (d * q) + d := by ring
      omega
    exact if_neg (by omega)

/-- A quotient less than a half away from an integer rounds to it. -/
theorem roundDiv_near {n d m : Nat} (hd : 0 < d) (low : (m : Rat) - 1 / 2 < n / d)
    (high : (n : Rat) / d < m + 1 / 2) : roundDiv n d = m := by
  have positive : (0 : Rat) < d := by exact_mod_cast hd
  rw [lt_div_iff₀ positive] at low
  rw [div_lt_iff₀ positive] at high
  apply roundDiv_eq
  · have scaled : (2 * m * d : Rat) < 2 * n + d := by linarith
    exact_mod_cast scaled
  · have scaled : (2 * n : Rat) < (2 * m + 1) * d := by linarith
    exact_mod_cast scaled

/-- Rounding is off by at most a half. -/
theorem roundDiv_error {n d : Nat} (hd : 0 < d) : |(roundDiv n d : Rat) - n / d| ≤ 1 / 2 := by
  have positive : (0 : Rat) < d := by exact_mod_cast hd
  have whole := Nat.div_add_mod n d
  have rest := Nat.mod_lt n hd
  have value : (n : Rat) / d = (n / d : Nat) + (n % d : Nat) / d := by
    rw [div_eq_iff positive.ne', add_mul, div_mul_cancel₀ _ positive.ne']
    have swapped : n / d * d + n % d = n := by rw [Nat.mul_comm]; exact whole
    exact_mod_cast swapped.symm
  simp only [roundDiv]
  rw [value]
  generalize n / d = q at *
  generalize n % d = r at *
  have share : (0 : Rat) ≤ r / d := by positivity
  split
  next up =>
    have half : 1 / 2 ≤ (r : Rat) / d := by
      rw [le_div_iff₀ positive]
      have scaled : (d : Rat) ≤ 2 * r := by
        have : d ≤ 2 * r := by omega
        exact_mod_cast this
      linarith
    have one : (r : Rat) / d ≤ 1 := by
      rw [div_le_one positive]
      exact_mod_cast rest.le
    rw [abs_le]
    push_cast
    constructor <;> linarith
  next down =>
    have half : (r : Rat) / d ≤ 1 / 2 := by
      rw [div_le_iff₀ positive]
      have scaled : (2 * r : Rat) ≤ d := by
        have : 2 * r ≤ d := by omega
        exact_mod_cast this
      linarith
    rw [abs_le]
    constructor <;> linarith

theorem leading_eq {n d : Nat} (hn : 0 < n) (hd : 0 < d) {e : Int} (low : (2 : Rat) ^ e ≤ n / d)
    (high : (n : Rat) / d < 2 ^ (e + 1)) : leading n d = e := by
  obtain ⟨least, greatest⟩ := leading_spec hn hd
  have positive : (0 : Rat) < d := by exact_mod_cast hd
  have one : (1 : Rat) < 2 := by norm_num
  rw [mul_comm, ← le_div_iff₀ positive] at least
  rw [mul_comm, ← div_lt_iff₀ positive] at greatest
  have upper := (zpow_lt_zpow_iff_right₀ one).mp (lt_of_le_of_lt least high)
  have lower := (zpow_lt_zpow_iff_right₀ one).mp (lt_of_le_of_lt low greatest)
  omega

/-- The scaled quotient whose rounding is the significand. -/
theorem significand_near {n d m : Nat} (hd : 0 < d)
    (low : ((m : Rat) - 1 / 2) * 2 ^ (leading n d - 52) < n / d)
    (high : (n : Rat) / d < (m + 1 / 2) * 2 ^ (leading n d - 52)) : significand n d = m := by
  unfold significand
  generalize leading n d = e at *
  have scale := two_pow_toNat (52 - e)
  have flip : -(52 - e) = e - 52 := by omega
  rw [flip] at scale
  have power : (0 : Rat) < 2 ^ (e - 52) := zpow_pos (by norm_num) _
  have positive : (0 : Rat) < 2 ^ (e - 52).toNat := pow_pos (by norm_num) _
  have inverse : (2 : Rat) ^ (52 - e) = (2 ^ (e - 52))⁻¹ := by
    rw [← zpow_neg]
    congr 1
    omega
  have quotient : ((n * 2 ^ (52 - e).toNat : Nat) : Rat) / (d * 2 ^ (e - 52).toNat : Nat) =
      n / d / 2 ^ (e - 52) := by
    push_cast
    rw [scale, inverse]
    field_simp
  apply roundDiv_near (Nat.mul_pos hd (Nat.two_pow_pos _))
  · rw [quotient, lt_div_iff₀ power]
    exact low
  · rw [quotient, div_lt_iff₀ power]
    exact high

/-- A quotient within `V / 2 ^ 54` of a normal number `V = m * 2 ^ k` rounds to it, also from below a
power of two, where doubles stand twice as close. -/
theorem ofNatDiv_close {n d m : Nat} {k : Int} (hn : 0 < n) (hd : 0 < d) (lower : 2 ^ 52 ≤ m)
    (upper : m < 2 ^ 53) (normal : -1074 ≤ k)
    (close : |(n : Rat) / d - m * 2 ^ k| * 2 ^ 54 < m * 2 ^ k) :
    ofNatDiv n d = ⟨UInt64.ofNat ((k + 1075).toNat * 2 ^ 52 + (m - 2 ^ 52))⟩ := by
  have two : (2 : Rat) ≠ 0 := by norm_num
  have unit : (0 : Rat) < 2 ^ k := zpow_pos (by norm_num) _
  have least : (2 : Rat) ^ 52 ≤ m := by exact_mod_cast lower
  have greatest : (m : Rat) + 1 ≤ 2 ^ 53 := by exact_mod_cast upper
  have fine : (m : Rat) / 2 ^ 54 < 1 / 2 := by
    rw [div_lt_iff₀ (by norm_num)]
    linarith
  have within : |(n : Rat) / d - m * 2 ^ k| < m / 2 ^ 54 * 2 ^ k := by
    have scaled : (m : Rat) / 2 ^ 54 * 2 ^ k = m * 2 ^ k / 2 ^ 54 := by ring
    rw [scaled, lt_div_iff₀ (by norm_num)]
    exact close
  obtain ⟨below, above⟩ := abs_lt.mp within
  have high : (n : Rat) / d < (m + m / 2 ^ 54) * 2 ^ k := by linarith
  have low : ((m : Rat) - m / 2 ^ 54) * 2 ^ k < n / d := by linarith
  have under : (n : Rat) / d < (m + 1 / 2) * 2 ^ k :=
    high.trans_le (mul_le_mul_of_nonneg_right (by linarith) unit.le)
  have lead (j : Int) (c : Rat) (hc : c = 2 ^ j) : c * 2 ^ k = 2 ^ (j + k) := by
    rw [hc, zpow_add₀ two]
  rw [ofNatDiv_eq hn]
  rcases le_or_gt ((2 : Rat) ^ (52 + k)) (n / d) with reached | short
  · have leads : leading n d = 52 + k := by
      refine leading_eq hn hd reached (under.trans_le ?_)
      have next : 52 + k + 1 = 53 + k := by omega
      rw [next, ← lead 53 (2 ^ 53) rfl]
      exact mul_le_mul_of_nonneg_right (by linarith) unit.le
    have digits : significand n d = m := by
      have place : 52 + k - 52 = k := by omega
      refine significand_near hd ?_ ?_
      · rw [leads, place]
        exact lt_of_le_of_lt (mul_le_mul_of_nonneg_right (by linarith) unit.le) low
      · rw [leads, place]
        exact under
    have exponent : 52 + k + 1023 = k + 1075 := by omega
    rw [digits, leads, exponent]
  · -- below the least significand: the quotient has one digit more and rounds up
    have edge : m = 2 ^ 52 := by
      by_contra other
      have more : (2 : Rat) ^ 52 + 1 ≤ m := by
        have : 2 ^ 52 + 1 ≤ m := by omega
        exact_mod_cast this
      have reaches : (2 : Rat) ^ (52 + k) ≤ ((m : Rat) - m / 2 ^ 54) * 2 ^ k := by
        rw [← lead 52 (2 ^ 52) rfl]
        exact mul_le_mul_of_nonneg_right (by linarith) unit.le
      exact absurd (lt_of_le_of_lt reaches low) (not_lt.mpr short.le)
    have value : (m : Rat) = 2 ^ 52 := by exact_mod_cast edge
    have half : (2 : Rat) ^ (k - 1) = 1 / 2 * 2 ^ k := by
      rw [sub_eq_add_neg, add_comm, zpow_add₀ two]
      norm_num
    have leads : leading n d = 51 + k := by
      refine leading_eq hn hd (le_of_lt (lt_of_le_of_lt ?_ low)) ?_
      · rw [← lead 51 (2 ^ 51) rfl, value]
        exact mul_le_mul_of_nonneg_right (by norm_num) unit.le
      · have next : 51 + k + 1 = 52 + k := by omega
        rwa [next]
    have digits : significand n d = 2 ^ 53 := by
      have place : 51 + k - 52 = k - 1 := by omega
      refine significand_near hd ?_ ?_
      · rw [leads, place, half]
        refine lt_of_le_of_lt ?_ low
        rw [value, ← mul_assoc]
        refine mul_le_mul_of_nonneg_right ?_ unit.le
        norm_num
      · rw [leads, place, half]
        refine short.trans_le ?_
        rw [← lead 52 (2 ^ 52) rfl, ← mul_assoc]
        refine mul_le_mul_of_nonneg_right ?_ unit.le
        norm_num
    have exponent : (51 + k + 1023).toNat = (k + 1075).toNat - 1 := by omega
    have positive : 0 < (k + 1075).toNat := by omega
    have carried : ((k + 1075).toNat - 1) * 2 ^ 52 + (2 ^ 53 - 2 ^ 52) =
        (k + 1075).toNat * 2 ^ 52 + (2 ^ 52 - 2 ^ 52) := by
      omega
    rw [digits, leads, edge, exponent, carried]

end Double
