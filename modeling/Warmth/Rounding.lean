import Mathlib.Algebra.Order.Field.Power
import Mathlib.Algebra.Order.Ring.Rat
import Mathlib.Data.Rat.Cast.Order
import Mathlib.Tactic.FieldSimp
import Mathlib.Tactic.Linarith
import Mathlib.Tactic.Ring
import Warmth.Binary64

/-! Rounding keeps the order of quotients. -/

namespace Double

/-- The power of two of the leading digit of `n / d`. -/
def leading (n d : Nat) : Int :=
  let e₀ : Int := (Nat.log2 n : Int) - (Nat.log2 d : Int)
  let fits := if 0 ≤ e₀ then d * 2 ^ e₀.toNat ≤ n else d ≤ n * 2 ^ (-e₀).toNat
  if fits then e₀ else e₀ - 1

theorem two_pow_toNat (k : Int) : (2 : Rat) ^ k.toNat = 2 ^ k * 2 ^ (-k).toNat := by
  rcases Int.le_total 0 k with h | h
  · have whole : ((k.toNat : Nat) : Int) = k := Int.toNat_of_nonneg h
    have none : (-k).toNat = 0 := by omega
    rw [none, pow_zero, mul_one, ← zpow_natCast, whole]
  · have whole : (((-k).toNat : Nat) : Int) = -k := Int.toNat_of_nonneg (by omega)
    have none : k.toNat = 0 := by omega
    rw [none, pow_zero, ← zpow_natCast, whole, ← zpow_add₀ (by norm_num), Int.add_right_neg, zpow_zero]

theorem fits_iff (n d : Nat) (k : Int) :
    (if 0 ≤ k then d * 2 ^ k.toNat ≤ n else d ≤ n * 2 ^ (-k).toNat) ↔ (d : Rat) * 2 ^ k ≤ n := by
  have positive : (0 : Rat) < 2 ^ (-k).toNat := pow_pos (by norm_num) _
  have scale := two_pow_toNat k
  split
  next h =>
    have none : (-k).toNat = 0 := by omega
    rw [none, pow_zero, mul_one] at scale
    rw [← scale]
    exact_mod_cast Iff.rfl
  next h =>
    have none : k.toNat = 0 := by omega
    rw [none, pow_zero] at scale
    have cast : (d : Rat) ≤ n * 2 ^ (-k).toNat ↔ d ≤ n * 2 ^ (-k).toNat := by exact_mod_cast Iff.rfl
    have scaled : (d : Rat) * 2 ^ k ≤ n ↔ (d : Rat) * 2 ^ k * 2 ^ (-k).toNat ≤ n * 2 ^ (-k).toNat :=
      (mul_le_mul_iff_left₀ positive).symm
    rw [← cast, scaled, mul_assoc, ← scale, mul_one]

theorem leading_spec {n d : Nat} (hn : 0 < n) (hd : 0 < d) :
    (d : Rat) * 2 ^ leading n d ≤ n ∧ (n : Rat) < d * 2 ^ (leading n d + 1) := by
  have two : (2 : Rat) ≠ 0 := by norm_num
  have nlow : (2 : Rat) ^ Nat.log2 n ≤ n := by exact_mod_cast Nat.log2_self_le (Nat.ne_of_gt hn)
  have nhigh : (n : Rat) < 2 ^ (Nat.log2 n + 1) := by exact_mod_cast Nat.lt_log2_self
  have dlow : (2 : Rat) ^ Nat.log2 d ≤ d := by exact_mod_cast Nat.log2_self_le (Nat.ne_of_gt hd)
  have dhigh : (d : Rat) < 2 ^ (Nat.log2 d + 1) := by exact_mod_cast Nat.lt_log2_self
  simp only [leading, fits_iff]
  generalize Nat.log2 n = a at *
  generalize Nat.log2 d = b at *
  have above : (n : Rat) < d * 2 ^ ((a : Int) - b + 1) := by
    calc (n : Rat) < 2 ^ (a + 1) := nhigh
      _ = 2 ^ b * 2 ^ ((a : Int) - b + 1) := by
          rw [← zpow_natCast, ← zpow_natCast, ← zpow_add₀ two]
          congr 1
          push_cast
          omega
      _ ≤ d * 2 ^ ((a : Int) - b + 1) := mul_le_mul_of_nonneg_right dlow (zpow_nonneg (by norm_num) _)
  have below : (d : Rat) * 2 ^ ((a : Int) - b - 1) ≤ n := by
    calc (d : Rat) * 2 ^ ((a : Int) - b - 1) ≤ 2 ^ (b + 1) * 2 ^ ((a : Int) - b - 1) :=
          mul_le_mul_of_nonneg_right (le_of_lt dhigh) (zpow_nonneg (by norm_num) _)
      _ = 2 ^ a := by
          rw [← zpow_natCast, ← zpow_natCast, ← zpow_add₀ two]
          congr 1
          push_cast
          omega
      _ ≤ n := nlow
  split
  next fits => exact ⟨fits, above⟩
  next short => exact ⟨below, by rwa [Int.sub_add_cancel, ← not_le]⟩

theorem leading_mono {n n' d : Nat} (hn : 0 < n) (hd : 0 < d) (h : n ≤ n') :
    leading n d ≤ leading n' d := by
  have positive : (0 : Rat) < d := by exact_mod_cast hd
  have less : (n : Rat) ≤ n' := by exact_mod_cast h
  have low := (leading_spec hn hd).1
  have high := (leading_spec (Nat.lt_of_lt_of_le hn h) hd).2
  have powers : (2 : Rat) ^ leading n d < 2 ^ (leading n' d + 1) :=
    lt_of_mul_lt_mul_left (lt_of_le_of_lt (low.trans less) high) positive.le
  have := (zpow_lt_zpow_iff_right₀ (by norm_num)).mp powers
  omega

theorem roundDiv_between (n d : Nat) : n / d ≤ roundDiv n d ∧ roundDiv n d ≤ n / d + 1 := by
  simp only [roundDiv]
  split <;> omega

theorem roundDiv_mono {m n : Nat} (d : Nat) (h : m ≤ n) : roundDiv m d ≤ roundDiv n d := by
  have quotients : m / d ≤ n / d := Nat.div_le_div_right h
  rcases Nat.lt_or_eq_of_le quotients with less | same
  · have ceiling := (roundDiv_between m d).2
    have floor := (roundDiv_between n d).1
    omega
  · have hm := Nat.div_add_mod m d
    have hn := Nat.div_add_mod n d
    rw [same] at hm
    simp only [roundDiv, same]
    generalize d * (n / d) = multiple at *
    split
    next up =>
      rw [if_pos]
      omega
    next =>
      split <;> omega

theorem le_roundDiv {n d q : Nat} (hd : 0 < d) (h : d * q ≤ n) : q ≤ roundDiv n d := by
  have floor : q ≤ n / d := (Nat.le_div_iff_mul_le hd).mpr (Nat.mul_comm d q ▸ h)
  exact Nat.le_trans floor (roundDiv_between n d).1

theorem roundDiv_le {n d q : Nat} (h : n < d * q) : roundDiv n d ≤ q := by
  have floor : n / d < q := Nat.div_lt_of_lt_mul h
  exact Nat.le_trans (roundDiv_between n d).2 floor

/-- The significand of the quotient, rounded to 53 digits. -/
def significand (n d : Nat) : Nat :=
  roundDiv (n * 2 ^ (52 - leading n d).toNat) (d * 2 ^ (leading n d - 52).toNat)

theorem significand_bounds {n d : Nat} (hn : 0 < n) (hd : 0 < d) :
    2 ^ 52 ≤ significand n d ∧ significand n d ≤ 2 ^ 53 := by
  obtain ⟨low, high⟩ := leading_spec hn hd
  unfold significand
  generalize leading n d = e at *
  have scale := two_pow_toNat (52 - e)
  have flip : -(52 - e) = e - 52 := by omega
  rw [flip] at scale
  have positive : (0 : Rat) < 2 ^ (e - 52).toNat := pow_pos (by norm_num) _
  have two : (2 : Rat) ≠ 0 := by norm_num
  have power : (0 : Rat) < 2 ^ (52 - e) := zpow_pos (by norm_num) _
  constructor
  · apply le_roundDiv (Nat.mul_pos hd (Nat.two_pow_pos _))
    have scaled : (d : Rat) * 2 ^ (e - 52).toNat * 2 ^ 52 ≤ n * 2 ^ (52 - e).toNat := by
      rw [scale]
      calc (d : Rat) * 2 ^ (e - 52).toNat * 2 ^ 52
          = d * 2 ^ e * 2 ^ (52 - e) * 2 ^ (e - 52).toNat := by
            have sum : e + (52 - e) = 52 := by omega
            rw [mul_assoc (d : Rat) (2 ^ e), ← zpow_add₀ two, sum]
            norm_cast
            ring
        _ ≤ n * (2 ^ (52 - e) * 2 ^ (e - 52).toNat) := by
            rw [← mul_assoc]
            exact mul_le_mul_of_nonneg_right (mul_le_mul_of_nonneg_right low power.le) positive.le
    exact_mod_cast scaled
  · apply roundDiv_le
    have scaled : (n : Rat) * 2 ^ (52 - e).toNat < d * 2 ^ (e - 52).toNat * 2 ^ 53 := by
      rw [scale]
      calc (n : Rat) * (2 ^ (52 - e) * 2 ^ (e - 52).toNat)
          < d * 2 ^ (e + 1) * 2 ^ (52 - e) * 2 ^ (e - 52).toNat := by
            rw [← mul_assoc]
            exact mul_lt_mul_of_pos_right (mul_lt_mul_of_pos_right high power) positive
        _ = d * 2 ^ (e - 52).toNat * 2 ^ 53 := by
            have sum : e + 1 + (52 - e) = 53 := by omega
            rw [mul_assoc (d : Rat) (2 ^ (e + 1)), ← zpow_add₀ two, sum]
            norm_cast
            ring
    exact_mod_cast scaled

theorem ofNatDiv_eq {n d : Nat} (hn : 0 < n) :
    ofNatDiv n d = ⟨UInt64.ofNat ((leading n d + 1023).toNat * 2 ^ 52 + (significand n d - 2 ^ 52))⟩ := by
  have rounded : significand n d = if leading n d ≤ 52 then
      roundDiv (n * 2 ^ (52 - leading n d).toNat) d else roundDiv n (d * 2 ^ (leading n d - 52).toNat) := by
    unfold significand
    split
    next h =>
      have none : (leading n d - 52).toNat = 0 := by omega
      rw [none, Nat.pow_zero, Nat.mul_one]
    next h =>
      have none : (52 - leading n d).toNat = 0 := by omega
      rw [none, Nat.pow_zero, Nat.mul_one]
  rw [rounded, ofNatDiv, if_neg (Nat.ne_of_gt hn)]
  rfl

/-- Where the exponent is in the normal range. -/
theorem leading_range {n d k : Nat} (hn : 0 < n) (hd : 0 < d) (nk : n < 2 ^ k) (dk : d ≤ 2 ^ k) :
    -(k : Int) ≤ leading n d ∧ leading n d < k := by
  obtain ⟨low, high⟩ := leading_spec hn hd
  have one : (1 : Rat) < 2 := by norm_num
  have nk' : (n : Rat) < 2 ^ (k : Int) := by
    rw [zpow_natCast]
    exact_mod_cast nk
  have dk' : (d : Rat) ≤ 2 ^ (k : Int) := by
    rw [zpow_natCast]
    exact_mod_cast dk
  have hn' : (1 : Rat) ≤ n := by exact_mod_cast hn
  have hd' : (1 : Rat) ≤ d := by exact_mod_cast hd
  have power (e : Int) : (0 : Rat) < 2 ^ e := zpow_pos (by norm_num) e
  constructor
  · have lower : (2 : Rat) ^ (0 : Int) < 2 ^ ((k : Int) + (leading n d + 1)) := by
      rw [zpow_zero, zpow_add₀ (by norm_num)]
      calc (1 : Rat) ≤ n := hn'
        _ < d * 2 ^ (leading n d + 1) := high
        _ ≤ 2 ^ (k : Int) * 2 ^ (leading n d + 1) := mul_le_mul_of_nonneg_right dk' (power _).le
    have := (zpow_lt_zpow_iff_right₀ one).mp lower
    omega
  · have upper : (2 : Rat) ^ leading n d < 2 ^ (k : Int) := by
      calc (2 : Rat) ^ leading n d ≤ d * 2 ^ leading n d := le_mul_of_one_le_left (power _).le hd'
        _ ≤ n := low
        _ < 2 ^ (k : Int) := nk'
    exact (zpow_lt_zpow_iff_right₀ one).mp upper

theorem ofNatDiv_bits {n d k : Nat} (hn : 0 < n) (hd : 0 < d) (nk : n < 2 ^ k) (dk : d ≤ 2 ^ k)
    (hk : k ≤ 1022) :
    (ofNatDiv n d).bits.toNat =
      (leading n d + 1023).toNat * 2 ^ 52 + (significand n d - 2 ^ 52) ∧
    (ofNatDiv n d).bits.toNat < infinity := by
  obtain ⟨least, greatest⟩ := leading_range hn hd nk dk
  obtain ⟨low, high⟩ := significand_bounds hn hd
  have bound : (leading n d + 1023).toNat * 2 ^ 52 + (significand n d - 2 ^ 52) < infinity := by
    unfold infinity
    omega
  have value : (ofNatDiv n d).bits.toNat =
      (leading n d + 1023).toNat * 2 ^ 52 + (significand n d - 2 ^ 52) := by
    rw [ofNatDiv_eq hn]
    apply UInt64.toNat_ofNat_of_lt'
    unfold infinity at bound
    change _ < 2 ^ 64
    omega
  exact ⟨value, value ▸ bound⟩

theorem key_of_small {d : Double} (h : d.bits.toNat < infinity) :
    d.isNan = false ∧ d.key = d.bits.toNat := by
  unfold infinity at h
  have size : d.magnitude = d.bits.toNat := Nat.mod_eq_of_lt (by omega)
  have plain : d.negative = false := decide_eq_false (by omega)
  refine ⟨decide_eq_false ?_, ?_⟩
  · rw [size, infinity]
    omega
  · rw [key, plain, size]
    rfl

/-- Division by a fixed number keeps the order of the numbers divided. -/
theorem ofNatDiv_mono {n n' d k : Nat} (hd : 0 < d) (h : n ≤ n') (nk : n' < 2 ^ k) (dk : d ≤ 2 ^ k)
    (hk : k ≤ 1022) : (ofNatDiv n d).bits.toNat ≤ (ofNatDiv n' d).bits.toNat := by
  rcases Nat.eq_zero_or_pos n with rfl | hn
  · exact Nat.zero_le _
  · have hn' := Nat.lt_of_lt_of_le hn h
    rw [(ofNatDiv_bits hn hd (Nat.lt_of_le_of_lt h nk) dk hk).1, (ofNatDiv_bits hn' hd nk dk hk).1]
    obtain ⟨least, -⟩ := leading_range hn hd (Nat.lt_of_le_of_lt h nk) dk
    obtain ⟨-, high⟩ := significand_bounds hn hd
    obtain ⟨low, -⟩ := significand_bounds hn' hd
    rcases lt_or_eq_of_le (leading_mono hn hd h) with less | same
    · omega
    · have digits : significand n d ≤ significand n' d := by
        unfold significand
        rw [same]
        exact roundDiv_mono _ (Nat.mul_le_mul_right _ h)
      rw [same]
      omega

theorem nearestNat_between {n : Nat} (h : 2 ^ 53 ≤ n) :
    2 ^ Nat.log2 n ≤ nearestNat n ∧ nearestNat n ≤ 2 ^ (Nat.log2 n + 1) := by
  have some : n ≠ 0 := by omega
  have digits : 53 ≤ Nat.log2 n := (Nat.le_log2 some).mpr h
  have low := Nat.log2_self_le some
  have high : n < 2 ^ (Nat.log2 n + 1) := Nat.lt_log2_self
  have step : 0 < 2 ^ (Nat.log2 n - 52) := Nat.two_pow_pos _
  have lead : 2 ^ Nat.log2 n = 2 ^ (Nat.log2 n - 52) * 2 ^ 52 := by
    rw [← Nat.pow_add]
    congr 1
    omega
  have next : 2 ^ (Nat.log2 n + 1) = 2 ^ (Nat.log2 n - 52) * 2 ^ 53 := by
    rw [← Nat.pow_add]
    congr 1
    omega
  rw [nearestNat, if_neg (by omega)]
  constructor
  · rw [lead, Nat.mul_comm]
    exact Nat.mul_le_mul_right _ (le_roundDiv step (lead ▸ low))
  · rw [next, Nat.mul_comm (2 ^ (Nat.log2 n - 52))]
    exact Nat.mul_le_mul_right _ (roundDiv_le (next ▸ high))

/-- Conversion to double keeps the order of natural numbers. -/
theorem nearestNat_mono {m n : Nat} (h : m ≤ n) : nearestNat m ≤ nearestNat n := by
  rcases Nat.lt_or_ge m (2 ^ 53) with small | large
  · rw [nearestNat, if_pos small]
    rcases Nat.lt_or_ge n (2 ^ 53) with small' | large'
    · rwa [nearestNat, if_pos small']
    · have low : 2 ^ 53 ≤ 2 ^ Nat.log2 n :=
        Nat.pow_le_pow_right (by decide) ((Nat.le_log2 (by omega)).mpr large')
      have := (nearestNat_between large').1
      omega
  · have large' := Nat.le_trans large h
    have ordered : Nat.log2 m ≤ Nat.log2 n :=
      (Nat.le_log2 (by omega)).mpr (Nat.le_trans (Nat.log2_self_le (by omega)) h)
    rcases Nat.lt_or_eq_of_le ordered with less | same
    · have powers : 2 ^ (Nat.log2 m + 1) ≤ 2 ^ Nat.log2 n := Nat.pow_le_pow_right (by decide) less
      have top := (nearestNat_between large).2
      have bottom := (nearestNat_between large').1
      omega
    · rw [nearestNat, nearestNat, if_neg (by omega), if_neg (by omega), same]
      exact Nat.mul_le_mul_right _ (roundDiv_mono _ h)

theorem nearestNat_lt {n k : Nat} (h : n < 2 ^ k) : nearestNat n < 2 ^ (k + 1) := by
  rcases Nat.lt_or_ge n (2 ^ 53) with small | large
  · rw [nearestNat, if_pos small]
    exact Nat.lt_trans h (Nat.pow_lt_pow_succ (by decide))
  · have digits : Nat.log2 n < k := (Nat.log2_lt (by omega)).mpr h
    exact Nat.lt_of_le_of_lt (nearestNat_between large).2 (Nat.pow_lt_pow_right (by decide) (by omega))

/-- Among numbers that are not negative the bits are in the order of the numbers. -/
theorem le_of_bits_le {t a b : Double} (h : a.bits.toNat ≤ b.bits.toNat) (finite : b.bits.toNat < infinity)
    (ht : t.le a = true) : t.le b = true := by
  obtain ⟨na, ka⟩ := key_of_small (Nat.lt_of_le_of_lt h finite)
  obtain ⟨nb, kb⟩ := key_of_small finite
  simp only [le, na, nb, ka, kb, Bool.and_eq_true, decide_eq_true_eq] at ht ⊢
  exact ⟨ht.1, by omega⟩

end Double
