import Mathlib.Logic.Function.Iterate

/-! A cyclic redundancy check as a register over the field of two elements, with the least
significant bit first. -/

namespace Crc

variable {w : Nat}

/-- Shift the register by one bit; the bit that falls out decides whether the polynomial is added. -/
def shift (poly c : BitVec w) : BitVec w :=
  if c.getLsbD 0 then poly ^^^ (c >>> 1) else c >>> 1

/-- Shift a whole byte out of the register. -/
def shiftByte (poly : BitVec w) : BitVec w → BitVec w := (shift poly)^[8]

/-- Feed one byte. -/
def feed (poly c : BitVec w) (b : BitVec 8) : BitVec w := shiftByte poly (c ^^^ b.setWidth w)

def register (poly c : BitVec w) (bs : List (BitVec 8)) : BitVec w := bs.foldl (feed poly) c

/-- The bytes as one little-endian word. -/
def word (w : Nat) : List (BitVec 8) → BitVec w
  | [] => 0
  | b :: bs => b.setWidth w ^^^ (word w bs <<< 8)

theorem xor_cancel (p a b : BitVec w) : (p ^^^ a) ^^^ (p ^^^ b) = a ^^^ b := by
  have swap : (p ^^^ a) ^^^ (p ^^^ b) = (p ^^^ p) ^^^ (a ^^^ b) := by ac_rfl
  rw [swap, BitVec.xor_self, BitVec.zero_xor]

/-- The register is linear: a difference runs through it on its own. -/
theorem shift_xor (poly a b : BitVec w) : shift poly (a ^^^ b) = shift poly a ^^^ shift poly b := by
  unfold shift
  rw [BitVec.getLsbD_xor, BitVec.ushiftRight_xor_distrib]
  cases a.getLsbD 0 <;> cases b.getLsbD 0
  · rfl
  · change poly ^^^ (a >>> 1 ^^^ b >>> 1) = a >>> 1 ^^^ (poly ^^^ b >>> 1)
    ac_rfl
  · change poly ^^^ (a >>> 1 ^^^ b >>> 1) = (poly ^^^ a >>> 1) ^^^ b >>> 1
    ac_rfl
  · exact (xor_cancel poly _ _).symm

theorem shift_iterate_xor (poly a b : BitVec w) (n : Nat) :
    (shift poly)^[n] (a ^^^ b) = (shift poly)^[n] a ^^^ (shift poly)^[n] b := by
  induction n generalizing a b with
  | zero => rfl
  | succ n ih => rw [Function.iterate_succ_apply, shift_xor, ih]; rfl

theorem shift_eq_zero {poly c : BitVec w} (top : poly.msb = true) (h : shift poly c = 0#w) :
    c = 0#w := by
  unfold shift at h
  cases low : c.getLsbD 0 with
  | true =>
    -- the polynomial's top bit stays in the register
    rw [low, if_pos rfl] at h
    have msb : (poly ^^^ c >>> 1).msb = true := by
      rw [BitVec.msb_xor, BitVec.msb_ushiftRight, top]
      simp
    rw [h] at msb
    simp at msb
  | false =>
    rw [low, if_neg (by simp)] at h
    apply BitVec.eq_of_getLsbD_eq
    intro i _
    cases i with
    | zero => rw [low, BitVec.getLsbD_zero]
    | succ i =>
      have bit := congrArg (fun x : BitVec w => x.getLsbD i) h
      simp only [BitVec.getLsbD_ushiftRight, BitVec.getLsbD_zero] at bit
      rw [Nat.add_comm i 1, bit, BitVec.getLsbD_zero]

theorem shift_injective {poly : BitVec w} (top : poly.msb = true) :
    Function.Injective (shift poly) := by
  intro a b h
  have zero : shift poly (a ^^^ b) = 0#w := by rw [shift_xor, h, BitVec.xor_self]
  exact BitVec.xor_eq_zero_iff.mp (shift_eq_zero top zero)

theorem shiftByte_injective {poly : BitVec w} (top : poly.msb = true) :
    Function.Injective (shiftByte poly) := (shift_injective top).iterate 8

/-- While only zeros fall out, shifting is plain shifting. -/
theorem shift_iterate_of_low {poly c : BitVec w} {n : Nat}
    (low : ∀ i < n, c.getLsbD i = false) : (shift poly)^[n] c = c >>> n := by
  induction n generalizing c with
  | zero => simp
  | succ n ih =>
    have first : shift poly c = c >>> 1 := by
      rw [shift, low 0 (by omega), if_neg (by simp)]
    have rest : ∀ i < n, (c >>> 1).getLsbD i = false := by
      intro i hi
      rw [BitVec.getLsbD_ushiftRight]
      exact low (1 + i) (by omega)
    rw [Function.iterate_succ_apply, first, ih rest, ← BitVec.shiftRight_add, Nat.add_comm]

/-- Shifting a byte out depends on that byte alone; what stands above it moves down. -/
theorem shiftByte_split (poly c : BitVec w) :
    shiftByte poly c = shiftByte poly (c &&& 255#w) ^^^ (c >>> 8) := by
  have parts : c = (c &&& 255#w) ^^^ ((c >>> 8) <<< 8) := by
    apply BitVec.eq_of_getLsbD_eq
    intro i hi
    simp only [BitVec.getLsbD_xor, BitVec.getLsbD_and, BitVec.getLsbD_shiftLeft,
      BitVec.getLsbD_ushiftRight, BitVec.getLsbD_ofNat, hi, decide_true, Bool.true_and]
    have mask : Nat.testBit 255 i = decide (i < 8) := Nat.testBit_two_pow_sub_one 8 i
    rw [mask]
    by_cases h : i < 8
    · simp [h]
    · have back : 8 + (i - 8) = i := by omega
      simp [h, back]
  have high : shiftByte poly ((c >>> 8) <<< 8) = (c >>> 8 <<< 8) >>> 8 := by
    refine shift_iterate_of_low fun i hi => ?_
    simp [BitVec.getLsbD_shiftLeft, hi]
  have back : (c >>> 8 <<< 8) >>> 8 = c >>> 8 := by
    apply BitVec.eq_of_getLsbD_eq
    intro i _
    simp only [BitVec.getLsbD_ushiftRight, BitVec.getLsbD_shiftLeft, Nat.add_sub_cancel_left]
    by_cases h : 8 + i < w
    · simp [h]
    · simp [h, BitVec.getLsbD_of_ge c (8 + i) (by omega)]
  calc shiftByte poly c = shiftByte poly ((c &&& 255#w) ^^^ ((c >>> 8) <<< 8)) := by rw [← parts]
    _ = shiftByte poly (c &&& 255#w) ^^^ shiftByte poly ((c >>> 8) <<< 8) :=
      shift_iterate_xor poly _ _ 8
    _ = shiftByte poly (c &&& 255#w) ^^^ (c >>> 8) := by rw [high, back]

theorem feed_injective {poly : BitVec w} (top : poly.msb = true) (b : BitVec 8) :
    Function.Injective fun c => feed poly c b := by
  intro c c' h
  exact (BitVec.xor_left_inj _).mp (shiftByte_injective top h)

theorem register_append (poly c : BitVec w) (as bs : List (BitVec 8)) :
    register poly c (as ++ bs) = register poly (register poly c as) bs := List.foldl_append

/-- Two registers that differ stay different under the same bytes. -/
theorem register_injective {poly : BitVec w} (top : poly.msb = true) (bs : List (BitVec 8)) :
    Function.Injective fun c => register poly c bs := by
  induction bs with
  | nil => exact fun _ _ h => h
  | cons b bs ih => exact fun c c' h => feed_injective top b (ih h)

theorem getLsbD_word_of_ge {bs : List (BitVec 8)} {i : Nat} (h : 8 * bs.length ≤ i) :
    (word w bs).getLsbD i = false := by
  induction bs generalizing i with
  | nil => simp [word]
  | cons b bs ih =>
    rw [List.length_cons] at h
    have above := ih (i := i - 8) (by omega)
    simp [word, above, BitVec.getLsbD_of_ge b i (by omega)]

/-- No bit of the later bytes is lost when the word makes room for one more. -/
theorem word_shift {b : BitVec 8} {bs : List (BitVec 8)} (h : 8 * (b :: bs).length ≤ w) :
    (word w bs <<< 8) >>> 8 = word w bs := by
  rw [List.length_cons] at h
  apply BitVec.eq_of_getLsbD_eq
  intro i _
  simp only [BitVec.getLsbD_ushiftRight, BitVec.getLsbD_shiftLeft, Nat.add_sub_cancel_left]
  by_cases hi : 8 + i < w
  · simp [hi]
  · have above : (word w bs).getLsbD i = false := getLsbD_word_of_ge (by omega)
    simp [hi, above]

/-- Bytes that fit into the register enter it as one word. -/
theorem register_word (poly c : BitVec w) {bs : List (BitVec 8)} (h : 8 * bs.length ≤ w) :
    register poly c bs = (shiftByte poly)^[bs.length] (c ^^^ word w bs) := by
  induction bs generalizing c with
  | nil =>
    change c = c ^^^ 0#w
    rw [BitVec.xor_zero]
  | cons b bs ih =>
    have fits : 8 * bs.length ≤ w := by
      rw [List.length_cons] at h
      omega
    have out : shiftByte poly (word w bs <<< 8) = word w bs := by
      have zeros : ∀ i < 8, (word w bs <<< 8).getLsbD i = false := by
        intro i hi
        simp [BitVec.getLsbD_shiftLeft, hi]
      exact (shift_iterate_of_low zeros).trans (word_shift h)
    have entered : feed poly c b ^^^ word w bs = shiftByte poly (c ^^^ word w (b :: bs)) := by
      calc feed poly c b ^^^ word w bs
          = shiftByte poly (c ^^^ b.setWidth w) ^^^ shiftByte poly (word w bs <<< 8) := by
            rw [out, feed]
        _ = shiftByte poly ((c ^^^ b.setWidth w) ^^^ (word w bs <<< 8)) :=
            (shift_iterate_xor poly _ _ 8).symm
        _ = shiftByte poly (c ^^^ word w (b :: bs)) := by rw [BitVec.xor_assoc, word]
    change register poly (feed poly c b) bs = _
    rw [ih _ fits, entered, List.length_cons, Function.iterate_succ_apply]

theorem word_injective {as bs : List (BitVec 8)} (length : as.length = bs.length)
    (fits : 8 * as.length ≤ w) (h : word w as = word w bs) : as = bs := by
  induction as generalizing bs with
  | nil => exact (List.length_eq_zero_iff.mp length.symm).symm
  | cons a as ih =>
    cases bs with
    | nil => cases length
    | cons b bs =>
      have length' : as.length = bs.length := by simpa using length
      have fits' : 8 * (b :: bs).length ≤ w := length ▸ fits
      simp only [word] at h
      have head : a = b := by
        apply BitVec.eq_of_getLsbD_eq
        intro i hi
        have wide : i < w := by
          rw [List.length_cons] at fits
          omega
        have bit := congrArg (fun x : BitVec w => x.getLsbD i) h
        simpa [hi, wide] using bit
      subst head
      have shifted : word w as <<< 8 = word w bs <<< 8 := (BitVec.xor_right_inj _).mp h
      have tail : word w as = word w bs := by
        rw [← word_shift fits, ← word_shift fits', shifted]
      rw [ih length' (by rw [List.length_cons] at fits; omega) tail]

/-- A change confined to as many bytes as the register is wide always shows. -/
theorem register_window {poly : BitVec w} (top : poly.msb = true) (c : BitVec w)
    {before after as bs : List (BitVec 8)} (length : as.length = bs.length)
    (fits : 8 * as.length ≤ w)
    (h : register poly c (before ++ as ++ after) = register poly c (before ++ bs ++ after)) :
    as = bs := by
  simp only [register_append] at h
  have window := register_injective top after h
  generalize register poly c before = start at window
  rw [register_word poly start fits, register_word poly start (length ▸ fits), ← length] at window
  have words := (shiftByte_injective top).iterate as.length window
  exact word_injective length fits ((BitVec.xor_right_inj _).mp words)

end Crc
