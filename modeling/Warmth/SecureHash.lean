import Mathlib.Data.List.Basic
import Mathlib.Data.Nat.Prime.Basic
import Mathlib.Tactic.Ring

/-! SHA-256 over whole bytes, as FIPS 180-4 defines it. -/

namespace Fips180

/-- Apply `f` to each complete block of `k` entries in turn. -/
def foldBlocks {σ α : Type} (f : σ → List α → σ) (k : Nat) (s : σ) (xs : List α) : σ :=
  (List.range (xs.length / k)).foldl (fun s i => f s ((xs.drop (k * i)).take k)) s

/-- What is left after the complete blocks. -/
def residue {α : Type} (k : Nat) (xs : List α) : List α := xs.drop (k * (xs.length / k))

section Blocks
variable {σ α : Type} {f : σ → List α → σ} {k : Nat} {s : σ} {xs : List α}

theorem foldBlocks_short (h : xs.length < k) : foldBlocks f k s xs = s := by
  rw [foldBlocks, Nat.div_eq_of_lt h]
  rfl

theorem residue_short (h : xs.length < k) : residue k xs = xs := by
  rw [residue, Nat.div_eq_of_lt h]
  rfl

theorem length_cons_block {b : List α} (pos : 0 < k) (h : b.length = k) :
    (b ++ xs).length / k = xs.length / k + 1 := by
  rw [List.length_append, h, Nat.add_comm, Nat.add_div_right _ pos]

theorem foldBlocks_block {b : List α} (pos : 0 < k) (h : b.length = k) :
    foldBlocks f k s (b ++ xs) = foldBlocks f k (f s b) xs := by
  have first : ((b ++ xs).drop (k * 0)).take k = b := by
    rw [Nat.mul_zero, List.drop_zero, List.take_left' h]
  have later : ∀ i, ((b ++ xs).drop (k * (i + 1))).take k = (xs.drop (k * i)).take k := by
    intro i
    rw [Nat.mul_succ, Nat.add_comm, ← List.drop_drop, List.drop_left' h]
  rw [foldBlocks, length_cons_block pos h, List.range_succ_eq_map, List.foldl_cons, first,
    List.foldl_map]
  simp only [later]
  rfl

theorem residue_block {b : List α} (pos : 0 < k) (h : b.length = k) :
    residue k (b ++ xs) = residue k xs := by
  rw [residue, length_cons_block pos h, Nat.mul_succ, Nat.add_comm, ← List.drop_drop,
    List.drop_left' h]
  rfl

/-- Blocks can be cut off the front as they fill up. -/
theorem blocks_append (pos : 0 < k) (s : σ) (xs ys : List α) :
    foldBlocks f k s (xs ++ ys) = foldBlocks f k (foldBlocks f k s xs) (residue k xs ++ ys) ∧
      residue k (xs ++ ys) = residue k (residue k xs ++ ys) := by
  induction hn : xs.length using Nat.strong_induction_on generalizing s xs with
  | _ n ih =>
    by_cases short : xs.length < k
    · rw [foldBlocks_short short, residue_short short]
      exact ⟨rfl, rfl⟩
    · have block : (xs.take k).length = k := List.length_take_of_le (by omega)
      have shorter : (xs.drop k).length < n := by
        rw [List.length_drop]
        omega
      obtain ⟨folded, left⟩ := ih _ shorter (f s (xs.take k)) (xs.drop k) rfl
      rw [← List.take_append_drop k xs, List.append_assoc, foldBlocks_block pos block,
        foldBlocks_block pos block, residue_block pos block, residue_block pos block]
      exact ⟨folded, left⟩

end Blocks

/-- Trial division. -/
def isPrime (n : Nat) : Bool := decide (2 ≤ n) && (List.range n).all fun d => d < 2 || n % d != 0

theorem isPrime_iff {n : Nat} : isPrime n = true ↔ n.Prime := by
  rw [isPrime, Bool.and_eq_true, decide_eq_true_eq, List.all_eq_true, Nat.prime_def_lt']
  refine and_congr_right fun _ => ⟨fun h d two less => ?_, fun h d less => ?_⟩
  · have := h d (List.mem_range.mpr less)
    simp only [Bool.or_eq_true, decide_eq_true_eq, bne_iff_ne] at this
    intro divides
    exact this.elim (by omega) fun rest => rest (Nat.mod_eq_zero_of_dvd divides)
  · simp only [Bool.or_eq_true, decide_eq_true_eq, bne_iff_ne]
    by_cases two : d < 2
    · exact Or.inl two
    · exact Or.inr fun zero => h d (by omega) (List.mem_range.mp less) (Nat.dvd_of_mod_eq_zero zero)

/-- The first sixty-four primes. -/
def primes : List Nat := (List.range 312).filter isPrime

theorem mem_primes {n : Nat} : n ∈ primes ↔ n < 312 ∧ n.Prime := by
  rw [primes, List.mem_filter, List.mem_range, isPrime_iff]

theorem primes_eq : primes = [
    2, 3, 5, 7, 11, 13, 17, 19, 23, 29, 31, 37, 41, 43, 47, 53, 59, 61, 67, 71, 73, 79, 83, 89,
    97, 101, 103, 107, 109, 113, 127, 131, 137, 139, 149, 151, 157, 163, 167, 173, 179, 181,
    191, 193, 197, 199, 211, 223, 227, 229, 233, 239, 241, 251, 257, 263, 269, 271, 277, 281,
    283, 293, 307, 311] := by
  decide +kernel

theorem primes_length : primes.length = 64 := by
  rw [primes_eq]
  rfl

/-- The bits of a root, the highest first; `r` is what has been found. -/
def rootBits (k n : Nat) : Nat → Nat → Nat
  | 0, r => r
  | b + 1, r => if (r + 2 ^ b) ^ k ≤ n then rootBits k n b (r + 2 ^ b) else rootBits k n b r

def root (k n : Nat) : Nat := rootBits k n 40 0

theorem rootBits_spec {k n b r : Nat} (low : r ^ k ≤ n) (high : n < (r + 2 ^ b) ^ k) :
    rootBits k n b r ^ k ≤ n ∧ n < (rootBits k n b r + 1) ^ k := by
  induction b generalizing r with
  | zero => exact ⟨low, high⟩
  | succ b ih =>
    rw [rootBits]
    split
    next fits =>
      refine ih fits ?_
      rwa [Nat.add_assoc, ← Nat.two_mul, ← Nat.pow_succ']
    next exceeds => exact ih low (Nat.lt_of_not_le exceeds)

/-- The integer part of a root that is below `2 ^ 40`. -/
theorem root_spec {k n : Nat} (pos : 0 < k) (h : n < (2 ^ 40) ^ k) :
    root k n ^ k ≤ n ∧ n < (root k n + 1) ^ k :=
  rootBits_spec (by rw [Nat.zero_pow pos]; exact Nat.zero_le n) (by rwa [Nat.zero_add])

/-- The whole part of a root taken to a finer unit is the root's whole part. -/
theorem root_whole {k p r unit : Nat} (pos : 0 < unit) (low : r ^ k ≤ p * unit ^ k)
    (high : p * unit ^ k < (r + 1) ^ k) : (r / unit) ^ k ≤ p ∧ p < (r / unit + 1) ^ k := by
  constructor
  · refine Nat.le_of_mul_le_mul_right (c := unit ^ k) ?_ (Nat.pow_pos pos)
    rw [← Nat.mul_pow]
    exact Nat.le_trans (Nat.pow_le_pow_left (Nat.div_mul_le_self r unit) k) low
  · refine Nat.lt_of_mul_lt_mul_right (a := unit ^ k) ?_
    rw [← Nat.mul_pow]
    refine Nat.lt_of_lt_of_le high (Nat.pow_le_pow_left ?_ k)
    have := Nat.mod_lt r pos
    have := Nat.div_add_mod' r unit
    rw [Nat.add_mul, Nat.one_mul]
    omega

abbrev Word := BitVec 32

/-- The first 32 bits of the fractional part of the `k`-th root of `p`. -/
def fractionBits (k p : Nat) : Word := BitVec.ofNat 32 (root k (p * 2 ^ (32 * k)))

theorem fractionBits_spec {k p : Nat} (pos : 0 < k) (h : p < (2 ^ 8) ^ k) :
    ∃ q, q ^ k ≤ p ∧ p < (q + 1) ^ k ∧
      (q * 2 ^ 32 + (fractionBits k p).toNat) ^ k ≤ p * 2 ^ (32 * k) ∧
      p * 2 ^ (32 * k) < (q * 2 ^ 32 + (fractionBits k p).toNat + 1) ^ k := by
  have scale : 2 ^ (32 * k) = (2 ^ 32) ^ k := Nat.pow_mul 2 32 k
  have room : p * 2 ^ (32 * k) < (2 ^ 40) ^ k := by
    have digits : (2 ^ 40) ^ k = (2 ^ 8) ^ k * (2 ^ 32) ^ k := by
      rw [← Nat.mul_pow, ← Nat.pow_add]
    rw [scale, digits]
    exact Nat.mul_lt_mul_of_pos_right h (Nat.pow_pos (Nat.two_pow_pos 32))
  obtain ⟨low, high⟩ := root_spec pos room
  have digits : root k (p * 2 ^ (32 * k)) / 2 ^ 32 * 2 ^ 32 + (fractionBits k p).toNat =
      root k (p * 2 ^ (32 * k)) := by
    rw [fractionBits, BitVec.toNat_ofNat]
    exact Nat.div_add_mod' _ _
  rw [scale] at low high digits ⊢
  obtain ⟨whole, next⟩ := root_whole (Nat.two_pow_pos 32) low high
  refine ⟨root k (p * (2 ^ 32) ^ k) / 2 ^ 32, whole, next, ?_, ?_⟩
  · rwa [digits]
  · rwa [digits]

def roundConstant (t : Nat) : Word := fractionBits 3 (primes.getD t 0)

def ch (x y z : Word) : Word := (x &&& y) ^^^ (~~~x &&& z)

def maj (x y z : Word) : Word := (x &&& y) ^^^ (x &&& z) ^^^ (y &&& z)

def bigSigma0 (x : Word) : Word := x.rotateRight 2 ^^^ x.rotateRight 13 ^^^ x.rotateRight 22

def bigSigma1 (x : Word) : Word := x.rotateRight 6 ^^^ x.rotateRight 11 ^^^ x.rotateRight 25

def smallSigma0 (x : Word) : Word := x.rotateRight 7 ^^^ x.rotateRight 18 ^^^ (x >>> 3)

def smallSigma1 (x : Word) : Word := x.rotateRight 17 ^^^ x.rotateRight 19 ^^^ (x >>> 10)

/-- The eight working variables, or the eight words of a hash value. -/
structure Work where
  a : Word
  b : Word
  c : Word
  d : Word
  e : Word
  f : Word
  g : Word
  h : Word
deriving DecidableEq

/-- The initial hash value: the square roots of the first eight primes. -/
def initial : Work :=
  let word (i : Nat) := fractionBits 2 (primes.getD i 0)
  ⟨word 0, word 1, word 2, word 3, word 4, word 5, word 6, word 7⟩

/-- The `t`-th 32-bit word of a block. -/
def blockWord (block : List UInt8) (t : Nat) : Word :=
  let byte (i : Nat) := (block.getD (4 * t + i) 0).toNat
  BitVec.ofNat 32 (byte 0 * 2 ^ 24 + byte 1 * 2 ^ 16 + byte 2 * 2 ^ 8 + byte 3)

/-- The message schedule. -/
def schedule (block : List UInt8) (t : Nat) : Word :=
  if t < 16 then blockWord block t
  else smallSigma1 (schedule block (t - 2)) + schedule block (t - 7) +
    smallSigma0 (schedule block (t - 15)) + schedule block (t - 16)
termination_by t

def step (block : List UInt8) (v : Work) (t : Nat) : Work :=
  let t1 := v.h + bigSigma1 v.e + ch v.e v.f v.g + roundConstant t + schedule block t
  let t2 := bigSigma0 v.a + maj v.a v.b v.c
  ⟨t1 + t2, v.a, v.b, v.c, v.d + t1, v.e, v.f, v.g⟩

/-- The hash computation for one block. -/
def compress (value : Work) (block : List UInt8) : Work :=
  let v := (List.range 64).foldl (step block) value
  ⟨v.a + value.a, v.b + value.b, v.c + value.c, v.d + value.d, v.e + value.e, v.f + value.f,
    v.g + value.g, v.h + value.h⟩

/-- How many zero bytes the padding has. -/
def zeroBytes (length : Nat) : Nat := (119 - length % 64) % 64

/-- The least number of zeros that brings the message with its first padding byte to 56 modulo 64. -/
theorem zeroBytes_least (length : Nat) :
    (length + 1 + zeroBytes length) % 64 = 56 ∧
      ∀ z, (length + 1 + z) % 64 = 56 → zeroBytes length ≤ z := by
  unfold zeroBytes
  constructor
  · omega
  · intro z full
    omega

/-- The length in bits, in eight bytes. -/
def lengthBytes (bits : Nat) : List UInt8 :=
  (List.range 8).map fun i => UInt8.ofNat (bits / 2 ^ (56 - 8 * i))

def pad (message : List UInt8) : List UInt8 :=
  message ++ [0x80] ++ List.replicate (zeroBytes message.length) 0 ++
    lengthBytes (8 * message.length)

def wordBytes (w : Word) : List UInt8 :=
  [24, 16, 8, 0].map fun shift => UInt8.ofNat (w.toNat / 2 ^ shift)

def Work.words (v : Work) : List Word := [v.a, v.b, v.c, v.d, v.e, v.f, v.g, v.h]

/-- SHA-256 of a message of fewer than 2^61 bytes. -/
def sha256 (message : List UInt8) : List UInt8 :=
  (foldBlocks compress 64 initial (pad message)).words.flatMap wordBytes

end Fips180
