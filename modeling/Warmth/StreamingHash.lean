import Warmth.Identity
import Warmth.SecureHash

namespace Warmth

open Codec Fips180

namespace Sha256

/-- The hash state has taken in the message: all its complete blocks are compressed, the rest is
in the buffer, and the length is counted. -/
structure Holds (h : Sha256) (message : Bytes) : Prop where
  state : h.state = foldBlocks transform 64 ({} : Sha256).state message
  buf : h.buf = residue 64 message
  total : h.total = UInt64.ofNat message.length

theorem holds_nil : Holds {} [] := ⟨rfl, rfl, rfl⟩

/-- The loop of `update` compresses what fills up and keeps the rest. -/
theorem absorb_spec {fuel : Nat} {p : Bytes} {h : Sha256} (enough : p.length ≤ fuel)
    (short : h.buf.length < 64) :
    absorb fuel p h = { h with
      state := foldBlocks transform 64 h.state (h.buf ++ p)
      buf := residue 64 (h.buf ++ p) } := by
  induction fuel generalizing p h with
  | zero =>
    rw [List.eq_nil_of_length_eq_zero (Nat.le_zero.mp enough), List.append_nil,
      foldBlocks_short short, residue_short short]
    rfl
  | succ fuel ih =>
    rw [absorb]
    cases hp : p.isEmpty with
    | true =>
      rw [List.isEmpty_iff.mp hp, List.append_nil, foldBlocks_short short, residue_short short]
      rfl
    | false =>
      have bytes : 0 < p.length := List.length_pos_iff.mpr (List.isEmpty_eq_false_iff.mp hp)
      simp only [Bool.false_eq_true, if_false]
      generalize hn : min p.length (64 - h.buf.length) = n
      have split : h.buf ++ p = (h.buf ++ p.take n) ++ p.drop n := by
        rw [List.append_assoc, List.take_append_drop]
      have shorter : (p.drop n).length ≤ fuel := by
        rw [List.length_drop]
        omega
      split
      next full =>
        have block := eq_of_beq full
        have emptied : ({ h with state := transform h.state (h.buf ++ p.take n), buf := [] } :
            Sha256).buf.length < 64 := Nat.succ_pos 63
        rw [ih shorter emptied, split, foldBlocks_block (by decide) block,
          residue_block (by decide) block]
        rfl
      next full =>
        have taken := mt beq_iff_eq.mpr full
        have space : ({ h with buf := h.buf ++ p.take n } : Sha256).buf.length < 64 := by
          rw [List.length_append, List.length_take] at taken ⊢
          omega
        rw [ih shorter space, split]

theorem Holds.short {h : Sha256} {message : Bytes} (holds : h.Holds message) :
    h.buf.length < 64 := by
  rw [holds.buf, residue, List.length_drop]
  omega

theorem Holds.update {h : Sha256} {message : Bytes} (holds : h.Holds message) (data : Bytes) :
    (h.update data).Holds (message ++ data) := by
  obtain ⟨folded, left⟩ := blocks_append (f := transform) (k := 64) (by decide)
    ({} : Sha256).state message data
  have counted : ({ h with total := h.total + UInt64.ofNat data.length } : Sha256).buf.length < 64 :=
    holds.short
  rw [Sha256.update, absorb_spec (Nat.le_refl _) counted]
  constructor
  · rw [folded, holds.state, holds.buf]
  · rw [left, holds.buf]
  · simp only [holds.total, List.length_append, UInt64.ofNat_add]

theorem Holds.updates {h : Sha256} {message : Bytes} (holds : h.Holds message)
    (chunks : List Bytes) : (chunks.foldl Sha256.update h).Holds (message ++ chunks.flatten) := by
  induction chunks generalizing h message with
  | nil => simpa using holds
  | cons data chunks ih =>
    rw [List.flatten_cons, ← List.append_assoc]
    exact ih (holds.update data)

theorem Holds.buf_length {h : Sha256} {message : Bytes} (holds : h.Holds message) :
    h.buf.length = message.length % 64 := by
  rw [holds.buf, residue, List.length_drop]
  omega

/-- The padding loop stops after the zeros that bring the buffer to 56 bytes. -/
theorem Holds.padZeros {fuel zeros : Nat} {h : Sha256} {message : Bytes} (holds : h.Holds message)
    (enough : zeros < fuel) (least : zeros = (120 - message.length % 64) % 64) :
    (padZeros fuel h).Holds (message ++ List.replicate zeros 0) ∧
      (Sha256.padZeros fuel h).buf.length = 56 := by
  have length := holds.buf_length
  induction fuel generalizing zeros h message with
  | zero => omega
  | succ fuel ih =>
    rw [Sha256.padZeros]
    split
    next full =>
      have done := eq_of_beq full
      have none : zeros = 0 := by omega
      rw [none, List.replicate_zero, List.append_nil]
      exact ⟨holds, done⟩
    next open' =>
      have more := mt beq_iff_eq.mpr open'
      obtain ⟨rest, rfl⟩ : ∃ rest, zeros = rest + 1 := ⟨zeros - 1, by omega⟩
      have next := holds.update [0]
      have fewer : rest = (120 - (message ++ [0]).length % 64) % 64 := by
        rw [List.length_append, List.length_singleton]
        omega
      have padded := ih next (by omega) fewer next.buf_length
      rwa [List.append_assoc, List.singleton_append, ← List.replicate_succ] at padded

theorem rotr_toBitVec (x : UInt32) {n : Nat} (pos : 0 < n) (less : n < 32) :
    (rotr x (UInt32.ofNat n)).toBitVec = x.toBitVec.rotateRight n := by
  have shift : ∀ m < 32, (UInt32.ofNat m).toBitVec % 32 = BitVec.ofNat 32 m := by
    intro m hm
    apply BitVec.eq_of_toNat_eq
    change m % 2 ^ 32 % 32 = m % 2 ^ 32
    omega
  have left : 32 - UInt32.ofNat n = UInt32.ofNat (32 - n) := by
    apply UInt32.toNat_inj.mp
    rw [UInt32.toNat_sub_of_le]
    · simp; omega
    · rw [UInt32.le_iff_toNat_le]; simp; omega
  rw [rotr, UInt32.toBitVec_or, UInt32.toBitVec_shiftRight, left, UInt32.toBitVec_shiftLeft,
    shift n less, shift _ (by omega)]
  rw [BitVec.rotateRight_def, Nat.mod_eq_of_lt less]
  simp only [BitVec.ushiftRight_eq', BitVec.shiftLeft_eq', BitVec.toNat_ofNat]
  rw [Nat.mod_eq_of_lt (show n < 2^32 by omega), Nat.mod_eq_of_lt (show 32 - n < 2^32 by omega)]

theorem xor3_eq {x y z : UInt32} {a b c : Word} (hx : x.toBitVec = a) (hy : y.toBitVec = b)
    (hz : z.toBitVec = c) : x ^^^ y ^^^ z = .ofBitVec (a ^^^ b ^^^ c) := by
  subst hx hy hz
  rfl

theorem smallSigma0_eq (x : Word) :
    rotr (.ofBitVec x) 7 ^^^ rotr (.ofBitVec x) 18 ^^^ (UInt32.ofBitVec x >>> 3) =
      .ofBitVec (smallSigma0 x) :=
  xor3_eq (rotr_toBitVec _ (n := 7) (by decide) (by decide))
    (rotr_toBitVec _ (n := 18) (by decide) (by decide)) rfl

theorem smallSigma1_eq (x : Word) :
    rotr (.ofBitVec x) 17 ^^^ rotr (.ofBitVec x) 19 ^^^ (UInt32.ofBitVec x >>> 10) =
      .ofBitVec (smallSigma1 x) :=
  xor3_eq (rotr_toBitVec _ (n := 17) (by decide) (by decide))
    (rotr_toBitVec _ (n := 19) (by decide) (by decide)) rfl

theorem bigSigma0_eq (x : Word) :
    rotr (.ofBitVec x) 2 ^^^ rotr (.ofBitVec x) 13 ^^^ rotr (.ofBitVec x) 22 =
      .ofBitVec (bigSigma0 x) :=
  xor3_eq (rotr_toBitVec _ (n := 2) (by decide) (by decide))
    (rotr_toBitVec _ (n := 13) (by decide) (by decide))
    (rotr_toBitVec _ (n := 22) (by decide) (by decide))

theorem bigSigma1_eq (x : Word) :
    rotr (.ofBitVec x) 6 ^^^ rotr (.ofBitVec x) 11 ^^^ rotr (.ofBitVec x) 25 =
      .ofBitVec (bigSigma1 x) :=
  xor3_eq (rotr_toBitVec _ (n := 6) (by decide) (by decide))
    (rotr_toBitVec _ (n := 11) (by decide) (by decide))
    (rotr_toBitVec _ (n := 25) (by decide) (by decide))

theorem take_four {p : Bytes} {k : Nat} (h : k + 4 ≤ p.length) :
    (p.drop k).take 4 = [p.getD k 0, p.getD (k + 1) 0, p.getD (k + 2) 0, p.getD (k + 3) 0] := by
  rw [List.drop_eq_getElem_cons (by omega), List.drop_eq_getElem_cons (by omega),
    List.drop_eq_getElem_cons (by omega), List.drop_eq_getElem_cons (by omega)]
  simp only [List.take_succ_cons, List.take_zero, List.getD_eq_getElem?_getD]
  rw [List.getElem?_eq_getElem (by omega), List.getElem?_eq_getElem (by omega),
    List.getElem?_eq_getElem (by omega), List.getElem?_eq_getElem (by omega)]
  rfl

theorem blockWord_eq {p : Bytes} (length : p.length = 64) {t : Nat} (h : t < 16) :
    UInt32.ofNat (ofBe ((p.drop (t * 4)).take 4)) = .ofBitVec (blockWord p t) := by
  rw [take_four (by omega), Nat.mul_comm t 4]
  have digits : ofBe [p.getD (4 * t) 0, p.getD (4 * t + 1) 0, p.getD (4 * t + 2) 0,
      p.getD (4 * t + 3) 0] = (p.getD (4 * t + 0) 0).toNat * 2 ^ 24 +
        (p.getD (4 * t + 1) 0).toNat * 2 ^ 16 + (p.getD (4 * t + 2) 0).toNat * 2 ^ 8 +
        (p.getD (4 * t + 3) 0).toNat := by
    simp only [ofBe, List.foldl_cons, List.foldl_nil, Nat.add_zero]
    ring
  rw [digits]
  rfl

/-- The body of the schedule's loop. -/
def extend (w : List UInt32) (j : Nat) : List UInt32 :=
  let i := j + 16
  let s0 := rotr (w.getD (i - 15) 0) 7 ^^^ rotr (w.getD (i - 15) 0) 18 ^^^ (w.getD (i - 15) 0 >>> 3)
  let s1 := rotr (w.getD (i - 2) 0) 17 ^^^ rotr (w.getD (i - 2) 0) 19 ^^^ (w.getD (i - 2) 0 >>> 10)
  w ++ [w.getD (i - 16) 0 + s0 + w.getD (i - 7) 0 + s1]

theorem schedule_loop (p : Bytes) :
    schedule p = (List.range 48).foldl extend
      ((List.range 16).map fun i => UInt32.ofNat (ofBe ((p.drop (i * 4)).take 4))) := by
  unfold schedule extend
  rfl

def scheduled (p : Bytes) (n : Nat) : List UInt32 :=
  (List.range n).map fun t => UInt32.ofBitVec (Fips180.schedule p t)

theorem scheduled_getD (p : Bytes) {n t : Nat} (h : t < n) :
    (scheduled p n).getD t 0 = UInt32.ofBitVec (Fips180.schedule p t) := by
  rw [scheduled, List.getD_eq_getElem?_getD, List.getElem?_map, List.getElem?_range h]
  rfl

theorem extend_scheduled (p : Bytes) (n : Nat) :
    extend (scheduled p (n + 16)) n = scheduled p (n + 16 + 1) := by
  have new : Fips180.schedule p (n + 16) = smallSigma1 (Fips180.schedule p (n + 16 - 2)) +
      Fips180.schedule p (n + 16 - 7) + smallSigma0 (Fips180.schedule p (n + 16 - 15)) +
      Fips180.schedule p (n + 16 - 16) := by
    rw [Fips180.schedule, if_neg (by omega)]
  have sum : Fips180.schedule p (n + 16) = Fips180.schedule p (n + 16 - 16) +
      smallSigma0 (Fips180.schedule p (n + 16 - 15)) + Fips180.schedule p (n + 16 - 7) +
      smallSigma1 (Fips180.schedule p (n + 16 - 2)) := by
    rw [new]
    ac_rfl
  have grown : scheduled p (n + 16 + 1) =
      scheduled p (n + 16) ++ [UInt32.ofBitVec (Fips180.schedule p (n + 16))] := by
    rw [scheduled, List.range_succ, List.map_append]
    rfl
  simp only [extend, scheduled_getD p (show n + 16 - 15 < n + 16 by omega),
    scheduled_getD p (show n + 16 - 2 < n + 16 by omega),
    scheduled_getD p (show n + 16 - 16 < n + 16 by omega),
    scheduled_getD p (show n + 16 - 7 < n + 16 by omega), smallSigma0_eq, smallSigma1_eq]
  rw [grown, sum]
  rfl

/-- The schedule that the code builds up is the standard's, word for word. -/
theorem schedule_eq {p : Bytes} (length : p.length = 64) : schedule p = scheduled p 64 := by
  have first : ((List.range 16).map fun i => UInt32.ofNat (ofBe ((p.drop (i * 4)).take 4))) =
      scheduled p 16 := by
    refine List.map_congr_left fun t ht => ?_
    have small := List.mem_range.mp ht
    rw [blockWord_eq length small, Fips180.schedule, if_pos small]
  have extended : ∀ n, (List.range n).foldl extend (scheduled p 16) = scheduled p (n + 16) := by
    intro n
    induction n with
    | zero => rfl
    | succ n ih =>
      rw [List.range_succ, List.foldl_append, ih, List.foldl_cons, List.foldl_nil, extend_scheduled]
  rw [schedule_loop, first, extended]

/-- The words of a hash value, as the code keeps them. -/
def stored (v : Work) : List UInt32 := v.words.map UInt32.ofBitVec

theorem round_eq (p : Bytes) (v : Work) (t : Nat) :
    round (stored v) (.ofBitVec (roundConstant t)) (.ofBitVec (Fips180.schedule p t)) =
      stored (step p v t) := by
  simp only [stored, Work.words, List.map_cons, List.map_nil, round, bigSigma0_eq, bigSigma1_eq]
  rfl

theorem roundConstants_eq :
    roundConstants = (List.range 64).map fun t => UInt32.ofBitVec (roundConstant t) := by
  unfold roundConstant
  rw [primes_eq]
  decide +kernel

/-- Every round constant of the code is a prime's cube root, to 32 bits after the point. -/
theorem roundConstants_bits {t : Nat} (h : t < 64) :
    (primes.getD t 0).Prime ∧ ∃ q, q ^ 3 ≤ primes.getD t 0 ∧ primes.getD t 0 < (q + 1) ^ 3 ∧
      (q * 2 ^ 32 + (roundConstants.getD t 0).toNat) ^ 3 ≤ primes.getD t 0 * 2 ^ 96 ∧
      primes.getD t 0 * 2 ^ 96 < (q * 2 ^ 32 + (roundConstants.getD t 0).toNat + 1) ^ 3 := by
  have mem : primes.getD t 0 ∈ primes := by
    rw [List.getD_eq_getElem?_getD, List.getElem?_eq_getElem (primes_length ▸ h)]
    exact List.getElem_mem _
  obtain ⟨small, prime⟩ := mem_primes.mp mem
  have constant : (roundConstants.getD t 0).toNat = (roundConstant t).toNat := by
    rw [roundConstants_eq, List.getD_eq_getElem?_getD, List.getElem?_map, List.getElem?_range h]
    rfl
  rw [constant]
  exact ⟨prime, fractionBits_spec (by decide) (Nat.lt_trans small (by decide))⟩

theorem initial_eq : ({} : Sha256).state = stored initial := by
  unfold initial
  rw [primes_eq]
  decide +kernel

theorem transform_eq {p : Bytes} (length : p.length = 64) (value : Work) :
    transform (stored value) p = stored (compress value p) := by
  have pairs : roundConstants.zip (schedule p) = (List.range 64).map fun t =>
      (UInt32.ofBitVec (roundConstant t), UInt32.ofBitVec (Fips180.schedule p t)) := by
    rw [roundConstants_eq, schedule_eq length, scheduled, List.zip_map']
  have rounds : ∀ ts : List Nat, ∀ v : Work, (ts.map fun t =>
      (UInt32.ofBitVec (roundConstant t), UInt32.ofBitVec (Fips180.schedule p t))).foldl
        (fun v kw => round v kw.1 kw.2) (stored v) = stored (ts.foldl (step p) v) := by
    intro ts
    induction ts with
    | nil => exact fun _ => rfl
    | cons t ts ih =>
      intro v
      rw [List.map_cons, List.foldl_cons, round_eq, ih, List.foldl_cons]
  rw [transform, pairs, rounds]
  simp only [compress, stored, Work.words, List.map_cons, List.map_nil, List.zipWith_cons_cons,
    List.zipWith_nil_left, UInt32.ofBitVec_add]
  simp only [UInt32.add_comm]

theorem foldBlocks_stored (value : Work) (message : Bytes) :
    foldBlocks transform 64 (stored value) message = stored (foldBlocks compress 64 value message) := by
  induction hn : message.length using Nat.strong_induction_on generalizing value message with
  | _ n ih =>
    by_cases short : message.length < 64
    · rw [foldBlocks_short short, foldBlocks_short short]
    · have block : (message.take 64).length = 64 := List.length_take_of_le (by omega)
      have shorter : (message.drop 64).length < n := by
        rw [List.length_drop]
        omega
      rw [← List.take_append_drop 64 message, foldBlocks_block (by decide) block,
        foldBlocks_block (by decide) block, transform_eq block, ih _ shorter _ _ rfl]

theorem flatMap_stored (v : Work) :
    ((stored v).flatMap fun word => beBytes 4 word.toNat) = v.words.flatMap wordBytes := by
  have bytes : ∀ w : Word, beBytes 4 (UInt32.ofBitVec w).toNat = wordBytes w := fun w => rfl
  rw [stored, List.flatMap_map]
  simp only [bytes]

theorem Holds.unique {h h' : Sha256} {message : Bytes} (holds : h.Holds message)
    (holds' : h'.Holds message) : h = h' := by
  obtain ⟨state, buf, total⟩ := holds
  obtain ⟨state', buf', total'⟩ := holds'
  cases h
  cases h'
  simp only [Sha256.mk.injEq]
  exact ⟨state.trans state'.symm, total.trans total'.symm, buf.trans buf'.symm⟩

/-- What the padding loop leaves. -/
theorem Holds.padded {h : Sha256} {message : Bytes} (holds : h.Holds message) :
    (Sha256.padZeros 64 (h.update [0x80])).Holds
        (message ++ [0x80] ++ List.replicate (zeroBytes message.length) 0) ∧
      (Sha256.padZeros 64 (h.update [0x80])).buf.length = 56 := by
  have zeros : zeroBytes message.length < 64 := Nat.mod_lt _ (by decide)
  refine (holds.update [0x80]).padZeros zeros ?_
  rw [List.length_append, List.length_singleton, zeroBytes]
  omega

/-- The digest of what the state has taken in. -/
theorem Holds.finish {h : Sha256} {message : Bytes} (holds : h.Holds message)
    (short : message.length < 2 ^ 61) : h.finish = sha256 message := by
  have bits : (h.total * 8).toNat = 8 * message.length := by
    rw [holds.total, UInt64.toNat_mul, UInt64.toNat_ofNat_of_lt' (Nat.lt_trans short (by decide))]
    change message.length * 8 % 2 ^ 64 = _
    omega
  have length : beBytes 8 (h.total * 8).toNat = lengthBytes (8 * message.length) := by
    rw [bits]
    rfl
  have last := holds.padded.1.update (beBytes 8 (h.total * 8).toNat)
  rw [Sha256.finish, last.state, initial_eq, length, foldBlocks_stored, flatMap_stored]
  rfl

end Sha256

open Sha256

/-- However a message is cut into updates, the digest is the standard's, the padding loop ends at
56 bytes, and the derived id is the same. -/
theorem streaming_sha256 (chunks : List Bytes) :
    let h := chunks.foldl Sha256.update {}
    (chunks.flatten.length < 2 ^ 61 → h.finish = sha256 chunks.flatten) ∧
      (padZeros 64 (h.update [0x80])).buf.length = 56 ∧
      Id128.fromBytes (h.finish.take 16) = Id128.derive chunks.flatten := by
  have holds : (chunks.foldl Sha256.update {}).Holds chunks.flatten := holds_nil.updates chunks
  have whole : (({} : Sha256).update chunks.flatten).Holds chunks.flatten :=
    holds_nil.update chunks.flatten
  refine ⟨holds.finish, holds.padded.2, ?_⟩
  rw [holds.unique whole]
  rfl

theorem streaming_sha256_pieces :
    ([[97], [], [98, 99]].foldl Sha256.update {}).finish = sha256 [97, 98, 99] :=
  (streaming_sha256 [[97], [], [98, 99]]).1 (by decide)

end Warmth
