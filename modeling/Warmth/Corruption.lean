import Warmth.CyclicRedundancy
import Warmth.SnapshotAccepted

namespace Warmth

open Codec

/-- The polynomial of CRC-32, least significant bit first. -/
def crcPolynomial : BitVec 32 := 0xEDB88320#32

theorem crcPolynomial_msb : crcPolynomial.msb = true := by decide

theorem low_bit (c : UInt32) : ((c &&& 1) != 0) = c.toBitVec.getLsbD 0 := by
  have masked : (c &&& 1).toBitVec = (BitVec.ofBool (c.toBitVec.getLsbD 0)).setWidth 32 :=
    BitVec.and_one_eq_setWidth_ofBool_getLsbD
  cases bit : c.toBitVec.getLsbD 0 with
  | false =>
    rw [bit] at masked
    have zero : c &&& 1 = 0 := UInt32.eq_of_toBitVec_eq masked
    rw [zero]
    rfl
  | true =>
    rw [bit] at masked
    have one : c &&& 1 = 1 := UInt32.eq_of_toBitVec_eq masked
    rw [one]
    rfl

theorem crcTable_toBitVec (i : UInt32) :
    (crcTable i).toBitVec = Crc.shiftByte crcPolynomial i.toBitVec := by
  have step : Function.Semiconj UInt32.toBitVec
      (fun c : UInt32 => if (c &&& 1) != 0 then (0xEDB88320 : UInt32) ^^^ (c >>> 1) else c >>> 1)
      (Crc.shift crcPolynomial) := by
    intro c
    simp only [low_bit, Crc.shift]
    split
    · rfl
    · rfl
  rw [crcTable, List.foldl_const]
  exact (step.iterate_right 8) i

/-- The table lookup is eight single shifts of the register with the byte added to it. -/
theorem crcStep_toBitVec (c : UInt32) (p : UInt8) :
    (crcTable ((c ^^^ p.toUInt32) &&& 0xFF) ^^^ (c >>> 8)).toBitVec =
      Crc.feed crcPolynomial c.toBitVec p.toBitVec := by
  have high : (c.toBitVec ^^^ p.toBitVec.setWidth 32) >>> 8 = c.toBitVec >>> 8 := by
    rw [BitVec.ushiftRight_xor_distrib]
    have none : p.toBitVec.setWidth 32 >>> 8 = 0#32 := by
      apply BitVec.eq_of_getLsbD_eq
      intro i _
      simp
    rw [none, BitVec.xor_zero]
  rw [Crc.feed, Crc.shiftByte_split, high, UInt32.toBitVec_xor, crcTable_toBitVec]
  rfl

def crcRegister (data : Bytes) : BitVec 32 :=
  Crc.register crcPolynomial (0xFFFFFFFF : UInt32).toBitVec (data.map UInt8.toBitVec)

theorem crc32_toBitVec (data : Bytes) :
    (crc32 data).toBitVec = crcRegister data ^^^ (0xFFFFFFFF : UInt32).toBitVec := by
  have run (c : UInt32) :
      (data.foldl (fun c p => crcTable ((c ^^^ p.toUInt32) &&& 0xFF) ^^^ (c >>> 8)) c).toBitVec =
        Crc.register crcPolynomial c.toBitVec (data.map UInt8.toBitVec) := by
    induction data generalizing c with
    | nil => rfl
    | cons p data ih =>
      rw [List.foldl_cons, ih, crcStep_toBitVec]
      rfl
  rw [crc32, UInt32.toBitVec_xor, run]
  rfl

/-- A checksum tells apart contents that differ in at most four consecutive bytes. -/
theorem crc32_window {before after as bs : Bytes} (length : as.length = bs.length)
    (short : as.length ≤ 4) (h : crc32 (before ++ as ++ after) = crc32 (before ++ bs ++ after)) :
    as = bs := by
  have registers : crcRegister (before ++ as ++ after) = crcRegister (before ++ bs ++ after) := by
    have := congrArg UInt32.toBitVec h
    rw [crc32_toBitVec, crc32_toBitVec] at this
    exact (BitVec.xor_left_inj _).mp this
  simp only [crcRegister, List.map_append] at registers
  have lengths : (as.map UInt8.toBitVec).length = (bs.map UInt8.toBitVec).length := by
    simpa using length
  have fits : 8 * (as.map UInt8.toBitVec).length ≤ 32 := by
    rw [List.length_map]
    omega
  have same := Crc.register_window crcPolynomial_msb _ lengths fits registers
  exact List.map_injective_iff.mpr (fun _ _ => UInt8.eq_of_toBitVec_eq) same

/-! What a changed snapshot file can no longer be. -/

def snapshotHeader (payload : Bytes) : Bytes :=
  u32 kMagic ++ (u32 kVersion ++ (u32 payload.length ++ u32 (crc32 payload).toNat))

theorem withHeader_eq (payload : Bytes) : withHeader payload = snapshotHeader payload ++ payload := by
  simp only [withHeader, snapshotHeader, List.append_assoc]

theorem snapshotHeader_length (payload : Bytes) : (snapshotHeader payload).length = 16 := by
  simp [snapshotHeader]

theorem getElem?_withHeader {payload : Bytes} {i : Nat} (h : i < 16) :
    (withHeader payload)[i]? = (snapshotHeader payload)[i]? := by
  rw [withHeader_eq, List.getElem?_append_left (by rw [snapshotHeader_length]; exact h)]

theorem getElem?_withHeader_payload (payload : Bytes) (i : Nat) :
    (withHeader payload)[16 + i]? = payload[i]? := by
  rw [withHeader_eq, List.getElem?_append_right (by rw [snapshotHeader_length]; omega),
    snapshotHeader_length, Nat.add_sub_cancel_left]

/-- A header tells the length and the checksum of its payload. -/
theorem snapshotHeader_inj {p q : Bytes} (hp : p.length < 2 ^ 32) (hq : q.length < 2 ^ 32)
    (h : snapshotHeader p = snapshotHeader q) : p.length = q.length ∧ crc32 p = crc32 q := by
  have read {r : Bytes} (hr : r.length < 2 ^ 32) : readHeader (snapshotHeader r) =
      .ok ((r.length, (crc32 r).toNat), []) := by
    have := reads_header r.length (crc32 r).toNat_lt []
    rwa [List.append_nil, Nat.mod_eq_of_lt hr] at this
  have same := read hp
  rw [h, read hq] at same
  simp only [Except.ok.injEq, Prod.mk.injEq, and_true] at same
  exact ⟨same.1.symm, (UInt32.toNat_inj.mp same.2).symm⟩

/-- Ways in which a file can differ from the bytes that were written to it. -/
inductive Corrupts (bytes : Bytes) : Bytes → Prop
  | cut {changed : Bytes} (ne : changed ≠ bytes) (shorter : changed <+: bytes) :
      Corrupts bytes changed
  | extended {changed : Bytes} (ne : changed ≠ bytes) (longer : bytes <+: changed) :
      Corrupts bytes changed
  | header {changed : Bytes} (ne : changed ≠ bytes) (length : changed.length = bytes.length)
      (only : ∀ i : Nat, changed[i]? ≠ bytes[i]? → i < 16) : Corrupts bytes changed
  | window {changed : Bytes} (ne : changed ≠ bytes) (length : changed.length = bytes.length)
      (start : Nat) (payload : 16 ≤ start)
      (only : ∀ i : Nat, changed[i]? ≠ bytes[i]? → start ≤ i ∧ i < start + 4) :
      Corrupts bytes changed

theorem payload_eq_of_header {p q : Bytes}
    (only : ∀ i : Nat, (withHeader q)[i]? ≠ (withHeader p)[i]? → i < 16) : q = p := by
  apply List.ext_getElem?
  intro i
  by_contra differs
  have outside := only (16 + i)
  rw [getElem?_withHeader_payload, getElem?_withHeader_payload] at outside
  have := outside differs
  omega

/-- Contents that agree outside a window are put together from the same parts around it. -/
theorem parts_of_window {p q : Bytes} {k : Nat}
    (only : ∀ i : Nat, q[i]? ≠ p[i]? → k ≤ i ∧ i < k + 4) :
    q = p.take k ++ (q.drop k).take 4 ++ p.drop (k + 4) := by
  have before : q.take k = p.take k := by
    apply List.ext_getElem?
    intro i
    rw [List.getElem?_take, List.getElem?_take]
    split
    next hi => exact by_contra fun differs => absurd (only i differs).1 (by omega)
    next => rfl
  have after : q.drop (k + 4) = p.drop (k + 4) := by
    apply List.ext_getElem?
    intro i
    rw [List.getElem?_drop, List.getElem?_drop]
    exact by_contra fun differs => absurd (only _ differs).2 (by omega)
  rw [← before, ← after, List.append_assoc, ← List.drop_drop, List.take_append_drop,
    List.take_append_drop]

theorem payload_eq_of_window {p q : Bytes} {k : Nat} (length : q.length = p.length)
    (only : ∀ i : Nat, q[i]? ≠ p[i]? → k ≤ i ∧ i < k + 4) (checksum : crc32 q = crc32 p) :
    q = p := by
  have hq := parts_of_window only
  have hp := parts_of_window (p := p) (q := p) (k := k) fun i differs => absurd rfl differs
  have sums : crc32 (p.take k ++ (q.drop k).take 4 ++ p.drop (k + 4)) =
      crc32 (p.take k ++ (p.drop k).take 4 ++ p.drop (k + 4)) := by
    rw [← hq, ← hp, checksum]
  have windows := crc32_window (by simp [length]) (List.length_take_le 4 _) sums
  rw [hq, windows]
  exact hp.symm

theorem encodeSnapshot_ok {s : Snapshot} {bytes : Bytes} (h : encodeSnapshot s = .ok bytes) :
    ∃ payload, snapshotPayload s = .ok payload ∧ bytes = withHeader payload := by
  unfold encodeSnapshot at h
  cases hp : snapshotPayload s with
  | error e => rw [hp] at h; cases h
  | ok payload =>
    rw [hp] at h
    cases h
    exact ⟨payload, rfl, rfl⟩

/-- Of two encodings one of which starts like the other, neither is the longer one. -/
theorem withHeader_eq_of_starts {p q : Bytes} (hp : p.length < 2 ^ 32) (hq : q.length < 2 ^ 32)
    (h : withHeader q <+: withHeader p) : withHeader q = withHeader p := by
  obtain ⟨rest, hr⟩ := h
  have headers : snapshotHeader q = snapshotHeader p := by
    have := congrArg (List.take 16) hr
    rwa [withHeader_eq, withHeader_eq, List.append_assoc,
      List.take_left' (snapshotHeader_length q), List.take_left' (snapshotHeader_length p)] at this
  have lengths := (snapshotHeader_inj hq hp headers).1
  refine List.IsPrefix.eq_of_length ⟨rest, hr⟩ ?_
  rw [withHeader_length, withHeader_length, lengths]

theorem Corrupts.not_withHeader {p q : Bytes} (hp : p.length < 2 ^ 32) (hq : q.length < 2 ^ 32)
    (c : Corrupts (withHeader p) (withHeader q)) : False := by
  cases c with
  | cut ne shorter => exact ne (withHeader_eq_of_starts hp hq shorter)
  | extended ne longer => exact ne (withHeader_eq_of_starts hq hp longer).symm
  | header ne _ only => exact ne (by rw [payload_eq_of_header only])
  | window ne length start payload only =>
    have lengths : q.length = p.length := by
      rw [withHeader_length, withHeader_length] at length
      omega
    have headers : snapshotHeader q = snapshotHeader p := by
      apply List.ext_getElem?
      intro i
      by_cases hi : i < 16
      · have same : (withHeader q)[i]? = (withHeader p)[i]? :=
          by_contra fun differs => absurd (only i differs).1 (by omega)
        rwa [getElem?_withHeader hi, getElem?_withHeader hi] at same
      · rw [List.getElem?_eq_none (by rw [snapshotHeader_length]; omega),
          List.getElem?_eq_none (by rw [snapshotHeader_length]; omega)]
    have checksums := (snapshotHeader_inj hq hp headers).2
    refine ne (congrArg withHeader (payload_eq_of_window lengths (k := start - 16) ?_ checksums))
    intro i differs
    have bounds := only (16 + i)
    rw [getElem?_withHeader_payload, getElem?_withHeader_payload] at bounds
    have := bounds differs
    omega

/-- A snapshot file that was cut, extended, or changed in its header or in up to four consecutive
bytes of its payload is rejected. -/
theorem corruption_detected {s : Snapshot} {bytes changed : Bytes}
    (encoded : encodeSnapshot s = .ok bytes)
    (size : ∀ payload, snapshotPayload s = .ok payload → payload.length < 2 ^ 32)
    (corrupts : Corrupts bytes changed) : ∃ e, decodeSnapshot changed = .error e := by
  obtain ⟨p, hp, rfl⟩ := encodeSnapshot_ok encoded
  cases h : decodeSnapshot changed with
  | error e => exact ⟨e, rfl⟩
  | ok t =>
    obtain ⟨q, hq, rfl, _⟩ := decodeSnapshot_ok.mp h
    exact (corrupts.not_withHeader (size p hp) hq).elim

theorem corrupts_modify {bytes : Bytes} {start : Nat} (payload : 16 ≤ start)
    (inside : start < bytes.length) :
    Corrupts bytes ((bytes.modify start (· + 1)).modify (start + 3) (· + 1)) := by
  refine .window (fun same => ?_) (by simp) start payload fun i differs => ?_
  · have here := congrArg (fun bs => bs[start]?) same
    simp [List.getElem?_eq_getElem inside] at here
  · by_contra outside
    have first : start ≠ i := by omega
    have last : start + 3 ≠ i := by omega
    exact differs (by simp [first, last])

/-- Two bytes of the payload have changed, three apart. -/
theorem corruption_detected_plain :
    ∃ bytes, encodeSnapshot plainSnapshot = .ok bytes ∧
      ∃ e, decodeSnapshot ((bytes.modify 40 (· + 1)).modify 43 (· + 1)) = .error e := by
  have encoded := encodeSnapshot_eq (s := plainSnapshot) (WarmthPolicy.defaults_finite ⟨1⟩)
    plainSnapshot_numeric
  have inside : 40 < (withHeader (snapshotFields plainSnapshot).flatten).length := by
    rw [withHeader_length, snapshotFields_length]
    decide
  have corrupts := corrupts_modify (by decide) inside
  exact ⟨_, encoded, corruption_detected encoded plainSnapshot_size corrupts⟩

end Warmth
