import Warmth.Corruption
import Warmth.Frames

namespace Warmth

open Codec

/-- The bytes of a frame up to its length: magic, version, flags and type. -/
def frameStart (type : MessageType) (flags : UInt8) : Bytes :=
  u32 kFrameMagic ++ [kFrameVersion, flags] ++ beBytes 2 type.value

theorem frameStart_length (type : MessageType) (flags : UInt8) :
    (frameStart type flags).length = 8 := by
  simp [frameStart]

theorem frameBytes_eq (f : Frame) : frameBytes f =
    frameStart f.type f.flags ++
      (u32 f.payload.length ++ (f.payload ++ u32 (crc32 f.payload).toNat)) := by
  simp only [frameBytes, frameHeader, frameStart, List.append_assoc]

theorem frameBytes_length (f : Frame) : (frameBytes f).length = 16 + f.payload.length := by
  rw [frameBytes_eq]
  simp only [List.length_append, frameStart_length, u32_length]
  omega

/-- Ways in which the bytes of one frame can be changed on their way. -/
inductive Damages (f : Frame) (bad : Bytes) : Prop
  | start (length : bad.length = (frameBytes f).length)
      (only : ∀ i : Nat, bad[i]? ≠ (frameBytes f)[i]? → i < 8)
  | window (length : bad.length = (frameBytes f).length) (k : Nat)
      (only : ∀ i : Nat, bad[i]? ≠ (frameBytes f)[i]? →
        12 + k ≤ i ∧ i < 12 + k + 4 ∧ i < 12 + f.payload.length)
  | checksum (length : bad.length = (frameBytes f).length)
      (only : ∀ i : Nat, bad[i]? ≠ (frameBytes f)[i]? → 12 + f.payload.length ≤ i)

theorem getElem?_frameBytes_length (f : Frame) {i : Nat} (hi : i < 4) :
    (frameBytes f)[8 + i]? = (u32 f.payload.length)[i]? := by
  rw [frameBytes_eq, List.getElem?_append_right (by rw [frameStart_length]; omega),
    frameStart_length, Nat.add_sub_cancel_left, List.getElem?_append_left (by rw [u32_length]; exact hi)]

theorem getElem?_frameBytes_payload (f : Frame) {i : Nat} (hi : i < f.payload.length) :
    (frameBytes f)[12 + i]? = f.payload[i]? := by
  rw [frameBytes, List.getElem?_append_right (by rw [frameHeader_length]; omega), frameHeader_length,
    Nat.add_sub_cancel_left, List.getElem?_append_left hi]

theorem getElem?_frameBytes_checksum (f : Frame) (i : Nat) :
    (frameBytes f)[12 + f.payload.length + i]? = (u32 (crc32 f.payload).toNat)[i]? := by
  rw [frameBytes, List.getElem?_append_right (by rw [frameHeader_length]; omega), frameHeader_length,
    List.getElem?_append_right (by omega)]
  congr 1
  omega

theorem payload_length_lt {f : Frame} (fits : f.payload.length ≤ kMaxPayload) :
    f.payload.length < 256 ^ 4 := by
  unfold kMaxPayload at fits
  omega

section
variable {f g : Frame} {bad : Bytes}

theorem Damages.length (damaged : Damages f bad) : bad.length = (frameBytes f).length := by
  cases damaged with
  | start length | window length | checksum length => exact length

/-- The damage leaves the length of the payload as it was. -/
theorem Damages.keeps_length (damaged : Damages f bad) {i : Nat} (hi : i < 4) :
    bad[8 + i]? = (u32 f.payload.length)[i]? := by
  rw [← getElem?_frameBytes_length f hi]
  by_contra differs
  cases damaged with
  | start length only =>
    have := only _ differs
    omega
  | window length k only =>
    have := only _ differs
    omega
  | checksum length only =>
    have := only _ differs
    omega

theorem Damages.payload_length (damaged : Damages f bad) (hf : f.payload.length ≤ kMaxPayload)
    (hg : g.payload.length ≤ kMaxPayload) (starts : ∀ i < 12, (frameBytes g)[i]? = bad[i]?) :
    g.payload.length = f.payload.length := by
  have same : u32 g.payload.length = u32 f.payload.length := by
    apply List.ext_getElem?
    intro i
    by_cases hi : i < 4
    · rw [← getElem?_frameBytes_length g hi, starts _ (by omega), damaged.keeps_length hi]
    · rw [List.getElem?_eq_none (by rw [u32_length]; omega),
        List.getElem?_eq_none (by rw [u32_length]; omega)]
  have back := congrArg ofBe same
  rwa [u32, u32, ofBe_beBytes (payload_length_lt hg), ofBe_beBytes (payload_length_lt hf)] at back

/-- A frame that the damaged bytes still spell has the payload of the original. -/
theorem Damages.keeps_payload (damaged : Damages f (frameBytes g))
    (lengths : g.payload.length = f.payload.length) : g.payload = f.payload := by
  have agree {i : Nat} (same : (frameBytes g)[12 + i]? = (frameBytes f)[12 + i]?) :
      g.payload[i]? = f.payload[i]? := by
    by_cases hi : i < f.payload.length
    · rwa [getElem?_frameBytes_payload g (by omega), getElem?_frameBytes_payload f hi] at same
    · rw [List.getElem?_eq_none (by omega), List.getElem?_eq_none (by omega)]
  cases damaged with
  | start length only =>
    apply List.ext_getElem?
    intro i
    refine agree (by_contra fun differs => ?_)
    have := only _ differs
    omega
  | checksum length only =>
    apply List.ext_getElem?
    intro i
    by_cases hi : i < f.payload.length
    · refine agree (by_contra fun differs => ?_)
      have := only _ differs
      omega
    · rw [List.getElem?_eq_none (by omega), List.getElem?_eq_none (by omega)]
  | window length k only =>
    have checksums : u32 (crc32 g.payload).toNat = u32 (crc32 f.payload).toNat := by
      apply List.ext_getElem?
      intro i
      rw [← getElem?_frameBytes_checksum, ← getElem?_frameBytes_checksum, lengths]
      by_contra differs
      have := only _ differs
      omega
    have sums := congrArg ofBe checksums
    rw [u32, u32, ofBe_beBytes (crc32 g.payload).toNat_lt, ofBe_beBytes (crc32 f.payload).toNat_lt] at sums
    refine payload_eq_of_window lengths (k := k) (fun i differs => ?_) (UInt32.toNat_inj.mp sums)
    have inside := only (12 + i) fun same => differs (agree same)
    omega

end

namespace FrameReader

theorem readAll_valid {n : Nat} {c c' : TcpConnection} {fs : List Frame} (valid : c.valid = true)
    (h : readAll n c = (fs, c')) (all : fs.length = n) : c'.valid = true := by
  induction n generalizing c fs with
  | zero =>
    cases h
    exact valid
  | succ n ih =>
    rw [readAll] at h
    cases hr : read c with
    | mk result c₁ =>
      cases result with
      | none =>
        rw [hr] at h
        cases h
        cases all
      | some f =>
        rw [hr] at h
        cases h
        exact ih (read_some hr).2.2.2 rfl (Nat.succ.inj all)

/-- Damage to one frame is noticed, and ends the reading behind the frames before it, unless the
damaged bytes are those of the same payload with other flags or another type; then that frame is
read. -/
theorem damage_noticed_iff {fs : List Frame} {g : Frame} {bad rest : Bytes} {c : TcpConnection}
    (size : ∀ f ∈ fs, f.payload.length ≤ kMaxPayload) (fits : g.payload.length ≤ kMaxPayload)
    (damaged : Damages g bad) (valid : c.valid = true)
    (arrives : c.pending = fs.flatMap frameBytes ++ (bad ++ rest)) :
    (Delivers c fs ↔ ∀ type flags, bad ≠ frameBytes { g with type, flags }) ∧
      ∀ type flags, bad = frameBytes { g with type, flags } →
        ∃ c', readAll (fs.length + 1) c = (fs ++ [{ g with type, flags }], c') ∧ c'.pending = rest := by
  obtain ⟨c₁, hr, pending⟩ := readAll_frames size valid arrives
  have valid₁ := readAll_valid valid hr rfl
  refine ⟨⟨?_, ?_⟩, ?_⟩
  · rintro ⟨c₂, hr₂, stops⟩ type flags rfl
    rw [hr] at hr₂
    cases hr₂
    obtain ⟨c₃, again, -⟩ := read_frame (f := { g with type, flags }) fits valid₁ pending
    rw [again] at stops
    cases stops
  · intro unspelt
    refine ⟨c₁, hr, ?_⟩
    cases h : read c₁ with
    | mk result c₂ =>
      cases result with
      | none => rfl
      | some f =>
        obtain ⟨hf, taken, -⟩ := read_some h
        rw [pending] at taken
        have starts (i : Nat) (hi : i < 12) : (frameBytes f)[i]? = bad[i]? := by
          have same := congrArg (fun bs : Bytes => bs[i]?) taken
          have long := damaged.length
          rw [frameBytes_length] at long
          rw [List.getElem?_append_left (by omega),
            List.getElem?_append_left (by rw [frameBytes_length]; omega)] at same
          exact same.symm
        have lengths := damaged.payload_length fits hf starts
        have whole : bad = frameBytes f := by
          refine (List.append_inj taken ?_).1
          rw [damaged.length, frameBytes_length, frameBytes_length, lengths]
        subst whole
        have payload := damaged.keeps_payload lengths
        exact absurd (congrArg frameBytes (by rw [← payload])) (unspelt f.type f.flags)
  · rintro type flags rfl
    have all : ∀ f ∈ fs ++ [{ g with type, flags }], f.payload.length ≤ kMaxPayload := by
      intro f mem
      rcases List.mem_append.mp mem with old | new
      · exact size f old
      · cases List.mem_singleton.mp new
        exact fits
    have frames : c.pending = (fs ++ [{ g with type, flags }]).flatMap frameBytes ++ rest := by
      rw [arrives, List.flatMap_append, List.flatMap_singleton, List.append_assoc]
    obtain ⟨c', read, left⟩ := readAll_frames all valid frames
    rw [List.length_append] at read
    exact ⟨c', read, left⟩

theorem damage_noticed_one_byte :
    Delivers { arriving := [⟨(frameBytes ⟨.ping, 0, [7, 8]⟩).set 13 9, by decide⟩] } [] := by
  have damaged : Damages ⟨.ping, 0, [7, 8]⟩ ((frameBytes ⟨.ping, 0, [7, 8]⟩).set 13 9) := by
    refine .window (by decide) 0 fun i differs => ?_
    rw [List.getElem?_set] at differs
    split at differs
    · subst i
      decide
    · exact absurd rfl differs
  have nothing : ∀ f ∈ ([] : List Frame), f.payload.length ≤ kMaxPayload := by
    intro f mem
    cases mem
  have arrives : TcpConnection.pending
      { arriving := [⟨(frameBytes ⟨.ping, 0, [7, 8]⟩).set 13 9, by decide⟩] } =
        [].flatMap frameBytes ++ ((frameBytes ⟨.ping, 0, [7, 8]⟩).set 13 9 ++ []) := rfl
  refine (damage_noticed_iff nothing (by decide) damaged rfl arrives).1.mpr ?_
  intro type flags same
  have byte := congrArg (fun bs : Bytes => bs[13]?) same
  simp [frameBytes, frameHeader, u32, beBytes] at byte

end FrameReader

end Warmth
