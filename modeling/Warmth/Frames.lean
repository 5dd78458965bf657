import Warmth.Acceptance
import Warmth.Hash
import Warmth.Transport

namespace Warmth

open Codec

def kFrameMagic : Nat := 0x5746524D
def kFrameVersion : UInt8 := 1

/-- The number that stands for the type in a frame. -/
def MessageType.value : MessageType → Nat
  | .hello => 1
  | .helloAck => 2
  | .report => 3
  | .warmTopic => 4
  | .warmResult => 5
  | .ping => 6
  | .pong => 7
  | .shutdown => 8
  | .error => 9
  | .ready => 10

/-- `known_type`, with the type it knows. -/
def knownType : Nat → Option MessageType
  | 1 => some .hello
  | 2 => some .helloAck
  | 3 => some .report
  | 4 => some .warmTopic
  | 5 => some .warmResult
  | 6 => some .ping
  | 7 => some .pong
  | 8 => some .shutdown
  | 9 => some .error
  | 10 => some .ready
  | _ => none

def frameHeader (type : MessageType) (flags : UInt8) (len : Nat) : Bytes :=
  u32 kFrameMagic ++ [kFrameVersion, flags] ++ beBytes 2 type.value ++ u32 len

namespace FrameWriter

def write (frame : Frame) (conn : TcpConnection) : Bool × TcpConnection :=
  let p := frame.payload
  if kMaxPayload < p.length then (false, conn) else
  match conn.writeAll (frameHeader frame.type frame.flags p.length) with
  | (false, conn) => (false, conn)
  | (true, conn) =>
    match if p.isEmpty then (true, conn) else conn.writeAll p with
    | (false, conn) => (false, conn)
    | (true, conn) => conn.writeAll (u32 (crc32 p).toNat)

/-- The frames one after the other, up to the first that is not written. -/
def writeAll : List Frame → TcpConnection → Bool × TcpConnection
  | [], conn => (true, conn)
  | frame :: rest, conn =>
    match write frame conn with
    | (false, conn) => (false, conn)
    | (true, conn) => writeAll rest conn

end FrameWriter

namespace FrameReader

/-- The checks of a header's twelve bytes: the type, the flags and the payload's length. -/
def header : Bytes → Option (MessageType × UInt8 × Nat)
  | [m0, m1, m2, m3, version, flags, t0, t1, l0, l1, l2, l3] =>
    if ofBe [m0, m1, m2, m3] ≠ kFrameMagic then none else
    if version ≠ kFrameVersion then none else
    match knownType (ofBe [t0, t1]) with
    | none => none
    | some type =>
      let len := ofBe [l0, l1, l2, l3]
      if kMaxPayload < len then none else some (type, flags, len)
  | _ => none

def read (conn : TcpConnection) : Option Frame × TcpConnection :=
  match conn.readExact 12 with
  | (none, conn) => (none, conn)
  | (some bytes, conn) =>
    match header bytes with
    | none => (none, conn)
    | some (type, flags, len) =>
      match conn.readExact len with
      | (none, conn) => (none, conn)
      | (some payload, conn) =>
        match conn.readExact 4 with
        | (none, conn) => (none, conn)
        | (some cb, conn) =>
          if ofBe cb ≠ (crc32 payload).toNat then (none, conn)
          else (some { type, flags, payload }, conn)

/-- At most `n` reads, up to the first that fails. -/
def readAll : Nat → TcpConnection → List Frame × TcpConnection
  | 0, conn => ([], conn)
  | n + 1, conn =>
    match read conn with
    | (none, conn) => ([], conn)
    | (some frame, conn) =>
      let (rest, conn) := readAll n conn
      (frame :: rest, conn)

end FrameReader

/-- A frame as it stands in the byte stream. -/
def frameBytes (f : Frame) : Bytes :=
  frameHeader f.type f.flags f.payload.length ++ (f.payload ++ u32 (crc32 f.payload).toNat)

theorem knownType_value (t : MessageType) : knownType t.value = some t := by
  cases t <;> rfl

theorem value_of_knownType {n : Nat} {t : MessageType} (h : knownType n = some t) :
    t.value = n := by
  unfold knownType at h
  split at h
  all_goals cases h
  all_goals rfl

theorem value_lt (t : MessageType) : t.value < 256 ^ 2 := by
  cases t <;> decide

theorem frameHeader_length (type : MessageType) (flags : UInt8) (len : Nat) :
    (frameHeader type flags len).length = 12 := by
  simp [frameHeader]

/-- The header that is read is the header that is written. -/
theorem header_some {bytes : Bytes} {type : MessageType} {flags : UInt8} {len : Nat}
    (h : FrameReader.header bytes = some (type, flags, len)) :
    len ≤ kMaxPayload ∧ bytes = frameHeader type flags len := by
  unfold FrameReader.header at h
  split at h
  next m0 m1 m2 m3 version f t0 t1 l0 l1 l2 l3 =>
    split at h
    next => cases h
    next magic =>
      split at h
      next => cases h
      next version =>
        split at h
        next => cases h
        next t known =>
          simp only at h
          split at h
          next => cases h
          next hlen =>
            cases h
            rw [not_not] at magic version
            have hm : u32 kFrameMagic = [m0, m1, m2, m3] := by rw [← magic]; exact beBytes_ofBe rfl
            have ht : beBytes 2 type.value = [t0, t1] := by
              rw [value_of_knownType known]
              exact beBytes_ofBe rfl
            have hl : u32 (ofBe [l0, l1, l2, l3]) = [l0, l1, l2, l3] := beBytes_ofBe rfl
            refine ⟨by omega, ?_⟩
            rw [frameHeader, hm, ht, hl, version]
            rfl
  next => cases h

theorem header_frameHeader (type : MessageType) (flags : UInt8) {len : Nat}
    (h : len ≤ kMaxPayload) :
    FrameReader.header (frameHeader type flags len) = some (type, flags, len) := by
  have magic : ofBe (u32 kFrameMagic) = kFrameMagic := ofBe_beBytes (by decide)
  have value : ofBe (beBytes 2 type.value) = type.value := ofBe_beBytes (value_lt type)
  have length : ofBe (u32 len) = len := by
    refine ofBe_beBytes ?_
    unfold kMaxPayload at h
    omega
  change (if ofBe (u32 kFrameMagic) ≠ kFrameMagic then none else
    if kFrameVersion ≠ kFrameVersion then none else
    match knownType (ofBe (beBytes 2 type.value)) with
    | none => none
    | some type =>
      if kMaxPayload < ofBe (u32 len) then none else some (type, flags, ofBe (u32 len))) = _
  rw [magic, value, length, knownType_value, if_neg (not_not.mpr rfl), if_neg (not_not.mpr rfl)]
  exact if_neg (by omega)

theorem write_accepting {f : Frame} {c : TcpConnection} (size : f.payload.length ≤ kMaxPayload)
    (h : c.Accepting) : ∃ c', FrameWriter.write f c = (true, c') ∧ c'.Accepting ∧
      c'.sent = c.sent ++ frameBytes f := by
  obtain ⟨c₁, h₁, a₁, s₁⟩ :=
    TcpConnection.writeAll_accepting h (frameHeader f.type f.flags f.payload.length)
  obtain ⟨c₂, h₂, a₂, s₂⟩ : ∃ c₂,
      (if f.payload.isEmpty then (true, c₁) else c₁.writeAll f.payload) = (true, c₂) ∧
        c₂.Accepting ∧ c₂.sent = c₁.sent ++ f.payload := by
    cases hp : f.payload with
    | nil => exact ⟨c₁, rfl, a₁, by rw [List.append_nil]⟩
    | cons b bs => exact TcpConnection.writeAll_accepting a₁ (b :: bs)
  obtain ⟨c₃, h₃, a₃, s₃⟩ := TcpConnection.writeAll_accepting a₂ (u32 (crc32 f.payload).toNat)
  refine ⟨c₃, ?_, a₃, ?_⟩
  · simp only [FrameWriter.write, if_neg (Nat.not_lt.mpr size), h₁, h₂, h₃]
  · rw [s₃, s₂, s₁, frameBytes, List.append_assoc, List.append_assoc]

theorem writeAll_accepting {fs : List Frame} {c : TcpConnection}
    (size : ∀ f ∈ fs, f.payload.length ≤ kMaxPayload) (h : c.Accepting) :
    ∃ c', FrameWriter.writeAll fs c = (true, c') ∧ c'.Accepting ∧
      c'.sent = c.sent ++ fs.flatMap frameBytes := by
  induction fs generalizing c with
  | nil => exact ⟨c, rfl, h, by simp⟩
  | cons f fs ih =>
    rw [List.forall_mem_cons] at size
    obtain ⟨c₁, h₁, a₁, s₁⟩ := write_accepting size.1 h
    obtain ⟨c₂, h₂, a₂, s₂⟩ := ih size.2 a₁
    refine ⟨c₂, ?_, a₂, ?_⟩
    · rw [FrameWriter.writeAll, h₁]
      exact h₂
    · rw [s₂, s₁, List.flatMap_cons, List.append_assoc]

/-- A frame at the front of what is pending is read, and nothing behind it is touched. -/
theorem read_frame {f : Frame} {rest : Bytes} {c : TcpConnection}
    (size : f.payload.length ≤ kMaxPayload) (valid : c.valid = true)
    (h : c.pending = frameBytes f ++ rest) :
    ∃ c', FrameReader.read c = (some f, c') ∧ c'.pending = rest ∧ c'.valid = true := by
  rw [frameBytes, List.append_assoc, List.append_assoc] at h
  obtain ⟨c₁, h₁, p₁, v₁⟩ := TcpConnection.readExact_enough valid h
  obtain ⟨c₂, h₂, p₂, v₂⟩ := TcpConnection.readExact_enough v₁ p₁
  obtain ⟨c₃, h₃, p₃, v₃⟩ := TcpConnection.readExact_enough v₂ p₂
  rw [frameHeader_length] at h₁
  rw [u32_length] at h₃
  have checksum : ofBe (u32 (crc32 f.payload).toNat) = (crc32 f.payload).toNat :=
    ofBe_beBytes (crc32 f.payload).toNat_lt
  refine ⟨c₃, ?_, p₃, v₃⟩
  simp only [FrameReader.read, h₁, header_frameHeader _ _ size, h₂, h₃, checksum, ne_eq,
    not_true_eq_false, if_false]

/-- Whatever is read was taken from the stream byte for byte as it would be written. -/
theorem read_some {f : Frame} {c c' : TcpConnection} (h : FrameReader.read c = (some f, c')) :
    f.payload.length ≤ kMaxPayload ∧ c.pending = frameBytes f ++ c'.pending ∧
      c.valid = true ∧ c'.valid = true := by
  unfold FrameReader.read at h
  split at h
  next => cases h
  next bytes c₁ h₁ =>
    split at h
    next => cases h
    next type flags len hh =>
      split at h
      next => cases h
      next payload c₂ h₂ =>
        split at h
        next => cases h
        next cb c₃ h₃ =>
          split at h
          next => cases h
          next checksum =>
            cases h
            obtain ⟨valid, _, p₁, _⟩ := TcpConnection.readExact_some h₁
            obtain ⟨_, l₂, p₂, _⟩ := TcpConnection.readExact_some h₂
            obtain ⟨_, l₃, p₃, v₃⟩ := TcpConnection.readExact_some h₃
            obtain ⟨size, rfl⟩ := header_some hh
            have trailer : u32 (crc32 payload).toNat = cb := by
              rw [← not_not.mp checksum]
              exact beBytes_ofBe l₃
            refine ⟨l₂ ▸ size, ?_, valid, v₃⟩
            rw [p₁, p₂, p₃, frameBytes, trailer, l₂, List.append_assoc, List.append_assoc]

theorem frameBytes_ne_nil (f : Frame) : frameBytes f ≠ [] := by
  intro nil
  have length := congrArg List.length nil
  rw [frameBytes, List.length_append, frameHeader_length, List.length_nil] at length
  omega

/-- A frame's bytes do not start with those of another one. -/
theorem frameBytes_cancel {f g : Frame} {more : Bytes} (hf : f.payload.length ≤ kMaxPayload)
    (hg : g.payload.length ≤ kMaxPayload) (h : frameBytes f = frameBytes g ++ more) : more = [] := by
  let c : TcpConnection := { arriving := [⟨frameBytes f, frameBytes_ne_nil f⟩] }
  have pending : c.pending = frameBytes f := by simp [c, TcpConnection.pending]
  have asOne : c.pending = frameBytes f ++ [] := by rw [pending, List.append_nil]
  have asOther : c.pending = frameBytes g ++ more := by rw [pending, h]
  obtain ⟨c₁, h₁, p₁, _⟩ := read_frame hf rfl asOne
  obtain ⟨c₂, h₂, p₂, _⟩ := read_frame hg rfl asOther
  rw [h₁] at h₂
  cases h₂
  rw [← p₂, p₁]

/-- A read of less than a frame fails. -/
theorem read_cut {f : Frame} {c : TcpConnection} (size : f.payload.length ≤ kMaxPayload)
    (shorter : c.pending <+: frameBytes f) (ne : c.pending ≠ frameBytes f) :
    (FrameReader.read c).1 = none := by
  cases h : FrameReader.read c with
  | mk result c' =>
    cases result with
    | none => rfl
    | some g =>
      obtain ⟨hg, hp, _⟩ := read_some h
      obtain ⟨more, hm⟩ := shorter
      rw [hp, List.append_assoc] at hm
      have nil := frameBytes_cancel size hg hm.symm
      rw [nil, List.append_nil] at hm
      exact absurd (hp.trans (by rw [(List.append_eq_nil_iff.mp nil).1, List.append_nil, hm])) ne

theorem readAll_frames {fs : List Frame} {c : TcpConnection} {rest : Bytes}
    (size : ∀ f ∈ fs, f.payload.length ≤ kMaxPayload) (valid : c.valid = true)
    (h : c.pending = fs.flatMap frameBytes ++ rest) :
    ∃ c', FrameReader.readAll fs.length c = (fs, c') ∧ c'.pending = rest := by
  induction fs generalizing c with
  | nil => exact ⟨c, rfl, h⟩
  | cons f fs ih =>
    rw [List.forall_mem_cons] at size
    rw [List.flatMap_cons, List.append_assoc] at h
    obtain ⟨c₁, h₁, p₁, v₁⟩ := read_frame size.1 valid h
    obtain ⟨c₂, h₂, p₂⟩ := ih size.2 v₁ p₁
    refine ⟨c₂, ?_, p₂⟩
    rw [List.length_cons, FrameReader.readAll, h₁]
    simp only [h₂]

/-- Reading again and again gives these frames, and then false. -/
def FrameReader.Delivers (c : TcpConnection) (fs : List Frame) : Prop :=
  ∃ c', readAll fs.length c = (fs, c') ∧ (read c').1 = none

theorem delivers_frames {fs : List Frame} {c : TcpConnection} {g : Frame} {cut : Bytes}
    (size : ∀ f ∈ fs, f.payload.length ≤ kMaxPayload) (valid : c.valid = true)
    (sizeCut : g.payload.length ≤ kMaxPayload) (shorter : cut <+: frameBytes g)
    (ne : cut ≠ frameBytes g) (h : c.pending = fs.flatMap frameBytes ++ cut) :
    FrameReader.Delivers c fs := by
  obtain ⟨c', hr, rfl⟩ := readAll_frames size valid h
  exact ⟨c', hr, read_cut sizeCut shorter ne⟩

/-- Frames written to one connection are read back from the other in whatever pieces their bytes
arrive there; a stream that ends within a frame gives the frames before it; and what a read takes
from any stream is what writing its frame would put there. -/
theorem frame_stream_round_trip {w : TcpConnection} (accepting : w.Accepting) :
    (∀ fs : List Frame, (∀ f ∈ fs, f.payload.length ≤ kMaxPayload) →
      ∃ w' stream, FrameWriter.writeAll fs w = (true, w') ∧ w'.sent = w.sent ++ stream ∧
        (∀ c : TcpConnection, c.valid = true → c.pending = stream → FrameReader.Delivers c fs) ∧
        ∀ g : Frame, g.payload.length ≤ kMaxPayload →
          ∃ w'' more, FrameWriter.write g w' = (true, w'') ∧ w''.sent = w'.sent ++ more ∧
            ∀ cut, cut <+: more → cut ≠ more → ∀ c : TcpConnection, c.valid = true →
              c.pending = stream ++ cut → FrameReader.Delivers c fs) ∧
    ∀ (c c' : TcpConnection) (f : Frame), FrameReader.read c = (some f, c') →
      ∃ w' taken, FrameWriter.write f w = (true, w') ∧ w'.sent = w.sent ++ taken ∧
        c.pending = taken ++ c'.pending := by
  constructor
  · intro fs size
    obtain ⟨w', hw, accepting', sent⟩ := writeAll_accepting size accepting
    refine ⟨w', _, hw, sent, ?_, ?_⟩
    · intro c valid h
      rw [← List.append_nil (fs.flatMap frameBytes)] at h
      exact delivers_frames size valid (g := {}) (Nat.zero_le _) List.nil_prefix
        (frameBytes_ne_nil {}).symm h
    · intro g hg
      obtain ⟨w'', hw', _, sent'⟩ := write_accepting hg accepting'
      refine ⟨w'', _, hw', sent', ?_⟩
      intro cut shorter ne c valid h
      exact delivers_frames size valid hg shorter ne h
  · intro c c' f h
    obtain ⟨size, taken, _⟩ := read_some h
    obtain ⟨w', hw, _, sent⟩ := write_accepting size accepting
    exact ⟨w', _, hw, sent, taken⟩

/-- An empty frame between two others, sent over a connection that takes one byte at a time. -/
theorem frame_stream_round_trip_bytewise :
    ∃ w' stream, FrameWriter.writeAll [{ payload := [7, 8] }, {}, { type := .error }] {} = (true, w') ∧
      w'.sent = stream ∧ ∀ c : TcpConnection, c.valid = true → c.pending = stream →
        FrameReader.Delivers c [{ payload := [7, 8] }, {}, { type := .error }] := by
  have accepting : ({} : TcpConnection).Accepting := ⟨rfl, fun _ => Nat.one_pos⟩
  have size : ∀ f ∈ ([{ payload := [7, 8] }, {}, { type := .error }] : List Frame),
      f.payload.length ≤ kMaxPayload := by decide
  obtain ⟨w', stream, hw, sent, delivers, _⟩ := (frame_stream_round_trip accepting).1 _ size
  exact ⟨w', stream, hw, sent, delivers⟩

end Warmth
