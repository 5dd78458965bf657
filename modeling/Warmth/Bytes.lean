import Mathlib.Data.List.Basic
import Mathlib.Tactic.Ring

namespace Codec

abbrev Bytes := List UInt8

/-- Big-endian bytes of a number, `n` bytes wide: byte `k` from the right is `(v >> 8k) & 0xff`. -/
def beBytes : Nat → Nat → Bytes
  | 0, _ => []
  | n + 1, v => UInt8.ofNat (v / 256 ^ n) :: beBytes n v

/-- Read big-endian bytes back: `v = (v << 8) | b` over the bytes. -/
def ofBe (bs : Bytes) : Nat := bs.foldl (fun acc b => acc * 256 + b.toNat) 0

@[simp] theorem beBytes_length (n v : Nat) : (beBytes n v).length = n := by
  induction n with
  | zero => rfl
  | succ n ih => simp [beBytes, ih]

theorem ofBe_beBytes_acc (n v acc : Nat) :
    (beBytes n v).foldl (fun acc b => acc * 256 + b.toNat) acc = acc * 256 ^ n + v % 256 ^ n := by
  induction n generalizing acc with
  | zero => simp [beBytes, Nat.mod_one]
  | succ n ih =>
    have hb : (UInt8.ofNat (v / 256 ^ n)).toNat = v / 256 ^ n % 256 := by simp
    have hv : v % 256 ^ (n + 1) = v % 256 ^ n + 256 ^ n * (v / 256 ^ n % 256) := by
      rw [Nat.pow_succ, Nat.mod_mul]
    simp only [beBytes, List.foldl_cons, hb, ih, hv]
    ring

theorem ofBe_beBytes {n v : Nat} (h : v < 256 ^ n) : ofBe (beBytes n v) = v := by
  rw [ofBe, ofBe_beBytes_acc, Nat.mod_eq_of_lt h, Nat.zero_mul, Nat.zero_add]

/-- The bytes read so far stand above the bytes still to come. -/
theorem foldl_be_bounds (bs : Bytes) (acc : Nat) :
    acc * 256 ^ bs.length ≤ bs.foldl (fun acc b => acc * 256 + b.toNat) acc ∧
      bs.foldl (fun acc b => acc * 256 + b.toNat) acc < (acc + 1) * 256 ^ bs.length := by
  induction bs generalizing acc with
  | nil => simp
  | cons b bs ih =>
    have hb : b.toNat < 256 := b.toNat_lt
    have low : acc * 256 * 256 ^ bs.length ≤ (acc * 256 + b.toNat) * 256 ^ bs.length :=
      Nat.mul_le_mul_right _ (by omega)
    have high : (acc * 256 + b.toNat + 1) * 256 ^ bs.length ≤ (acc + 1) * 256 * 256 ^ bs.length :=
      Nat.mul_le_mul_right _ (by omega)
    obtain ⟨hl, hh⟩ := ih (acc * 256 + b.toNat)
    rw [List.length_cons, Nat.pow_succ, Nat.mul_comm (256 ^ bs.length), ← Nat.mul_assoc,
      ← Nat.mul_assoc]
    exact ⟨Nat.le_trans low hl, Nat.lt_of_lt_of_le hh high⟩

theorem ofBe_lt (bs : Bytes) : ofBe bs < 256 ^ bs.length := by
  have := (foldl_be_bounds bs 0).2
  rwa [Nat.zero_add, Nat.one_mul] at this

theorem beBytes_foldl_be (bs : Bytes) (acc : Nat) :
    beBytes bs.length (bs.foldl (fun acc b => acc * 256 + b.toNat) acc) = bs := by
  induction bs generalizing acc with
  | nil => rfl
  | cons b bs ih =>
    obtain ⟨hl, hh⟩ := foldl_be_bounds bs (acc * 256 + b.toNat)
    have hq : bs.foldl (fun acc b => acc * 256 + b.toNat) (acc * 256 + b.toNat) / 256 ^ bs.length =
        acc * 256 + b.toNat := Nat.div_eq_of_lt_le hl hh
    have hb : UInt8.ofNat (acc * 256 + b.toNat) = b := by
      apply UInt8.toNat_inj.mp
      have := b.toNat_lt
      simp only [UInt8.toNat_ofNat']
      omega
    rw [List.foldl_cons, List.length_cons, beBytes, hq, hb, ih]

theorem beBytes_ofBe {bs : Bytes} {n : Nat} (h : bs.length = n) : beBytes n (ofBe bs) = bs :=
  h ▸ beBytes_foldl_be bs 0

/-- A decoder consumes a prefix of the unread bytes and leaves the rest, or fails. -/
abbrev Decoder (ε α : Type) := StateT Bytes (Except ε) α

variable {ε α β : Type}

def fail (e : ε) : Decoder ε α := fun _ => .error e

def take (e : ε) (n : Nat) : Decoder ε Bytes := fun s =>
  if n ≤ s.length then .ok (s.take n, s.drop n) else .error e

def remaining : Decoder ε Nat := fun s => .ok (s.length, s)

def u8 (e : ε) : Decoder ε UInt8 := fun s =>
  match s with
  | b :: rest => .ok (b, rest)
  | [] => .error e

def number (e : ε) (n : Nat) : Decoder ε Nat := do
  let bs ← take e n
  return ofBe bs

def times (d : Decoder ε α) : Nat → Decoder ε (List α)
  | 0 => pure []
  | n + 1 => do
    let a ← d
    let rest ← times d n
    return a :: rest

def ensure (e : ε) (ok : Bool) : Decoder ε Unit := if ok then pure () else fail e

/-- An enumeration with an underlying byte: the values in the order of their bytes. -/
class ByteEnum (α : Type) where
  values : List α
  toByte : α → UInt8
  get_toByte : ∀ a, values[(toByte a).toNat]? = some a

export ByteEnum (toByte)

theorem mem_enumerators [ByteEnum α] (a : α) : a ∈ (ByteEnum.values : List α) :=
  List.mem_of_getElem? (ByteEnum.get_toByte a)

/-- The enumerator a byte stands for, if it is a declared one. -/
def ofByte [ByteEnum α] (b : UInt8) : Option α := (ByteEnum.values : List α)[b.toNat]?

def known [ByteEnum α] (invalid : ε) (b : UInt8) : Decoder ε α :=
  match ofByte b with
  | some a => pure a
  | none => fail invalid

/-- Read an enumerator: `truncated` when no byte is left, `invalid` when it names none. -/
def enumerator [ByteEnum α] (truncated invalid : ε) : Decoder ε α := do
  let b ← u8 truncated
  known invalid b

def relabel (f : ε → ε) (d : Decoder ε α) : Decoder ε α := fun s =>
  match d s with
  | .ok p => .ok p
  | .error e => .error (f e)

/-- Write pieces one after the other; the first that cannot be written is the failure. -/
def pieces : List (Except ε Bytes) → Except ε Bytes
  | [] => .ok []
  | p :: rest => do
    let b ← p
    let bs ← pieces rest
    return b ++ bs

/-- On exactly the bytes `bs`, whatever follows them, the decoder returns `a`. -/
def Reads (d : Decoder ε α) (bs : Bytes) (a : α) : Prop :=
  ∀ rest, d (bs ++ rest) = .ok (a, rest)

/-- Whatever the decoder returns has the property `P`. -/
def Ensures (d : Decoder ε α) (P : α → Prop) : Prop :=
  ∀ s a rest, d s = .ok (a, rest) → P a

theorem bind_apply (d : Decoder ε α) (f : α → Decoder ε β) (s : Bytes) :
    (d >>= f) s = match d s with
      | .ok (a, rest) => f a rest
      | .error e => .error e := by
  change Except.bind (d s) (fun p => f p.1 p.2) = _
  cases d s <;> rfl

theorem Reads.pure (a : α) : Reads (pure a : Decoder ε α) [] a := fun _ => rfl

theorem Reads.apply {d : Decoder ε α} {bs : Bytes} {a : α} (hd : Reads d bs a)
    (f : α → Decoder ε β) (rest : Bytes) : (d >>= f) (bs ++ rest) = f a rest := by
  rw [bind_apply, hd]

theorem Reads.bind {d : Decoder ε α} {f : α → Decoder ε β} {bs cs : Bytes} {a : α} {b : β}
    (hd : Reads d bs a) (hf : Reads (f a) cs b) : Reads (d >>= f) (bs ++ cs) b := by
  intro rest
  rw [bind_apply, List.append_assoc, hd]
  exact hf rest

/-- A step that reads nothing, such as a check that passes. -/
theorem Reads.bind_nil {d : Decoder ε α} {f : α → Decoder ε β} {cs : Bytes} {a : α} {b : β}
    (hd : Reads d [] a) (hf : Reads (f a) cs b) : Reads (d >>= f) cs b :=
  Reads.bind hd hf

theorem Reads.last {d : Decoder ε α} {f : α → Decoder ε β} {bs : Bytes} {a : α} {b : β}
    (hd : Reads d bs a) (hf : Reads (f a) [] b) : Reads (d >>= f) bs b := by
  simpa using Reads.bind hd hf

theorem reads_take (e : ε) (bs : Bytes) : Reads (take e bs.length) bs bs := by
  intro rest
  simp [take]

theorem reads_take_of_length {e : ε} {n : Nat} {bs : Bytes} (h : bs.length = n) :
    Reads (take e n) bs bs := h ▸ reads_take e bs

theorem reads_u8 (e : ε) (b : UInt8) : Reads (u8 e) [b] b := fun _ => rfl

theorem reads_ensure {e : ε} {ok : Bool} (h : ok = true) : Reads (ensure e ok) [] () := by
  rw [ensure, if_pos h]
  exact Reads.pure ()

theorem reads_known [ByteEnum α] (invalid : ε) (a : α) : Reads (known invalid (toByte a)) [] a := by
  simp only [known, ofByte, ByteEnum.get_toByte]
  exact Reads.pure a

theorem reads_enumerator [ByteEnum α] (truncated invalid : ε) (a : α) :
    Reads (enumerator truncated invalid) [toByte a] a :=
  Reads.last (reads_u8 truncated (toByte a)) (reads_known invalid a)

/-- A number too wide for its field is read back reduced. -/
theorem reads_number_mod (e : ε) (n v : Nat) :
    Reads (number e n) (beBytes n v) (v % 256 ^ n) := by
  refine Reads.last (reads_take_of_length (beBytes_length n v)) ?_
  rw [ofBe, ofBe_beBytes_acc, Nat.zero_mul, Nat.zero_add]
  exact Reads.pure _

theorem reads_number {e : ε} {n v : Nat} (h : v < 256 ^ n) :
    Reads (number e n) (beBytes n v) v := by
  have := reads_number_mod e n v
  rwa [Nat.mod_eq_of_lt h] at this

theorem Reads.relabel {d : Decoder ε α} {bs : Bytes} {a : α} (h : Reads d bs a) (f : ε → ε) :
    Reads (relabel f d) bs a := by
  intro rest
  simp only [Codec.relabel, h rest]

theorem pieces_ok (bs : List Bytes) : pieces (bs.map (.ok : Bytes → Except ε Bytes)) =
    .ok bs.flatten := by
  induction bs with
  | nil => rfl
  | cons b bs ih =>
    rw [List.map_cons, pieces, ih]
    rfl

theorem pieces_mem {ps : List (Except ε Bytes)} {out : Bytes} (h : pieces ps = .ok out) :
    ∀ p ∈ ps, ∃ b, p = .ok b := by
  induction ps generalizing out with
  | nil => exact fun p mem => absurd mem List.not_mem_nil
  | cons first rest ih =>
    rw [pieces] at h
    cases hf : first with
    | error e =>
      rw [hf] at h
      cases h
    | ok b =>
      cases hr : pieces rest with
      | error e =>
        rw [hf, hr] at h
        cases h
      | ok bs =>
        intro p mem
        rcases List.mem_cons.mp mem with rfl | later
        · exact ⟨b, rfl⟩
        · exact ih hr p later

theorem reads_times {d : Decoder ε α} {enc : β → Bytes} {val : β → α} (xs : List β)
    (h : ∀ x ∈ xs, Reads d (enc x) (val x)) :
    Reads (times d xs.length) (xs.flatMap enc) (xs.map val) := by
  induction xs with
  | nil => exact Reads.pure []
  | cons x xs ih =>
    have hx := h x (by simp)
    have hr := ih (fun y hy => h y (List.mem_cons_of_mem x hy))
    exact Reads.bind hx (Reads.last hr (Reads.pure _))

theorem ensures_pure {P : α → Prop} {a : α} (h : P a) : Ensures (pure a : Decoder ε α) P := by
  intro s b rest hb
  cases hb
  exact h

theorem ensures_fail {P : α → Prop} (e : ε) : Ensures (fail e : Decoder ε α) P := by
  intro s a rest h
  cases h

theorem Ensures.trivial (d : Decoder ε α) : Ensures d (fun _ => True) := fun _ _ _ _ => True.intro

theorem Ensures.bind {d : Decoder ε α} {f : α → Decoder ε β} {P : α → Prop} {Q : β → Prop}
    (hd : Ensures d P) (hf : ∀ a, P a → Ensures (f a) Q) : Ensures (d >>= f) Q := by
  intro s b rest h
  rw [bind_apply] at h
  cases hs : d s with
  | error e => rw [hs] at h; cases h
  | ok p =>
    rw [hs] at h
    exact hf p.1 (hd s p.1 p.2 hs) p.2 b rest h

theorem Ensures.skip {d : Decoder ε α} {f : α → Decoder ε β} {Q : β → Prop}
    (hf : ∀ a, Ensures (f a) Q) : Ensures (d >>= f) Q :=
  Ensures.bind (Ensures.trivial d) (fun a _ => hf a)

theorem Ensures.imp {d : Decoder ε α} {P Q : α → Prop} (hd : Ensures d P) (h : ∀ a, P a → Q a) :
    Ensures d Q := fun s a rest hs => h a (hd s a rest hs)

theorem Ensures.relabel {d : Decoder ε α} {P : α → Prop} (h : Ensures d P) (f : ε → ε) :
    Ensures (relabel f d) P := by
  intro s a rest hs
  unfold Codec.relabel at hs
  cases hd : d s with
  | ok p =>
    rw [hd] at hs
    cases hs
    exact h s a rest hd
  | error e => rw [hd] at hs; cases hs

theorem ensures_ensure (e : ε) (ok : Bool) : Ensures (ensure e ok) (fun _ => ok = true) := by
  unfold ensure
  split
  next h => exact ensures_pure h
  next => exact ensures_fail e

end Codec
