import Warmth.Bytes

/-! Decoders that keep an index into the byte string they read, as a program without lists does.
Here every index and every unsigned difference is one that can go wrong. -/

namespace Codec

/-- Why a reader stops: it rejects the bytes, or it has made a mistake of its own. -/
inductive Stop (ε : Type)
  | rejected (e : ε)
  | underflow
  | outOfRange
deriving DecidableEq, Repr

structure Cursor where
  bytes : Bytes
  index : Nat := 0
deriving DecidableEq, Repr

abbrev Reader (ε α : Type) := StateT Cursor (Except (Stop ε)) α

namespace Cursor

def Within (c : Cursor) : Prop := c.index ≤ c.bytes.length

def unread (c : Cursor) : Bytes := c.bytes.drop c.index

def advance (c : Cursor) (n : Nat) : Cursor := { c with index := c.index + n }

theorem unread_length (c : Cursor) : c.unread.length = c.bytes.length - c.index :=
  List.length_drop

theorem unread_advance (c : Cursor) (n : Nat) : (c.advance n).unread = c.unread.drop n := by
  simp only [unread, advance, List.drop_drop]

theorem Within.advance {c : Cursor} {n : Nat} (h : c.Within) (hn : n ≤ c.unread.length) :
    (c.advance n).Within := by
  rw [unread_length] at hn
  unfold Within Cursor.advance at *
  simp only
  omega

end Cursor

namespace Reader

variable {ε α β : Type}

def stop (w : Stop ε) : Reader ε α := fun _ => .error w

def reject (e : ε) : Reader ε α := stop (.rejected e)

/-- A difference of unsigned numbers. -/
def sub (a b : Nat) : Reader ε Nat := if b ≤ a then pure (a - b) else stop .underflow

def byteAt (k : Nat) : Reader ε UInt8 := fun c =>
  match c.bytes[k]? with
  | some b => .ok (b, c)
  | none => .error .outOfRange

def remaining : Reader ε Nat := do
  let c ← get
  sub c.bytes.length c.index

/-- Move past `n` bytes, if that many are left. -/
def skip (e : ε) (n : Nat) : Reader ε Unit := do
  let left ← remaining
  if left < n then reject e else modify fun c => c.advance n

/-- The bytes at `k`, `k + 1` and so on, `n` of them. -/
def slice : Nat → Nat → Reader ε Bytes
  | _, 0 => pure []
  | k, n + 1 => do
    let b ← byteAt k
    let bs ← slice (k + 1) n
    return b :: bs

/-- Move past `n` bytes and look back at them. -/
def take (e : ε) (n : Nat) : Reader ε Bytes := do
  skip e n
  let c ← get
  let start ← sub c.index n
  slice start n

def u8 (e : ε) : Reader ε UInt8 := do
  skip e 1
  let c ← get
  let k ← sub c.index 1
  byteAt k

def number (e : ε) (n : Nat) : Reader ε Nat := do
  let bs ← take e n
  return ofBe bs

def ensure (e : ε) (ok : Bool) : Reader ε Unit := if ok then pure () else reject e

def known [ByteEnum α] (invalid : ε) (b : UInt8) : Reader ε α :=
  match ofByte b with
  | some a => pure a
  | none => reject invalid

def enumerator [ByteEnum α] (truncated invalid : ε) : Reader ε α := do
  let b ← u8 truncated
  known invalid b

def relabel (f : ε → ε) (r : Reader ε α) : Reader ε α := fun c =>
  match r c with
  | .error (.rejected e) => .error (.rejected (f e))
  | other => other

/-- On every cursor within its bytes the reader does what the decoder does on the bytes left, and
it makes no mistake. -/
structure Implements (r : Reader ε α) (d : Decoder ε α) : Prop where
  accepts : ∀ (c : Cursor) (a : α) (rest : Bytes), c.Within → d c.unread = .ok (a, rest) →
    ∃ c', r c = .ok (a, c') ∧ c'.Within ∧ c'.unread = rest
  rejects : ∀ (c : Cursor) (e : ε), c.Within → d c.unread = .error e → r c = .error (.rejected e)

theorem bind_apply (r : Reader ε α) (k : α → Reader ε β) (c : Cursor) :
    (r >>= k) c = match r c with
      | .ok (a, c') => k a c'
      | .error w => .error w := by
  change Except.bind (r c) (fun p => k p.1 p.2) = _
  cases r c <;> rfl

theorem Implements.pure (a : α) : Implements (pure a : Reader ε α) (pure a) := by
  constructor
  · intro c b rest hc h
    cases h
    exact ⟨c, rfl, hc, rfl⟩
  · intro c e _ h
    cases h

theorem Implements.reject (e : ε) : Implements (reject e : Reader ε α) (fail e) := by
  constructor
  · intro c a rest _ h
    cases h
  · intro c e' _ h
    cases h
    rfl

theorem Implements.bind {r : Reader ε α} {d : Decoder ε α} {k : α → Reader ε β}
    {k' : α → Decoder ε β} (hr : Implements r d) (hk : ∀ a, Implements (k a) (k' a)) :
    Implements (r >>= k) (d >>= k') := by
  constructor
  · intro c b rest hc h
    rw [Codec.bind_apply] at h
    cases hd : d c.unread with
    | error e => rw [hd] at h; cases h
    | ok p =>
      rw [hd] at h
      obtain ⟨c', hrc, hc', hu⟩ := hr.accepts c p.1 p.2 hc hd
      rw [bind_apply, hrc]
      exact (hk p.1).accepts c' b rest hc' (hu ▸ h)
  · intro c e hc h
    rw [Codec.bind_apply] at h
    cases hd : d c.unread with
    | error e' =>
      rw [hd] at h
      cases h
      rw [bind_apply, hr.rejects c e hc hd]
    | ok p =>
      rw [hd] at h
      obtain ⟨c', hrc, hc', hu⟩ := hr.accepts c p.1 p.2 hc hd
      rw [bind_apply, hrc]
      exact (hk p.1).rejects c' e hc' (hu ▸ h)

theorem Implements.relabel {r : Reader ε α} {d : Decoder ε α} (h : Implements r d) (f : ε → ε) :
    Implements (relabel f r) (Codec.relabel f d) := by
  constructor
  · intro c a rest hc hd
    unfold Codec.relabel at hd
    cases hs : d c.unread with
    | error e => rw [hs] at hd; cases hd
    | ok p =>
      rw [hs] at hd
      cases hd
      obtain ⟨c', hrc, rest⟩ := h.accepts c _ _ hc hs
      exact ⟨c', by rw [Reader.relabel, hrc], rest⟩
  · intro c e hc hd
    unfold Codec.relabel at hd
    cases hs : d c.unread with
    | ok p => rw [hs] at hd; cases hd
    | error e' =>
      rw [hs] at hd
      cases hd
      rw [Reader.relabel, h.rejects c e' hc hs]

theorem sub_eq {a b : Nat} (h : b ≤ a) : (sub a b : Reader ε Nat) = Pure.pure (a - b) := if_pos h

theorem remaining_eq {c : Cursor} (h : c.Within) :
    (remaining : Reader ε Nat) c = .ok (c.unread.length, c) := by
  rw [c.unread_length]
  exact congrFun (sub_eq h) c

theorem implements_remaining : Implements (remaining : Reader ε Nat) Codec.remaining := by
  constructor
  · intro c n rest hc h
    cases h
    exact ⟨c, remaining_eq hc, hc, rfl⟩
  · intro c e _ h
    cases h

theorem skip_eq {c : Cursor} (h : c.Within) (e : ε) (n : Nat) :
    skip e n c = if c.unread.length < n then .error (.rejected e) else .ok ((), c.advance n) := by
  rw [skip, bind_apply, remaining_eq h]
  simp only
  split
  · rfl
  · rfl

theorem byteAt_eq {c : Cursor} {k : Nat} {b : UInt8} {rest : Bytes}
    (h : c.bytes.drop k = b :: rest) : (byteAt k : Reader ε UInt8) c = .ok (b, c) := by
  have hb : c.bytes[k]? = some b := by
    rw [← List.head?_drop, h, List.head?_cons]
  rw [byteAt, hb]

theorem slice_eq {c : Cursor} {k n : Nat} (h : k + n ≤ c.bytes.length) :
    (slice k n : Reader ε Bytes) c = .ok ((c.bytes.drop k).take n, c) := by
  induction n generalizing k with
  | zero => rfl
  | succ n ih =>
    have hk : k < c.bytes.length := by omega
    have hd := List.drop_eq_getElem_cons hk
    rw [slice, bind_apply, byteAt_eq hd]
    simp only
    rw [bind_apply, ih (by omega), hd, List.take_succ_cons]
    rfl

theorem implements_take (e : ε) (n : Nat) : Implements (take e n) (Codec.take e n) := by
  have run (c : Cursor) (hc : c.Within) : take e n c =
      if c.unread.length < n then .error (.rejected e)
      else .ok (c.unread.take n, c.advance n) := by
    rw [take, bind_apply, skip_eq hc]
    by_cases hn : c.unread.length < n
    · rw [if_pos hn, if_pos hn]
    · rw [if_neg hn, if_neg hn]
      have hlen : c.index + n ≤ c.bytes.length := by
        rw [c.unread_length] at hn
        unfold Cursor.Within at hc
        omega
      change (sub (c.index + n) n >>= fun start => slice start n) (c.advance n) = _
      rw [bind_apply, sub_eq (by omega)]
      change slice (c.index + n - n) n (c.advance n) = _
      rw [Nat.add_sub_cancel]
      exact slice_eq hlen
  constructor
  · intro c bs rest hc h
    unfold Codec.take at h
    split at h
    next hn =>
      cases h
      refine ⟨c.advance n, ?_, hc.advance hn, c.unread_advance n⟩
      rw [run c hc, if_neg (by omega)]
    next => cases h
  · intro c e' hc h
    unfold Codec.take at h
    split at h
    next => cases h
    next hn =>
      cases h
      rw [run c hc, if_pos (by omega)]

theorem implements_u8 (e : ε) : Implements (u8 e) (Codec.u8 e) := by
  constructor
  · intro c b rest hc h
    cases hu : c.unread with
    | nil => rw [hu] at h; cases h
    | cons a bs =>
      rw [hu] at h
      cases h
      have hlen : 1 ≤ c.unread.length := by simp [hu]
      have hdrop : (c.advance 1).bytes.drop c.index = b :: rest := hu
      refine ⟨c.advance 1, ?_, hc.advance hlen, by rw [c.unread_advance, hu]; rfl⟩
      rw [u8, bind_apply, skip_eq hc, if_neg (by omega)]
      change (sub (c.index + 1) 1 >>= fun k => byteAt k) (c.advance 1) = _
      rw [bind_apply, sub_eq (by omega)]
      exact byteAt_eq hdrop
  · intro c e' hc h
    cases hu : c.unread with
    | cons a bs => rw [hu] at h; cases h
    | nil =>
      rw [hu] at h
      cases h
      rw [u8, bind_apply, skip_eq hc, if_pos (by simp [hu])]

theorem implements_number (e : ε) (n : Nat) : Implements (number e n) (Codec.number e n) :=
  (implements_take e n).bind fun bs => Implements.pure (ofBe bs)

theorem implements_ensure (e : ε) (ok : Bool) : Implements (ensure e ok) (Codec.ensure e ok) := by
  unfold ensure Codec.ensure
  split
  · exact Implements.pure ()
  · exact Implements.reject e

theorem implements_known [ByteEnum α] (invalid : ε) (b : UInt8) :
    Implements (known invalid b : Reader ε α) (Codec.known invalid b) := by
  unfold known Codec.known
  cases (ofByte b : Option α) with
  | some a => exact Implements.pure a
  | none => exact Implements.reject invalid

theorem implements_enumerator [ByteEnum α] (truncated invalid : ε) :
    Implements (enumerator truncated invalid : Reader ε α) (Codec.enumerator truncated invalid) :=
  (implements_u8 truncated).bind fun b => implements_known invalid b

/-- Run on a whole byte string, the reader gives what the decoder gives. -/
theorem Implements.run {r : Reader ε α} {d : Decoder ε α} (h : Implements r d) (bytes : Bytes) :
    (r { bytes }).map Prod.fst = ((d bytes).map Prod.fst).mapError .rejected := by
  have within : ({ bytes } : Cursor).Within := Nat.zero_le _
  cases hd : d bytes with
  | ok p =>
    obtain ⟨c', hr, _⟩ := h.accepts { bytes } p.1 p.2 within hd
    rw [hr]
    rfl
  | error e =>
    rw [h.rejects { bytes } e within hd]
    rfl

end Reader

end Codec
