import Warmth.Messages

namespace Warmth

open Codec

/-- Bytes that arrive together; one `recv` hands out no more than that. -/
abbrev Chunk := { bytes : Bytes // bytes ≠ [] }

/-- A connection and what the system under it is going to do: the chunks in which the peer's bytes
arrive, whether the stream then breaks instead of ending, and how many bytes each coming `send` takes
at most. -/
structure TcpConnection where
  valid : Bool := true
  arriving : List Chunk := []
  broken : Bool := false
  takes : Nat → Nat := fun _ => 1
  sent : Bytes := []

namespace TcpConnection

/-- The peer's bytes that have not been received yet. -/
def pending (c : TcpConnection) : Bytes := c.arriving.flatMap Subtype.val

/-- `::recv`, where no bytes at all are the end of the stream. -/
def recv (n : Nat) (c : TcpConnection) : Option Bytes × TcpConnection :=
  match c.arriving with
  | [] => (if c.broken then none else some [], c)
  | chunk :: rest =>
    if h : n < chunk.val.length then
      let left : Chunk := ⟨chunk.val.drop n, by simpa using h⟩
      (some (chunk.val.take n), { c with arriving := left :: rest })
    else (some chunk.val, { c with arriving := rest })

/-- `::send`, which tells how many of the bytes it has taken. -/
def send (data : Bytes) (c : TcpConnection) : Nat × TcpConnection :=
  let n := min (c.takes 0) data.length
  (n, { c with sent := c.sent ++ data.take n, takes := fun i => c.takes (i + 1) })

def writeLoop (data : Bytes) (sent : Nat) (c : TcpConnection) : Bool × TcpConnection :=
  if sent < data.length then
    match c.send (data.drop sent) with
    | (0, c') => (false, c')
    | (bytes + 1, c') => writeLoop data (sent + (bytes + 1)) c'
  else (true, c)
termination_by data.length - sent

def writeAll (data : Bytes) (c : TcpConnection) : Bool × TcpConnection :=
  if !c.valid then (false, c) else writeLoop data 0 c

/-- The loop of `read_exact`; `got` holds what has been received so far. -/
def readLoop (n : Nat) (got : Bytes) (c : TcpConnection) : Option Bytes × TcpConnection :=
  if got.length < n then
    match c.recv (n - got.length) with
    | (none, c') => (none, c')
    | (some [], c') => (none, c')
    | (some (b :: bytes), c') => readLoop n (got ++ b :: bytes) c'
  else (some got, c)
termination_by n - got.length
decreasing_by
  rw [List.length_append, List.length_cons]
  omega

/-- `read_exact`, with the bytes it has filled when it returns true. -/
def readExact (n : Nat) (c : TcpConnection) : Option Bytes × TcpConnection :=
  if !c.valid then (none, c) else readLoop n [] c

/-! Receiving: the pieces in which the bytes arrive make no difference. -/

theorem recv_nil {c : TcpConnection} (n : Nat) (h : c.pending = []) :
    c.recv n = (if c.broken then none else some [], c) := by
  cases ha : c.arriving with
  | nil => rw [recv, ha]
  | cons chunk rest =>
    have : chunk.val = [] := by
      rw [pending, ha, List.flatMap_cons] at h
      exact (List.append_eq_nil_iff.mp h).1
    exact absurd this chunk.property

/-- A `recv` on a connection with bytes pending takes some of them from the front. -/
theorem recv_cons {c : TcpConnection} {n : Nat} (hn : 0 < n) (h : c.pending ≠ []) :
    ∃ (b : UInt8) (bytes : Bytes) (c' : TcpConnection), c.recv n = (some (b :: bytes), c') ∧
      (b :: bytes).length ≤ n ∧ c.pending = (b :: bytes) ++ c'.pending ∧ c'.valid = c.valid := by
  cases ha : c.arriving with
  | nil => exact absurd (by rw [pending, ha]; rfl) h
  | cons chunk rest =>
    obtain ⟨bytes, ne⟩ := chunk
    cases bytes with
    | nil => exact absurd rfl ne
    | cons b bytes =>
      by_cases hlen : n < (b :: bytes).length
      · obtain ⟨m, rfl⟩ : ∃ m, n = m + 1 := ⟨n - 1, by omega⟩
        let left : Chunk := ⟨(b :: bytes).drop (m + 1), by simpa using hlen⟩
        refine ⟨b, bytes.take m, { c with arriving := left :: rest }, ?_, ?_, ?_, rfl⟩
        · simp only [recv, ha]
          exact dif_pos hlen
        · have := List.length_take_le m bytes
          rw [List.length_cons]
          omega
        · simp only [pending, ha, left, List.flatMap_cons, List.drop_succ_cons, List.cons_append]
          rw [← List.append_assoc, List.take_append_drop]
      · refine ⟨b, bytes, { c with arriving := rest }, ?_, by omega, ?_, rfl⟩
        · simp only [recv, ha]
          exact dif_neg hlen
        · rw [pending, ha, List.flatMap_cons]
          rfl

theorem readLoop_short {n : Nat} {got : Bytes} {c : TcpConnection}
    (h : got.length + c.pending.length < n) : (readLoop n got c).1 = none := by
  induction hk : n - got.length using Nat.strong_induction_on generalizing got c with
  | _ k ih =>
    rw [readLoop, if_pos (by omega)]
    cases hp : c.pending with
    | nil =>
      rw [recv_nil _ hp]
      cases c.broken <;> rfl
    | cons a rest =>
      obtain ⟨b, bytes, c', hr, hlen, hsplit, _⟩ :=
        recv_cons (c := c) (n := n - got.length) (by omega) (by simp [hp])
      rw [hr]
      have total := congrArg List.length hsplit
      rw [List.length_append, List.length_cons] at total
      refine ih (n - (got ++ b :: bytes).length) ?_ ?_ rfl
      · rw [List.length_append, List.length_cons]
        omega
      · rw [List.length_append, List.length_cons]
        omega

theorem readLoop_enough {n : Nat} {got need rest : Bytes} {c : TcpConnection}
    (length : got.length + need.length = n) (h : c.pending = need ++ rest) :
    ∃ c', readLoop n got c = (some (got ++ need), c') ∧ c'.pending = rest ∧ c'.valid = c.valid := by
  induction hk : need.length using Nat.strong_induction_on generalizing got need c with
  | _ k ih =>
    rw [readLoop]
    cases need with
    | nil =>
      rw [if_neg (by rw [List.length_nil] at length; omega), List.append_nil]
      exact ⟨c, rfl, h, rfl⟩
    | cons a need =>
      rw [if_pos (by rw [List.length_cons] at length; omega)]
      obtain ⟨b, bytes, c', hr, hlen, hsplit, hv⟩ :=
        recv_cons (c := c) (n := n - got.length) (by rw [List.length_cons] at length; omega)
          (by simp [h])
      rw [hr]
      -- what was received is the front of what is needed
      have fits : (b :: bytes).length ≤ (a :: need).length := by omega
      have received : b :: bytes <+: c.pending := ⟨c'.pending, hsplit.symm⟩
      have needed : a :: need <+: c.pending := ⟨rest, h.symm⟩
      obtain ⟨more, hmore⟩ := List.prefix_of_prefix_length_le received needed fits
      have left : c'.pending = more ++ rest := by
        rw [hsplit, ← hmore, List.append_assoc] at h
        exact List.append_cancel_left h
      have count := congrArg List.length hmore
      rw [List.length_append, List.length_cons] at count
      have missing : (got ++ b :: bytes).length + more.length = n := by
        rw [List.length_append, List.length_cons]
        omega
      obtain ⟨c'', hloop, hp, hv'⟩ := ih more.length (by omega) missing left rfl
      refine ⟨c'', ?_, hp, hv'.trans hv⟩
      rw [← hmore, ← List.append_assoc]
      exact hloop

theorem readExact_enough {need rest : Bytes} {c : TcpConnection} (valid : c.valid = true)
    (h : c.pending = need ++ rest) :
    ∃ c', c.readExact need.length = (some need, c') ∧ c'.pending = rest ∧ c'.valid = true := by
  have length : ([] : Bytes).length + need.length = need.length := Nat.zero_add _
  obtain ⟨c', hr, hp, hv⟩ := readLoop_enough length h
  refine ⟨c', ?_, hp, hv.trans valid⟩
  rw [readExact, valid]
  exact hr

theorem readExact_some {n : Nat} {bs : Bytes} {c c' : TcpConnection}
    (h : c.readExact n = (some bs, c')) :
    c.valid = true ∧ bs.length = n ∧ c.pending = bs ++ c'.pending ∧ c'.valid = true := by
  cases valid : c.valid with
  | false => rw [readExact, valid] at h; cases h
  | true =>
    by_cases hn : n ≤ c.pending.length
    · have length : (c.pending.take n).length = n := List.length_take_of_le hn
      obtain ⟨c'', hr, hp, hv⟩ :=
        readExact_enough valid (List.take_append_drop n c.pending).symm
      rw [length, h] at hr
      cases hr
      refine ⟨rfl, length, ?_, hv⟩
      rw [hp, List.take_append_drop]
    · have short : (readLoop n [] c).1 = none := readLoop_short (by simpa using hn)
      rw [readExact, valid] at h
      change readLoop n [] c = _ at h
      rw [h] at short
      cases short

/-! Sending: the counts that `send` takes make no difference while it takes any. -/

/-- The connection is open and every `send` on it takes at least one byte. -/
structure Accepting (c : TcpConnection) : Prop where
  valid : c.valid = true
  takes : ∀ i, 0 < c.takes i

theorem writeLoop_accepting {data : Bytes} {sent : Nat} {c : TcpConnection} (h : c.Accepting)
    (le : sent ≤ data.length) : ∃ c', writeLoop data sent c = (true, c') ∧ c'.Accepting ∧
      c'.sent = c.sent ++ data.drop sent := by
  induction hk : data.length - sent using Nat.strong_induction_on generalizing sent c with
  | _ k ih =>
    rw [writeLoop]
    by_cases hs : sent < data.length
    · rw [if_pos hs]
      obtain ⟨m, hm⟩ : ∃ m, min (c.takes 0) (data.drop sent).length = m + 1 := by
        have := h.takes 0
        rw [List.length_drop]
        exact ⟨min (c.takes 0) (data.length - sent) - 1, by omega⟩
      have bound : m + 1 ≤ data.length - sent := by
        rw [← List.length_drop, ← hm]
        exact Nat.min_le_right _ _
      simp only [send, hm]
      have accepting : ({ c with
          sent := c.sent ++ (data.drop sent).take (m + 1)
          takes := fun i => c.takes (i + 1) } : TcpConnection).Accepting :=
        ⟨h.valid, fun i => h.takes (i + 1)⟩
      obtain ⟨c', hw, ha, hc⟩ := ih (data.length - (sent + (m + 1))) (by omega) accepting
        (by omega) rfl
      refine ⟨c', hw, ha, ?_⟩
      rw [hc, List.append_assoc, ← List.drop_drop, List.take_append_drop]
    · rw [if_neg hs, List.drop_eq_nil_of_le (by omega), List.append_nil]
      exact ⟨c, rfl, h, rfl⟩

theorem writeAll_accepting {c : TcpConnection} (h : c.Accepting) (data : Bytes) :
    ∃ c', c.writeAll data = (true, c') ∧ c'.Accepting ∧ c'.sent = c.sent ++ data := by
  obtain ⟨c', hw, ha, hc⟩ := writeLoop_accepting h (Nat.zero_le data.length)
  refine ⟨c', ?_, ha, by rw [hc, List.drop_zero]⟩
  rw [writeAll, h.valid]
  exact hw

end TcpConnection

end Warmth
