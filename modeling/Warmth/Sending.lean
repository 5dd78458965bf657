import Mathlib.Data.List.TakeWhile
import Warmth.Frames
import Warmth.Runs

namespace Warmth

open Codec

/-- A call of `send_frame`: it waits for the connection's `send_mutex`, or it holds it and has these
pieces left for `send`. -/
inductive SendCall
  | waiting (frame : Frame)
  | writing (frame : Frame) (left : List Bytes)

def SendCall.frame : SendCall → Frame
  | .waiting f => f
  | .writing f _ => f

/-- What a call of `send_frame` has come to, with the pieces it did not hand over. -/
structure Sending where
  thread : Nat
  frame : Frame
  result : Bool
  left : List Bytes

/-- The bytes that `send` has taken of the frame. -/
def Sending.written (e : Sending) : Bytes :=
  (frameBytes e.frame).take ((frameBytes e.frame).length - e.left.flatten.length)

/-- A frame of which `send` has taken some bytes and not all. -/
def Sending.torn (e : Sending) : Bool := !e.left.isEmpty && !e.written.isEmpty

/-- One connection: the threads that send on it, and the reader at the other end. -/
structure Wire where
  valid : Bool := true
  calls : Nat → Option SendCall := fun _ => none
  /-- The thread that holds `send_mutex`. -/
  holder : Option Nat := none
  sent : Bytes := []
  /-- The calls that have returned, in that order. -/
  returned : List Sending := []
  /-- How many bytes the reader's frames have taken. -/
  consumed : Nat := 0
  got : List Frame := []
  /-- The reader's `read` has returned false. -/
  ended : Bool := false

inductive WireStep
  | call (t : Nat) (f : Frame)
  | lock (t : Nat)
  /-- `send` takes `n + 1` bytes of the piece. -/
  | take (t n : Nat)
  /-- The write returns false: the frame is too long, or `send` takes nothing. -/
  | refuse (t : Nat)
  | finish (t : Nat)
  | close
  /-- The reader's next `read`, over what reaches its end of the connection. -/
  | read (c : TcpConnection)

/-- What `FrameWriter::write` hands to `write_all`. -/
def framePieces (f : Frame) : List Bytes :=
  frameHeader f.type f.flags f.payload.length ::
    ((if f.payload.isEmpty then [] else [f.payload]) ++ [u32 (crc32 f.payload).toNat])

/-- What is left for `send` once it has taken `n + 1` bytes of the first piece. -/
def sendRest (piece : Bytes) (rest : List Bytes) (n : Nat) : List Bytes :=
  if piece.length = n + 1 then rest else piece.drop (n + 1) :: rest

namespace Wire

open Function

def leave (s : Wire) (t : Nat) (e : Sending) : Wire :=
  { s with calls := update s.calls t none, holder := none, returned := s.returned ++ [e] }

/-- A step that is not enabled changes nothing. -/
def step (s : Wire) : WireStep → Wire
  | .call t f =>
    match s.calls t with
    | none => { s with calls := update s.calls t (some (.waiting f)) }
    | some _ => s
  | .lock t =>
    match s.calls t, s.holder with
    | some (.waiting f), none =>
      { s with calls := update s.calls t (some (.writing f (framePieces f))), holder := some t }
    | _, _ => s
  | .take t n =>
    match s.calls t with
    | some (.writing f (piece :: rest)) =>
      if s.valid && decide (f.payload.length ≤ kMaxPayload) && decide (n < piece.length) then
        { s with
          sent := s.sent ++ piece.take (n + 1)
          calls := update s.calls t (some (.writing f (sendRest piece rest n))) }
      else s
    | _ => s
  | .refuse t =>
    match s.calls t with
    | some (.writing f (piece :: rest)) => s.leave t ⟨t, f, false, piece :: rest⟩
    | _ => s
  | .finish t =>
    match s.calls t with
    | some (.writing f []) => s.leave t ⟨t, f, true, []⟩
    | _ => s
  | .close => { s with valid := false }
  | .read c =>
    if !s.ended && c.valid && c.pending.isPrefixOf (s.sent.drop s.consumed) then
      match FrameReader.read c with
      | (some f, c') =>
        { s with got := s.got ++ [f], consumed := s.consumed + (c.pending.length - c'.pending.length) }
      | (none, _) => { s with ended := true }
    else s

def init : Wire := {}

/-- The call that a step makes. -/
def made (s : Wire) : WireStep → List (Nat × Frame)
  | .call t f => if (s.calls t).isNone then [(t, f)] else []
  | _ => []

/-- The call that holds the mutex, as if it returned now. -/
def current (s : Wire) : List Sending :=
  match s.holder with
  | none => []
  | some t =>
    match s.calls t with
    | some (.writing f left) => [⟨t, f, left.isEmpty, left⟩]
    | _ => []

/-- The calls that have held the mutex, in that order. -/
def entered (s : Wire) : List Sending := s.returned ++ s.current

/-- The frames of which `send` has taken every byte, up to the first that was left torn. -/
def whole (entries : List Sending) : List Frame :=
  ((entries.takeWhile fun e => !e.torn).filter fun e => e.left.isEmpty).map Sending.frame

def delivered (s : Wire) : List Frame := whole s.entered

/-- A call has returned with its frame partly written. -/
def Torn (s : Wire) : Prop := ∃ e ∈ s.returned, e.torn = true

/-- What a step can do: it leaves everything as it is, or it is one of the steps below with its
guard met. -/
inductive Went (s : Wire) : WireStep → Wire → Prop
  | idle {a : WireStep} (silent : s.made a = []) : Went s a s
  | call {t : Nat} {f : Frame} (free : s.calls t = none) :
      Went s (.call t f) { s with calls := update s.calls t (some (.waiting f)) }
  | lock {t : Nat} {f : Frame} (waiting : s.calls t = some (.waiting f)) (free : s.holder = none) :
      Went s (.lock t) { s with
        calls := update s.calls t (some (.writing f (framePieces f))), holder := some t }
  | take {t n : Nat} {f : Frame} {piece : Bytes} {rest : List Bytes}
      (writing : s.calls t = some (.writing f (piece :: rest)))
      (size : f.payload.length ≤ kMaxPayload) (more : n < piece.length) :
      Went s (.take t n) { s with
        sent := s.sent ++ piece.take (n + 1)
        calls := update s.calls t (some (.writing f (sendRest piece rest n))) }
  | refuse {t : Nat} {f : Frame} {piece : Bytes} {rest : List Bytes}
      (writing : s.calls t = some (.writing f (piece :: rest))) :
      Went s (.refuse t) (s.leave t ⟨t, f, false, piece :: rest⟩)
  | finish {t : Nat} {f : Frame} (writing : s.calls t = some (.writing f [])) :
      Went s (.finish t) (s.leave t ⟨t, f, true, []⟩)
  | close : Went s .close { s with valid := false }
  | read {c c' : TcpConnection} {f : Frame} (arrived : c.pending <+: s.sent.drop s.consumed)
      (one : FrameReader.read c = (some f, c')) :
      Went s (.read c) { s with
        got := s.got ++ [f], consumed := s.consumed + (c.pending.length - c'.pending.length) }
  | failed {c : TcpConnection} : Went s (.read c) { s with ended := true }

theorem went_step (s : Wire) (a : WireStep) : Went s a (s.step a) := by
  cases a with
  | call t f =>
    simp only [step]
    split
    next free => exact .call free
    next busy => exact .idle (by simp [made, busy])
  | lock t =>
    simp only [step]
    split
    next waiting free => exact .lock waiting free
    next => exact .idle rfl
  | take t n =>
    simp only [step]
    split
    next writing =>
      split
      next enabled =>
        simp only [Bool.and_eq_true, decide_eq_true_eq] at enabled
        exact .take writing enabled.1.2 enabled.2
      next => exact .idle rfl
    next => exact .idle rfl
  | refuse t =>
    simp only [step]
    split
    next writing => exact .refuse writing
    next => exact .idle rfl
  | finish t =>
    simp only [step]
    split
    next writing => exact .finish writing
    next => exact .idle rfl
  | close => exact .close
  | read c =>
    simp only [step]
    split
    next enabled =>
      simp only [Bool.and_eq_true, List.isPrefixOf_iff_prefix] at enabled
      split
      next one => exact .read enabled.2 one
      next => exact .failed
    next => exact .idle rfl

end Wire

theorem framePieces_flatten (f : Frame) : (framePieces f).flatten = frameBytes f := by
  cases hp : f.payload with
  | nil => simp [framePieces, frameBytes, hp]
  | cons b bs => simp [framePieces, frameBytes, hp]

theorem framePieces_ne_nil {f : Frame} {p : Bytes} (h : p ∈ framePieces f) : p ≠ [] := by
  intro nil
  subst nil
  rw [framePieces, List.mem_cons, List.mem_append, List.mem_singleton] at h
  rcases h with header | payload | checksum
  · have length := congrArg List.length header
    rw [frameHeader_length, List.length_nil] at length
    omega
  · split at payload
    next => cases payload
    next full =>
      rw [← List.mem_singleton.mp payload] at full
      exact full rfl
  · have length := congrArg List.length checksum
    rw [u32_length, List.length_nil] at length
    omega

theorem sendRest_flatten (piece : Bytes) (rest : List Bytes) (n : Nat) :
    piece.take (n + 1) ++ (sendRest piece rest n).flatten = (piece :: rest).flatten := by
  rw [List.flatten_cons, sendRest]
  split
  next all => rw [← all, List.take_length]
  next => rw [List.flatten_cons, ← List.append_assoc, List.take_append_drop]

theorem sendRest_ne_nil {piece : Bytes} {rest : List Bytes} {n : Nat} (more : n < piece.length)
    (pieces : ∀ p ∈ rest, p ≠ []) : ∀ p ∈ sendRest piece rest n, p ≠ [] := by
  rw [sendRest]
  split
  next => exact pieces
  next part =>
    intro p hp
    rcases List.mem_cons.mp hp with rfl | later
    · intro nil
      have length := List.drop_eq_nil_iff.mp nil
      omega
    · exact pieces p later

/-- What a frame that is being sent, or was, has put on the connection: its bytes from the front. -/
structure Sending.Sound (e : Sending) : Prop where
  suffix : e.left.flatten <:+ frameBytes e.frame
  pieces : ∀ p ∈ e.left, p ≠ []
  /-- A frame that is too long puts nothing there. -/
  sized : e.frame.payload.length ≤ kMaxPayload ∨ e.left.flatten = frameBytes e.frame
  result : e.result = e.left.isEmpty

namespace Sending

theorem Sound.written_left {e : Sending} (h : e.Sound) :
    e.written ++ e.left.flatten = frameBytes e.frame := by
  obtain ⟨front, split⟩ := h.suffix
  rw [written, ← split, List.length_append, Nat.add_sub_cancel, List.take_left']
  rfl

theorem Sound.written_whole {e : Sending} (h : e.Sound) (whole : e.left = []) :
    e.written = frameBytes e.frame := by
  have all := h.written_left
  rwa [whole, List.flatten_nil, List.append_nil] at all

theorem Sound.size {e : Sending} (h : e.Sound) (written : e.written ≠ []) :
    e.frame.payload.length ≤ kMaxPayload := by
  rcases h.sized with size | none_
  · exact size
  · have all := h.written_left
    rw [none_] at all
    exact absurd (List.append_left_eq_self.mp all) written

theorem Sound.size_whole {e : Sending} (h : e.Sound) (whole : e.left = []) :
    e.frame.payload.length ≤ kMaxPayload := by
  refine h.size ?_
  rw [h.written_whole whole]
  exact frameBytes_ne_nil e.frame

theorem Sound.written_front {e : Sending} (h : e.Sound) : e.written <+: frameBytes e.frame :=
  ⟨e.left.flatten, h.written_left⟩

theorem Sound.written_cut {e : Sending} (h : e.Sound) (part : e.left ≠ []) :
    e.written ≠ frameBytes e.frame := by
  intro all
  have left := h.written_left
  rw [all] at left
  have nil := List.append_right_eq_self.mp left
  cases hl : e.left with
  | nil => exact part hl
  | cons p ps =>
    rw [hl, List.flatten_cons] at nil
    exact h.pieces p (by simp [hl]) (List.append_eq_nil_iff.mp nil).1

theorem untorn {es : List Sending} (intact : ¬∃ e ∈ es, e.torn = true) :
    ∀ e ∈ es, e.torn = false := by
  intro e he
  by_contra torn
  exact intact ⟨e, he, by simpa using torn⟩

theorem torn_eq_false {e : Sending} : e.torn = false ↔ e.left = [] ∨ e.written = [] := by
  simp [torn, List.isEmpty_iff, or_iff_not_imp_left]

end Sending

/-- The bytes of two frames start alike only where the frames are one. -/
theorem frameBytes_append_inj {f g : Frame} {x y : Bytes} (hf : f.payload.length ≤ kMaxPayload)
    (hg : g.payload.length ≤ kMaxPayload) (h : frameBytes f ++ x = frameBytes g ++ y) :
    f = g ∧ x = y := by
  have ne : frameBytes f ++ x ≠ [] := by
    intro nil
    exact frameBytes_ne_nil f (List.append_eq_nil_iff.mp nil).1
  let c : TcpConnection := { arriving := [⟨frameBytes f ++ x, ne⟩] }
  have pending : c.pending = frameBytes f ++ x := by simp [c, TcpConnection.pending]
  obtain ⟨c₁, h₁, p₁, _⟩ := read_frame hf rfl pending
  obtain ⟨c₂, h₂, p₂, _⟩ := read_frame hg rfl (pending.trans h)
  rw [h₁] at h₂
  cases h₂
  exact ⟨rfl, p₁.symm.trans p₂⟩

namespace Wire

open Function

theorem whole_append {xs : List Sending} (ys : List Sending) (clean : ∀ e ∈ xs, e.torn = false) :
    whole (xs ++ ys) = whole xs ++ whole ys := by
  have all : ∀ e ∈ xs, (!e.torn) = true := by
    intro e he
    rw [clean e he]
    rfl
  rw [whole, whole, whole, List.takeWhile_append_of_pos all, List.takeWhile_eq_self_iff.mpr all,
    List.filter_append, List.map_append]

theorem whole_append_torn {xs : List Sending} (ys : List Sending) (h : ∃ e ∈ xs, e.torn = true) :
    whole (xs ++ ys) = whole xs := by
  induction xs with
  | nil =>
    obtain ⟨e, he, _⟩ := h
    cases he
  | cons x xs ih =>
    cases hx : x.torn with
    | true => simp [whole, hx]
    | false =>
      have later : ∃ e ∈ xs, e.torn = true := by
        obtain ⟨e, he, torn⟩ := h
        rcases List.mem_cons.mp he with rfl | later
        · rw [hx] at torn
          cases torn
        · exact ⟨e, later, torn⟩
      have same := ih later
      simp only [whole] at same
      cases hl : x.left.isEmpty <;> simp [whole, hx, hl, same]

theorem whole_grows (xs ys : List Sending) : whole xs <+: whole (xs ++ ys) := by
  by_cases h : ∃ e ∈ xs, e.torn = true
  · exact (whole_append_torn ys h).symm ▸ List.prefix_rfl
  · rw [whole_append ys (Sending.untorn h)]
    exact List.prefix_append _ _

theorem whole_concat_part {e : Sending} (xs : List Sending) (part : e.left ≠ []) :
    whole (xs ++ [e]) = whole xs := by
  by_cases h : ∃ x ∈ xs, x.torn = true
  · exact whole_append_torn [e] h
  · have none_ : whole [e] = [] := by
      cases ht : e.torn <;> simp [whole, ht, part]
    rw [whole_append [e] (Sending.untorn h), none_, List.append_nil]

/-- Behind the whole frames the stream goes on with the first torn one. -/
theorem written_split {entries : List Sending} (sound : ∀ e ∈ entries, e.Sound) :
    entries.flatMap Sending.written = (whole entries).flatMap frameBytes ++
      (entries.dropWhile fun e => !e.torn).flatMap Sending.written := by
  induction entries with
  | nil => rfl
  | cons e rest ih =>
    rw [List.forall_mem_cons] at sound
    have later := ih sound.2
    cases ht : e.torn with
    | true => simp [whole, ht]
    | false =>
      rw [List.flatMap_cons, later, ← List.append_assoc]
      have kept : (e :: rest).dropWhile (fun e => !e.torn) = rest.dropWhile fun e => !e.torn := by
        simp [ht]
      rw [kept]
      congr 1
      rcases Sending.torn_eq_false.mp ht with all | none_
      · have sent := sound.1.written_whole all
        simp [whole, ht, all, sent]
      · have part : e.left.isEmpty = false := by
          rw [List.isEmpty_eq_false_iff]
          intro all
          rw [sound.1.written_whole all] at none_
          exact frameBytes_ne_nil e.frame none_
        simp [whole, ht, part, none_]

theorem size_of_whole {entries : List Sending} (sound : ∀ e ∈ entries, e.Sound) :
    ∀ f ∈ whole entries, f.payload.length ≤ kMaxPayload := by
  intro f hf
  obtain ⟨e, he, rfl⟩ := List.mem_map.mp hf
  obtain ⟨early, all⟩ := List.mem_filter.mp he
  have known : e ∈ entries := (List.takeWhile_sublist _).subset early
  exact (sound e known).size_whole (List.isEmpty_iff.mp all)

/-! The lock: one call at a time writes. -/

structure Sound (s : Wire) : Prop where
  exclusive : ∀ t f left, s.calls t = some (.writing f left) → s.holder = some t
  held : ∀ t, s.holder = some t → ∃ f left, s.calls t = some (.writing f left)
  entries : ∀ e ∈ s.entered, e.Sound
  stream : s.sent = s.entered.flatMap Sending.written

section
variable {s : Wire} {t : Nat} {f : Frame} {left : List Bytes}

theorem current_writing (holder : s.holder = some t)
    (writing : s.calls t = some (.writing f left)) : s.current = [⟨t, f, left.isEmpty, left⟩] := by
  simp only [current, holder, writing]

theorem current_free (free : s.holder = none) : s.current = [] := by
  simp only [current, free]

theorem entered_leave (holder : s.holder = some t)
    (writing : s.calls t = some (.writing f left)) :
    (s.leave t ⟨t, f, left.isEmpty, left⟩).entered = s.entered := by
  rw [entered, entered, current_writing holder writing, current_free rfl, List.append_nil]
  rfl

end

theorem sound_init : Sound init := by
  constructor
  · intro t f left h
    cases h
  · intro t h
    cases h
  · intro e he
    cases he
  · rfl

theorem Sound.leave {s : Wire} (sound : s.Sound) {t : Nat} {f : Frame} {left : List Bytes}
    (holder : s.holder = some t) (writing : s.calls t = some (.writing f left)) :
    (s.leave t ⟨t, f, left.isEmpty, left⟩).Sound := by
  have same := entered_leave holder writing
  refine ⟨?_, ?_, ?_, ?_⟩
  · intro u g pieces others
    by_cases hu : u = t
    · subst hu
      have gone : update s.calls u none u = some (.writing g pieces) := others
      rw [update_self] at gone
      cases gone
    · have kept : update s.calls t none u = some (.writing g pieces) := others
      rw [update_of_ne hu] at kept
      have held := sound.exclusive u g pieces kept
      rw [holder] at held
      exact absurd (Option.some.inj held).symm hu
  · intro u held
    cases held
  · rw [same]
    exact sound.entries
  · rw [same]
    exact sound.stream

/-- What a step does to the calls that have held the mutex: nothing, or a call takes the mutex, or
the one that has it hands over some bytes. -/
def Enters (s s' : Wire) : Prop :=
  s'.entered = s.entered ∨
    (∃ e : Sending, e.left ≠ [] ∧ s'.entered = s.entered ++ [e]) ∨
    ∃ e e' : Sending, e.left ≠ [] ∧ s.entered = s.returned ++ [e] ∧ s'.entered = s.returned ++ [e']

section
variable {s : Wire} {t : Nat} {f : Frame}

theorem Sound.call (sound : s.Sound) (free : s.calls t = none) :
    Sound { s with calls := update s.calls t (some (.waiting f)) } ∧
      s.Enters { s with calls := update s.calls t (some (.waiting f)) } := by
  have other {u : Nat} {g : Frame} {left : List Bytes}
      (writing : s.calls u = some (.writing g left)) : u ≠ t := by
    rintro rfl
    rw [free] at writing
    cases writing
  have same : entered { s with calls := update s.calls t (some (.waiting f)) } = s.entered := by
    cases holder : s.holder with
    | none => simp [entered, current, holder]
    | some u =>
      obtain ⟨g, left, writing⟩ := sound.held u holder
      simp [entered, current, holder, other writing]
  refine ⟨⟨?_, ?_, ?_, ?_⟩, .inl same⟩
  · intro u g left writing
    by_cases hu : u = t
    · subst hu
      simp only [update_self] at writing
      cases writing
    · simp only [update_of_ne hu] at writing
      exact sound.exclusive u g left writing
  · intro u holder
    obtain ⟨g, left, writing⟩ := sound.held u holder
    exact ⟨g, left, (update_of_ne (other writing) _ _).trans writing⟩
  · rw [same]
    exact sound.entries
  · rw [same]
    exact sound.stream

theorem Sound.lock (sound : s.Sound) (free : s.holder = none) :
    Sound { s with calls := update s.calls t (some (.writing f (framePieces f))), holder := some t } ∧
      s.Enters { s with
        calls := update s.calls t (some (.writing f (framePieces f))), holder := some t } := by
  have nobody : s.current = [] := current_free free
  have nonempty : framePieces f ≠ [] := List.cons_ne_nil _ _
  let e : Sending := ⟨t, f, (framePieces f).isEmpty, framePieces f⟩
  have here : update s.calls t (some (.writing f (framePieces f))) t =
      some (.writing f (framePieces f)) := update_self _ _ _
  have more : entered { s with
      calls := update s.calls t (some (.writing f (framePieces f))), holder := some t } =
      s.entered ++ [e] := by
    rw [entered, entered, nobody, List.append_nil, current_writing rfl here]
  have written : e.written = [] := by
    rw [Sending.written, framePieces_flatten, Nat.sub_self, List.take_zero]
  have fresh : e.Sound :=
    ⟨framePieces_flatten f ▸ List.suffix_rfl, fun p hp => framePieces_ne_nil hp,
      .inr (framePieces_flatten f), rfl⟩
  refine ⟨⟨?_, ?_, ?_, ?_⟩, .inr (.inl ⟨e, nonempty, more⟩)⟩
  · intro u g left writing
    by_cases hu : u = t
    · rw [hu]
    · simp only [update_of_ne hu] at writing
      have holder := sound.exclusive u g left writing
      rw [free] at holder
      cases holder
  · intro u holder
    cases holder
    exact ⟨f, framePieces f, here⟩
  · rw [more]
    intro x hx
    rcases List.mem_append.mp hx with old | new
    · exact sound.entries x old
    · rw [List.mem_singleton.mp new]
      exact fresh
  · rw [more, List.flatMap_append, ← sound.stream]
    simp [written]

theorem Sound.take (sound : s.Sound) {n : Nat} {piece : Bytes} {rest : List Bytes}
    (writing : s.calls t = some (.writing f (piece :: rest))) (size : f.payload.length ≤ kMaxPayload)
    (shorter : n < piece.length) :
    Sound { s with
        sent := s.sent ++ piece.take (n + 1)
        calls := update s.calls t (some (.writing f (sendRest piece rest n))) } ∧
      s.Enters { s with
        sent := s.sent ++ piece.take (n + 1)
        calls := update s.calls t (some (.writing f (sendRest piece rest n))) } := by
  have holder := sound.exclusive t f (piece :: rest) writing
  let e : Sending := ⟨t, f, (piece :: rest).isEmpty, piece :: rest⟩
  let e' : Sending := ⟨t, f, (sendRest piece rest n).isEmpty, sendRest piece rest n⟩
  have before : s.entered = s.returned ++ [e] := by
    rw [entered, current_writing holder writing]
  have here : update s.calls t (some (.writing f (sendRest piece rest n))) t =
      some (.writing f (sendRest piece rest n)) := update_self _ _ _
  have after : entered { s with
      sent := s.sent ++ piece.take (n + 1)
      calls := update s.calls t (some (.writing f (sendRest piece rest n))) } =
      s.returned ++ [e'] := by
    simp only [entered, current, holder, update_self]
    rfl
  have old : e.Sound := sound.entries e (by rw [before]; simp)
  have pieces : ∀ p ∈ rest, p ≠ [] := fun p hp => old.pieces p (List.mem_cons_of_mem _ hp)
  have handed := sendRest_flatten piece rest n
  have new : e'.Sound := by
    refine ⟨?_, sendRest_ne_nil shorter pieces, .inl size, rfl⟩
    obtain ⟨front, split⟩ := old.suffix
    refine ⟨front ++ piece.take (n + 1), ?_⟩
    rw [List.append_assoc, handed]
    exact split
  have written : e'.written = e.written ++ piece.take (n + 1) := by
    have whole := new.written_left.trans old.written_left.symm
    have left : e.left.flatten = piece.take (n + 1) ++ e'.left.flatten := handed.symm
    rw [left, ← List.append_assoc] at whole
    exact List.append_cancel_right whole
  refine ⟨⟨?_, ?_, ?_, ?_⟩, .inr (.inr ⟨e, e', List.cons_ne_nil _ _, before, after⟩)⟩
  · intro u g left others
    by_cases hu : u = t
    · rw [hu]
      exact holder
    · simp only [update_of_ne hu] at others
      exact sound.exclusive u g left others
  · intro u held
    rw [holder] at held
    cases held
    exact ⟨f, sendRest piece rest n, here⟩
  · rw [after]
    intro x hx
    rcases List.mem_append.mp hx with earlier | last
    · exact sound.entries x (by rw [before]; exact List.mem_append_left _ earlier)
    · rw [List.mem_singleton.mp last]
      exact new
  · rw [after, sound.stream, before]
    simp [written]

end

theorem Sound.step {s : Wire} (sound : s.Sound) (a : WireStep) :
    (s.step a).Sound ∧ s.Enters (s.step a) := by
  have went := s.went_step a
  generalize s.step a = s' at went
  cases went with
  | idle => exact ⟨sound, .inl rfl⟩
  | call free => exact sound.call free
  | lock _ free => exact sound.lock free
  | take writing size shorter => exact sound.take writing size shorter
  | refuse writing | finish writing =>
    have holder := sound.exclusive _ _ _ writing
    exact ⟨sound.leave holder writing, .inl (entered_leave holder writing)⟩
  | close | read | failed =>
    exact ⟨⟨sound.exclusive, sound.held, sound.entries, sound.stream⟩, .inl rfl⟩

end Wire

end Warmth
