import Warmth.ByteCursor

/-! Readers by the bytes they move past: which text they read, and what holds of the bytes left. -/

namespace Codec.Reader

variable {ε α β : Type}

/-- With the bytes `w` and then `post` unread, the reader reads `w` and returns `a`. -/
def Eats (r : Reader ε α) (w : Bytes) (a : α) (post : Bytes) : Prop :=
  ∀ c : Cursor, c.Within → c.unread = w ++ post → r c = .ok (a, c.advance w.length)

/-- Where `P` holds of the unread bytes and the reader returns, `Q` holds of its result and the
bytes it leaves. -/
def Leaves (P : Bytes → Prop) (r : Reader ε α) (Q : α → Bytes → Prop) : Prop :=
  ∀ c a c', c.Within → P c.unread → r c = .ok (a, c') → c'.Within ∧ Q a c'.unread

theorem advance_advance (c : Cursor) (m n : Nat) : (c.advance m).advance n = c.advance (m + n) := by
  simp only [Cursor.advance, Nat.add_assoc]

theorem unread_advance_append {c : Cursor} {w post : Bytes} (h : c.unread = w ++ post) :
    (c.advance w.length).unread = post := by
  rw [c.unread_advance, h, List.drop_left]

theorem within_advance {c : Cursor} {w post : Bytes} (hc : c.Within) (h : c.unread = w ++ post) :
    (c.advance w.length).Within :=
  hc.advance (by rw [h, List.length_append]; omega)

theorem Eats.pure (a : α) (post : Bytes) : Eats (Pure.pure a : Reader ε α) [] a post :=
  fun _ _ _ => rfl

theorem Eats.bind {r : Reader ε α} {k : α → Reader ε β} {w w' post : Bytes} {a : α} {b : β}
    (hr : Eats r w a (w' ++ post)) (hk : Eats (k a) w' b post) :
    Eats (r >>= k) (w ++ w') b post := by
  intro c hc h
  rw [List.append_assoc] at h
  rw [bind_apply, hr c hc h, List.length_append, ← advance_advance]
  exact hk _ (within_advance hc h) (unread_advance_append h)

/-- A step that reads nothing. -/
theorem Eats.look {r : Reader ε α} {k : α → Reader ε β} {w post : Bytes} {a : α} {b : β}
    (hr : Eats r [] a (w ++ post)) (hk : Eats (k a) w b post) : Eats (r >>= k) w b post :=
  Eats.bind hr hk

theorem Eats.last {r : Reader ε α} {k : α → Reader ε β} {w post : Bytes} {a : α} {b : β}
    (hr : Eats r w a post) (hk : Eats (k a) [] b post) : Eats (r >>= k) w b post := by
  have whole : Eats (r >>= k) (w ++ []) b post := Eats.bind hr hk
  rwa [List.append_nil] at whole

/-- A look at the cursor itself. -/
theorem Eats.get {k : Cursor → Reader ε β} {w post : Bytes} {b : β}
    (h : ∀ c : Cursor, c.Within → c.unread = w ++ post → Eats (k c) w b post) :
    Eats (MonadState.get >>= k) w b post :=
  fun c hc hu => h c hc hu c hc hu

theorem Leaves.pure {P : Bytes → Prop} {Q : α → Bytes → Prop} {a : α} (h : ∀ u, P u → Q a u) :
    Leaves P (Pure.pure a : Reader ε α) Q := by
  intro c b c' hc hP hr
  cases hr
  exact ⟨hc, h _ hP⟩

theorem Leaves.bind {P : Bytes → Prop} {r : Reader ε α} {Q : α → Bytes → Prop} {k : α → Reader ε β}
    {R : β → Bytes → Prop} (hr : Leaves P r Q) (hk : ∀ a, Leaves (Q a) (k a) R) :
    Leaves P (r >>= k) R := by
  intro c b c' hc hP h
  rw [bind_apply] at h
  cases he : r c with
  | error e => rw [he] at h; cases h
  | ok p =>
    rw [he] at h
    obtain ⟨hc', hQ⟩ := hr c p.1 p.2 hc hP he
    exact hk p.1 p.2 b c' hc' hQ h

theorem Leaves.imp {P P' : Bytes → Prop} {r : Reader ε α} {Q Q' : α → Bytes → Prop}
    (h : Leaves P r Q) (hP : ∀ u, P' u → P u) (hQ : ∀ a u, Q a u → Q' a u) : Leaves P' r Q' := by
  intro c a c' hc hp hr
  obtain ⟨hc', hq⟩ := h c a c' hc (hP _ hp) hr
  exact ⟨hc', hQ a _ hq⟩

theorem Leaves.pre {P P' : Bytes → Prop} {r : Reader ε α} {Q : α → Bytes → Prop} (h : Leaves P r Q)
    (hP : ∀ u, P' u → P u) : Leaves P' r Q :=
  h.imp hP fun _ _ hq => hq

theorem Leaves.stop {P : Bytes → Prop} {Q : α → Bytes → Prop} (w : Stop ε) :
    Leaves P (stop w : Reader ε α) Q := by
  intro c a c' _ _ h
  cases h

/-- A fact that is not about the unread bytes. -/
theorem Leaves.given {p : Prop} {P : Bytes → Prop} {r : Reader ε α} {Q : α → Bytes → Prop}
    (h : p → Leaves P r Q) : Leaves (fun u => p ∧ P u) r Q :=
  fun c a c' hc hP hr => h hP.1 c a c' hc hP.2 hr

theorem Leaves.of_eats {P : Bytes → Prop} {r : Reader ε α} {Q : α → Bytes → Prop}
    (h : ∀ u, P u → ∃ w a post, u = w ++ post ∧ Eats r w a post ∧ Q a post) : Leaves P r Q := by
  intro c a c' hc hP hr
  obtain ⟨w, b, post, hu, eats, hQ⟩ := h c.unread hP
  rw [eats c hc hu] at hr
  cases hr
  rw [unread_advance_append hu]
  exact ⟨within_advance hc hu, hQ⟩

theorem Leaves.get {P : Bytes → Prop} {k : Cursor → Reader ε β} {R : β → Bytes → Prop}
    (h : ∀ c, Leaves P (k c) R) : Leaves P (MonadState.get >>= k) R :=
  fun c b c' hc hP hr => h c c b c' hc hP hr

theorem leaves_sub {P : Bytes → Prop} (m n : Nat) : Leaves P (sub m n : Reader ε Nat) (fun _ => P) := by
  unfold sub
  split
  · exact Leaves.pure fun _ hu => hu
  · exact Leaves.stop _

theorem leaves_byteAt {P : Bytes → Prop} (k : Nat) :
    Leaves P (byteAt k : Reader ε UInt8) (fun _ => P) := by
  intro c b c' hc hP hr
  unfold byteAt at hr
  split at hr
  next =>
    cases hr
    exact ⟨hc, hP⟩
  next => cases hr

theorem leaves_slice {P : Bytes → Prop} (k n : Nat) :
    Leaves P (slice k n : Reader ε Bytes) (fun _ => P) := by
  induction n generalizing k with
  | zero => exact Leaves.pure fun _ hu => hu
  | succ n ih =>
    refine Leaves.bind (leaves_byteAt k) fun b => Leaves.bind (ih (k + 1)) fun bs => ?_
    exact Leaves.pure fun _ hu => hu

/-- The byte at a cursor with bytes left. -/
theorem byteAt_index {c : Cursor} {b : UInt8} {rest : Bytes} (h : c.unread = b :: rest) :
    c.index < c.bytes.length ∧ (byteAt c.index : Reader ε UInt8) c = .ok (b, c) := by
  refine ⟨?_, byteAt_eq h⟩
  by_contra past
  rw [Cursor.unread, List.drop_eq_nil_of_le (by omega)] at h
  cases h

theorem index_of_unread_nil {c : Cursor} (h : c.unread = []) : c.bytes.length ≤ c.index :=
  List.drop_eq_nil_iff.mp h

end Codec.Reader
