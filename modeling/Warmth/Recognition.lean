import Warmth.Consumption

/-! Readers that return or stop for a known reason: what was read, whatever the bytes are. -/

namespace Codec.Reader

variable {ε α β : Type}

/-- Where `P` holds of the unread bytes the reader moves past some of them, with `Q` of its result,
the bytes read and the bytes left, or it stops for a reason in `E`. -/
def Reads (E : Stop ε → Prop) (P : Bytes → Prop) (r : Reader ε α) (Q : α → Bytes → Bytes → Prop) :
    Prop :=
  ∀ c : Cursor, c.Within → P c.unread →
    (∃ a w post, c.unread = w ++ post ∧ r c = .ok (a, c.advance w.length) ∧ Q a w post) ∨
      ∃ e, E e ∧ r c = .error e

/-- With the bytes `u` unread the reader stops, for a reason in `E`. -/
def Refuses (E : Stop ε → Prop) (r : Reader ε α) (u : Bytes) : Prop :=
  ∀ c : Cursor, c.Within → c.unread = u → ∃ e, E e ∧ r c = .error e

/-- With `w` and then `post` unread the reader goes on as `r'` does behind `w`. -/
def Steps (r : Reader ε α) (w : Bytes) (r' : Reader ε α) (post : Bytes) : Prop :=
  ∀ c : Cursor, c.Within → c.unread = w ++ post → r c = r' (c.advance w.length)

section
variable {E : Stop ε → Prop} {P : Bytes → Prop} {r : Reader ε α} {Q : α → Bytes → Bytes → Prop}

theorem Reads.pure {a : α} (h : ∀ u, P u → Q a [] u) : Reads E P (Pure.pure a) Q :=
  fun c _ hP => Or.inl ⟨a, [], c.unread, rfl, rfl, h c.unread hP⟩

/-- What is known of all the bytes stays known behind those that the first reader has read. -/
theorem Reads.bind {k : α → Reader ε β} {R : β → Bytes → Bytes → Prop} (hr : Reads E P r Q)
    (hk : ∀ a w, Reads E (fun u => P (w ++ u) ∧ Q a w u) (k a) fun b w' post => R b (w ++ w') post) :
    Reads E P (r >>= k) R := by
  intro c hc hP
  rcases hr c hc hP with ⟨a, w, post, hu, run, hQ⟩ | ⟨e, he, run⟩
  · have rest := unread_advance_append hu
    have within := within_advance hc hu
    rcases hk a w (c.advance w.length) within (by rw [rest]; exact ⟨hu ▸ hP, hQ⟩) with
      ⟨b, w', post', hu', run', hR⟩ | ⟨e, he, run'⟩
    · refine Or.inl ⟨b, w ++ w', post', ?_, ?_, hR⟩
      · rw [hu, ← rest, hu', List.append_assoc]
      · rw [bind_apply, run, List.length_append, ← advance_advance]
        exact run'
    · refine Or.inr ⟨e, he, ?_⟩
      rw [bind_apply, run]
      exact run'
  · refine Or.inr ⟨e, he, ?_⟩
    rw [bind_apply, run]

theorem Reads.imp {P' : Bytes → Prop} {Q' : α → Bytes → Bytes → Prop} (h : Reads E P r Q)
    (hP : ∀ u, P' u → P u) (hQ : ∀ a w post, P' (w ++ post) → Q a w post → Q' a w post) :
    Reads E P' r Q' := by
  intro c hc hp
  rcases h c hc (hP _ hp) with ⟨a, w, post, hu, run, hq⟩ | stopped
  · exact Or.inl ⟨a, w, post, hu, run, hQ a w post (hu ▸ hp) hq⟩
  · exact Or.inr stopped

theorem Reads.pre {P' : Bytes → Prop} (h : Reads E P r Q) (hP : ∀ u, P' u → P u) : Reads E P' r Q :=
  h.imp hP fun _ _ _ _ hq => hq

theorem Reads.stop {w : Stop ε} (h : E w) : Reads E P (stop w) Q :=
  fun _ _ _ => Or.inr ⟨w, h, rfl⟩

/-- A case in which the unread bytes are known. -/
theorem Reads.of_eats (h : ∀ u, P u → ∃ w a post, u = w ++ post ∧ Eats r w a post ∧ Q a w post) :
    Reads E P r Q := by
  intro c hc hP
  obtain ⟨w, a, post, hu, eats, hQ⟩ := h c.unread hP
  exact Or.inl ⟨a, w, post, hu, eats c hc hu, hQ⟩

theorem Reads.get {k : Cursor → Reader ε β} {R : β → Bytes → Bytes → Prop}
    (h : ∀ c : Cursor, Reads E (fun u => P u ∧ u = c.unread) (k c) R) :
    Reads E P (MonadState.get >>= k) R :=
  fun c hc hP => h c c hc ⟨hP, rfl⟩

/-- What follows from `P` and is not about the unread bytes. -/
theorem Reads.known {p : Prop} (h : ∀ u, P u → p) (hr : p → Reads E P r Q) : Reads E P r Q :=
  fun c hc hP => hr (h _ hP) c hc hP

/-- A result that the bytes read determine. -/
theorem Reads.value {Q' : α → Bytes → Bytes → Prop} (h : Reads E P r Q)
    (hv : ∀ a w post, Q a w post → ∃ b, Eats r w b post ∧ Q' b w post) : Reads E P r Q' := by
  intro c hc hP
  rcases h c hc hP with ⟨a, w, post, hu, -, hQ⟩ | stopped
  · obtain ⟨b, eats, hQ'⟩ := hv a w post hQ
    exact Or.inl ⟨b, w, post, hu, eats c hc hu, hQ'⟩
  · exact Or.inr stopped

theorem Refuses.bind {k : α → Reader ε β} {u : Bytes} (h : Refuses E r u) : Refuses E (r >>= k) u := by
  intro c hc hu
  obtain ⟨e, he, run⟩ := h c hc hu
  refine ⟨e, he, ?_⟩
  rw [bind_apply, run]

theorem Refuses.get {k : Cursor → Reader ε β} {u : Bytes} (h : ∀ c, Refuses E (k c) u) :
    Refuses E (MonadState.get >>= k) u :=
  fun c hc hu => h c c hc hu

theorem Eats.steps {k : α → Reader ε β} {w post : Bytes} {a : α} (h : Eats r w a post) :
    Steps (r >>= k) w (k a) post := by
  intro c hc hu
  rw [bind_apply, h c hc hu]

theorem Steps.trans {r' r'' : Reader ε α} {w w' post : Bytes} (h : Steps r w r' (w' ++ post))
    (h' : Steps r' w' r'' post) : Steps r (w ++ w') r'' post := by
  intro c hc hu
  rw [List.append_assoc] at hu
  rw [h c hc hu, h' _ (within_advance hc hu) (unread_advance_append hu), advance_advance,
    List.length_append]

theorem Steps.eats {r' : Reader ε α} {w w' post : Bytes} {a : α} (h : Steps r w r' (w' ++ post))
    (h' : Eats r' w' a post) : Eats r (w ++ w') a post := by
  intro c hc hu
  rw [List.append_assoc] at hu
  rw [h c hc hu, h' _ (within_advance hc hu) (unread_advance_append hu), advance_advance,
    List.length_append]

theorem Steps.refuses {r' : Reader ε α} {w post : Bytes} (h : Steps r w r' post)
    (h' : Refuses E r' post) : Refuses E r (w ++ post) := by
  intro c hc hu
  rw [h c hc hu]
  exact h' _ (within_advance hc hu) (unread_advance_append hu)

end

end Codec.Reader
