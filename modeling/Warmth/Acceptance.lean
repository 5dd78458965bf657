import Warmth.Bytes

/-! Decoders compared by the bytes they accept: the errors of two decoders may differ, and so may
the order in which they make their checks. -/

namespace Codec

variable {ε ε' α β γ δ : Type}

/-- Given `p`, the decoder `d` accepts what `d'` accepts with a result that passes `P`; where `d'`
returns `b`, it returns `f b`. -/
def Checks (p : Prop) (P : β → Prop) (f : β → α) (d : Decoder ε α) (d' : Decoder ε' β) : Prop :=
  ∀ s a rest, (p ∧ d s = .ok (a, rest)) ↔ ∃ b, d' s = .ok (b, rest) ∧ P b ∧ f b = a

/-- Both accept the same bytes; where `d'` returns `b`, the decoder `d` returns `f b`. -/
def Maps (f : β → α) (d : Decoder ε α) (d' : Decoder ε' β) : Prop :=
  ∀ s a rest, d s = .ok (a, rest) ↔ ∃ b, d' s = .ok (b, rest) ∧ f b = a

/-- Both accept the same bytes with the same results. -/
def Same (d : Decoder ε α) (d' : Decoder ε' α) : Prop :=
  ∀ s a rest, d s = .ok (a, rest) ↔ d' s = .ok (a, rest)

theorem bind_ok {d : Decoder ε α} {k : α → Decoder ε β} {s rest : Bytes} {b : β} :
    (d >>= k) s = .ok (b, rest) ↔ ∃ a mid, d s = .ok (a, mid) ∧ k a mid = .ok (b, rest) := by
  rw [bind_apply]
  cases hd : d s with
  | ok p =>
    constructor
    · exact fun h => ⟨p.1, p.2, rfl, h⟩
    · rintro ⟨a, mid, he, h⟩
      cases he
      exact h
  | error e => simp

theorem pure_ok {a b : α} {s rest : Bytes} :
    (pure a : Decoder ε α) s = .ok (b, rest) ↔ a = b ∧ s = rest := by
  change (.ok (a, s) : Except ε (α × Bytes)) = .ok (b, rest) ↔ _
  simp

theorem ensure_ok {e : ε} {ok : Bool} {s rest : Bytes} :
    ensure e ok s = .ok ((), rest) ↔ ok = true ∧ s = rest := by
  unfold ensure
  cases ok with
  | true => simp [pure_ok]
  | false => simp [fail]

theorem relabel_ok {f : ε → ε} {d : Decoder ε α} {s rest : Bytes} {a : α} :
    relabel f d s = .ok (a, rest) ↔ d s = .ok (a, rest) := by
  unfold relabel
  cases d s with
  | ok p => exact Iff.rfl
  | error e => simp

theorem take_ok {e : ε} {n : Nat} {s rest bs : Bytes} :
    take e n s = .ok (bs, rest) ↔ bs.length = n ∧ s = bs ++ rest := by
  constructor
  · intro h
    unfold take at h
    split at h
    next hn =>
      cases h
      exact ⟨List.length_take_of_le hn, (List.take_append_drop n s).symm⟩
    next => cases h
  · rintro ⟨rfl, rfl⟩
    exact reads_take e bs rest

/-- What a number is read from is what it is written as. -/
theorem number_ok {e : ε} {n v : Nat} {s rest : Bytes} :
    number e n s = .ok (v, rest) ↔ v < 256 ^ n ∧ s = beBytes n v ++ rest := by
  constructor
  · intro h
    obtain ⟨bs, mid, hb, hv⟩ := bind_ok.mp h
    obtain ⟨hlen, rfl⟩ := take_ok.mp hb
    obtain ⟨rfl, rfl⟩ := pure_ok.mp hv
    exact ⟨hlen ▸ ofBe_lt bs, by rw [beBytes_ofBe hlen]⟩
  · rintro ⟨hv, rfl⟩
    exact reads_number hv rest

theorem Same.refl (d : Decoder ε α) : Same d d := fun _ _ _ => Iff.rfl

theorem Same.fail (e : ε) (e' : ε') : Same (fail e : Decoder ε α) (fail e' : Decoder ε' α) := by
  intro s a rest
  simp [Codec.fail]

theorem Same.pure (a : α) : Same (pure a : Decoder ε α) (pure a : Decoder ε' α) := by
  intro s b rest
  rw [pure_ok, pure_ok]

theorem Same.bind {d : Decoder ε α} {d' : Decoder ε' α} {k : α → Decoder ε β}
    {k' : α → Decoder ε' β} (hd : Same d d') (hk : ∀ a, Same (k a) (k' a)) :
    Same (d >>= k) (d' >>= k') := by
  intro s b rest
  rw [bind_ok, bind_ok]
  constructor
  · rintro ⟨a, mid, h, hb⟩
    exact ⟨a, mid, (hd s a mid).mp h, (hk a mid b rest).mp hb⟩
  · rintro ⟨a, mid, h, hb⟩
    exact ⟨a, mid, (hd s a mid).mpr h, (hk a mid b rest).mpr hb⟩

theorem same_take (e : ε) (e' : ε') (n : Nat) : Same (take e n) (take e' n) := by
  intro s a rest
  unfold take
  split
  · simp
  · simp

theorem same_u8 (e : ε) (e' : ε') : Same (u8 e) (u8 e') := by
  intro s a rest
  cases s with
  | nil => simp [u8]
  | cons b s => simp [u8]

theorem same_number (e : ε) (e' : ε') (n : Nat) : Same (number e n) (number e' n) :=
  (same_take e e' n).bind fun _ => Same.pure _

theorem same_ensure (e : ε) (e' : ε') (ok : Bool) : Same (ensure e ok) (ensure e' ok) := by
  intro s a rest
  rw [ensure_ok, ensure_ok]

theorem same_known [ByteEnum α] (e : ε) (e' : ε') (b : UInt8) :
    Same (known e b : Decoder ε α) (known e' b) := by
  unfold known
  split
  · exact Same.pure _
  · exact Same.fail e e'

theorem same_enumerator [ByteEnum α] (t i : ε) (t' i' : ε') :
    Same (enumerator t i : Decoder ε α) (enumerator t' i') :=
  (same_u8 t t').bind fun b => same_known i i' b

theorem Same.maps {d : Decoder ε α} {d' : Decoder ε' α} (h : Same d d') : Maps id d d' := by
  intro s a rest
  simp [h s a rest]

/-- One part after the other. What every result of the second decoder's first part satisfies may
be used in comparing the rest. -/
theorem Checks.bind {p : Prop} {P : γ → Prop} {R : β → Prop} {f : γ → α} {g : β → δ}
    {d : Decoder ε δ} {d' : Decoder ε' β} {k : δ → Decoder ε α} {k' : β → Decoder ε' γ}
    (hd : Maps g d d') (hr : Ensures d' R) (hk : ∀ b, R b → Checks p P f (k (g b)) (k' b)) :
    Checks p P f (d >>= k) (d' >>= k') := by
  intro s a rest
  simp only [bind_ok]
  constructor
  · rintro ⟨hp, b, mid, hb, ha⟩
    obtain ⟨c, hc, rfl⟩ := (hd s b mid).mp hb
    obtain ⟨r, hr', hP, hf⟩ := (hk c (hr s c mid hc) mid a rest).mp ⟨hp, ha⟩
    exact ⟨r, ⟨c, mid, hc, hr'⟩, hP, hf⟩
  · rintro ⟨r, ⟨c, mid, hc, hr'⟩, hP, hf⟩
    obtain ⟨hp, ha⟩ := (hk c (hr s c mid hc) mid a rest).mpr ⟨r, hr', hP, hf⟩
    exact ⟨hp, g c, mid, (hd s (g c) mid).mpr ⟨c, hc, rfl⟩, ha⟩

section

variable {p : Prop} {P : γ → Prop} {f : γ → α}

theorem Checks.step {d : Decoder ε β} {d' : Decoder ε' β} {k : β → Decoder ε α}
    {k' : β → Decoder ε' γ} (hd : Same d d') (hk : ∀ b, Checks p P f (k b) (k' b)) :
    Checks p P f (d >>= k) (d' >>= k') :=
  Checks.bind hd.maps (Ensures.trivial d') fun b _ => hk b

theorem Checks.pure {a : α} {c : γ} (hp : p ↔ P c) (hf : f c = a) :
    Checks p P f (pure a : Decoder ε α) (pure c : Decoder ε' γ) := by
  intro s b rest
  simp only [pure_ok]
  constructor
  · rintro ⟨h, rfl, rfl⟩
    exact ⟨c, ⟨rfl, rfl⟩, hp.mp h, hf⟩
  · rintro ⟨r, ⟨rfl, rfl⟩, h, rfl⟩
    exact ⟨hp.mpr h, hf.symm, rfl⟩

/-- A check that only the first decoder makes is one its results have to pass. -/
theorem Checks.ensure {e : ε} {ok : Bool} {k : Unit → Decoder ε α} {d' : Decoder ε' γ}
    (hk : Checks (p ∧ ok = true) P f (k ()) d') : Checks p P f (ensure e ok >>= k) d' := by
  intro s a rest
  rw [← hk s a rest, bind_ok, and_assoc]
  refine and_congr_right fun _ => ?_
  constructor
  · rintro ⟨_, mid, h, ha⟩
    obtain ⟨hok, rfl⟩ := ensure_ok.mp h
    exact ⟨hok, ha⟩
  · rintro ⟨hok, ha⟩
    exact ⟨(), s, ensure_ok.mpr ⟨hok, rfl⟩, ha⟩

/-- Where the first decoder has given up, the second one must not accept either. -/
theorem Checks.fail {e : ε} {d' : Decoder ε' γ} (h : Ensures d' fun _ => False) :
    Checks p P f (fail e) d' := by
  intro s a rest
  constructor
  · rintro ⟨_, ha⟩
    cases ha
  · rintro ⟨c, hc, _⟩
    exact (h s c rest hc).elim

end

theorem Checks.maps {f : γ → α} {d : Decoder ε α} {d' : Decoder ε' γ}
    (h : Checks True (fun _ => True) f d d') : Maps f d d' := by
  intro s a rest
  simpa using h s a rest

theorem Maps.times {f : γ → α} {d : Decoder ε α} {d' : Decoder ε' γ} (same : Maps f d d') (n : Nat) :
    Maps (List.map f) (times d n) (times d' n) := by
  induction n with
  | zero => exact Checks.maps (Checks.pure Iff.rfl rfl)
  | succ n ih =>
    refine Checks.maps (Checks.bind same (Ensures.trivial _) fun a _ => ?_)
    exact Checks.bind ih (Ensures.trivial _) fun as _ => Checks.pure Iff.rfl rfl

/-! Decoders compared with the bytes they read. -/

/-- The bytes that the decoder reads and its result are related by `P`. -/
def Spells (d : Decoder ε α) (P : Bytes → α → Prop) : Prop :=
  ∀ s a rest, d s = .ok (a, rest) → ∃ w, s = w ++ rest ∧ P w a

/-- What the decoder accepts is what `enc` writes. -/
def Exact (d : Decoder ε α) (enc : α → Bytes) : Prop := Spells d fun w a => w = enc a

theorem Exact.apply {d : Decoder ε α} {enc : α → Bytes} {s rest : Bytes} {a : α} (hd : Exact d enc)
    (h : d s = .ok (a, rest)) : s = enc a ++ rest := by
  obtain ⟨_, hs, rfl⟩ := hd s a rest h
  exact hs

theorem Spells.bind {d : Decoder ε α} {k : α → Decoder ε β} {P : Bytes → α → Prop}
    {Q : Bytes → β → Prop} (hd : Spells d P)
    (hk : ∀ w a, P w a → Spells (k a) fun w' b => Q (w ++ w') b) : Spells (d >>= k) Q := by
  intro s b rest h
  obtain ⟨a, mid, ha, hb⟩ := bind_ok.mp h
  obtain ⟨w, rfl, hP⟩ := hd s a mid ha
  obtain ⟨w', rfl, hQ⟩ := hk w a hP mid b rest hb
  exact ⟨w ++ w', (List.append_assoc _ _ _).symm, hQ⟩

theorem Exact.bind {d : Decoder ε α} {enc : α → Bytes} {k : α → Decoder ε β} {Q : Bytes → β → Prop}
    (hd : Exact d enc) (hk : ∀ a, Spells (k a) fun w b => Q (enc a ++ w) b) :
    Spells (d >>= k) Q := by
  refine Spells.bind hd fun w a hw => ?_
  subst hw
  exact hk a

theorem Spells.pure {P : Bytes → α → Prop} {a : α} (h : P [] a) :
    Spells (pure a : Decoder ε α) P := by
  intro s b rest hb
  obtain ⟨rfl, rfl⟩ := pure_ok.mp hb
  exact ⟨[], rfl, h⟩

/-- A check, which reads nothing and may be relied on from then on. -/
theorem Spells.check {e : ε} {ok : Bool} {k : Unit → Decoder ε α} {P : Bytes → α → Prop}
    (hk : ok = true → Spells (k ()) P) : Spells (ensure e ok >>= k) P := by
  intro s a rest h
  obtain ⟨_, mid, he, ha⟩ := bind_ok.mp h
  obtain ⟨hok, rfl⟩ := ensure_ok.mp he
  exact hk hok s a rest ha

theorem Spells.imp {d : Decoder ε α} {P Q : Bytes → α → Prop} (hd : Spells d P)
    (h : ∀ w a, P w a → Q w a) : Spells d Q := by
  intro s a rest hs
  obtain ⟨w, hw, hP⟩ := hd s a rest hs
  exact ⟨w, hw, h w a hP⟩

theorem Spells.relabel {d : Decoder ε α} {P : Bytes → α → Prop} (hd : Spells d P) (f : ε → ε) :
    Spells (relabel f d) P := by
  intro s a rest hs
  unfold Codec.relabel at hs
  cases h : d s with
  | ok p =>
    rw [h] at hs
    cases hs
    exact hd s a rest h
  | error e => rw [h] at hs; cases hs

theorem exact_number (e : ε) (n : Nat) : Exact (number e n) (beBytes n) :=
  fun _ v _ h => ⟨beBytes n v, (number_ok.mp h).2, rfl⟩

theorem exact_u8 (e : ε) : Exact (u8 e) fun b => [b] := by
  intro s b rest h
  cases s with
  | nil => cases h
  | cons c s =>
    cases h
    exact ⟨[b], rfl, rfl⟩

theorem toByte_of_ofByte [ByteEnum α] (distinct : (ByteEnum.values : List α).Nodup) {b : UInt8}
    {a : α} (h : ofByte b = some a) : toByte a = b := by
  apply UInt8.toNat_inj.mp
  have found : (ByteEnum.values : List α)[b.toNat]? = some a := h
  obtain ⟨inside, _⟩ := List.getElem?_eq_some_iff.mp found
  exact ((List.getElem?_inj inside distinct).mp (found.trans (ByteEnum.get_toByte a).symm)).symm

theorem spells_known [ByteEnum α] (distinct : (ByteEnum.values : List α).Nodup) (e : ε) (b : UInt8) :
    Spells (known e b : Decoder ε α) fun w a => w = [] ∧ toByte a = b := by
  unfold known
  split
  next a h => exact Spells.pure ⟨rfl, toByte_of_ofByte distinct h⟩
  next =>
    intro s a rest h
    cases h

theorem exact_enumerator [ByteEnum α] (distinct : (ByteEnum.values : List α).Nodup) (t i : ε) :
    Exact (enumerator t i : Decoder ε α) fun a => [toByte a] := by
  refine Exact.bind (exact_u8 t) fun b => (spells_known distinct i b).imp ?_
  rintro w a ⟨rfl, rfl⟩
  rfl

theorem spells_times {d : Decoder ε α} {enc : α → Bytes} {P : α → Prop}
    (hd : Spells d fun w a => w = enc a ∧ P a) (n : Nat) :
    Spells (times d n) fun w xs => w = xs.flatMap enc ∧ xs.length = n ∧ ∀ x ∈ xs, P x := by
  induction n with
  | zero => exact Spells.pure ⟨rfl, rfl, by simp⟩
  | succ n ih =>
    refine Spells.bind hd fun w a ha => Spells.bind ih fun w' xs hw => Spells.pure ?_
    obtain ⟨rfl, first⟩ := ha
    obtain ⟨rfl, rfl, later⟩ := hw
    refine ⟨by rw [List.append_nil, List.flatMap_cons], rfl, ?_⟩
    exact List.forall_mem_cons.mpr ⟨first, later⟩

end Codec
