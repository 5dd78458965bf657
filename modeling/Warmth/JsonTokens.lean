import Warmth.Consumption
import Warmth.JsonParser

namespace Warmth.Json

open Codec Codec.Reader Numerals

namespace Parser

variable {α : Type}

theorem eats_peek (post : Bytes) : Eats peek [] (post.headD 0) post := by
  intro c hc h
  rw [List.nil_append] at h
  cases post with
  | nil =>
    have done := index_of_unread_nil h
    change (if c.index < c.bytes.length then byteAt c.index else pure 0 : Parser UInt8) c = _
    rw [if_neg (by omega)]
    rfl
  | cons b post =>
    obtain ⟨inside, byte⟩ := byteAt_index (ε := ParseError) h
    change (if c.index < c.bytes.length then byteAt c.index else pure 0 : Parser UInt8) c = _
    rw [if_pos inside, byte]
    rfl

theorem take_apply {c : Cursor} {b : UInt8} {rest : Bytes} (h : c.unread = b :: rest) :
    take c = .ok (b, c.advance 1) := by
  obtain ⟨inside, byte⟩ := byteAt_index (ε := ParseError) h
  change (if c.bytes.length ≤ c.index then fail "unexpected end" else
    byteAt c.index >>= fun b => modify (fun c => c.advance 1) >>= fun _ => pure b : Parser UInt8) c = _
  rw [if_neg (by omega), Reader.bind_apply, byte]
  rfl

theorem eats_take (b : UInt8) (post : Bytes) : Eats take [b] b post :=
  fun _ _ h => take_apply h

theorem eats_skipIf {p : UInt8 → Bool} {b : UInt8} (h : p b = true) (post : Bytes) :
    Eats (skipIf p) [b] true post := by
  refine Eats.look (eats_peek (b :: post)) ?_
  change Eats (if p b then _ else _) [b] true post
  rw [if_pos h]
  exact fun c _ _ => rfl

theorem eats_skipIf_not {p : UInt8 → Bool} {post : Bytes} (h : p (post.headD 0) = false) :
    Eats (skipIf p) [] false post := by
  refine Eats.look (eats_peek post) ?_
  rw [h]
  exact Eats.pure false post

theorem eats_skipWhile {p : UInt8 → Bool} {w post : Bytes} (all : ∀ b ∈ w, p b = true)
    (stop : p (post.headD 0) = false) {n : Nat} (fuel : w.length < n) :
    Eats (skipWhile p n) w () post := by
  induction w generalizing n with
  | nil =>
    obtain ⟨n, rfl⟩ := Nat.exists_eq_succ_of_ne_zero (Nat.ne_of_gt fuel)
    exact Eats.look (eats_skipIf_not stop) (Eats.pure () post)
  | cons b w ih =>
    obtain ⟨n, rfl⟩ := Nat.exists_eq_succ_of_ne_zero (Nat.ne_of_gt (Nat.zero_lt_of_lt fuel))
    obtain ⟨first, rest⟩ := List.forall_mem_cons.mp all
    have more : Eats (skipWhile p n) w () post := ih rest (Nat.lt_of_succ_lt_succ fuel)
    exact Eats.bind (w := [b]) (eats_skipIf first _) more

theorem eats_looping {body : Nat → Parser α} {w post : Bytes} {a : α}
    (h : ∀ n, w.length < n → Eats (body n) w a post) : Eats (looping body) w a post := by
  refine Eats.get fun c _ hu => h (c.bytes.length + 1) ?_
  have size := congrArg List.length hu
  rw [c.unread_length, List.length_append] at size
  omega

theorem eats_skipWs {w post : Bytes} (all : ∀ b ∈ w, isSpace b = true)
    (stop : isSpace (post.headD 0) = false) : Eats skipWs w () post :=
  eats_looping fun _ fuel => eats_skipWhile all stop fuel

theorem eats_skipDigits {w post : Bytes} (all : ∀ b ∈ w, isDigit b = true)
    (stop : isDigit (post.headD 0) = false) : Eats skipDigits w () post :=
  eats_looping fun _ fuel => eats_skipWhile all stop fuel

theorem eats_require (msg : String) {ok : Bool} (h : ok = true) (post : Bytes) :
    Eats (require msg ok) [] () post := by
  rw [require, if_pos h]
  exact Eats.pure () post

theorem eats_expect (lit post : Bytes) : Eats (expect lit) lit () post := by
  induction lit with
  | nil => exact Eats.pure () post
  | cons b lit ih =>
    refine Eats.bind (w := [b]) (eats_take b _) ?_
    exact Eats.look (eats_require _ (beq_self_eq_true b) _) ih

/-! Numbers. -/

/-- Bytes that do not go on with a number. -/
def EndsNumber (post : Bytes) : Prop :=
  isDigit (post.headD 0) = false ∧ post.headD 0 ≠ 46 ∧ post.headD 0 ≠ 101 ∧ post.headD 0 ≠ 69

/-- One digit or more. -/
def Digits (w : Bytes) : Prop := w ≠ [] ∧ ∀ b ∈ w, isDigit b = true

/-- The integer part of a number, without leading zeros. -/
def IsInteger (w : Bytes) : Prop :=
  w = [48] ∨ ∃ b ds, (49 ≤ b ∧ b ≤ 57) ∧ (∀ d ∈ ds, isDigit d = true) ∧ w = b :: ds

def IsFraction (w : Bytes) : Prop := w = [] ∨ ∃ ds, Digits ds ∧ w = 46 :: ds

def IsExponent (w : Bytes) : Prop :=
  w = [] ∨ ∃ mark sign ds, (mark = 101 ∨ mark = 69) ∧ (sign = [] ∨ sign = [43] ∨ sign = [45]) ∧ Digits ds ∧
    w = mark :: (sign ++ ds)

/-- A number as the grammar has it. -/
def IsNumber (w : Bytes) : Prop :=
  ∃ sign whole fraction exponent, (sign = [] ∨ sign = [45]) ∧ IsInteger whole ∧ IsFraction fraction ∧
    IsExponent exponent ∧ w = sign ++ (whole ++ (fraction ++ exponent))

theorem digit_of_range {b : UInt8} (h : 49 ≤ b ∧ b ≤ 57) : isDigit b = true := by
  have low : (48 : UInt8) ≤ b := UInt8.le_trans (by decide) h.1
  simp [isDigit, low, h.2]

theorem IsInteger.first {w : Bytes} (h : IsInteger w) : ∃ b t, w = b :: t ∧ isDigit b = true := by
  rcases h with rfl | ⟨b, ds, range, -, rfl⟩
  · exact ⟨48, [], rfl, rfl⟩
  · exact ⟨b, ds, rfl, digit_of_range range⟩

theorem IsNumber.first {w : Bytes} (h : IsNumber w) : ∃ b t, w = b :: t ∧ (b = 45 ∨ isDigit b = true) := by
  obtain ⟨sign, whole, fraction, exponent, signed, integer, -, -, rfl⟩ := h
  rcases signed with rfl | rfl
  · obtain ⟨b, t, rfl, digit⟩ := integer.first
    exact ⟨b, _, rfl, Or.inr digit⟩
  · exact ⟨45, _, rfl, Or.inl rfl⟩

theorem isInteger_naturalText (n : Nat) : IsInteger (naturalText n) := by
  rcases Nat.eq_zero_or_pos n with rfl | positive
  · exact Or.inl rfl
  · obtain ⟨b, ds, whole, range⟩ := naturalText_first positive
    have all := naturalText_digits n
    rw [whole] at all
    exact Or.inr ⟨b, ds, range, (List.forall_mem_cons.mp all).2, whole⟩

theorem isNumber_decimal (n : Int) : IsNumber (decimal n) := by
  unfold decimal
  split
  next =>
    exact ⟨[45], naturalText n.natAbs, [], [], Or.inr rfl, isInteger_naturalText _, Or.inl rfl,
      Or.inl rfl, by simp⟩
  next =>
    exact ⟨[], naturalText n.natAbs, [], [], Or.inl rfl, isInteger_naturalText _, Or.inl rfl,
      Or.inl rfl, by simp⟩

section

variable {w post : Bytes}

theorem IsExponent.stops (h : IsExponent w) (stop : EndsNumber post) :
    isDigit ((w ++ post).headD 0) = false ∧ (w ++ post).headD 0 ≠ 46 := by
  rcases h with rfl | ⟨mark, sign, ds, marked, -, -, rfl⟩
  · exact ⟨stop.1, stop.2.1⟩
  · rcases marked with rfl | rfl
    all_goals exact ⟨rfl, by simp⟩

theorem IsFraction.stops (h : IsFraction w) (stop : isDigit (post.headD 0) = false) :
    isDigit ((w ++ post).headD 0) = false := by
  rcases h with rfl | ⟨ds, -, rfl⟩
  · exact stop
  · rfl

theorem eats_digits (h : Digits w) (stop : isDigit (post.headD 0) = false) (msg : String) :
    Eats (do
      let c ← peek
      require msg (isDigit c)
      skipDigits) w () post := by
  obtain ⟨some, all⟩ := h
  obtain ⟨b, ds, rfl⟩ := List.exists_cons_of_ne_nil some
  refine Eats.look (eats_peek (b :: (ds ++ post))) ?_
  exact Eats.look (eats_require msg (all b List.mem_cons_self) _) (eats_skipDigits all stop)

theorem eats_integerPart (h : IsInteger w) (stop : isDigit (post.headD 0) = false) :
    Eats integerPart w () post := by
  rcases h with rfl | ⟨b, ds, range, digits, rfl⟩
  · exact Eats.last (eats_skipIf (by decide) post) (Eats.pure () post)
  · have nonzero : (b == 48) = false := by
      rw [beq_eq_false_iff_ne]
      rintro rfl
      exact absurd range.1 (by decide)
    have skipped : Eats (skipIf (· == 48)) [] false (b :: (ds ++ post)) := eats_skipIf_not nonzero
    refine Eats.look skipped ?_
    refine Eats.look (eats_peek (b :: (ds ++ post))) ?_
    change Eats (if 49 ≤ b && b ≤ 57 then skipDigits else fail "bad number") (b :: ds) () post
    rw [if_pos (by simp [range])]
    exact eats_skipDigits (List.forall_mem_cons.mpr ⟨digit_of_range range, digits⟩) stop

theorem eats_fractionPart (h : IsFraction w) (stop : isDigit (post.headD 0) = false)
    (point : post.headD 0 ≠ 46) : Eats fractionPart w () post := by
  rcases h with rfl | ⟨ds, digits, rfl⟩
  · exact Eats.look (eats_skipIf_not (by simpa using point)) (Eats.pure () post)
  · exact Eats.bind (w := [46]) (eats_skipIf (by decide) _) (eats_digits digits stop "bad fraction")

theorem eats_exponentPart (h : IsExponent w) (stop : EndsNumber post) : Eats exponentPart w () post := by
  obtain ⟨digit, -, small, capital⟩ := stop
  rcases h with rfl | ⟨mark, sign, ds, marked, signed, digits, rfl⟩
  · refine Eats.look (eats_skipIf_not ?_) (Eats.pure () post)
    rw [Bool.or_eq_false_iff, beq_eq_false_iff_ne, beq_eq_false_iff_ne]
    exact ⟨small, capital⟩
  · have rest := eats_digits digits digit "bad exponent"
    have isMark : (mark == 101 || mark == 69) = true := by
      rcases marked with rfl | rfl
      all_goals rfl
    refine Eats.bind (w := [mark]) (eats_skipIf isMark _) ?_
    rcases signed with rfl | rfl | rfl
    · obtain ⟨b, ds, rfl⟩ := List.exists_cons_of_ne_nil digits.1
      have first := digits.2 b List.mem_cons_self
      refine Eats.look (eats_skipIf_not ?_) rest
      change (b == 43 || b == 45) = false
      rw [Bool.or_eq_false_iff, beq_eq_false_iff_ne, beq_eq_false_iff_ne]
      refine ⟨?_, ?_⟩
      all_goals
        rintro rfl
        cases first
    · exact Eats.bind (w := [43]) (eats_skipIf rfl _) rest
    · exact Eats.bind (w := [45]) (eats_skipIf rfl _) rest

theorem eats_numberToken (h : IsNumber w) (stop : EndsNumber post) : Eats numberToken w () post := by
  obtain ⟨sign, whole, fraction, exponent, signed, integer, fractional, exponential, rfl⟩ := h
  obtain ⟨digit, point⟩ := exponential.stops stop
  have rest : Eats (integerPart >>= fun _ => fractionPart >>= fun _ => exponentPart)
      (whole ++ (fraction ++ exponent)) () post := by
    refine Eats.bind (eats_integerPart integer ?_) ?_
    · rw [List.append_assoc]
      exact fractional.stops digit
    · exact Eats.bind (eats_fractionPart fractional digit point) (eats_exponentPart exponential stop)
  rcases signed with rfl | rfl
  · obtain ⟨b, t, rfl, first⟩ := integer.first
    refine Eats.look (eats_skipIf_not ?_) rest
    change (b == 45) = false
    rw [beq_eq_false_iff_ne]
    rintro rfl
    cases first
  · exact Eats.bind (w := [45]) (eats_skipIf rfl _) rest

end

/-- The conversion of a token that has been moved past. -/
theorem parseNumber_apply (convert : Bytes → Option Double) {c : Cursor} (hc : c.Within) {w post : Bytes}
    (hu : c.unread = w ++ post) (token : numberToken c = .ok ((), c.advance w.length)) :
    parseNumber convert c =
      (match convert w with
        | some d => pure (.number d)
        | none => fail "bad number value" : Parser Value) (c.advance w.length) := by
  have within := within_advance hc hu
  let c' := c.advance w.length
  have inside : c.index + w.length ≤ c'.bytes.length := within
  have read : (c.bytes.drop c.index).take w.length = w := by
    rw [← Cursor.unread, hu, List.take_left]
  have size : (sub c'.index c.index : Parser Nat) = pure w.length :=
    (sub_eq (Nat.le_add_right _ _)).trans (congrArg pure (Nat.add_sub_cancel_left _ _))
  have tok : (slice c.index w.length : Parser Bytes) c' = .ok (w, c') := by
    rw [slice_eq inside]
    exact congrArg (fun t => Except.ok (t, c')) read
  have passed (k : Bytes → Parser Value) : ((slice c.index w.length : Parser Bytes) >>= k) c' = k w c' := by
    rw [Reader.bind_apply, tok]
  have after : (get : Parser Cursor) c' = .ok (c', c') := rfl
  change (numberToken >>= fun _ => _ : Parser Value) c = _
  rw [Reader.bind_apply, token]
  dsimp only
  rw [Reader.bind_apply, after]
  dsimp only
  rw [size, pure_bind]
  exact passed _

theorem eats_number {convert : Bytes → Option Double} {w post : Bytes} {d : Double} (h : IsNumber w)
    (converted : convert w = some d) (stop : EndsNumber post) :
    Eats (parseNumber convert) w (.number d) post := by
  intro c hc hu
  rw [parseNumber_apply convert hc hu (eats_numberToken h stop c hc hu), converted]
  rfl

/-- The switch of `parse_value`. -/
def switch (convert : Bytes → Option Double) (n : Nat) (b : UInt8) : Parser Value :=
  match b with
  | 123 => parseObject convert n
  | 91 => parseArray convert n
  | 34 => do
    let s ← parseString
    return .string s
  | 116 => do
    expect (text "true")
    return .bool true
  | 102 => do
    expect (text "false")
    return .bool false
  | 110 => do
    expect (text "null")
    return .null
  | _ => parseNumber convert

theorem parseValue_succ (convert : Bytes → Option Double) (n : Nat) :
    parseValue convert (n + 1) = skipWs >>= fun _ => peek >>= switch convert n := by
  rw [parseValue]
  rfl

end Parser

open Json.Parser

/-! White space and the first byte of a value. -/

/-- Spaces and line breaks. -/
def White (g : Bytes) : Prop := ∀ b ∈ g, isSpace b = true

theorem white_nil : White [] := fun _ hb => absurd hb List.not_mem_nil

theorem endsNumber_nil : EndsNumber [] := ⟨rfl, by decide, by decide, by decide⟩

theorem endsNumber_cons {b : UInt8} (h : isDigit b = false ∧ b ≠ 46 ∧ b ≠ 101 ∧ b ≠ 69) (post : Bytes) :
    EndsNumber (b :: post) := h

theorem White.endsNumber {g post : Bytes} (white : White g) (h : EndsNumber post) : EndsNumber (g ++ post) := by
  cases g with
  | nil => exact h
  | cons b g =>
    have space := white b List.mem_cons_self
    simp only [isSpace, Bool.or_eq_true, beq_iff_eq] at space
    rcases space with ((rfl | rfl) | rfl) | rfl
    all_goals exact endsNumber_cons (by decide) _

section

variable {convert : Bytes → Option Double}

theorem switch_number {n : Nat} {b : UInt8} (h : b = 45 ∨ isDigit b = true) :
    switch convert n b = parseNumber convert := by
  unfold switch
  split
  case h_7 => rfl
  all_goals exact absurd h (by decide)

/-- No space and no bracket that closes an array. -/
def Opens (b : UInt8) : Prop := isSpace b = false ∧ b ≠ 93

instance (b : UInt8) : Decidable (Opens b) := inferInstanceAs (Decidable (_ ∧ _))

theorem eats_switch {n : Nat} {b : UInt8} {g t post : Bytes} {a : Value} (white : White g)
    (opens : Opens b) (fuel : 2 * (b :: t).length ≤ n)
    (h : Eats (switch convert (n - 1) b) (b :: t) a post) :
    Eats (parseValue convert n) (g ++ b :: t) a post := by
  rw [List.length_cons] at fuel
  obtain ⟨n, rfl⟩ := Nat.exists_eq_succ_of_ne_zero (n := n) (by omega)
  rw [parseValue_succ]
  exact Eats.bind (eats_skipWs white opens.1) (Eats.look (eats_peek (b :: t ++ post)) h)

theorem opens_of_number {b : UInt8} (h : b = 45 ∨ isDigit b = true) : Opens b := by
  rcases h with rfl | digit
  · decide
  · refine ⟨?_, ?_⟩
    · by_contra space
      rw [Bool.not_eq_false] at space
      simp only [isSpace, Bool.or_eq_true, beq_iff_eq] at space
      rcases space with ((rfl | rfl) | rfl) | rfl
      all_goals
        revert digit
        decide
    · rintro rfl
      revert digit
      decide

/-- `parse` of a value in white space. -/
theorem parseWith_of_eats {convert : Bytes → Option Double} {g t close : Bytes} {v : Value} (before : White g)
    (space : isSpace ((t ++ close).headD 0) = false) (behind : White close)
    (h : ∀ n, 2 * t.length ≤ n → Eats (parseValue convert n) t v close) :
    Value.parseWith convert (g ++ (t ++ close)) = .ok v := by
  have whole : Eats (document convert) (g ++ (t ++ close)) v [] := by
    have more : close ++ [] = close := List.append_nil close
    refine Eats.bind (eats_skipWs before (by rwa [List.append_nil])) (Eats.get fun c hc hu => ?_)
    have size := congrArg List.length hu
    rw [c.unread_length, List.append_nil, List.length_append] at size
    refine Eats.bind (more.symm ▸ h _ (by omega)) ?_
    refine Eats.last (eats_skipWs behind rfl) (Eats.get fun c hc hu => ?_)
    refine Eats.look (eats_require _ ?_ []) (Eats.pure _ [])
    have done := index_of_unread_nil hu
    exact beq_iff_eq.mpr (Nat.le_antisymm hc done)
  have run := whole { bytes := g ++ (t ++ close) } (Nat.zero_le _) (List.append_nil _).symm
  rw [Value.parseWith, run]
  rfl

end

end Warmth.Json
