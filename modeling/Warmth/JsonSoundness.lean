import Warmth.JsonGrammar

/-! Every run of the reader, on any bytes: it stops with a failure of its own, or what it has read is of
the grammar. -/

namespace Warmth.Json

open Codec Codec.Reader Numerals

namespace Parser

section

variable {α : Type} {P : Bytes → Prop}

theorem reads_fail {Q : α → Bytes → Bytes → Prop} (msg : String) : Reads Failed P (fail msg : Parser α) Q :=
  Reads.get fun c => Reads.stop ⟨c.index, msg, rfl⟩

theorem reads_require (msg : String) (ok : Bool) :
    Reads Failed P (require msg ok) (fun _ w _ => w = [] ∧ ok = true) := by
  unfold require
  split
  next good => exact Reads.pure fun _ _ => ⟨rfl, good⟩
  next => exact reads_fail msg

theorem reads_peek : Reads Failed P peek (fun b w post => w = [] ∧ post.headD 0 = b) :=
  Reads.of_eats fun u _ => ⟨[], _, u, rfl, eats_peek u, rfl, rfl⟩

theorem reads_take : Reads Failed P take (fun b w _ => w = [b]) := by
  intro c hc hP
  cases hu : c.unread with
  | nil =>
    have past := index_of_unread_nil hu
    refine Or.inr ⟨.rejected (.failed c.index "unexpected end"), ⟨c.index, _, rfl⟩, ?_⟩
    change (if c.bytes.length ≤ c.index then fail "unexpected end" else
      byteAt c.index >>= fun b => modify (fun c => c.advance 1) >>= fun _ => pure b : Parser UInt8) c = _
    rw [if_pos past]
    rfl
  | cons b rest => exact Or.inl ⟨b, [b], rest, rfl, take_apply hu, rfl⟩

theorem reads_skipIf (p : UInt8 → Bool) (ending : p 0 = false) :
    Reads Failed P (skipIf p) (fun more w post =>
      (more = true ∧ ∃ b, p b = true ∧ w = [b]) ∨ more = false ∧ w = [] ∧ p (post.headD 0) = false) := by
  refine Reads.of_eats fun u _ => ?_
  cases more : p (u.headD 0) with
  | false => exact ⟨[], false, u, rfl, eats_skipIf_not more, Or.inr ⟨rfl, rfl, more⟩⟩
  | true =>
    cases u with
    | nil => exact absurd (ending.symm.trans more) Bool.false_ne_true
    | cons b rest => exact ⟨[b], true, rest, rfl, eats_skipIf more rest, Or.inl ⟨rfl, b, more, rfl⟩⟩

/-- The bytes that `skipWhile` moves past. -/
theorem exists_skipped (p : UInt8 → Bool) (ending : p 0 = false) (u : Bytes) :
    ∃ w post, u = w ++ post ∧ (∀ b ∈ w, p b = true) ∧ p (post.headD 0) = false := by
  induction u with
  | nil => exact ⟨[], [], rfl, fun _ hb => absurd hb List.not_mem_nil, ending⟩
  | cons b u ih =>
    cases more : p b with
    | false => exact ⟨[], b :: u, rfl, fun _ hb => absurd hb List.not_mem_nil, more⟩
    | true =>
      obtain ⟨w, post, rfl, all, stop⟩ := ih
      exact ⟨b :: w, post, rfl, List.forall_mem_cons.mpr ⟨more, all⟩, stop⟩

theorem reads_skipWs : Reads Failed P skipWs (fun _ w post => White w ∧ isSpace (post.headD 0) = false) := by
  refine Reads.of_eats fun u _ => ?_
  obtain ⟨w, post, hu, all, stop⟩ := exists_skipped isSpace rfl u
  exact ⟨w, (), post, hu, eats_skipWs all stop, all, stop⟩

theorem reads_skipDigits : Reads Failed P skipDigits
    (fun _ w post => (∀ b ∈ w, isDigit b = true) ∧ isDigit (post.headD 0) = false) := by
  refine Reads.of_eats fun u _ => ?_
  obtain ⟨w, post, hu, all, stop⟩ := exists_skipped isDigit rfl u
  exact ⟨w, (), post, hu, eats_skipDigits all stop, all, stop⟩

theorem reads_expect (lit : CString) : Reads Failed P (expect lit) (fun _ w _ => w = lit) := by
  induction lit generalizing P with
  | nil => exact Reads.pure fun _ _ => rfl
  | cons b lit ih =>
    refine Reads.bind reads_take fun c w => Reads.bind (reads_require _ _) fun _ w' => ?_
    refine ih.imp (fun _ _ => trivial) fun _ w'' post hu rest => ?_
    obtain ⟨⟨-, taken⟩, nothing, same⟩ := hu
    rw [taken, nothing, rest, beq_iff_eq.mp same]
    rfl

/-! Numbers. -/

theorem reads_digits (msg : String) : Reads Failed P (do
    let c ← peek
    require msg (isDigit c)
    skipDigits) (fun _ w _ => Digits w) := by
  refine Reads.bind reads_peek fun c w => Reads.bind (reads_require _ _) fun _ w' => ?_
  refine reads_skipDigits.imp (fun _ hu => hu) fun _ w'' post hu read => ?_
  obtain ⟨⟨-, nothing, head⟩, nothing', digit⟩ := hu
  rw [nothing, nothing', List.nil_append, List.nil_append]
  refine ⟨?_, read.1⟩
  rintro rfl
  rw [nothing', List.nil_append, List.nil_append] at head
  rw [← head, read.2] at digit
  cases digit

theorem reads_integerPart : Reads Failed P integerPart (fun _ w _ => IsInteger w) := by
  refine Reads.bind (reads_skipIf _ rfl) fun zero w => ?_
  split
  next zero =>
    refine Reads.pure fun u hu => ?_
    obtain ⟨-, ⟨-, b, same, rfl⟩ | ⟨none, -⟩⟩ := hu
    · rw [beq_iff_eq.mp same]
      exact Or.inl rfl
    · rw [zero] at none
      cases none
  next other =>
    refine Reads.bind reads_peek fun c w' => ?_
    split
    next range =>
      refine reads_skipDigits.imp (fun _ hu => hu) fun _ w'' post hu read => ?_
      obtain ⟨⟨-, skipped⟩, nothing, head⟩ := hu
      rw [Bool.and_eq_true, decide_eq_true_eq, decide_eq_true_eq] at range
      obtain ⟨-, nothing', -⟩ := skipped.resolve_left fun more => other more.1
      rw [nothing, nothing', List.nil_append, List.nil_append]
      cases w'' with
      | nil =>
        have digit := digit_of_range range
        rw [← head, List.nil_append, read.2] at digit
        cases digit
      | cons b ds =>
        obtain rfl : b = c := head
        exact Or.inr ⟨b, ds, range, (List.forall_mem_cons.mp read.1).2, rfl⟩
    next => exact reads_fail _

theorem reads_fractionPart : Reads Failed P fractionPart (fun _ w _ => IsFraction w) := by
  refine Reads.bind (reads_skipIf _ rfl) fun point w => ?_
  split
  next point =>
    refine (reads_digits _).imp (fun _ hu => hu) fun _ w' post hu digits => ?_
    obtain ⟨-, ⟨-, b, same, rfl⟩ | ⟨none, -⟩⟩ := hu
    · rw [beq_iff_eq.mp same]
      exact Or.inr ⟨w', digits, rfl⟩
    · rw [point] at none
      cases none
  next other =>
    refine Reads.pure fun u hu => ?_
    obtain ⟨-, nothing, -⟩ := hu.2.resolve_left fun more => other more.1
    rw [nothing]
    exact Or.inl rfl

theorem reads_sign {p : UInt8 → Bool} (ending : p 0 = false) {α : Type} {r : Parser α}
    {Q : α → Bytes → Bytes → Prop} {R : α → Bytes → Bytes → Prop}
    (h : ∀ {P : Bytes → Prop}, Reads Failed P r Q)
    (signed : ∀ a sign w post, (sign = [] ∨ ∃ b, p b = true ∧ sign = [b]) → Q a w post → R a (sign ++ w) post) :
    Reads Failed P (skipIf p >>= fun _ => r) R := by
  refine Reads.bind (reads_skipIf p ending) fun more w => ?_
  refine h.imp (fun _ hu => hu) fun a w' post hu read => signed a w w' post ?_ read
  rcases hu.2 with ⟨-, one⟩ | ⟨-, nothing, -⟩
  · exact Or.inr one
  · exact Or.inl nothing

theorem reads_exponentPart : Reads Failed P exponentPart (fun _ w _ => IsExponent w) := by
  refine Reads.bind (reads_skipIf _ rfl) fun marked w => ?_
  split
  next marked =>
    have rest {P : Bytes → Prop} : Reads Failed P (skipIf (fun c => c == 43 || c == 45) >>= fun _ => do
        let c ← peek
        require "bad exponent" (isDigit c)
        skipDigits) (fun _ w _ => ∃ sign ds, (sign = [] ∨ sign = [43] ∨ sign = [45]) ∧ Digits ds ∧
          w = sign ++ ds) := by
      refine reads_sign rfl (reads_digits _) fun _ sign ds _ signed digits => ?_
      refine ⟨sign, ds, signed.imp_right fun one => ?_, digits, rfl⟩
      obtain ⟨b, same, rfl⟩ := one
      rw [Bool.or_eq_true, beq_iff_eq, beq_iff_eq] at same
      exact same.imp (congrArg (fun b => [b])) (congrArg (fun b => [b]))
    refine rest.imp (fun _ hu => hu) fun _ w' post hu read => ?_
    obtain ⟨sign, ds, signed, digits, rfl⟩ := read
    obtain ⟨-, ⟨-, b, mark, rfl⟩ | ⟨none, -⟩⟩ := hu
    · rw [Bool.or_eq_true, beq_iff_eq, beq_iff_eq] at mark
      exact Or.inr ⟨b, sign, ds, mark, signed, digits, rfl⟩
    · rw [marked] at none
      cases none
  next other =>
    refine Reads.pure fun u hu => ?_
    obtain ⟨-, nothing, -⟩ := hu.2.resolve_left fun more => other more.1
    rw [nothing]
    exact Or.inl rfl

theorem reads_numberToken : Reads Failed P numberToken (fun _ w _ => IsNumber w) := by
  have rest {P : Bytes → Prop} : Reads Failed P (integerPart >>= fun _ => fractionPart >>= fun _ => exponentPart)
      (fun _ w _ => ∃ whole fraction exponent, IsInteger whole ∧ IsFraction fraction ∧ IsExponent exponent ∧
        w = whole ++ (fraction ++ exponent)) := by
    refine Reads.bind reads_integerPart fun _ whole => Reads.bind reads_fractionPart fun _ fraction => ?_
    refine reads_exponentPart.imp (fun _ hu => hu) fun _ exponent post hu exponential => ?_
    exact ⟨whole, fraction, exponent, hu.1.2, hu.2, exponential, rfl⟩
  refine reads_sign rfl rest fun _ sign w _ signed read => ?_
  obtain ⟨whole, fraction, exponent, integer, fractional, exponential, rfl⟩ := read
  refine ⟨sign, whole, fraction, exponent, signed.imp_right fun one => ?_, integer, fractional, exponential, rfl⟩
  obtain ⟨b, same, rfl⟩ := one
  rw [beq_iff_eq.mp same]

theorem reads_parseNumber (convert : Bytes → Option Double) : Reads Failed P (parseNumber convert)
    (fun v w _ => ∃ d, IsNumber w ∧ convert w = some d ∧ v = .number d) := by
  intro c hc hP
  rcases reads_numberToken c hc hP with ⟨⟨⟩, w, post, hu, token, number⟩ | ⟨e, he, token⟩
  · rw [parseNumber_apply convert hc hu token]
    cases converted : convert w with
    | some d => exact Or.inl ⟨.number d, w, post, hu, rfl, d, number, converted, rfl⟩
    | none => exact Or.inr ⟨_, ⟨_, _, rfl⟩, rfl⟩
  · refine Or.inr ⟨e, he, ?_⟩
    change (numberToken >>= fun _ => _ : Parser Value) c = _
    rw [Reader.bind_apply, token]

/-! Strings. -/

theorem reads_hexDigits (k : Nat) (v : UInt32) : Reads Failed P (hexDigits k v)
    (fun _ w _ => w.length = k ∧ ∀ b ∈ w, (hexValue b).isSome = true) := by
  induction k generalizing v P with
  | zero => exact Reads.pure fun _ _ => ⟨rfl, fun _ hb => absurd hb List.not_mem_nil⟩
  | succ k ih =>
    refine Reads.bind reads_take fun c w => ?_
    split
    next nv digit =>
      refine (ih _).imp (fun _ hu => hu) fun _ w' post hu read => ?_
      rw [hu.2, List.singleton_append]
      refine ⟨congrArg Nat.succ read.1, List.forall_mem_cons.mpr ⟨?_, read.2⟩⟩
      rw [digit]
      rfl
    next => exact reads_fail _

theorem reads_parseHex4 : Reads Failed P parseHex4
    (fun v w _ => ∃ a b c d, w = [a, b, c, d] ∧ (Element.unit a b c d).Valid ∧
      v = UInt32.ofNat (Element.unit a b c d).code) := by
  refine Reads.value (reads_hexDigits 4 0) fun _ w post read => ?_
  obtain ⟨size, digits⟩ := read
  obtain ⟨a, b, c, d, rfl⟩ := List.length_eq_four.mp size
  have valid : (Element.unit a b c d).Valid := by
    simpa [Element.Valid] using digits
  exact ⟨_, eats_parseHex4 valid post, a, b, c, d, rfl, valid, rfl⟩

/-- Elements that the reader makes something of. -/
def Decoded (w bs : Bytes) : Prop :=
  ∃ es, (∀ e ∈ es, e.Valid) ∧ decode es = some bs ∧ es.flatMap Element.text = w

theorem decoded_nil : Decoded [] [] := ⟨[], fun _ he => absurd he List.not_mem_nil, rfl, rfl⟩

theorem Decoded.append {w w' bs bs' : Bytes} (h : Decoded w bs) (h' : Decoded w' bs') :
    Decoded (w ++ w') (bs ++ bs') := by
  obtain ⟨es, valid, decoded, rfl⟩ := h
  obtain ⟨es', valid', decoded', rfl⟩ := h'
  refine ⟨es ++ es', List.forall_mem_append.mpr ⟨valid, valid'⟩, ?_, List.flatMap_append⟩
  rw [decode_append decoded, decoded']
  rfl

theorem decoded_single {e : Element} (valid : e.Valid) (single : e.isHigh = false) :
    Decoded e.text e.bytes := by
  refine ⟨[e], List.forall_mem_singleton.mpr valid, ?_, List.append_nil _⟩
  rw [decode_single single, decode, Option.map_some, List.append_nil]

theorem decoded_pair {hi lo : Element} (valid : hi.Valid) (high : hi.isHigh = true) (valid' : lo.Valid)
    (escaped : lo.isUnit = true) : Decoded (hi.text ++ lo.text)
      (utf8 (surrogates (UInt32.ofNat hi.code) (UInt32.ofNat lo.code))) := by
  refine ⟨[hi, lo], List.forall_mem_cons.mpr ⟨valid, List.forall_mem_singleton.mpr valid'⟩, ?_, ?_⟩
  · rw [decode_pair high escaped, decode, Option.map_some, List.append_nil]
  · simp

theorem reads_atUnicode : Reads Failed P atUnicode (fun paired w post =>
    w = [] ∧ paired = (post.take 2 == [92, 117])) :=
  Reads.of_eats fun u _ => ⟨[], _, u, rfl, eats_atUnicode u, rfl, rfl⟩

theorem reads_unicodeEscape : Reads Failed P unicodeEscape (fun bs w _ => Decoded (92 :: 117 :: w) bs) := by
  refine Reads.bind reads_parseHex4 fun cp w => ?_
  refine Reads.known (p := ∃ a b c d, w = [a, b, c, d] ∧ (Element.unit a b c d).Valid ∧
    cp = UInt32.ofNat (Element.unit a b c d).code) (fun _ hu => hu.2) fun known => ?_
  obtain ⟨a, b, c, d, rfl, valid, rfl⟩ := known
  rw [high_eq]
  split
  next high =>
    refine Reads.bind reads_atUnicode fun paired w' => ?_
    split
    next here =>
      have skip : Reads Failed (fun u => u.take 2 = [92, 117]) (modify fun c => c.advance 2 : Parser PUnit)
          (fun _ w _ => w = [92, 117]) := by
        refine Reads.of_eats fun u hu => ⟨[92, 117], ⟨⟩, u.drop 2, ?_, eats_advance _ _, rfl⟩
        rw [← hu, List.take_append_drop]
      refine Reads.bind (skip.imp (fun u hu => ?_) fun _ _ _ _ read => read) fun _ w'' => ?_
      · exact beq_iff_eq.mp (hu.2.2.symm.trans here)
      · refine Reads.bind reads_parseHex4 fun lo w₃ => Reads.pure fun u hu => ?_
        obtain ⟨⟨⟨-, nothing, -⟩, rfl⟩, a', b', c', d', rfl, valid', rfl⟩ := hu
        rw [nothing, List.append_nil]
        exact decoded_pair valid high valid' rfl
    next => exact reads_fail _
  next single =>
    refine Reads.pure fun u _ => ?_
    rw [List.append_nil]
    exact decoded_single valid (by simpa using single)

theorem reads_parseEscape : Reads Failed P parseEscape (fun bs w _ => Decoded (92 :: w) bs) := by
  have short {P : Bytes → Prop} {mark b : UInt8} {w : Bytes} (known : shortValue mark = some b) :
      Reads Failed (fun u => P (w ++ u) ∧ w = [mark]) (pure [b] : Parser Bytes)
        (fun bs w' _ => Decoded (92 :: (w ++ w')) bs) := by
    refine Reads.pure fun u hu => ?_
    have one := decoded_single (e := .short mark) (congrArg Option.isSome known) rfl
    rw [Element.bytes, known] at one
    rw [hu.2]
    exact one
  refine Reads.bind reads_take fun e w => ?_
  split
  case h_9 =>
    refine reads_unicodeEscape.imp (fun _ hu => hu) fun bs w' post hu read => ?_
    rw [hu.2]
    exact read
  case h_10 => exact reads_fail _
  all_goals exact short rfl

theorem reads_stringLoop (n : Nat) (out : CString) : Reads Failed (fun u => u.length < n) (stringLoop n out)
    (fun s w _ => ∃ t bs, Decoded t bs ∧ s = out ++ bs ∧ w = t ++ [34]) := by
  induction n generalizing out with
  | zero => exact Reads.known (fun u hu => Nat.not_lt_zero _ hu) False.elim
  | succ n ih =>
    have further {P : Bytes → Prop} {w bs : Bytes} (shorter : ∀ u, P u → u.length < n)
        (decoded : ∀ u, P u → Decoded w bs) : Reads Failed P (stringLoop n (out ++ bs))
        (fun s w' _ => ∃ t bs, Decoded t bs ∧ s = out ++ bs ∧ w ++ w' = t ++ [34]) := by
      refine (ih (out ++ bs)).imp shorter fun s w' post hu read => ?_
      obtain ⟨t, bs', decoded', rfl, rfl⟩ := read
      exact ⟨w ++ t, bs ++ bs', (decoded _ hu).append decoded', List.append_assoc _ _ _,
        (List.append_assoc _ _ _).symm⟩
    refine Reads.bind reads_take fun c w => ?_
    split
    next quote =>
      refine Reads.pure fun u hu => ⟨[], [], decoded_nil, (List.append_nil _).symm, ?_⟩
      rw [hu.2, beq_iff_eq.mp quote]
      rfl
    next other =>
      split
      next backslash =>
        refine Reads.bind reads_parseEscape fun bs w' => ?_
        refine (further (w := w ++ w') (fun u hu => ?_) fun u hu => ?_).imp (fun _ hu => hu)
          fun s w'' post _ read => ?_
        · obtain ⟨⟨short, rfl⟩, -⟩ := hu
          simp only [List.length_append, List.length_singleton] at short
          omega
        · rw [hu.1.2, beq_iff_eq.mp backslash]
          exact hu.2
        · rwa [List.append_assoc] at read
      next plain =>
        refine Reads.bind (reads_require _ _) fun _ w' => ?_
        refine (further (w := w ++ w') (fun u hu => ?_) fun u hu => ?_).imp (fun _ hu => hu)
          fun s w'' post _ read => ?_
        · obtain ⟨⟨short, rfl⟩, -⟩ := hu
          simp only [List.length_append, List.length_singleton] at short
          omega
        · obtain ⟨⟨-, rfl⟩, rfl, printed⟩ := hu
          refine decoded_single (e := .raw c) ⟨?_, ?_, ?_⟩ rfl
          · simpa using printed
          · simpa using other
          · simpa using plain
        · rwa [List.append_assoc] at read

theorem reads_looping {α : Type} {body : Nat → Parser α} {Q : α → Bytes → Bytes → Prop}
    (h : ∀ n, Reads Failed (fun u => P u ∧ u.length < n) (body n) Q) : Reads Failed P (looping body) Q := by
  refine Reads.get fun c => (h _).pre fun u hu => ⟨hu.1, ?_⟩
  rw [hu.2, c.unread_length]
  omega

theorem reads_parseString : Reads Failed (fun u => u.headD 0 = 34) parseString (fun s w _ => Accepted w s) := by
  refine Reads.bind reads_take fun b w => reads_looping fun n => ?_
  refine (reads_stringLoop n []).imp (fun _ hu => hu.2) fun s w' post hu read => ?_
  obtain ⟨t, bs, ⟨es, valid, decoded, rfl⟩, rfl, rfl⟩ := read
  obtain ⟨⟨quote, rfl⟩, -⟩ := hu
  obtain rfl : b = 34 := quote
  exact ⟨es, valid, decoded, rfl⟩

end

/-! The recursion. -/

theorem White.append {g g' : Bytes} (h : White g) (h' : White g') : White (g ++ g') :=
  List.forall_mem_append.mpr ⟨h, h'⟩

/-- Every function of the recursion, with fuel for the bytes left, reads a part of the grammar. -/
structure Sound (convert : Bytes → Option Double) (n : Nat) : Prop where
  value : Reads Failed (fun u => 3 * u.length + 3 ≤ n) (parseValue convert n)
    (fun v w _ => ∃ g t, White g ∧ Grammar Accepted convert t (.value v) ∧ w = g ++ t)
  object : Reads Failed (fun u => u.headD 0 = 123 ∧ 3 * u.length + 2 ≤ n) (parseObject convert n)
    (fun v w _ => Grammar Accepted convert w (.value v))
  members : ∀ o, Reads Failed (fun u => 3 * u.length + 1 ≤ n) (parseMembers convert n o)
    (fun v w _ => ∃ g t ms, White g ∧ Grammar Accepted convert t (.members ms) ∧ v = .object (assign o ms) ∧
      w = g ++ (t ++ [125]))
  array : Reads Failed (fun u => u.headD 0 = 91 ∧ 3 * u.length + 2 ≤ n) (parseArray convert n)
    (fun v w _ => Grammar Accepted convert w (.value v))
  items : ∀ a, Reads Failed (fun u => 3 * u.length + 4 ≤ n) (parseItems convert n a)
    (fun v w _ => ∃ g t vs, White g ∧ Grammar Accepted convert t (.items vs) ∧ v = .array (a ++ vs) ∧
      w = g ++ (t ++ [93]))

section

variable {convert : Bytes → Option Double} {n : Nat} {P : Bytes → Prop}

theorem reads_keyword {lit : CString} {v : Value} (h : Grammar Accepted convert lit (.value v)) :
    Reads Failed P (do
      expect lit
      return v) (fun v w _ => Grammar Accepted convert w (.value v)) := by
  refine Reads.bind (reads_expect lit) fun _ w => Reads.pure fun u hu => ?_
  rw [hu.2, List.append_nil]
  exact h

theorem reads_switch (h : Sound convert n) (b : UInt8) :
    Reads Failed (fun u => u.headD 0 = b ∧ 3 * u.length + 2 ≤ n) (switch convert n b)
      (fun v w _ => Grammar Accepted convert w (.value v)) := by
  unfold switch
  split
  case h_1 => exact h.object
  case h_2 => exact h.array
  case h_3 =>
    refine Reads.bind (reads_parseString.pre fun u hu => hu.1) fun s w => Reads.pure fun u hu => ?_
    rw [List.append_nil]
    exact .string hu.2
  case h_4 => exact reads_keyword (.bool true)
  case h_5 => exact reads_keyword (.bool false)
  case h_6 => exact reads_keyword .null
  case h_7 =>
    refine (reads_parseNumber convert).imp (fun _ hu => hu) fun v w post _ read => ?_
    obtain ⟨d, number, converted, rfl⟩ := read
    exact .number number converted

theorem Sound.succ (h : Sound convert n) : Sound convert (n + 1) where
  value := by
    rw [parseValue_succ]
    refine Reads.bind reads_skipWs fun _ g => Reads.bind reads_peek fun b w => ?_
    refine (reads_switch h b).imp (fun u hu => ?_) fun v t post hu read => ?_
    · obtain ⟨⟨fuel, -⟩, rfl, head⟩ := hu
      refine ⟨head, ?_⟩
      simp only [List.length_append, List.nil_append] at fuel
      omega
    · obtain ⟨⟨-, white, -⟩, rfl, -⟩ := hu
      exact ⟨g, t, white, read, rfl⟩
  object := by
    rw [parseObject]
    refine Reads.bind reads_take fun c w => Reads.bind reads_skipWs fun _ g => ?_
    refine Reads.bind reads_peek fun b w' => ?_
    split
    next close =>
      refine Reads.bind reads_take fun c' w'' => Reads.pure fun u hu => ?_
      obtain ⟨⟨⟨⟨⟨start, -⟩, rfl⟩, white, -⟩, rfl, head⟩, rfl⟩ := hu
      obtain rfl : c = 123 := start
      obtain rfl : c' = 125 := head.trans (beq_iff_eq.mp close)
      exact .emptyObject white
    next =>
      refine (h.members []).imp (fun u hu => ?_) fun v t post hu read => ?_
      · obtain ⟨⟨⟨⟨-, fuel⟩, rfl⟩, -⟩, rfl, -⟩ := hu
        simp only [List.length_append, List.length_singleton, List.nil_append] at fuel
        omega
      · obtain ⟨⟨⟨⟨start, -⟩, rfl⟩, white, -⟩, rfl, -⟩ := hu
        obtain rfl : c = 123 := start
        obtain ⟨g', t, ms, white', members, rfl, rfl⟩ := read
        have whole := Grammar.object (White.append white white') members (assigned_assign ms)
        rwa [List.append_assoc] at whole
  members := by
    intro o
    rw [parseMembers]
    refine Reads.bind reads_skipWs fun _ g => Reads.bind reads_peek fun q w => ?_
    refine Reads.bind (reads_require _ _) fun _ w' => ?_
    refine Reads.bind (reads_parseString.pre fun u hu => ?_) fun key k => ?_
    · obtain ⟨⟨-, -, head⟩, rfl, quote⟩ := hu
      exact head.trans (beq_iff_eq.mp quote)
    refine Reads.bind reads_skipWs fun _ g₁ => Reads.bind reads_take fun colon w'' => ?_
    refine Reads.bind (reads_require _ _) fun _ w₃ => ?_
    refine Reads.bind (h.value.pre fun u hu => ?_) fun v t => ?_
    · obtain ⟨⟨⟨⟨⟨⟨⟨fuel, -⟩, -⟩, -⟩, -⟩, -⟩, rfl⟩, -⟩ := hu
      simp only [List.length_append, List.length_singleton] at fuel
      omega
    refine Reads.bind reads_skipWs fun _ g₂ => Reads.bind reads_take fun c w₄ => ?_
    split
    next close =>
      refine Reads.pure fun u hu => ?_
      obtain ⟨⟨⟨⟨⟨⟨⟨⟨⟨⟨-, white, -⟩, rfl, -⟩, rfl, -⟩, accepted⟩, white₁, -⟩, rfl⟩, rfl, isColon⟩,
        g', t, white', value, rfl⟩, white₂, -⟩, rfl⟩ := hu
      obtain rfl : colon = 58 := beq_iff_eq.mp isColon
      obtain rfl : c = 125 := beq_iff_eq.mp close
      refine ⟨g, _, [(key, v)], white, .lastMember accepted white₁ white' value white₂, rfl, ?_⟩
      simp
    next =>
      refine Reads.bind (reads_require _ _) fun _ w₅ => ?_
      refine (h.members _).imp (fun u hu => ?_) fun v' t' post hu read => ?_
      · obtain ⟨⟨⟨⟨⟨⟨⟨⟨⟨⟨⟨fuel, -⟩, -⟩, -⟩, -⟩, -⟩, -⟩, -⟩, -⟩, -⟩, rfl⟩, -⟩ := hu
        simp only [List.length_append, List.length_singleton] at fuel
        omega
      · obtain ⟨⟨⟨⟨⟨⟨⟨⟨⟨⟨⟨-, white, -⟩, rfl, -⟩, rfl, -⟩, accepted⟩, white₁, -⟩, rfl⟩, rfl, isColon⟩,
          g', t, white', value, rfl⟩, white₂, -⟩, rfl⟩, rfl, comma⟩ := hu
        obtain rfl : colon = 58 := beq_iff_eq.mp isColon
        obtain rfl : c = 44 := beq_iff_eq.mp comma
        obtain ⟨g₃, t', ms, white₃, members, rfl, rfl⟩ := read
        refine ⟨g, _, (key, v) :: ms, white,
          .member accepted white₁ white' value white₂ white₃ members, rfl, ?_⟩
        simp
  array := by
    rw [parseArray]
    refine Reads.bind reads_take fun c w => Reads.bind reads_skipWs fun _ g => ?_
    refine Reads.bind reads_peek fun b w' => ?_
    split
    next close =>
      refine Reads.bind reads_take fun c' w'' => Reads.pure fun u hu => ?_
      obtain ⟨⟨⟨⟨⟨start, -⟩, rfl⟩, white, -⟩, rfl, head⟩, rfl⟩ := hu
      obtain rfl : c = 91 := start
      obtain rfl : c' = 93 := head.trans (beq_iff_eq.mp close)
      exact .emptyArray white
    next =>
      refine (h.items []).imp (fun u hu => ?_) fun v t post hu read => ?_
      · obtain ⟨⟨⟨⟨-, fuel⟩, rfl⟩, -⟩, rfl, -⟩ := hu
        simp only [List.length_append, List.length_singleton, List.nil_append] at fuel
        omega
      · obtain ⟨⟨⟨⟨start, -⟩, rfl⟩, white, -⟩, rfl, -⟩ := hu
        obtain rfl : c = 91 := start
        obtain ⟨g', t, vs, white', items, rfl, rfl⟩ := read
        have whole := Grammar.array (White.append white white') items
        rwa [List.append_assoc] at whole
  items := by
    intro a
    rw [parseItems]
    refine Reads.bind (h.value.pre fun u hu => ?_) fun v t => ?_
    · omega
    refine Reads.bind reads_skipWs fun _ g => Reads.bind reads_take fun c w => ?_
    split
    next close =>
      refine Reads.pure fun u hu => ?_
      obtain ⟨⟨⟨-, g', t, white', value, rfl⟩, white, -⟩, rfl⟩ := hu
      obtain rfl : c = 93 := beq_iff_eq.mp close
      refine ⟨g', _, [v], white', .lastItem value white, rfl, ?_⟩
      simp
    next =>
      refine Reads.bind (reads_require _ _) fun _ w' => ?_
      refine (h.items _).imp (fun u hu => ?_) fun v' t' post hu read => ?_
      · obtain ⟨⟨⟨⟨fuel, -⟩, -⟩, rfl⟩, -⟩ := hu
        simp only [List.length_append, List.length_singleton] at fuel
        omega
      · obtain ⟨⟨⟨⟨-, g', t, white', value, rfl⟩, white, -⟩, rfl⟩, rfl, comma⟩ := hu
        obtain rfl : c = 44 := beq_iff_eq.mp comma
        obtain ⟨g₁, t', vs, white₁, items, rfl, rfl⟩ := read
        refine ⟨g', _, v :: vs, white', .item value white white₁ items, ?_, ?_⟩
        all_goals simp

theorem sound (n : Nat) : Sound convert n := by
  induction n with
  | zero =>
    have none {α : Type} {r : Parser α} {P : Bytes → Prop} {Q : α → Bytes → Bytes → Prop} {m : Nat}
        (h : ∀ u, P u → 3 * u.length + m + 1 ≤ 0) : Reads Failed P r Q :=
      Reads.known (p := False) (fun u hu => by have := h u hu; omega) False.elim
    exact ⟨none (m := 2) fun _ hu => hu, none (m := 1) fun _ hu => hu.2, fun _ => none (m := 0) fun _ hu => hu,
      none (m := 1) fun _ hu => hu.2, fun _ => none (m := 3) fun _ hu => hu⟩
  | succ n ih => exact ih.succ

/-- Every run of `parse` returns the value of a text, or stops with a failure of its own. -/
theorem parseWith_total (convert : Bytes → Option Double) (s : Bytes) :
    (∃ v, Value.parseWith convert s = .ok v ∧ Text Accepted convert s v) ∨
      ∃ stop, Failed stop ∧ Value.parseWith convert s = .error stop := by
  have reads : Reads Failed (fun u => u = s) (document convert) (fun v _ _ => Text Accepted convert s v) := by
    refine Reads.bind reads_skipWs fun _ g => Reads.get fun c => ?_
    refine Reads.bind ((sound _).value.pre fun u hu => ?_) fun v w => ?_
    · rw [hu.2, c.unread_length]
      omega
    · refine Reads.bind reads_skipWs fun _ g' => Reads.get fun c' => ?_
      refine Reads.bind (reads_require _ _) fun _ w' => Reads.pure fun u hu => ?_
      obtain ⟨⟨⟨⟨⟨⟨whole, white, -⟩, -⟩, g₁, t, white₁, value, rfl⟩, white', -⟩, rest⟩, rfl, done⟩ := hu
      have none : u = [] := by
        rw [List.nil_append] at rest
        rw [rest, Cursor.unread, beq_iff_eq.mp done, List.drop_length]
      refine ⟨g ++ g₁, t, g', White.append white white₁, value, white', ?_⟩
      rw [← whole, none]
      simp
  have run := reads { bytes := s } (Nat.zero_le _) rfl
  rw [Value.parseWith]
  rcases run with ⟨v, w, post, -, run, text⟩ | ⟨stop, failed, run⟩
  · refine Or.inl ⟨v, ?_, text⟩
    rw [run]
    rfl
  · refine Or.inr ⟨stop, failed, ?_⟩
    rw [run]
    rfl

end

end Parser

end Warmth.Json
