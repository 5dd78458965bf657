import Warmth.JsonElements

/-! String literals as spellings of scalar values, and the surrogates that the reader does not refuse. -/

namespace Warmth.Json

open Codec Codec.Reader Numerals Json.Parser

/-! The encoder. -/

theorem lead_eq {mark u : UInt32} {i a n : Nat} (marked : mark.toNat = 2 ^ i * a) (value : u.toNat = n)
    (h : n < 2 ^ i) : lead mark u = UInt8.ofNat (n + mark.toNat) := by
  rw [lead, ← UInt8.ofNat_uInt32ToNat, UInt32.toNat_or, marked, value,
    ← Nat.two_pow_add_eq_or_of_lt h, Nat.add_comm]

theorem continuation_eq {u : UInt32} {n : Nat} (value : u.toNat % 64 = n) :
    continuation u = UInt8.ofNat (n + 0x80) := by
  have low : (u &&& 0x3F).toNat = n := by
    rw [UInt32.toNat_and, ← value]
    exact Nat.and_two_pow_sub_one_eq_mod _ 6
  exact lead_eq (i := 7) (a := 1) (by decide) low (by omega)

theorem shiftRight_toNat {u k : UInt32} {i : Nat} (h : k.toNat % 32 = i) :
    (u >>> k).toNat = u.toNat / 2 ^ i := by
  rw [UInt32.toNat_shiftRight, Nat.shiftRight_eq_div_pow, h]

/-- `append_utf8` appends the UTF-8 form of a scalar value. -/
theorem utf8_char (c : Char) : utf8 c.val = String.utf8EncodeChar c := by
  have small : c.val.toNat < 0x110000 := by
    rcases c.valid with low | ⟨-, high⟩ <;> omega
  have six : (c.val >>> 6).toNat = c.val.toNat / 64 := shiftRight_toNat rfl
  have twelve : (c.val >>> 12).toNat = c.val.toNat / 4096 := shiftRight_toNat rfl
  have eighteen : (c.val >>> 18).toNat = c.val.toNat / 262144 := shiftRight_toNat rfl
  rw [utf8, String.utf8EncodeChar]
  have one : c.val < 0x80 ↔ c.val.toNat ≤ 0x7f := by
    rw [UInt32.lt_iff_toNat_lt]
    exact Nat.lt_succ_iff
  have two : c.val < 0x800 ↔ c.val.toNat ≤ 0x7ff := by
    rw [UInt32.lt_iff_toNat_lt]
    exact Nat.lt_succ_iff
  have three : c.val < 0x10000 ↔ c.val.toNat ≤ 0xffff := by
    rw [UInt32.lt_iff_toNat_lt]
    exact Nat.lt_succ_iff
  simp only [one, two, three]
  split
  next => rw [UInt8.ofNat_uInt32ToNat]
  next =>
    split
    next =>
      have high : c.val.toNat / 64 < 32 := by omega
      rw [lead_eq (i := 6) (a := 3) (by decide) six (by omega), continuation_eq rfl,
        Nat.mod_eq_of_lt high]
      rfl
    next =>
      split
      next =>
        have high : c.val.toNat / 4096 < 16 := by omega
        rw [lead_eq (i := 5) (a := 7) (by decide) twelve (by omega),
          continuation_eq (congrArg (· % 64) six), continuation_eq rfl, Nat.mod_eq_of_lt high]
        rfl
      next =>
        have high : c.val.toNat / 262144 < 8 := by omega
        rw [lead_eq (i := 4) (a := 15) (by decide) eighteen (by omega),
          continuation_eq (congrArg (· % 64) twelve), continuation_eq (congrArg (· % 64) six),
          continuation_eq rfl, Nat.mod_eq_of_lt high]
        rfl

/-- A pair of surrogates is put together without a wrap. -/
theorem surrogates_toNat {hi lo : Element} (high : hi.isHigh = true) (low : lo.isLow = true) :
    (surrogates (UInt32.ofNat hi.code) (UInt32.ofNat lo.code)).toNat =
      0x10000 + (hi.code - 0xD800) * 0x400 + (lo.code - 0xDC00) := by
  rw [Element.isHigh, decide_eq_true_eq] at high
  rw [Element.isLow, decide_eq_true_eq] at low
  have first : (UInt32.ofNat hi.code - 0xD800).toNat = hi.code - 0xD800 := by
    rw [UInt32.toNat_sub_of_le, code_toNat]
    · rfl
    · rw [UInt32.le_iff_toNat_le, code_toNat]
      exact high.1
  have second : (UInt32.ofNat lo.code - 0xDC00).toNat = lo.code - 0xDC00 := by
    rw [UInt32.toNat_sub_of_le, code_toNat]
    · rfl
    · rw [UInt32.le_iff_toNat_le, code_toNat]
      exact low.1
  have shifted : ((UInt32.ofNat hi.code - 0xD800) <<< (10 : UInt32)).toNat = (hi.code - 0xD800) * 0x400 := by
    rw [UInt32.toNat_shiftLeft, first]
    change (hi.code - 0xD800) <<< 10 % 2 ^ 32 = _
    rw [Nat.shiftLeft_eq]
    exact Nat.mod_eq_of_lt (by omega)
  rw [surrogates, UInt32.toNat_add, UInt32.toNat_add, shifted, second]
  change ((0x10000 + _) % 2 ^ 32 + _) % 2 ^ 32 = _
  omega

/-- The ways to write scalar values: as they are, by a short escape, by a `\u` escape, or by two that
make a surrogate pair. -/
inductive Spells : List Char → List Element → Prop
  | nil : Spells [] []
  | raw {c : Char} {cs : List Char} {es : List Element} : Spells cs es →
      Spells (c :: cs) ((String.utf8EncodeChar c).map Element.raw ++ es)
  | short {c : Char} {mark b : UInt8} {cs : List Char} {es : List Element} : shortValue mark = some b →
      c.toNat = b.toNat → Spells cs es → Spells (c :: cs) (.short mark :: es)
  | unit {c : Char} {e : Element} {cs : List Char} {es : List Element} : e.isUnit = true →
      e.code = c.toNat → Spells cs es → Spells (c :: cs) (e :: es)
  | pair {c : Char} {hi lo : Element} {cs : List Char} {es : List Element} : hi.isHigh = true →
      lo.isLow = true → c.toNat = 0x10000 + (hi.code - 0xD800) * 0x400 + (lo.code - 0xDC00) →
      Spells cs es → Spells (c :: cs) (hi :: lo :: es)

theorem decode_raws (bs : Bytes) {es : List Element} {t : Bytes} (h : decode es = some t) :
    decode (bs.map Element.raw ++ es) = some (bs ++ t) := by
  induction bs with
  | nil => exact h
  | cons b bs ih =>
    rw [List.map_cons, List.cons_append, decode_single rfl, ih]
    rfl

theorem isUnit_of_isLow {e : Element} (h : e.isLow = true) : e.isUnit = true := by
  cases e with
  | raw | short => cases h
  | unit => rfl

/-- A spelling is decoded to the UTF-8 form of what it spells. -/
theorem Spells.decode {cs : List Char} {es : List Element} (h : Spells cs es) :
    decode es = some (cs.flatMap String.utf8EncodeChar) := by
  induction h with
  | nil => rfl
  | raw _ ih => exact decode_raws _ ih
  | @short c mark b cs es marked value _ ih =>
    have low : c.toNat ≤ 0x7f := by
      have all : shorts.all (fun p => decide (p.2.toNat ≤ 0x7f)) = true := by decide
      rw [value]
      exact of_decide_eq_true (List.all_eq_true.mp all _ (mem_shorts marked))
    have bytes : (Element.short mark).bytes = String.utf8EncodeChar c := by
      rw [Element.bytes, marked, Option.getD_some, String.utf8EncodeChar]
      change _ = if c.toNat ≤ 0x7f then [UInt8.ofNat c.toNat] else _
      rw [if_pos low, value, UInt8.ofNat_toNat]
    rw [decode_single rfl, ih, bytes]
    rfl
  | @unit c e cs es escaped value _ ih =>
    have scalar : e.isHigh = false := by
      rw [Element.isHigh, value, decide_eq_false_iff_not]
      rcases c.valid with low | ⟨high, -⟩
      · change ¬ (_ ≤ c.val.toNat ∧ _)
        omega
      · change ¬ (_ ∧ c.val.toNat ≤ _)
        omega
    have bytes : e.bytes = String.utf8EncodeChar c := by
      cases e with
      | raw | short => cases escaped
      | unit =>
        rw [Element.bytes, value, ← utf8_char]
        exact congrArg utf8 (UInt32.ofNat_toNat)
    rw [decode_single scalar, ih, bytes]
    rfl
  | @pair c hi lo cs es high low value _ ih =>
    have bytes : utf8 (surrogates (UInt32.ofNat hi.code) (UInt32.ofNat lo.code)) = String.utf8EncodeChar c := by
      rw [← utf8_char]
      refine congrArg utf8 (UInt32.toNat_inj.mp ?_)
      rw [surrogates_toNat high low]
      exact value.symm
    rw [decode_pair high (isUnit_of_isLow low), ih, bytes]
    rfl

/-- A high surrogate without a low one right behind it, or a low one without a high one right before
it. -/
def Malformed (es : List Element) : Prop :=
  (∃ before e behind, es = before ++ e :: behind ∧ e.isHigh = true ∧
      behind.head?.any Element.isLow = false) ∨
    ∃ before e behind, es = before ++ e :: behind ∧ e.isLow = true ∧
      before.getLast?.any Element.isHigh = false

/-- A literal is read as what it spells, and refused where it is malformed. -/
def DecodesRight (es : List Element) : Prop :=
  (∀ cs, Spells cs es → ∀ post,
      Eats parseString (literal es) (cs.flatMap String.utf8EncodeChar) post) ∧
    (Malformed es → (∀ post, Refuses Failed parseString (literal es ++ post)) ∧
      ∃ stop, Failed stop ∧ Value.parse (literal es) = .error stop)

section

variable {es : List Element} (valid : ∀ e ∈ es, e.Valid)

include valid

theorem parse_literal {bs : Bytes} (decoded : decode es = some bs) :
    Value.parse (literal es) = .ok (.string bs) := by
  have string (n : Nat) : Eats (switch stod n 34) (literal es) (.string bs) [] :=
    Eats.last (eats_literal valid decoded []) (Eats.pure _ [])
  have whole : Value.parseWith stod ([] ++ (literal es ++ [])) = .ok (.string bs) :=
    parseWith_of_eats white_nil rfl white_nil fun n fuel =>
      eats_switch (g := []) white_nil (by decide) fuel (string (n - 1))
  rwa [List.append_nil] at whole

theorem parse_refused (lone : LoneHigh es) : ∃ stop, Failed stop ∧ Value.parse (literal es) = .error stop := by
  have text : literal es ++ [] = literal es := List.append_nil _
  have refused : Refuses Failed (document stod) (literal es) := by
    refine (Eats.steps (w := []) (eats_skipWs white_nil rfl)).refuses (Refuses.get fun c => ?_)
    refine Refuses.bind ?_
    rw [parseValue_succ]
    refine (Eats.steps (w := []) (eats_skipWs white_nil rfl)).refuses ?_
    refine (Eats.steps (w := []) (eats_peek _)).refuses ?_
    have string := refuses_literal valid lone []
    rw [text] at string
    exact string.bind
  obtain ⟨stop, failed, run⟩ := refused { bytes := literal es } (Nat.zero_le _) rfl
  refine ⟨stop, failed, ?_⟩
  rw [Value.parse, Value.parseWith, run]
  rfl

end

/-- A literal is read as what it spells and refused when malformed exactly if, where its surrogates do
not pair, a high one has no escape behind it. -/
theorem literal_decodes_iff {es : List Element} (valid : ∀ e ∈ es, e.Valid) :
    DecodesRight es ↔ (Malformed es → LoneHigh es) := by
  constructor
  · rintro ⟨-, refused⟩ malformed
    obtain ⟨-, stop, -, parsed⟩ := refused malformed
    rw [← decode_eq_none_iff]
    cases decoded : decode es with
    | none => rfl
    | some bs =>
      rw [parse_literal valid decoded] at parsed
      cases parsed
  · intro lone
    exact ⟨fun cs spelt post => eats_literal valid spelt.decode post,
      fun malformed => ⟨refuses_literal valid (lone malformed), parse_refused valid (lone malformed)⟩⟩

/-- `\uDC00` -/
def lowUnit : Element := .unit 68 67 48 48

/-- `\uD800` -/
def highUnit : Element := .unit 68 56 48 48

theorem lowUnit_valid : lowUnit.Valid := ⟨rfl, rfl, rfl, rfl⟩

theorem highUnit_valid : highUnit.Valid := ⟨rfl, rfl, rfl, rfl⟩

/-- A low surrogate that comes first is refused with a high one behind it. -/
theorem literal_decodes_lone : DecodesRight [lowUnit, highUnit] :=
  (literal_decodes_iff
    (List.forall_mem_cons.mpr ⟨lowUnit_valid, List.forall_mem_singleton.mpr highUnit_valid⟩)).mpr
    fun _ => .single (by decide) (.here (by decide) rfl)

/-- A low surrogate by itself is read, and so is a high one with some other escape behind it. -/
theorem literal_low_accepted : ¬ DecodesRight [lowUnit] ∧ literal [lowUnit] = text "\"\\uDC00\"" ∧
    Value.parse (text "\"\\uDC00\"") = .ok (.string [0xED, 0xB0, 0x80]) ∧
    Value.parse (text "\"\\uD800\\u0041\"") = .ok (.string [0xE2, 0x91, 0x81]) := by
  have read : Value.parse (literal [lowUnit]) = .ok (.string [0xED, 0xB0, 0x80]) :=
    parse_literal (List.forall_mem_singleton.mpr lowUnit_valid) (by decide +kernel)
  have other : Value.parse (literal [highUnit, .unit 48 48 52 49]) = .ok (.string [0xE2, 0x91, 0x81]) := by
    refine parse_literal (List.forall_mem_cons.mpr ⟨highUnit_valid, ?_⟩) (by decide +kernel)
    exact List.forall_mem_singleton.mpr ⟨rfl, rfl, rfl, rfl⟩
  refine ⟨fun right => ?_, by decide, read, other⟩
  obtain ⟨-, stop, -, refused⟩ := right.2 (Or.inr ⟨[], lowUnit, [], rfl, by decide, rfl⟩)
  rw [read] at refused
  cases refused

end Warmth.Json
