import Warmth.JsonSoundness
import Warmth.JsonUnicode

/-! What the reader takes is the grammar of JSON texts, where no `\u` escape names a surrogate. -/

namespace Warmth.Json

open Codec Codec.Reader Numerals Json.Parser

/-- What an element stands for. -/
def Element.meaning : Element → Bytes
  | raw b => [b]
  | short mark => [(shortValue mark).getD 0]
  | unit a b c d => String.utf8EncodeChar (Char.ofNat (unit a b c d).code)

/-- A string without surrogates, and what it stands for. -/
def Written (w s : Bytes) : Prop :=
  ∃ es, (∀ e ∈ es, e.Valid ∧ e.isHigh = false ∧ e.isLow = false) ∧ s = es.flatMap Element.meaning ∧
    w = literal es

/-- Four digits that name a surrogate come first. -/
def NamesSurrogate (u : Bytes) : Prop :=
  ∃ a b c d rest, u = a :: b :: c :: d :: rest ∧ (Element.unit a b c d).Valid ∧
    0xD800 ≤ (Element.unit a b c d).code ∧ (Element.unit a b c d).code ≤ 0xDFFF

/-- No `\u` escape names a surrogate; a backslash takes the byte behind it. -/
def SurrogateFree : Bytes → Prop
  | [] => True
  | [_] => True
  | b :: c :: u =>
    if b = 92 then (c = 117 → ¬ NamesSurrogate u) ∧ SurrogateFree u else SurrogateFree (c :: u)

namespace SurrogateFree

variable {u : Bytes}

theorem tail {b : UInt8} (h : SurrogateFree (b :: u)) (plain : b ≠ 92) : SurrogateFree u := by
  cases u with
  | nil => trivial
  | cons c u =>
    rw [SurrogateFree, if_neg plain] at h
    exact h

theorem escape {c : UInt8} (h : SurrogateFree (92 :: c :: u)) :
    (c = 117 → ¬ NamesSurrogate u) ∧ SurrogateFree u := by
  rwa [SurrogateFree, if_pos rfl] at h

theorem skip {w : Bytes} (h : SurrogateFree (w ++ u)) (plain : 92 ∉ w) : SurrogateFree u := by
  induction w with
  | nil => exact h
  | cons b w ih =>
    obtain ⟨first, plain⟩ := not_or.mp (mt List.mem_cons.mpr plain)
    exact ih (h.tail (Ne.symm first)) plain

theorem hexDigit {b : UInt8} (h : (hexValue b).isSome = true) : b ≠ 92 := by
  rintro rfl
  cases h

theorem element {e : Element} (valid : e.Valid) (h : SurrogateFree (e.text ++ u)) :
    (e.isHigh = false ∧ e.isLow = false) ∧ SurrogateFree u := by
  cases e with
  | raw b => exact ⟨⟨rfl, rfl⟩, h.tail valid.2.2⟩
  | short mark => exact ⟨⟨rfl, rfl⟩, h.escape.2⟩
  | unit a b c d =>
    obtain ⟨none, rest⟩ := h.escape
    have digits := valid
    obtain ⟨ha, hb, hc, hd⟩ := digits
    refine ⟨?_, (((rest.tail (hexDigit ha)).tail (hexDigit hb)).tail (hexDigit hc)).tail (hexDigit hd)⟩
    have scalar : ¬ (0xD800 ≤ (Element.unit a b c d).code ∧ (Element.unit a b c d).code ≤ 0xDFFF) :=
      fun range => none rfl ⟨a, b, c, d, u, rfl, valid, range.1, range.2⟩
    rw [Element.isHigh, Element.isLow, decide_eq_false_iff_not, decide_eq_false_iff_not]
    constructor <;> omega

theorem elements {es : List Element} (valid : ∀ e ∈ es, e.Valid)
    (h : SurrogateFree (es.flatMap Element.text ++ u)) :
    (∀ e ∈ es, e.isHigh = false ∧ e.isLow = false) ∧ SurrogateFree u := by
  induction es with
  | nil => exact ⟨fun _ he => absurd he List.not_mem_nil, h⟩
  | cons e es ih =>
    obtain ⟨first, valid⟩ := List.forall_mem_cons.mp valid
    rw [List.flatMap_cons, List.append_assoc] at h
    obtain ⟨scalar, rest⟩ := element first h
    obtain ⟨scalars, rest⟩ := ih valid rest
    exact ⟨List.forall_mem_cons.mpr ⟨scalar, scalars⟩, rest⟩

end SurrogateFree

theorem meaning_eq {e : Element} (scalar : e.isHigh = false ∧ e.isLow = false) : e.bytes = e.meaning := by
  cases e with
  | raw | short => rfl
  | unit a b c d =>
    have small := code_lt (.unit a b c d)
    rw [Element.isHigh, Element.isLow, decide_eq_false_iff_not, decide_eq_false_iff_not] at scalar
    have valid : (Element.unit a b c d).code.isValidChar := by
      rw [Nat.isValidChar]
      omega
    have value : (Char.ofNat (Element.unit a b c d).code).val = UInt32.ofNat (Element.unit a b c d).code := by
      apply UInt32.toNat_inj.mp
      rw [code_toNat, Char.ofNat, dif_pos valid]
      rfl
    rw [Element.bytes, Element.meaning, ← utf8_char, value]

theorem decode_scalars {es : List Element} (scalars : ∀ e ∈ es, e.isHigh = false ∧ e.isLow = false) :
    decode es = some (es.flatMap Element.meaning) := by
  induction es with
  | nil => rfl
  | cons e es ih =>
    obtain ⟨first, scalars⟩ := List.forall_mem_cons.mp scalars
    rw [decode_single first.1, ih scalars, meaning_eq first, List.flatMap_cons]
    rfl

theorem Written.accepted {w s : Bytes} (h : Written w s) : Accepted w s := by
  obtain ⟨es, scalars, rfl, rfl⟩ := h
  exact ⟨es, fun e he => (scalars e he).1, decode_scalars fun e he => (scalars e he).2, rfl⟩

theorem Accepted.written {w s u : Bytes} (h : Accepted w s) (free : SurrogateFree (w ++ u)) :
    Written w s ∧ SurrogateFree u := by
  obtain ⟨es, valid, decoded, rfl⟩ := h
  have inside : SurrogateFree (es.flatMap Element.text ++ ([34] ++ u)) := by
    rw [← List.append_assoc]
    exact SurrogateFree.tail free (by decide)
  obtain ⟨scalars, rest⟩ := inside.elements valid
  rw [decode_scalars scalars] at decoded
  exact ⟨⟨es, fun e he => ⟨valid e he, scalars e he⟩, (Option.some.inj decoded).symm, rfl⟩,
    rest.tail (by decide)⟩

/-! Where backslashes stand in a text. -/

theorem plain_white {g : Bytes} (white : White g) : 92 ∉ g := by
  intro backslash
  have space := white 92 backslash
  cases space

theorem plain_digits {ds : Bytes} (digits : ∀ d ∈ ds, isDigit d = true) : 92 ∉ ds := by
  intro backslash
  have digit := digits 92 backslash
  cases digit

theorem plain_number {w : Bytes} (h : IsNumber w) : 92 ∉ w := by
  obtain ⟨sign, whole, fraction, exponent, signed, integer, fractional, exponential, rfl⟩ := h
  have first : 92 ∉ sign := by
    rcases signed with rfl | rfl
    all_goals decide
  have second : 92 ∉ whole := by
    rcases integer with rfl | ⟨b, ds, range, digits, rfl⟩
    · decide
    · exact plain_digits (List.forall_mem_cons.mpr ⟨digit_of_range range, digits⟩)
  have third : 92 ∉ fraction := by
    rcases fractional with rfl | ⟨ds, digits, rfl⟩
    · decide
    · simpa using plain_digits digits.2
  have fourth : 92 ∉ exponent := by
    rcases exponential with rfl | ⟨mark, sign, ds, marked, signed, digits, rfl⟩
    · decide
    · have behind := plain_digits digits.2
      rcases marked with rfl | rfl
      all_goals
        rcases signed with rfl | rfl | rfl
        all_goals simpa using behind
  simp [first, second, third, fourth]

section

variable {convert : Bytes → Option Double} {w : Bytes} {part : Part}

theorem Grammar.accepted (h : Grammar Written convert w part) : Grammar Accepted convert w part :=
  h.mono Written.accepted id

/-- Text that the reader takes is of the grammar up to the strings, and these are read as written. -/
theorem Grammar.written (h : Grammar Accepted convert w part) {u : Bytes} (free : SurrogateFree (w ++ u)) :
    Grammar Written convert w part ∧ SurrogateFree u := by
  induction h generalizing u with
  | null => exact ⟨.null, free.skip (by decide)⟩
  | bool b =>
    refine ⟨.bool b, free.skip ?_⟩
    cases b
    all_goals decide
  | number number converted => exact ⟨.number number converted, free.skip (plain_number number)⟩
  | string accepted =>
    obtain ⟨written, rest⟩ := accepted.written free
    exact ⟨.string written, rest⟩
  | emptyArray inner =>
    rw [List.cons_append, List.append_assoc] at free
    exact ⟨.emptyArray inner, ((free.tail (by decide)).skip (plain_white inner)).tail (by decide)⟩
  | array inner _ ih =>
    rw [List.cons_append, List.append_assoc, List.append_assoc] at free
    obtain ⟨items, rest⟩ := ih ((free.tail (by decide)).skip (plain_white inner))
    exact ⟨.array inner items, rest.tail (by decide)⟩
  | emptyObject inner =>
    rw [List.cons_append, List.append_assoc] at free
    exact ⟨.emptyObject inner, ((free.tail (by decide)).skip (plain_white inner)).tail (by decide)⟩
  | object inner _ assigned ih =>
    rw [List.cons_append, List.append_assoc, List.append_assoc] at free
    obtain ⟨members, rest⟩ := ih ((free.tail (by decide)).skip (plain_white inner))
    exact ⟨.object inner members assigned, rest.tail (by decide)⟩
  | lastItem _ gap ih =>
    rw [List.append_assoc] at free
    obtain ⟨value, rest⟩ := ih free
    exact ⟨.lastItem value gap, rest.skip (plain_white gap)⟩
  | item _ gap gap' _ ih ihs =>
    rw [List.append_assoc, List.append_assoc, List.cons_append, List.append_assoc] at free
    obtain ⟨value, rest⟩ := ih free
    obtain ⟨items, rest⟩ := ihs (((rest.skip (plain_white gap)).tail (by decide)).skip (plain_white gap'))
    exact ⟨.item value gap gap' items, rest⟩
  | lastMember accepted gap gap' _ gap'' ih =>
    rw [List.append_assoc, List.append_assoc, List.cons_append, List.append_assoc, List.append_assoc] at free
    obtain ⟨written, rest⟩ := accepted.written free
    obtain ⟨value, rest⟩ := ih (((rest.skip (plain_white gap)).tail (by decide)).skip (plain_white gap'))
    exact ⟨.lastMember written gap gap' value gap'', rest.skip (plain_white gap'')⟩
  | member accepted gap gap' _ gap'' after _ ih ihs =>
    rw [List.append_assoc, List.append_assoc, List.cons_append, List.append_assoc, List.append_assoc,
      List.append_assoc, List.cons_append, List.append_assoc] at free
    obtain ⟨written, rest⟩ := accepted.written free
    obtain ⟨value, rest⟩ := ih (((rest.skip (plain_white gap)).tail (by decide)).skip (plain_white gap'))
    obtain ⟨members, rest⟩ := ihs (((rest.skip (plain_white gap'')).tail (by decide)).skip (plain_white after))
    exact ⟨.member written gap gap' value gap'' after members, rest⟩

theorem text_iff {s : Bytes} (free : SurrogateFree s) (v : Value) :
    Text Accepted convert s v ↔ Text Written convert s v := by
  constructor
  · rintro ⟨g, w, g', before, value, behind, rfl⟩
    exact ⟨g, w, g', before, (value.written (free.skip (plain_white before))).1, behind, rfl⟩
  · rintro ⟨g, w, g', before, value, behind, rfl⟩
    exact ⟨g, w, g', before, value.accepted, behind, rfl⟩

end

/-- `parse`, with a conversion that takes every number: on any bytes it returns or fails by a message of
its own, and without surrogates it returns exactly what the grammar assigns to a text. -/
theorem parse_accepts_grammar (convert : Bytes → Double) (s : CString) :
    ((∃ v, Value.parseWith (fun w => some (convert w)) s = .ok v) ∨
        ∃ stop, Failed stop ∧ Value.parseWith (fun w => some (convert w)) s = .error stop) ∧
      (SurrogateFree s → ∀ v, Value.parseWith (fun w => some (convert w)) s = .ok v ↔
        Text Written (fun w => some (convert w)) s v) := by
  have run := parseWith_total (fun w => some (convert w)) s
  refine ⟨run.imp_left fun returned => ?_, fun free v => ⟨fun parsed => ?_, fun text => ?_⟩⟩
  · obtain ⟨v, parsed, -⟩ := returned
    exact ⟨v, parsed⟩
  · rcases run with ⟨v', parsed', text⟩ | ⟨stop, -, stopped⟩
    · rw [parsed'] at parsed
      cases parsed
      exact (text_iff free _).mp text
    · rw [stopped] at parsed
      cases parsed
  · exact ((text_iff free v).mpr text).parse

/-- A key given twice, and a string with an escape. -/
theorem parse_accepts_duplicate :
    Value.parseWith (fun w => some ((stod w).getD ⟨0⟩)) (text "\x7b\"a\":0,\"a\":\"\\u0041\"\x7d") =
      .ok (.object [([97], .string [65])]) := by
  have key : Written (text "\"a\"") [97] := ⟨[.raw 97], List.forall_mem_singleton.mpr (by decide), rfl, rfl⟩
  have escaped : Written (text "\"\\u0041\"") [65] :=
    ⟨[.unit 48 48 52 49], List.forall_mem_singleton.mpr (by decide), by decide, rfl⟩
  have zero : IsNumber (text "0") := ⟨[], [48], [], [], Or.inl rfl, Or.inl rfl, Or.inl rfl, Or.inl rfl, rfl⟩
  have free : SurrogateFree (text "\x7b\"a\":0,\"a\":\"\\u0041\"\x7d") := by
    refine ⟨fun _ named => ?_, trivial⟩
    obtain ⟨a, b, c, d, rest, digits, -, high, -⟩ := named
    cases digits
    revert high
    decide
  have number : Grammar Written (fun w => some ((stod w).getD ⟨0⟩)) (text "0") _ := .number zero rfl
  have string : Grammar Written (fun w => some ((stod w).getD ⟨0⟩)) (text "\"\\u0041\"") _ := .string escaped
  have second := Grammar.lastMember key white_nil white_nil string white_nil
  have members := Grammar.member key white_nil white_nil number white_nil white_nil second
  have value := Grammar.object white_nil members (assigned_assign _)
  exact ((parse_accepts_grammar (fun w => (stod w).getD ⟨0⟩) _).2 free _).mpr
    ⟨[], _, [], white_nil, value, white_nil, rfl⟩

end Warmth.Json
