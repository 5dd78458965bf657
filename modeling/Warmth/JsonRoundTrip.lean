import Warmth.JsonEscapes
import Warmth.JsonReadBack

namespace Warmth.Json

open Codec Codec.Reader Numerals Json.Parser

/-! The writer's text is escaped. -/

theorem escaped_escape (c : UInt8) : Escaped (escape c) := by
  by_cases quote : c = 34
  · rw [quote]
    exact Escaped.of_plain (by decide)
  · rcases escape_cases quote with ⟨w, char⟩ | ⟨plain, other, -⟩
    · have alone := Escaped.escape char Escaped.nil
      rwa [List.append_nil, ← char] at alone
    · rw [plain]
      exact Escaped.plain other Escaped.nil

theorem escaped_writeEscaped (s : CString) : Escaped (writeEscaped s) := by
  refine Escaped.plain (by decide) (Escaped.append ?_ (Escaped.of_plain (by decide)))
  induction s with
  | nil => exact Escaped.nil
  | cons c s ih => exact (escaped_escape c).append ih

theorem escaped_decimal (n : Int) : Escaped (decimal n) := by
  have digits : Escaped (naturalText n.natAbs) := by
    refine Escaped.of_plain fun backslash => ?_
    have digit := naturalText_digits n.natAbs 92 backslash
    cases digit
  unfold decimal
  split
  next => exact Escaped.plain (by decide) digits
  next => exact digits

theorem White.escaped {g : Bytes} (white : White g) : Escaped g := by
  refine Escaped.of_plain fun backslash => ?_
  have space := white 92 backslash
  cases space

theorem escaped_separator (first : Bool) : Escaped (if first then [] else [44]) := by
  cases first
  · exact Escaped.of_plain (by decide)
  · exact Escaped.nil

def WritesEscaped (v : Value) : Prop :=
  ∀ {indent : Int} {depth : Nat} {t : Bytes}, writeValue indent depth v = some t → Escaped t

section

variable {indent : Int} {depth : Nat} {first : Bool} {t : Bytes}

theorem escaped_items {items : List Value} (parts : ∀ v ∈ items, WritesEscaped v)
    (h : writeItems indent depth first items = some t) : Escaped t := by
  induction items generalizing first t with
  | nil =>
    cases h
    exact Escaped.nil
  | cons v rest ih =>
    rw [writeItems_cons, part_eq_some] at h
    obtain ⟨gap, item, tail, -, hgap, hitem, htail, rfl⟩ := h
    obtain ⟨one, parts⟩ := List.forall_mem_cons.mp parts
    have whole := ((white_lineBreak hgap).escaped.append (one hitem)).append (ih parts htail)
    exact (escaped_separator first).append whole

theorem escaped_members {members : List (CString × Value)} (parts : ∀ p ∈ members, WritesEscaped p.2)
    (h : writeMembers indent depth first members = some t) : Escaped t := by
  induction members generalizing first t with
  | nil =>
    cases h
    exact Escaped.nil
  | cons p rest ih =>
    rw [writeMembers_cons, part_eq_some] at h
    obtain ⟨gap, item, tail, -, hgap, hitem, htail, rfl⟩ := h
    obtain ⟨one, parts⟩ := List.forall_mem_cons.mp parts
    have key := (white_lineBreak hgap).escaped.append (escaped_writeEscaped p.1)
    have colon : Escaped (58 :: if indent < 0 then [] else [32]) :=
      Escaped.plain (by decide) (white_space indent).escaped
    have whole := ((key.append colon).append (one hitem)).append (ih parts htail)
    exact (escaped_separator first).append whole

theorem escaped_enclosed {start stop : UInt8} {body : Option Bytes} {empty : Bool} (hs : start ≠ 92)
    (ht : stop ≠ 92) (hbody : ∀ b, body = some b → Escaped b)
    (h : enclosed start stop body (closing indent depth empty) = some t) : Escaped t := by
  rw [enclosed_eq_some] at h
  obtain ⟨b, c, hb, hc, rfl⟩ := h
  have inside := (hbody b hb).append (white_closing hc).escaped
  exact Escaped.plain hs (inside.append (Escaped.plain ht Escaped.nil))

end

theorem escaped_of_numbers {v : Value} (numbers : ∀ d ∈ v.numbers, Escaped (numberText d)) :
    WritesEscaped v := by
  induction v with
  | null =>
    intro indent depth t h
    cases h
    exact Escaped.of_plain (by decide)
  | bool b =>
    intro indent depth t h
    cases h
    cases b
    · exact Escaped.of_plain (by decide)
    · exact Escaped.of_plain (by decide)
  | number d =>
    intro indent depth t h
    cases h
    exact numbers d List.mem_cons_self
  | string s =>
    intro indent depth t h
    cases h
    exact escaped_writeEscaped s
  | array items ih =>
    intro indent depth t h
    rw [writeValue_array] at h
    rw [Value.numbers_array] at numbers
    have parts : ∀ v ∈ items, WritesEscaped v :=
      fun v hv => ih v hv fun d hd => numbers d (List.mem_flatMap_of_mem hv hd)
    exact escaped_enclosed (by decide) (by decide) (fun b => escaped_items parts) h
  | object members ih =>
    intro indent depth t h
    rw [writeValue_object] at h
    rw [Value.numbers_object] at numbers
    have parts : ∀ p ∈ members, WritesEscaped p.2 :=
      fun p hp => ih p hp fun d hd => numbers d (List.mem_flatMap_of_mem hp hd)
    exact escaped_enclosed (by decide) (by decide) (fun b => escaped_members parts) h

theorem escaped_writeValue {v : Value} (integral : ∀ d ∈ v.numbers, d.Integral) : WritesEscaped v := by
  refine escaped_of_numbers fun d hd => ?_
  rw [numberText_of_integral (integral d hd)]
  exact escaped_decimal d.truncate

/-- A tree comes back from its text, as C++ compares numbers, just when it holds no quote and its
indents fit an `int`: `write_escaped` puts no backslash before a quote. -/
theorem round_trip_iff {v : Value} (ordered : v.Ordered) (integral : ∀ d ∈ v.numbers, d.Integral)
    (indent : Int) :
    (∃ t w, v.dump indent = some t ∧ Value.parse t = .ok w ∧ w.plain = v.plain) ↔
      v.Unquoted ∧ Room indent v.height := by
  constructor
  · rintro ⟨t, w, written, read, same⟩
    have unquoted := unquoted_of_parse (escaped_writeValue integral written) read
    refine ⟨?_, (isSome_dump v).mp (Option.isSome_of_eq_some written)⟩
    rwa [Value.Unquoted, ← Value.strings_plain, ← same, Value.strings_plain]
  · rintro ⟨unquoted, room⟩
    obtain ⟨t, written⟩ := Option.isSome_iff_exists.mp ((isSome_dump v).mpr room)
    exact ⟨t, v.plain, written, parse_dump ⟨integral, ordered, unquoted⟩ written, Value.plain_plain v⟩

/-- A member whose number is -7, on lines of its own. -/
theorem round_trip_member :
    ∃ t w, (Value.object [([97], .array [.number (.ofInt (-7))])]).dump 2 = some t ∧
      Value.parse t = .ok w ∧
      w.plain = (Value.object [([97], .array [.number (.ofInt (-7))])]).plain := by
  refine (round_trip_iff ?_ ?_ 2).mpr ⟨by decide, by decide⟩
  · rw [Value.ordered_object]
    refine ⟨List.pairwise_singleton _ _, fun p hp => ?_⟩
    rw [List.mem_singleton.mp hp, Value.ordered_array]
    intro v hv
    rw [List.mem_singleton.mp hv]
    exact trivial
  · intro d hd
    rw [List.mem_singleton.mp (show d ∈ [Double.ofInt (-7)] from hd)]
    exact ⟨-7, by decide, by decide⟩

/-- A string of one quote is written as three quotes, and the third one is not read. -/
theorem quote_lost :
    ¬∃ t w, (Value.string [34]).dump (-1) = some t ∧ Value.parse t = .ok w ∧
      w.plain = (Value.string [34]).plain := by
  have written : (Value.string [34]).dump (-1) = some [34, 34, 34] := rfl
  have read : Value.parse [34, 34, 34] = .error (.rejected (.failed 2 "trailing characters")) := by rfl
  rintro ⟨t, w, text, parsed, -⟩
  cases written.symm.trans text
  cases read.symm.trans parsed

end Warmth.Json
