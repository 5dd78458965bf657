import Warmth.JsonGrammar

namespace Warmth.Json

open Codec Codec.Reader Numerals Json.Parser

theorem numberText_of_integral {d : Double} (h : d.Integral) : numberText d = decimal d.truncate := by
  obtain ⟨-, whole, small⟩ := h.text
  have low : Double.quadrillion.magnitude < Double.infinity := by decide
  have finite : d.isNan = false := decide_eq_false (by omega)
  have same : d.eq (.ofInt d.truncate) = true := by
    rw [whole, Double.eq_iff_plain finite (Double.isNan_plain finite), Double.plain_plain]
  have above : Double.quadrillion.neg.lt d = true := by
    have limit : Double.quadrillion.neg.isNan = false ∧
        Double.quadrillion.neg.key = -Double.quadrillion.magnitude := by
      decide
    rw [Double.lt, limit.1, limit.2, finite, Double.key]
    split <;> simp <;> omega
  have below : d.lt Double.quadrillion = true := by
    have limit : Double.quadrillion.isNan = false ∧
        Double.quadrillion.key = Double.quadrillion.magnitude := by
      decide
    rw [Double.lt, limit.1, limit.2, finite, Double.key]
    split <;> simp <;> omega
  rw [numberText, same, above, below]
  rfl

theorem white_lineBreak {indent : Int} {depth : Nat} {g : Bytes} (h : lineBreak indent depth = some g) :
    White g := by
  unfold lineBreak at h
  split at h
  next =>
    cases h
    exact white_nil
  next =>
    split at h
    next =>
      cases h
      refine List.forall_mem_cons.mpr ⟨by decide, fun b hb => ?_⟩
      rw [List.eq_of_mem_replicate hb]
      decide
    next => cases h

theorem white_closing {indent : Int} {depth : Nat} {empty : Bool} {g : Bytes}
    (h : closing indent depth empty = some g) : White g := by
  unfold closing at h
  split at h
  next =>
    cases h
    exact white_nil
  next => exact white_lineBreak h

theorem setKey_append {key : CString} {v : Value} {o : List (CString × Value)}
    (h : ∀ p ∈ o, p.1 < key) : Value.setKey key v o = o ++ [(key, v)] := by
  induction o with
  | nil => rfl
  | cons p o ih =>
    obtain ⟨first, rest⟩ := List.forall_mem_cons.mp h
    have after : ¬key < p.1 := List.lt_asymm first
    have other : ¬key = p.1 := by
      rintro rfl
      exact after first
    rw [Value.setKey, if_neg after, if_neg other, ih rest, List.cons_append]

theorem white_space (indent : Int) : White (if indent < 0 then [] else [32]) := by
  split
  · exact white_nil
  · exact List.forall_mem_cons.mpr ⟨by decide, white_nil⟩

theorem keys_before {o : List (CString × Value)} {key : CString} {keys : List CString}
    (ordered : (o.map Prod.fst ++ key :: keys).Pairwise (· < ·)) : ∀ p ∈ o, p.1 < key := by
  obtain ⟨-, -, across⟩ := List.pairwise_append.mp ordered
  exact fun p hp => across p.1 (List.mem_map_of_mem hp) key List.mem_cons_self

theorem assign_append {o ms : List (CString × Value)}
    (ordered : (o.map Prod.fst ++ ms.map Prod.fst).Pairwise (· < ·)) : assign o ms = o ++ ms := by
  induction ms generalizing o with
  | nil => exact (List.append_nil o).symm
  | cons p ms ih =>
    have first := setKey_append (v := p.2) (keys_before ordered)
    have more : ((o ++ [p]).map Prod.fst ++ ms.map Prod.fst).Pairwise (· < ·) := by simpa using ordered
    rw [assign, List.foldl_cons, first]
    exact (ih more).trans (by simp)

/-- Members in the order of their keys are the object they determine. -/
theorem assigned_self {o : List (CString × Value)} (ordered : (o.map Prod.fst).Pairwise (· < ·)) :
    Assigned o o := by
  have whole := assigned_assign o
  rwa [assign_append (o := []) ordered] at whole

/-- The writer's text for a tree is of the grammar, with the tree as its value up to what the
conversion of its numbers makes of them. -/
def InGrammar (convert : Bytes → Option Double) (f : Double → Double) (v : Value) : Prop :=
  ∀ {indent : Int} {depth : Nat} {t : Bytes}, writeValue indent depth v = some t →
    Grammar Accepted convert t (.value (v.mapNumbers f))

theorem accepted_writeEscaped {s : CString} (unquoted : 34 ∉ s) : Accepted (writeEscaped s) s := by
  have others : ∀ c ∈ s, c ≠ 34 := fun c hc same => unquoted (same ▸ hc)
  refine ⟨s.map written, fun e he => ?_, decode_written others, literal_written others⟩
  obtain ⟨c, hc, rfl⟩ := List.mem_map.mp he
  exact (written_eq (others c hc)).2.1

section

variable {convert : Bytes → Option Double} {f : Double → Double}
  {indent : Int} {depth : Nat} {close : Bytes}

theorem grammar_items (white : White close) {rest : List Value} (back : ∀ v ∈ rest, InGrammar convert f v)
    {v : Value} (first : InGrammar convert f v) {item tail : Bytes}
    (hitem : writeValue indent (depth + 1) v = some item)
    (htail : writeItems indent depth false rest = some tail) :
    Grammar Accepted convert (item ++ (tail ++ close)) (.items ((v :: rest).map (Value.mapNumbers f))) := by
  induction rest generalizing v item tail with
  | nil =>
    cases htail
    exact .lastItem (first hitem) white
  | cons w rest ih =>
    rw [writeItems_cons, part_eq_some] at htail
    obtain ⟨gap, item', tail', -, hgap, hitem', htail', rfl⟩ := htail
    obtain ⟨second, back⟩ := List.forall_mem_cons.mp back
    have more := ih back second hitem' htail'
    have whole := Grammar.item (first hitem) white_nil (white_lineBreak hgap) more
    simpa using whole

theorem grammar_members (white : White close) {rest : List (CString × Value)}
    (back : ∀ p ∈ rest, InGrammar convert f p.2) (unquoted : ∀ p ∈ rest, 34 ∉ p.1) {key : CString}
    {v : Value} (first : InGrammar convert f v) (plain : 34 ∉ key) {item tail : Bytes}
    (hitem : writeValue indent (depth + 1) v = some item)
    (htail : writeMembers indent depth false rest = some tail) :
    Grammar Accepted convert
      (writeEscaped key ++ 58 :: ((if indent < 0 then [] else [32]) ++ (item ++ (tail ++ close))))
      (.members ((key, v.mapNumbers f) :: rest.map fun p => (p.1, p.2.mapNumbers f))) := by
  induction rest generalizing v key item tail with
  | nil =>
    cases htail
    exact .lastMember (accepted_writeEscaped plain) white_nil (white_space indent) (first hitem) white
  | cons p rest ih =>
    rw [writeMembers_cons, part_eq_some] at htail
    obtain ⟨gap, item', tail', -, hgap, hitem', htail', rfl⟩ := htail
    obtain ⟨second, back⟩ := List.forall_mem_cons.mp back
    obtain ⟨plain', unquoted⟩ := List.forall_mem_cons.mp unquoted
    have more := ih back unquoted second plain' hitem' htail'
    have whole := Grammar.member (accepted_writeEscaped plain) white_nil (white_space indent) (first hitem)
      white_nil (white_lineBreak hgap) more
    simpa using whole

end

/-- What a tree must be for a reader with some conversion of numbers to take its text. -/
structure Value.Legible (convert : Bytes → Option Double) (f : Double → Double) (v : Value) : Prop where
  converted : ∀ d ∈ v.numbers, IsNumber (numberText d) ∧ convert (numberText d) = some (f d)
  ordered : v.Ordered
  unquoted : v.Unquoted

theorem Value.Legible.item {convert : Bytes → Option Double} {f : Double → Double} {items : List Value}
    (h : Legible convert f (.array items)) : ∀ v ∈ items, v.Legible convert f := by
  obtain ⟨converted, ordered, unquoted⟩ := h
  rw [numbers_array] at converted
  intro v hv
  refine ⟨fun d hd => converted d (List.mem_flatMap_of_mem hv hd), ?_, ?_⟩
  · exact (ordered_array items).mp ordered v hv
  · exact unquoted_array.mp unquoted v hv

theorem Value.Legible.member {convert : Bytes → Option Double} {f : Double → Double}
    {members : List (CString × Value)} (h : Legible convert f (.object members)) :
    ∀ p ∈ members, p.2.Legible convert f := by
  obtain ⟨converted, ordered, unquoted⟩ := h
  rw [numbers_object] at converted
  intro p hp
  refine ⟨fun d hd => converted d (List.mem_flatMap_of_mem hp hd), ?_, ?_⟩
  · exact ((ordered_object members).mp ordered).2 p hp
  · exact (unquoted_object.mp unquoted p hp).2

theorem Value.Legible.inGrammar {convert : Bytes → Option Double} {f : Double → Double} {v : Value}
    (h : v.Legible convert f) : InGrammar convert f v := by
  induction v with
  | null =>
    intro indent depth t ht
    cases ht
    exact .null
  | bool b =>
    intro indent depth t ht
    cases ht
    exact .bool b
  | number d =>
    intro indent depth t ht
    cases ht
    obtain ⟨number, value⟩ := h.converted d List.mem_cons_self
    exact .number number value
  | string s =>
    intro indent depth t ht
    cases ht
    exact .string (accepted_writeEscaped (h.unquoted s List.mem_cons_self))
  | array items ih =>
    intro indent depth t ht
    rw [writeValue_array, enclosed_eq_some] at ht
    obtain ⟨body, close, hbody, hclose, rfl⟩ := ht
    have parts : ∀ v ∈ items, InGrammar convert f v := fun v hv => ih v hv (h.item v hv)
    rw [mapNumbers_array]
    cases items with
    | nil =>
      cases hbody
      exact .emptyArray (white_closing hclose)
    | cons v rest =>
      rw [writeItems_cons, part_eq_some] at hbody
      obtain ⟨gap, item, tail, -, hgap, hitem, htail, rfl⟩ := hbody
      obtain ⟨first, back⟩ := List.forall_mem_cons.mp parts
      have listed := grammar_items (white_closing hclose) back first hitem htail
      have whole := Grammar.array (white_lineBreak hgap) listed
      simpa using whole
  | object members ih =>
    intro indent depth t ht
    rw [writeValue_object, enclosed_eq_some] at ht
    obtain ⟨body, close, hbody, hclose, rfl⟩ := ht
    have parts : ∀ p ∈ members, InGrammar convert f p.2 := fun p hp => ih p hp (h.member p hp)
    have keys : ∀ p ∈ members, 34 ∉ p.1 := fun p hp => (unquoted_object.mp h.unquoted p hp).1
    have ordered := ((ordered_object members).mp h.ordered).1
    rw [mapNumbers_object]
    cases members with
    | nil =>
      cases hbody
      exact .emptyObject (white_closing hclose)
    | cons p rest =>
      rw [writeMembers_cons, part_eq_some] at hbody
      obtain ⟨gap, item, tail, -, hgap, hitem, htail, rfl⟩ := hbody
      obtain ⟨first, back⟩ := List.forall_mem_cons.mp parts
      obtain ⟨plain, unquoted⟩ := List.forall_mem_cons.mp keys
      have inside := grammar_members (white_closing hclose) back unquoted first plain hitem htail
      have assigned : Assigned ((p :: rest).map fun p => (p.1, p.2.mapNumbers f))
          ((p :: rest).map fun p => (p.1, p.2.mapNumbers f)) :=
        assigned_self (by rwa [List.map_map])
      have whole := Grammar.object (white_lineBreak hgap) inside assigned
      simpa using whole

/-- `parse` of what `dump` returns. -/
theorem Value.Legible.parse_dump {convert : Bytes → Option Double} {f : Double → Double} {v : Value}
    (h : v.Legible convert f) {indent : Int} {t : Bytes} (ht : v.dump indent = some t) :
    Value.parseWith convert t = .ok (v.mapNumbers f) :=
  Text.parse ⟨[], t, [], white_nil, h.inGrammar ht, white_nil, (List.append_nil t).symm⟩

/-- What a tree must be for the reader to give it back, apart from the room for its indents. -/
structure Value.Readable (v : Value) : Prop where
  integral : ∀ d ∈ v.numbers, d.Integral
  ordered : v.Ordered
  unquoted : v.Unquoted

theorem Value.Readable.legible {v : Value} (h : v.Readable) : v.Legible stod Double.plain := by
  refine ⟨fun d hd => ?_, h.ordered, h.unquoted⟩
  have integral := h.integral d hd
  obtain ⟨small, whole, -⟩ := integral.text
  rw [numberText_of_integral integral]
  exact ⟨isNumber_decimal _, (stod_decimal small).trans (congrArg some whole)⟩

theorem parse_dump {v : Value} (h : v.Readable) {indent : Int} {t : Bytes} (ht : v.dump indent = some t) :
    Value.parse t = .ok v.plain := by
  rw [Value.plain_eq]
  exact h.legible.parse_dump ht

end Warmth.Json
