import Warmth.JsonElements
import Warmth.JsonTrees

/-! The grammar of JSON texts, over what its strings stand for and the conversion of its numbers, and
that the reader returns what it assigns. -/

namespace Warmth.Json

open Codec Codec.Reader Numerals Json.Parser

/-- What a part of a text stands for. -/
inductive Part
  | value (v : Value)
  | items (vs : List Value)
  | members (ms : List (CString × Value))

/-- The members in the order of their keys, the last one where a key is given twice. -/
structure Assigned (ms o : List (CString × Value)) : Prop where
  ordered : (o.map Prod.fst).Pairwise (· < ·)
  last : ∀ key, o.lookup key = ms.reverse.lookup key

/-- The productions; white space stands between the tokens of arrays and objects. -/
inductive Grammar (strings : Bytes → CString → Prop) (convert : Bytes → Option Double) : Bytes → Part → Prop
  | null : Grammar strings convert (text "null") (.value .null)
  | bool (b : Bool) : Grammar strings convert (if b then text "true" else text "false") (.value (.bool b))
  | number {w : Bytes} {d : Double} : IsNumber w → convert w = some d →
      Grammar strings convert w (.value (.number d))
  | string {w : Bytes} {s : CString} : strings w s → Grammar strings convert w (.value (.string s))
  | emptyArray {g : Bytes} : White g → Grammar strings convert (91 :: (g ++ [93])) (.value (.array []))
  | array {g w : Bytes} {vs : List Value} : White g → Grammar strings convert w (.items vs) →
      Grammar strings convert (91 :: (g ++ (w ++ [93]))) (.value (.array vs))
  | emptyObject {g : Bytes} : White g → Grammar strings convert (123 :: (g ++ [125])) (.value (.object []))
  | object {g w : Bytes} {ms o : List (CString × Value)} : White g →
      Grammar strings convert w (.members ms) → Assigned ms o →
      Grammar strings convert (123 :: (g ++ (w ++ [125]))) (.value (.object o))
  | lastItem {w g : Bytes} {v : Value} : Grammar strings convert w (.value v) → White g →
      Grammar strings convert (w ++ g) (.items [v])
  | item {w g g' t : Bytes} {v : Value} {vs : List Value} : Grammar strings convert w (.value v) →
      White g → White g' → Grammar strings convert t (.items vs) →
      Grammar strings convert (w ++ (g ++ 44 :: (g' ++ t))) (.items (v :: vs))
  | lastMember {k g g' w g'' : Bytes} {key : CString} {v : Value} : strings k key → White g → White g' →
      Grammar strings convert w (.value v) → White g'' →
      Grammar strings convert (k ++ (g ++ 58 :: (g' ++ (w ++ g'')))) (.members [(key, v)])
  | member {k g g' w g'' h t : Bytes} {key : CString} {v : Value} {ms : List (CString × Value)} :
      strings k key → White g → White g' → Grammar strings convert w (.value v) → White g'' →
      White h → Grammar strings convert t (.members ms) →
      Grammar strings convert (k ++ (g ++ 58 :: (g' ++ (w ++ (g'' ++ 44 :: (h ++ t))))))
        (.members ((key, v) :: ms))

theorem Grammar.mono {strings strings' : Bytes → CString → Prop} {convert convert' : Bytes → Option Double}
    (read : ∀ {w s}, strings w s → strings' w s) (converted : ∀ {w d}, convert w = some d → convert' w = some d)
    {w : Bytes} {part : Part} (h : Grammar strings convert w part) : Grammar strings' convert' w part := by
  induction h with
  | null => exact .null
  | bool b => exact .bool b
  | number number value => exact .number number (converted value)
  | string written => exact .string (read written)
  | emptyArray inner => exact .emptyArray inner
  | array inner _ ih => exact .array inner ih
  | emptyObject inner => exact .emptyObject inner
  | object inner _ assigned ih => exact .object inner ih assigned
  | lastItem _ gap ih => exact .lastItem ih gap
  | item _ gap gap' _ ih ihs => exact .item ih gap gap' ihs
  | lastMember written gap gap' _ gap'' ih => exact .lastMember (read written) gap gap' ih gap''
  | member written gap gap' _ gap'' after _ ih ihs =>
    exact .member (read written) gap gap' ih gap'' after ihs

/-- A value in white space. -/
def Text (strings : Bytes → CString → Prop) (convert : Bytes → Option Double) (s : Bytes) (v : Value) : Prop :=
  ∃ g w g', White g ∧ Grammar strings convert w (.value v) ∧ White g' ∧ s = g ++ (w ++ g')

/-- A string the reader takes, with what it makes of it. -/
def Accepted (w s : Bytes) : Prop :=
  ∃ es, (∀ e ∈ es, e.Valid) ∧ decode es = some s ∧ w = literal es

/-! The members of an object. -/

/-- What the loop of `parse_object` makes of the members. -/
def assign (o ms : List (CString × Value)) : List (CString × Value) :=
  ms.foldl (fun o p => Value.setKey p.1 p.2 o) o

theorem assigned_assign (ms : List (CString × Value)) : Assigned ms (assign [] ms) := by
  have both (o : List (CString × Value)) (h : (o.map Prod.fst).Pairwise (· < ·)) :
      ((assign o ms).map Prod.fst).Pairwise (· < ·) ∧
        ∀ key, (assign o ms).lookup key = (ms.reverse ++ o).lookup key := by
    induction ms generalizing o with
    | nil => exact ⟨h, fun key => rfl⟩
    | cons p ms ih =>
      obtain ⟨ordered, last⟩ := ih _ (Value.ordered_setKey p.1 p.2 h)
      refine ⟨ordered, fun key => ?_⟩
      rw [assign, List.foldl_cons]
      refine (last key).trans ?_
      rw [List.lookup_append, Value.lookup_setKey, List.reverse_cons, List.append_assoc, List.lookup_append,
        List.lookup_append]
  obtain ⟨ordered, last⟩ := both [] List.Pairwise.nil
  exact ⟨ordered, fun key => (last key).trans (by rw [List.append_nil])⟩

theorem lookup_before {o : List (CString × Value)} {key : CString} (h : ∀ k ∈ o.map Prod.fst, key < k) :
    o.lookup key = none := by
  refine List.lookup_eq_none_iff.mpr fun p hp => bne_iff_ne.mpr ?_
  rintro rfl
  exact List.lt_irrefl _ (h p.1 (List.mem_map_of_mem hp))

/-- A list in the order of its keys begins with the least key it has. -/
theorem first_le {o o' : List (CString × Value)} {p q : CString × Value}
    (h : ((q :: o').map Prod.fst).Pairwise (· < ·))
    (same : (p :: o).lookup p.1 = (q :: o').lookup p.1) : q.1 ≤ p.1 := by
  refine List.not_lt.mp fun before => ?_
  have after : ∀ k ∈ (q :: o').map Prod.fst, p.1 < k := by
    refine List.forall_mem_cons.mpr ⟨before, fun k later => ?_⟩
    exact List.lt_trans before ((List.pairwise_cons.mp h).1 k later)
  rw [lookup_before after, List.lookup_cons_self] at same
  cases same

/-- Lists in the order of their keys that look up alike are the same. -/
theorem eq_of_lookup {o o' : List (CString × Value)} (h : (o.map Prod.fst).Pairwise (· < ·))
    (h' : (o'.map Prod.fst).Pairwise (· < ·)) (same : ∀ key, o.lookup key = o'.lookup key) : o = o' := by
  induction o generalizing o' with
  | nil =>
    cases o' with
    | nil => rfl
    | cons q o' =>
      have found := same q.1
      rw [List.lookup_nil, List.lookup_cons_self] at found
      cases found
  | cons p o ih =>
    cases o' with
    | nil =>
      have found := same p.1
      rw [List.lookup_nil, List.lookup_cons_self] at found
      cases found
    | cons q o' =>
      obtain ⟨k, v⟩ := p
      obtain ⟨k', v'⟩ := q
      have below : k ≤ k' := first_le (p := (k', v')) h (same k').symm
      have above : k' ≤ k := first_le (p := (k, v)) h' (same k)
      obtain rfl : k = k' := List.le_antisymm below above
      obtain ⟨first, rest⟩ := List.pairwise_cons.mp h
      obtain ⟨first', rest'⟩ := List.pairwise_cons.mp h'
      have values : some v = some v' := by
        have found := same k
        rwa [List.lookup_cons_self, List.lookup_cons_self] at found
      have tails : o = o' := ih rest rest' fun key => by
        cases here : key == k
        · have found := same key
          rwa [List.lookup_cons, here, List.lookup_cons, here] at found
        · rw [beq_iff_eq.mp here, lookup_before first, lookup_before first']
      rw [Option.some.inj values, tails]

/-- The members determine the object. -/
theorem Assigned.unique {ms o o' : List (CString × Value)} (h : Assigned ms o) (h' : Assigned ms o') :
    o = o' :=
  eq_of_lookup h.ordered h'.ordered fun key => (h.last key).trans (h'.last key).symm

/-! The reader on a text of the grammar. -/

/-- What the reader makes of a part, wherever it stands. -/
def Part.Read (convert : Bytes → Option Double) (w : Bytes) : Part → Prop
  | value v => ∀ n g post, White g → 2 * w.length ≤ n → EndsNumber post →
      Eats (parseValue convert n) (g ++ w) v post
  | items vs => ∀ n a g post, White g → 2 * w.length < n →
      Eats (parseItems convert n a) (g ++ (w ++ [93])) (.array (a ++ vs)) post
  | members ms => ∀ n o g post, White g → 2 * w.length < n →
      Eats (parseMembers convert n o) (g ++ (w ++ [125])) (.object (assign o ms)) post

section

variable {convert : Bytes → Option Double} {w : Bytes} {part : Part}

theorem Accepted.quote {s : CString} (h : Accepted w s) : ∃ t, w = 34 :: t := by
  obtain ⟨es, -, -, rfl⟩ := h
  exact ⟨_, rfl⟩

/-- No part begins with white space or a closing bracket. -/
theorem Grammar.opens (h : Grammar Accepted convert w part) : ∃ b t, w = b :: t ∧ Opens b ∧ b ≠ 125 := by
  induction h with
  | null => exact ⟨_, _, rfl, by decide⟩
  | bool b => cases b <;> exact ⟨_, _, rfl, by decide⟩
  | number number _ =>
    obtain ⟨b, t, rfl, first⟩ := number.first
    refine ⟨b, t, rfl, opens_of_number first, ?_⟩
    rintro rfl
    revert first
    decide
  | string accepted =>
    obtain ⟨t, rfl⟩ := accepted.quote
    exact ⟨_, _, rfl, by decide⟩
  | emptyArray | array | emptyObject | object => exact ⟨_, _, rfl, by decide⟩
  | lastItem _ _ ih | item _ _ _ _ ih =>
    obtain ⟨b, t, rfl, first⟩ := ih
    exact ⟨b, _, rfl, first⟩
  | lastMember accepted | member accepted =>
    obtain ⟨t, rfl⟩ := accepted.quote
    exact ⟨_, _, rfl, by decide⟩

theorem endsNumber_token {g t : Bytes} (white : White g) {b : UInt8} (token : b = 44 ∨ b = 93 ∨ b = 125) :
    EndsNumber (g ++ b :: t) := by
  refine white.endsNumber ?_
  rcases token with rfl | rfl | rfl
  all_goals exact endsNumber_cons (by decide) t

theorem Accepted.eats {s : CString} (h : Accepted w s) (post : Bytes) : Eats parseString w s post := by
  obtain ⟨es, valid, decoded, rfl⟩ := h
  exact eats_literal valid decoded post

theorem eats_item {n : Nat} {g g' t post : Bytes} {v : Value} (value : (Part.value v).Read convert w)
    (white : White g) (white' : White g') (fuel : 2 * w.length ≤ n) {b : UInt8}
    (token : b = 44 ∨ b = 93 ∨ b = 125) {α : Type} {r : Value → Parser α} {a : α}
    (h : Eats (r v) (b :: t) a post) :
    Eats (do
      let v ← parseValue convert n
      skipWs
      r v) (g ++ (w ++ (g' ++ b :: t))) a post := by
  rw [← List.append_assoc]
  refine Eats.bind (value n g _ white fuel ?_) (Eats.bind (eats_skipWs white' ?_) h)
  · rw [List.append_assoc]
    exact endsNumber_token white' token
  · rcases token with rfl | rfl | rfl
    all_goals rfl

theorem eats_member {n : Nat} {lead k g g' g'' t post : Bytes} {key : CString} {v : Value}
    (accepted : Accepted k key) (value : (Part.value v).Read convert w) (before : White lead)
    (white : White g) (white' : White g') (white'' : White g'') (fuel : 2 * w.length ≤ n) {b : UInt8}
    (token : b = 44 ∨ b = 93 ∨ b = 125) {α : Type} {r : CString → Value → Parser α} {a : α}
    (h : Eats (r key v) (b :: t) a post) :
    Eats (do
      skipWs
      let q ← peek
      require "expected object key" (q == 34)
      let key ← parseString
      skipWs
      let colon ← Parser.take
      require "expected colon" (colon == 58)
      let v ← parseValue convert n
      skipWs
      r key v) (lead ++ (k ++ (g ++ 58 :: (g' ++ (w ++ (g'' ++ b :: t)))))) a post := by
  have quoted : ∃ t, k = 34 :: t := accepted.quote
  refine Eats.bind (eats_skipWs before ?_) (Eats.look (eats_peek _) ?_)
  · obtain ⟨t, rfl⟩ := quoted
    rfl
  · refine Eats.look (eats_require _ ?_ _) (Eats.bind (accepted.eats _) (Eats.bind (eats_skipWs white rfl) ?_))
    · obtain ⟨t, rfl⟩ := quoted
      rfl
    · refine Eats.bind (w := [58]) (eats_take 58 _) (Eats.look (eats_require _ rfl _) ?_)
      exact eats_item value white' white'' fuel token h

/-- Every part of a text is read as what the grammar assigns to it. -/
theorem Grammar.read (h : Grammar Accepted convert w part) : part.Read convert w := by
  induction h with
  | null =>
    intro n g post white fuel stop
    refine eats_switch white (by decide) fuel ?_
    exact Eats.last (eats_expect (text "null") post) (Eats.pure _ post)
  | bool b =>
    intro n g post white fuel stop
    cases b
    · refine eats_switch white (by decide) fuel ?_
      exact Eats.last (eats_expect (text "false") post) (Eats.pure _ post)
    · refine eats_switch white (by decide) fuel ?_
      exact Eats.last (eats_expect (text "true") post) (Eats.pure _ post)
  | number number converted =>
    intro n g post white fuel stop
    have read := eats_number number converted stop
    obtain ⟨b, t, rfl, first⟩ := number.first
    refine eats_switch white (opens_of_number first) fuel ?_
    rw [switch_number first]
    exact read
  | string accepted =>
    intro n g post white fuel stop
    have read := accepted.eats post
    obtain ⟨t, rfl⟩ := accepted.quote
    exact eats_switch white (by decide) fuel (Eats.last read (Eats.pure _ post))
  | emptyArray inner =>
    intro n g post white fuel stop
    refine eats_switch white (by decide) fuel ?_
    obtain ⟨n, rfl⟩ := Nat.exists_eq_add_of_le' (show 2 ≤ n by simp at fuel; omega)
    refine Eats.bind (w := [91]) (eats_take 91 _) (Eats.bind (eats_skipWs inner rfl) ?_)
    refine Eats.look (eats_peek (93 :: post)) ?_
    exact Eats.last (eats_take 93 post) (Eats.pure _ post)
  | array inner items ih =>
    intro n g post white fuel stop
    refine eats_switch white (by decide) fuel ?_
    obtain ⟨n, rfl⟩ := Nat.exists_eq_add_of_le' (show 2 ≤ n by simp at fuel; omega)
    have read := ih n [] [] post white_nil (by simp at fuel; omega)
    obtain ⟨b, t, rfl, ⟨space, bracket⟩, -⟩ := items.opens
    refine Eats.bind (w := [91]) (eats_take 91 _) (Eats.bind (eats_skipWs inner space) ?_)
    refine Eats.look (eats_peek (b :: (t ++ [93] ++ post))) ?_
    change Eats (if b == 93 then _ else _) _ _ _
    rw [if_neg (by simpa using bracket)]
    exact read
  | emptyObject inner =>
    intro n g post white fuel stop
    refine eats_switch white (by decide) fuel ?_
    obtain ⟨n, rfl⟩ := Nat.exists_eq_add_of_le' (show 2 ≤ n by simp at fuel; omega)
    refine Eats.bind (w := [123]) (eats_take 123 _) (Eats.bind (eats_skipWs inner rfl) ?_)
    refine Eats.look (eats_peek (125 :: post)) ?_
    exact Eats.last (eats_take 125 post) (Eats.pure _ post)
  | @object g' w ms o inner members assigned ih =>
    intro n g post white fuel stop
    refine eats_switch white (by decide) fuel ?_
    obtain ⟨n, rfl⟩ := Nat.exists_eq_add_of_le' (show 2 ≤ n by simp at fuel; omega)
    have read := ih n [] [] post white_nil (by simp at fuel; omega)
    rw [assigned.unique (assigned_assign ms)]
    obtain ⟨b, t, rfl, ⟨space, -⟩, brace⟩ := members.opens
    refine Eats.bind (w := [123]) (eats_take 123 _) (Eats.bind (eats_skipWs inner space) ?_)
    refine Eats.look (eats_peek (b :: (t ++ [125] ++ post))) ?_
    change Eats (if b == 125 then _ else _) _ _ _
    rw [if_neg (by simpa using brace)]
    exact read
  | @lastItem w g' v value gap ih =>
    intro n a g post white fuel
    obtain ⟨n, rfl⟩ := Nat.exists_eq_succ_of_ne_zero (n := n) (by omega)
    rw [parseItems, List.append_assoc]
    refine eats_item ih white gap (by simp at fuel; omega) (Or.inr (Or.inl rfl)) ?_
    exact Eats.last (eats_take 93 post) (Eats.pure _ post)
  | @item w g₁ g₂ t v vs value gap gap' items ih ihs =>
    intro n a g post white fuel
    obtain ⟨n, rfl⟩ := Nat.exists_eq_succ_of_ne_zero (n := n) (by omega)
    have rest := ihs n (a ++ [v]) g₂ post gap' (by simp at fuel; omega)
    have text : w ++ (g₁ ++ 44 :: (g₂ ++ t)) ++ [93] = w ++ (g₁ ++ 44 :: (g₂ ++ (t ++ [93]))) := by simp
    rw [parseItems, text]
    refine eats_item ih white gap (by simp at fuel; omega) (Or.inl rfl) ?_
    refine Eats.bind (w := [44]) (eats_take 44 _) (Eats.look (eats_require _ rfl _) ?_)
    rwa [List.append_assoc] at rest
  | @lastMember k g₁ g₂ w g₃ key v accepted gap gap' value gap'' ih =>
    intro n o g post white fuel
    obtain ⟨n, rfl⟩ := Nat.exists_eq_succ_of_ne_zero (n := n) (by omega)
    have text : k ++ (g₁ ++ 58 :: (g₂ ++ (w ++ g₃))) ++ [125] =
        k ++ (g₁ ++ 58 :: (g₂ ++ (w ++ (g₃ ++ [125])))) := by simp
    rw [parseMembers, text]
    refine eats_member accepted ih white gap gap' gap'' (by simp at fuel; omega) (Or.inr (Or.inr rfl)) ?_
    exact Eats.last (eats_take 125 post) (Eats.pure _ post)
  | @member k g₁ g₂ w g₃ g₄ t key v ms accepted gap gap' value gap'' after members ih ihs =>
    intro n o g post white fuel
    obtain ⟨n, rfl⟩ := Nat.exists_eq_succ_of_ne_zero (n := n) (by omega)
    have rest := ihs n (Value.setKey key v o) g₄ post after (by simp at fuel; omega)
    have text : k ++ (g₁ ++ 58 :: (g₂ ++ (w ++ (g₃ ++ 44 :: (g₄ ++ t))))) ++ [125] =
        k ++ (g₁ ++ 58 :: (g₂ ++ (w ++ (g₃ ++ 44 :: (g₄ ++ (t ++ [125])))))) := by simp
    rw [parseMembers, text]
    refine eats_member accepted ih white gap gap' gap'' (by simp at fuel; omega) (Or.inl rfl) ?_
    exact Eats.bind (w := [44]) (eats_take 44 _) (Eats.look (eats_require _ rfl _) rest)

/-- A text of the grammar is read as its value. -/
theorem Text.parse {s : Bytes} {v : Value} (h : Text Accepted convert s v) :
    Value.parseWith convert s = .ok v := by
  obtain ⟨g, w, g', before, value, behind, rfl⟩ := h
  have ends : EndsNumber g' := by
    have alone := behind.endsNumber endsNumber_nil
    rwa [List.append_nil] at alone
  refine parseWith_of_eats before ?_ behind fun n fuel => value.read n [] g' white_nil fuel ends
  obtain ⟨b, t, rfl, ⟨space, -⟩, -⟩ := value.opens
  exact space

end

end Warmth.Json
