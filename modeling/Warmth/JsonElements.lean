import Warmth.JsonTokens
import Warmth.Recognition

/-! The characters of a string literal as it writes them, and what the reader makes of them. -/

namespace Warmth.Json

open Codec Codec.Reader Json.Parser

/-- One character of a literal as written: a byte that stands for itself, a short escape, or a
`\u` escape with its four digits. -/
inductive Element
  | raw (b : UInt8)
  | short (mark : UInt8)
  | unit (a b c d : UInt8)
deriving DecidableEq, Repr

/-- The short escapes, with what each stands for. -/
def shorts : List (UInt8 × UInt8) :=
  [(34, 34), (92, 92), (47, 47), (98, 8), (102, 12), (110, 10), (114, 13), (116, 9)]

def shortValue (mark : UInt8) : Option UInt8 := shorts.lookup mark

theorem mem_shorts {mark b : UInt8} (h : shortValue mark = some b) : (mark, b) ∈ shorts := by
  obtain ⟨before, behind, whole, -⟩ := List.lookup_eq_some_iff.mp h
  rw [whole]
  exact List.mem_append_right _ List.mem_cons_self

/-- The value of a hexadecimal digit, 0 when it is none. -/
def digitValue (c : UInt8) : Nat := ((hexValue c).getD 0).toNat

namespace Element

def text : Element → Bytes
  | raw b => [b]
  | short mark => [92, mark]
  | unit a b c d => [92, 117, a, b, c, d]

def Valid : Element → Prop
  | raw b => 32 ≤ b ∧ b ≠ 34 ∧ b ≠ 92
  | short mark => (shortValue mark).isSome = true
  | unit a b c d => (hexValue a).isSome = true ∧ (hexValue b).isSome = true ∧
      (hexValue c).isSome = true ∧ (hexValue d).isSome = true

instance : DecidablePred Valid
  | raw _ => inferInstanceAs (Decidable (_ ∧ _ ∧ _))
  | short _ => inferInstanceAs (Decidable (_ = _))
  | unit .. => inferInstanceAs (Decidable (_ ∧ _ ∧ _ ∧ _))

/-- The code unit that four digits name. -/
def code : Element → Nat
  | unit a b c d => digitValue a * 4096 + digitValue b * 256 + digitValue c * 16 + digitValue d
  | _ => 0

def isHigh (e : Element) : Bool := decide (0xD800 ≤ e.code ∧ e.code ≤ 0xDBFF)

def isLow (e : Element) : Bool := decide (0xDC00 ≤ e.code ∧ e.code ≤ 0xDFFF)

def isUnit : Element → Bool
  | unit .. => true
  | _ => false

/-- What the reader appends for an element that is no high surrogate. -/
def bytes : Element → Bytes
  | raw b => [b]
  | short mark => [(shortValue mark).getD 0]
  | unit a b c d => utf8 (UInt32.ofNat (unit a b c d).code)

end Element

/-- What the reader makes of the elements: a high surrogate is put together with any `\u` escape
behind it, and refused without one. -/
def decode : List Element → Option Bytes
  | [] => some []
  | e :: rest =>
    if e.isHigh then
      match rest with
      | lo :: rest =>
        if lo.isUnit then
          (decode rest).map (utf8 (surrogates (UInt32.ofNat e.code) (UInt32.ofNat lo.code)) ++ ·)
        else none
      | [] => none
    else (decode rest).map (e.bytes ++ ·)

/-- A high surrogate with no `\u` escape behind it, where a high surrogate takes the escape behind it
whatever it names. -/
inductive LoneHigh : List Element → Prop
  | here {e : Element} {rest : List Element} : e.isHigh = true → rest.head?.any Element.isUnit = false →
      LoneHigh (e :: rest)
  | pair {hi lo : Element} {rest : List Element} : hi.isHigh = true → lo.isUnit = true → LoneHigh rest →
      LoneHigh (hi :: lo :: rest)
  | single {e : Element} {rest : List Element} : e.isHigh = false → LoneHigh rest → LoneHigh (e :: rest)

section

variable {e lo : Element} {rest : List Element}

theorem decode_pair (high : e.isHigh = true) (escaped : lo.isUnit = true) :
    decode (e :: lo :: rest) = (decode rest).map
      (utf8 (surrogates (UInt32.ofNat e.code) (UInt32.ofNat lo.code)) ++ ·) := by
  rw [decode, if_pos high]
  exact if_pos escaped

theorem decode_lone (high : e.isHigh = true) (none : rest.head?.any Element.isUnit = false) :
    decode (e :: rest) = Option.none := by
  cases rest with
  | nil => rw [decode, if_pos high]
  | cons lo rest =>
    rw [decode, if_pos high]
    exact if_neg (by simpa using none)

theorem decode_single (single : e.isHigh = false) :
    decode (e :: rest) = (decode rest).map (e.bytes ++ ·) := by
  rw [decode.eq_def]
  exact if_neg (by simp [single])

end

/-- By what the reader does with the first element. -/
theorem elements_induction {motive : List Element → Prop} (nil : motive [])
    (pair : ∀ hi lo rest, hi.isHigh = true → lo.isUnit = true → motive rest → motive (hi :: lo :: rest))
    (lone : ∀ hi rest, hi.isHigh = true → rest.head?.any Element.isUnit = false → motive (hi :: rest))
    (single : ∀ e rest, e.isHigh = false → motive rest → motive (e :: rest)) (es : List Element) :
    motive es := by
  induction es using decode.induct with
  | case1 => exact nil
  | case2 e high lo rest escaped ih => exact pair e lo rest high escaped ih
  | case3 e high lo rest other => exact lone e (lo :: rest) high (by simpa using other)
  | case4 e high => exact lone e [] high rfl
  | case5 e rest other ih => exact single e rest (by simpa using other) ih

theorem decode_eq_none_iff (es : List Element) : decode es = none ↔ LoneHigh es := by
  constructor
  · intro h
    induction es using elements_induction with
    | nil => cases h
    | pair hi lo rest high escaped ih =>
      rw [decode_pair high escaped, Option.map_eq_none_iff] at h
      exact .pair high escaped (ih h)
    | lone hi rest high none => exact .here high none
    | single e rest other ih =>
      rw [decode_single other, Option.map_eq_none_iff] at h
      exact .single other (ih h)
  · intro h
    induction h with
    | here high none => exact decode_lone high none
    | pair high escaped _ ih => rw [decode_pair high escaped, ih, Option.map_none]
    | single other _ ih => rw [decode_single other, ih, Option.map_none]

theorem decode_append {es rest : List Element} {bs : Bytes} (h : decode es = some bs) :
    decode (es ++ rest) = (decode rest).map (bs ++ ·) := by
  induction es using elements_induction generalizing bs with
  | nil =>
    cases h
    exact Option.map_id'.symm
  | pair hi lo es high escaped ih =>
    rw [decode_pair high escaped, Option.map_eq_some_iff] at h
    obtain ⟨bs, decoded, rfl⟩ := h
    rw [List.cons_append, List.cons_append, decode_pair high escaped, ih decoded, Option.map_map]
    exact congrArg (Option.map · _) (funext fun t => (List.append_assoc _ bs t).symm)
  | lone hi es high none =>
    rw [decode_lone high none] at h
    cases h
  | single e es other ih =>
    rw [decode_single other, Option.map_eq_some_iff] at h
    obtain ⟨bs, decoded, rfl⟩ := h
    rw [List.cons_append, decode_single other, ih decoded, Option.map_map]
    exact congrArg (Option.map · _) (funext fun t => (List.append_assoc _ bs t).symm)

def literal (es : List Element) : Bytes := 34 :: (es.flatMap Element.text ++ [34])

/-- A failure of the parser's own, with an offset and a message. -/
def Failed (stop : Stop ParseError) : Prop := ∃ offset msg, stop = .rejected (.failed offset msg)

namespace Parser

theorem refuses_fail {α : Type} (msg : String) (u : Bytes) : Refuses Failed (fail msg : Parser α) u :=
  fun c _ _ => ⟨.rejected (.failed c.index msg), ⟨c.index, msg, rfl⟩, rfl⟩

theorem pushHex_toNat {v n : UInt32} (hv : v.toNat < 2 ^ 28) (hn : n.toNat < 16) :
    (pushHex v n).toNat = v.toNat * 16 + n.toNat := by
  have shifted : (v <<< (4 : UInt32)).toNat = 2 ^ 4 * v.toNat := by
    rw [UInt32.toNat_shiftLeft]
    change v.toNat <<< 4 % 2 ^ 32 = _
    rw [Nat.shiftLeft_eq, Nat.mod_eq_of_lt (by omega), Nat.mul_comm]
  rw [pushHex, UInt32.toNat_or, shifted, ← Nat.two_pow_add_eq_or_of_lt hn]
  omega

theorem digitValue_lt (c : UInt8) : digitValue c < 16 := by
  have all : ∀ n < 256, digitValue (UInt8.ofNat n) < 16 := by decide +kernel
  have := all c.toNat c.toNat_lt
  rwa [UInt8.ofNat_toNat] at this

theorem hexValue_eq {c : UInt8} (h : (hexValue c).isSome = true) :
    ∃ n, hexValue c = some n ∧ n.toNat = digitValue c := by
  obtain ⟨n, hn⟩ := Option.isSome_iff_exists.mp h
  exact ⟨n, hn, by rw [digitValue, hn]; rfl⟩

/-- Four digits are read as the code unit they name. -/
theorem eats_parseHex4 {a b c d : UInt8} (valid : (Element.unit a b c d).Valid) (post : Bytes) :
    Eats parseHex4 [a, b, c, d] (UInt32.ofNat (Element.unit a b c d).code) post := by
  obtain ⟨ha, hb, hc, hd⟩ := valid
  obtain ⟨na, va, da⟩ := hexValue_eq ha
  obtain ⟨nb, vb, db⟩ := hexValue_eq hb
  obtain ⟨nc, vc, dc⟩ := hexValue_eq hc
  obtain ⟨nd, vd, dd⟩ := hexValue_eq hd
  have la := digitValue_lt a
  have lb := digitValue_lt b
  have lc := digitValue_lt c
  have ld := digitValue_lt d
  have one : (pushHex 0 na).toNat = digitValue a := by
    rw [pushHex_toNat (by decide) (by omega), da]
    exact Nat.zero_add _
  have two : (pushHex (pushHex 0 na) nb).toNat = digitValue a * 16 + digitValue b := by
    rw [pushHex_toNat (by omega) (by omega), one, db]
  have three : (pushHex (pushHex (pushHex 0 na) nb) nc).toNat =
      (digitValue a * 16 + digitValue b) * 16 + digitValue c := by
    rw [pushHex_toNat (by omega) (by omega), two, dc]
  have four : pushHex (pushHex (pushHex (pushHex 0 na) nb) nc) nd =
      UInt32.ofNat (Element.unit a b c d).code := by
    apply UInt32.toNat_inj.mp
    rw [pushHex_toNat (by omega) (by omega), three, dd, Element.code, UInt32.toNat_ofNat_of_lt']
    · omega
    · change _ < 2 ^ 32
      omega
  rw [← four]
  refine Eats.bind (w := [a]) (eats_take a _) ?_
  rw [va]
  refine Eats.bind (w := [b]) (eats_take b _) ?_
  rw [vb]
  refine Eats.bind (w := [c]) (eats_take c _) ?_
  rw [vc]
  refine Eats.bind (w := [d]) (eats_take d _) ?_
  rw [vd]
  exact Eats.pure _ post

theorem code_lt (e : Element) : e.code < 2 ^ 16 := by
  cases e with
  | raw | short => exact Nat.two_pow_pos 16
  | unit a b c d =>
    have la := digitValue_lt a
    have lb := digitValue_lt b
    have lc := digitValue_lt c
    have ld := digitValue_lt d
    rw [Element.code]
    omega

theorem code_toNat (e : Element) : (UInt32.ofNat e.code).toNat = e.code :=
  UInt32.toNat_ofNat_of_lt' (Nat.lt_trans (code_lt e) (by decide))

/-- The reader's test for a high surrogate. -/
theorem high_eq (e : Element) :
    (0xD800 ≤ UInt32.ofNat e.code && UInt32.ofNat e.code ≤ 0xDBFF) = e.isHigh := by
  have bounds : (0xD800 : UInt32).toNat = 0xD800 ∧ (0xDBFF : UInt32).toNat = 0xDBFF := by decide
  rw [Element.isHigh, Bool.decide_and]
  congr 1
  · rw [decide_eq_decide, UInt32.le_iff_toNat_le, code_toNat, bounds.1]
  · rw [decide_eq_decide, UInt32.le_iff_toNat_le, code_toNat, bounds.2]

theorem eats_atUnicode (u : Bytes) : Eats atUnicode [] (u.take 2 == [92, 117]) u := by
  intro c hc h
  have size := congrArg List.length h
  rw [c.unread_length, List.nil_append] at size
  rw [atUnicode, Reader.bind_apply, eats_peek u c hc h]
  change (if u.headD 0 == 92 && c.index + 1 < c.bytes.length then
    byteAt (c.index + 1) >>= fun b => pure (b == 117) else pure false : Parser Bool) c = _
  cases u with
  | nil => rfl
  | cons x u =>
    cases u with
    | nil =>
      have last : ¬ c.index + 1 < c.bytes.length := by
        simp only [List.length_cons, List.length_nil] at size
        omega
      rw [if_neg (by simp [last])]
      simp
      rfl
    | cons y u =>
      have inside : c.index + 1 < c.bytes.length := by
        simp only [List.length_cons] at size
        omega
      have second : c.bytes.drop (c.index + 1) = y :: u := by
        rw [← List.drop_drop]
        change (c.unread).drop 1 = _
        rw [h]
        rfl
      by_cases backslash : x = 92
      · rw [if_pos (by simp [backslash, inside]), Reader.bind_apply, byteAt_eq second]
        simp [backslash]
        rfl
      · have other : (x == 92) = false := by simpa using backslash
        rw [if_neg (by simp [other])]
        change _ = Except.ok (x == 92 && (y == 117 && true), c)
        rw [other]
        rfl

theorem eats_advance (w post : Bytes) :
    Eats (modify fun c => c.advance w.length : Parser PUnit) w ⟨⟩ post :=
  fun _ _ _ => rfl

/-- An element that is no high surrogate is read behind its backslash, or by itself. -/
theorem eats_unit {a b c d : UInt8} (valid : (Element.unit a b c d).Valid)
    (single : (Element.unit a b c d).isHigh = false) (post : Bytes) :
    Eats unicodeEscape [a, b, c, d] (Element.unit a b c d).bytes post := by
  refine Eats.last (eats_parseHex4 valid post) ?_
  rw [high_eq, single]
  exact Eats.pure _ post

/-- A high surrogate takes the `\u` escape behind it. -/
theorem eats_pair {a b c d : UInt8} (valid : (Element.unit a b c d).Valid)
    (high : (Element.unit a b c d).isHigh = true) {a' b' c' d' : UInt8}
    (valid' : (Element.unit a' b' c' d').Valid) (post : Bytes) :
    Eats unicodeEscape ([a, b, c, d] ++ (Element.unit a' b' c' d').text)
      (utf8 (surrogates (UInt32.ofNat (Element.unit a b c d).code)
        (UInt32.ofNat (Element.unit a' b' c' d').code))) post := by
  refine Eats.bind (eats_parseHex4 valid _) ?_
  rw [high_eq, high]
  refine Eats.look (eats_atUnicode _) ?_
  refine Eats.bind (w := [92, 117]) (eats_advance _ _) ?_
  exact Eats.last (eats_parseHex4 valid' post) (Eats.pure _ post)

/-- Without one it is refused. -/
theorem refuses_lone {a b c d : UInt8} (valid : (Element.unit a b c d).Valid)
    (high : (Element.unit a b c d).isHigh = true) {post : Bytes} (other : post.take 2 ≠ [92, 117]) :
    Refuses Failed unicodeEscape ([a, b, c, d] ++ post) := by
  refine (eats_parseHex4 valid post).steps.refuses ?_
  rw [high_eq, high]
  refine (eats_atUnicode post).steps.refuses ?_
  have unpaired : (post.take 2 == [92, 117]) = false := by simpa using other
  rw [unpaired]
  exact refuses_fail _ post

/-! The loop. -/

section

variable {n : Nat} {out post : Bytes}

theorem eats_quote : Eats (stringLoop (n + 1) out) [34] out post :=
  Eats.last (eats_take 34 post) (Eats.pure out post)

theorem steps_backslash {w bs : Bytes} (escape : Eats parseEscape w bs post) :
    Steps (stringLoop (n + 1) out) ([92] ++ w) (stringLoop n (out ++ bs)) post :=
  (eats_take 92 (w ++ post)).steps.trans escape.steps

theorem eats_short {mark : UInt8} (valid : (Element.short mark).Valid) :
    Eats parseEscape [mark] (Element.short mark).bytes post := by
  obtain ⟨b, value⟩ := Option.isSome_iff_exists.mp valid
  rw [Element.bytes, value, Option.getD_some]
  have known := mem_shorts value
  simp only [shorts, List.mem_cons, List.not_mem_nil, or_false, Prod.mk.injEq] at known
  refine Eats.last (eats_take mark post) ?_
  rcases known with ⟨rfl, rfl⟩ | ⟨rfl, rfl⟩ | ⟨rfl, rfl⟩ | ⟨rfl, rfl⟩ | ⟨rfl, rfl⟩ | ⟨rfl, rfl⟩ |
    ⟨rfl, rfl⟩ | ⟨rfl, rfl⟩
  all_goals exact Eats.pure _ post

/-- A turn of the loop on an element that is no high surrogate. -/
theorem steps_element {e : Element} (valid : e.Valid) (single : e.isHigh = false) :
    Steps (stringLoop (n + 1) out) e.text (stringLoop n (out ++ e.bytes)) post := by
  cases e with
  | raw b =>
    obtain ⟨printed, quote, backslash⟩ := valid
    have taken := (eats_take b post).steps (k := fun c =>
      if c == 34 then pure out else if c == 92 then do
        let bs ← parseEscape
        stringLoop n (out ++ bs)
      else do
        require "control char in string" (!(c < 32))
        stringLoop n (out ++ [c]))
    rw [beq_eq_false_iff_ne.mpr quote, beq_eq_false_iff_ne.mpr backslash] at taken
    have printable : (!decide (b < 32)) = true := by simpa using printed
    have checked := (eats_require "control char in string" printable post).steps
      (k := fun _ => stringLoop n (out ++ [b]))
    exact taken.trans checked
  | short mark => exact steps_backslash (eats_short valid)
  | unit a b c d =>
    exact steps_backslash (w := [117] ++ [a, b, c, d])
      (Eats.bind (eats_take 117 _) (eats_unit valid single post))

/-- A turn of the loop on a high surrogate and the escape behind it. -/
theorem steps_pair {hi lo : Element} (valid : hi.Valid) (high : hi.isHigh = true) (valid' : lo.Valid)
    (escaped : lo.isUnit = true) :
    Steps (stringLoop (n + 1) out) (hi.text ++ lo.text)
      (stringLoop n (out ++ utf8 (surrogates (UInt32.ofNat hi.code) (UInt32.ofNat lo.code)))) post := by
  cases hi with
  | raw | short => cases high
  | unit a b c d =>
    cases lo with
    | raw | short => cases escaped
    | unit a' b' c' d' =>
      exact steps_backslash (w := [117] ++ ([a, b, c, d] ++ (Element.unit a' b' c' d').text))
        (Eats.bind (eats_take 117 _) (eats_pair valid high valid' post))

end

theorem length_le_text (es : List Element) : es.length ≤ (es.flatMap Element.text).length := by
  induction es with
  | nil => exact Nat.le_refl _
  | cons e es ih =>
    have one : 0 < e.text.length := by cases e <;> exact Nat.zero_lt_succ _
    rw [List.flatMap_cons, List.length_append, List.length_cons]
    omega

/-- The loop on all the elements and the quote behind them. -/
theorem eats_elements {es : List Element} (valid : ∀ e ∈ es, e.Valid) {bs : Bytes}
    (decoded : decode es = some bs) (out post : Bytes) {n : Nat} (fuel : es.length < n) :
    Eats (stringLoop n out) (es.flatMap Element.text ++ [34]) (out ++ bs) post := by
  obtain ⟨n, rfl⟩ := Nat.exists_eq_succ_of_ne_zero (Nat.ne_of_gt (Nat.zero_lt_of_lt fuel))
  induction es using elements_induction generalizing bs out n with
  | nil =>
    cases decoded
    rw [List.append_nil]
    exact eats_quote
  | pair hi lo rest high escaped ih =>
    rw [decode_pair high escaped, Option.map_eq_some_iff] at decoded
    obtain ⟨bs, decoded, rfl⟩ := decoded
    obtain ⟨first, valid⟩ := List.forall_mem_cons.mp valid
    obtain ⟨second, valid⟩ := List.forall_mem_cons.mp valid
    obtain ⟨n, rfl⟩ := Nat.exists_eq_succ_of_ne_zero (n := n) (by simp at fuel; omega)
    have more := ih valid decoded (out ++ utf8 (surrogates (UInt32.ofNat hi.code) (UInt32.ofNat lo.code)))
      n (by simp at fuel; omega)
    rw [List.append_assoc] at more
    rw [List.flatMap_cons, List.flatMap_cons, ← List.append_assoc, List.append_assoc]
    exact (steps_pair first high second escaped).eats more
  | lone hi rest high none =>
    rw [decode_lone high none] at decoded
    cases decoded
  | single e rest other ih =>
    rw [decode_single other, Option.map_eq_some_iff] at decoded
    obtain ⟨bs, decoded, rfl⟩ := decoded
    obtain ⟨first, valid⟩ := List.forall_mem_cons.mp valid
    obtain ⟨n, rfl⟩ := Nat.exists_eq_succ_of_ne_zero (n := n) (by simp at fuel; omega)
    have more := ih valid decoded (out ++ e.bytes) n (by simp at fuel; omega)
    rw [List.append_assoc] at more
    rw [List.flatMap_cons, List.append_assoc]
    exact (steps_element first other).eats more

/-- The loop on elements with a lone high surrogate among them. -/
theorem refuses_elements {es : List Element} (valid : ∀ e ∈ es, e.Valid) (lone : LoneHigh es)
    (out post : Bytes) {n : Nat} (fuel : es.length ≤ n) :
    Refuses Failed (stringLoop n out) (es.flatMap Element.text ++ 34 :: post) := by
  induction lone generalizing out n with
  | @here hi rest high none =>
    obtain ⟨n, rfl⟩ := Nat.exists_eq_succ_of_ne_zero (n := n) (by simp at fuel; omega)
    obtain ⟨first, -⟩ := List.forall_mem_cons.mp valid
    rw [List.flatMap_cons, List.append_assoc]
    cases hi with
    | raw | short => cases high
    | unit a b c d =>
      refine (eats_take 92 _).steps.refuses ?_
      refine ((eats_take 117 _).steps.refuses (refuses_lone first high ?_)).bind
      cases rest with
      | nil => simp
      | cons e rest =>
        obtain ⟨second, -⟩ := List.forall_mem_cons.mp (List.forall_mem_cons.mp valid).2
        intro escaped
        cases e with
        | raw b => exact second.2.2 (List.cons.inj escaped).1
        | short mark =>
          obtain rfl : mark = 117 := (List.cons.inj (List.cons.inj escaped).2).1
          cases second
        | unit => cases none
  | @pair hi lo rest high escaped _ ih =>
    obtain ⟨first, valid⟩ := List.forall_mem_cons.mp valid
    obtain ⟨second, valid⟩ := List.forall_mem_cons.mp valid
    obtain ⟨n, rfl⟩ := Nat.exists_eq_succ_of_ne_zero (n := n) (by simp at fuel; omega)
    rw [List.flatMap_cons, List.flatMap_cons, ← List.append_assoc, List.append_assoc]
    exact (steps_pair first high second escaped).refuses (ih valid _ (by simp at fuel; omega))
  | @single e rest other _ ih =>
    obtain ⟨first, valid⟩ := List.forall_mem_cons.mp valid
    obtain ⟨n, rfl⟩ := Nat.exists_eq_succ_of_ne_zero (n := n) (by simp at fuel; omega)
    rw [List.flatMap_cons, List.append_assoc]
    exact (steps_element first other).refuses (ih valid _ (by simp at fuel; omega))

section

variable {es : List Element} (valid : ∀ e ∈ es, e.Valid)

include valid

theorem eats_literal {bs : Bytes} (decoded : decode es = some bs) (post : Bytes) :
    Eats parseString (literal es) bs post := by
  refine Eats.bind (w := [34]) (eats_take 34 _) (eats_looping fun n fuel => ?_)
  have size : (es.flatMap Element.text ++ [34]).length < n := fuel
  rw [List.length_append] at size
  exact eats_elements valid decoded [] post (Nat.lt_of_le_of_lt (length_le_text es) (by omega))

theorem refuses_literal (lone : LoneHigh es) (post : Bytes) :
    Refuses Failed parseString (literal es ++ post) := by
  refine Steps.refuses (w := [34]) (eats_take 34 _).steps fun c hc hu => ?_
  have text : c.unread = es.flatMap Element.text ++ 34 :: post :=
    hu.trans (List.append_assoc _ [34] post)
  have size := congrArg List.length text
  rw [c.unread_length, List.length_append] at size
  have short := length_le_text es
  exact refuses_elements valid lone [] post (by omega) c hc text

end

end Parser

/-! What `write_escaped` writes. -/

/-- The element written for a character. -/
def written (c : UInt8) : Element :=
  match escape c with
  | [92, mark] => .short mark
  | [92, 117, a, b, c, d] => .unit a b c d
  | _ => .raw c

theorem written_eq {c : UInt8} (h : c ≠ 34) : escape c = (written c).text ∧ (written c).Valid ∧
    (written c).isHigh = false ∧ (written c).bytes = [c] := by
  have all : ∀ n < 256, UInt8.ofNat n ≠ 34 → escape (.ofNat n) = (written (.ofNat n)).text ∧
      (written (.ofNat n)).Valid ∧ (written (.ofNat n)).isHigh = false ∧
      (written (.ofNat n)).bytes = [.ofNat n] := by decide +kernel
  have known := all c.toNat c.toNat_lt
  rw [UInt8.ofNat_toNat] at known
  exact known h

/-- A character that is written behind a backslash is read back. -/
theorem eats_escape {c : UInt8} {w : Bytes} (h : escape c = 92 :: w) (post : Bytes) :
    Eats parseEscape w [c] post := by
  have unquoted : c ≠ 34 := by
    rintro rfl
    cases h
  obtain ⟨text, valid, single, bytes⟩ := written_eq unquoted
  rw [h] at text
  rw [← bytes]
  cases element : written c with
  | raw b =>
    rw [element] at text valid
    exact absurd (List.cons.inj text).1.symm valid.2.2
  | short mark =>
    rw [element] at text valid
    rw [(List.cons.inj text).2]
    exact eats_short valid
  | unit a b c d =>
    rw [element] at text valid single
    rw [(List.cons.inj text).2]
    exact Eats.bind (w := [117]) (eats_take 117 _) (eats_unit valid single post)

theorem escape_cases {c : UInt8} (h : c ≠ 34) :
    (∃ w, escape c = 92 :: w) ∨ escape c = [c] ∧ c ≠ 92 ∧ ¬c < 32 := by
  unfold escape
  split
  case h_1 => exact absurd rfl h
  case h_2 | h_3 | h_4 | h_5 | h_6 | h_7 => exact Or.inl ⟨_, rfl⟩
  case h_8 _ backslash _ _ _ _ _ =>
    split
    next => exact Or.inl ⟨_, rfl⟩
    next high => exact Or.inr ⟨rfl, backslash, high⟩

theorem decode_written {s : CString} (unquoted : ∀ c ∈ s, c ≠ 34) : decode (s.map written) = some s := by
  induction s with
  | nil => rfl
  | cons c s ih =>
    obtain ⟨first, unquoted⟩ := List.forall_mem_cons.mp unquoted
    obtain ⟨-, -, single, bytes⟩ := written_eq first
    rw [List.map_cons, decode_single single, ih unquoted, bytes]
    rfl

theorem literal_written {s : CString} (unquoted : ∀ c ∈ s, c ≠ 34) :
    writeEscaped s = literal (s.map written) := by
  have texts : s.flatMap escape = (s.map written).flatMap Element.text := by
    rw [List.flatMap_map]
    exact List.flatMap_congr fun c hc => (written_eq (unquoted c hc)).1
  rw [writeEscaped, literal, texts]

end Warmth.Json
