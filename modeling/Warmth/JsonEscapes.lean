import Warmth.JsonElements
import Warmth.JsonTrees

/-! Why no tree with a quote in it comes back: the reader ends a string at the first quote that no
backslash stands before, and the writer puts a backslash before none. -/

namespace Warmth.Json

open Codec Codec.Reader Numerals Json.Parser

/-- Text in which every backslash begins what `write_escaped` writes for some character. -/
inductive Escaped : Bytes → Prop
  | nil : Escaped []
  | plain {b : UInt8} {u : Bytes} : b ≠ 92 → Escaped u → Escaped (b :: u)
  | escape {c : UInt8} {w u : Bytes} : Json.escape c = 92 :: w → Escaped u → Escaped (92 :: (w ++ u))

namespace Escaped

theorem tail {b : UInt8} {u : Bytes} (h : Escaped (b :: u)) (other : b ≠ 92) : Escaped u := by
  cases h with
  | plain _ rest => exact rest
  | escape _ _ => exact absurd rfl other

theorem append {t u : Bytes} (ht : Escaped t) (hu : Escaped u) : Escaped (t ++ u) := by
  induction ht with
  | nil => exact hu
  | plain other _ ih => exact plain other ih
  | escape char _ ih =>
    rw [List.cons_append, List.append_assoc]
    exact escape char ih

theorem of_plain {t : Bytes} (h : 92 ∉ t) : Escaped t := by
  induction t with
  | nil => exact nil
  | cons b t ih =>
    obtain ⟨first, rest⟩ := not_or.mp (mt List.mem_cons.mpr h)
    exact plain (Ne.symm first) (ih rest)

end Escaped

namespace Parser

section

variable {α : Type} {P : Bytes → Prop} {Q : α → Bytes → Prop}

theorem leaves_fail (msg : String) : Leaves P (fail msg : Parser α) Q :=
  Leaves.get fun c => Leaves.stop (.rejected (ParseError.failed c.index msg))

theorem leaves_require (msg : String) (ok : Bool) :
    Leaves P (require msg ok) (fun _ u => ok = true ∧ P u) := by
  unfold require
  split
  next good => exact Leaves.pure fun u hu => ⟨good, hu⟩
  next => exact leaves_fail msg

theorem leaves_looping {body : Nat → Parser α} (h : ∀ n, Leaves P (body n) Q) : Leaves P (looping body) Q :=
  Leaves.get fun c => h (c.bytes.length + 1)

theorem leaves_peek : Leaves P peek (fun b u => P u ∧ u.headD 0 = b) :=
  Leaves.of_eats fun u hu => ⟨[], _, u, rfl, eats_peek u, hu, rfl⟩

theorem leaves_take : Leaves P take (fun b u => P (b :: u)) := by
  intro c b c' hc hP hr
  cases hu : c.unread with
  | nil =>
    have past := index_of_unread_nil hu
    change (if c.bytes.length ≤ c.index then fail "unexpected end" else
      byteAt c.index >>= fun b => modify (fun c => c.advance 1) >>= fun _ => pure b : Parser UInt8) c = _ at hr
    rw [if_pos past] at hr
    cases hr
  | cons b rest =>
    rw [take_apply hu] at hr
    cases hr
    have rest := unread_advance_append (w := [b]) hu
    change Cursor.unread (c.advance 1) = _ at rest
    rw [hu] at hP
    rw [rest]
    exact ⟨within_advance (w := [b]) hc hu, hP⟩

end

/-! What a backslash begins is read as a whole, or not at all. -/

section

variable {p : UInt8 → Bool}

theorem leaves_skipIf (ending : p 0 = false) (backslash : p 92 = false) :
    Leaves Escaped (skipIf p) (fun _ => Escaped) := by
  refine Leaves.of_eats fun u hu => ?_
  cases more : p (u.headD 0) with
  | false => exact ⟨[], false, u, rfl, eats_skipIf_not more, hu⟩
  | true =>
    cases u with
    | nil => exact absurd (ending.symm.trans more) Bool.false_ne_true
    | cons b rest =>
      refine ⟨[b], true, rest, rfl, eats_skipIf more rest, hu.tail ?_⟩
      rintro rfl
      exact absurd (backslash.symm.trans more) Bool.false_ne_true

theorem leaves_skipWhile (ending : p 0 = false) (backslash : p 92 = false) (n : Nat) :
    Leaves Escaped (skipWhile p n) (fun _ => Escaped) := by
  induction n with
  | zero => exact Leaves.stop _
  | succ n ih =>
    refine Leaves.bind (leaves_skipIf ending backslash) fun more => ?_
    split
    · exact ih
    · exact Leaves.pure fun _ hu => hu

theorem leaves_skipWs : Leaves Escaped skipWs (fun _ => Escaped) :=
  leaves_looping (leaves_skipWhile rfl rfl)

theorem leaves_skipDigits : Leaves Escaped skipDigits (fun _ => Escaped) :=
  leaves_looping (leaves_skipWhile rfl rfl)

end

theorem leaves_expect {lit : CString} (plain : 92 ∉ lit) :
    Leaves Escaped (expect lit) (fun _ => Escaped) := by
  induction lit with
  | nil => exact Leaves.pure fun _ hu => hu
  | cons b lit ih =>
    obtain ⟨first, plain⟩ := not_or.mp (mt List.mem_cons.mpr plain)
    refine Leaves.bind leaves_take fun c => Leaves.bind (leaves_require _ _) fun _ => ?_
    refine (ih plain).pre fun u hu => ?_
    have same : c = b := beq_iff_eq.mp hu.1
    exact hu.2.tail (same ▸ Ne.symm first)

theorem leaves_parseEscape :
    Leaves (fun u => Escaped (92 :: u)) parseEscape (fun bs u => 34 ∉ bs ∧ Escaped u) := by
  refine Leaves.of_eats fun u hu => ?_
  cases hu with
  | plain other _ => exact absurd rfl other
  | @escape c w rest char hrest =>
    refine ⟨w, [c], rest, rfl, eats_escape char rest, ?_, hrest⟩
    rintro quote
    rw [← List.mem_singleton.mp quote] at char
    cases char

theorem leaves_stringLoop (n : Nat) {out : CString} (unquoted : 34 ∉ out) :
    Leaves Escaped (stringLoop n out) (fun s u => 34 ∉ s ∧ Escaped u) := by
  induction n generalizing out with
  | zero => exact Leaves.stop _
  | succ n ih =>
    refine Leaves.bind leaves_take fun b => ?_
    split
    next quote =>
      refine Leaves.pure fun u hu => ⟨unquoted, hu.tail ?_⟩
      rw [beq_iff_eq.mp quote]
      decide
    next other =>
      split
      next backslash =>
        rw [beq_iff_eq.mp backslash]
        refine Leaves.bind leaves_parseEscape fun bs => Leaves.given fun none => ih ?_
        exact fun quote => (List.mem_append.mp quote).elim unquoted none
      next plain =>
        have more : 34 ∉ out ++ [b] := by
          simpa [unquoted] using Ne.symm (by simpa using other)
        have unescaped : b ≠ 92 := by simpa using plain
        refine Leaves.bind (leaves_require _ _) fun _ => ?_
        exact (ih more).pre fun u hu => hu.2.tail unescaped

/-- Escaped text that begins with some character. -/
def Starts (b : UInt8) (u : Bytes) : Prop := Escaped u ∧ u.headD 0 = b

/-- The first character is taken where `peek` has seen it. -/
theorem leaves_open {b : UInt8} (other : b ≠ 92) : Leaves (Starts b) take (fun _ => Escaped) := by
  refine leaves_take.imp (fun _ hu => hu) fun c u hu => hu.1.tail ?_
  have same : c = b := hu.2
  exact same ▸ other

theorem leaves_behind {α : Type} {b : UInt8} {r : Parser α} {Q : α → Bytes → Prop} (h : Leaves Escaped r Q)
    (other : b ≠ 92) : Leaves (fun u => Escaped (b :: u)) r Q :=
  h.pre fun _ hu => hu.tail other

theorem leaves_parseString : Leaves (Starts 34) parseString (fun s u => 34 ∉ s ∧ Escaped u) :=
  Leaves.bind (leaves_open (by decide)) fun _ =>
    leaves_looping fun n => leaves_stringLoop n List.not_mem_nil

theorem leaves_numberToken : Leaves Escaped numberToken (fun _ => Escaped) := by
  have digits (msg : String) : Leaves Escaped (do
      let c ← peek
      require msg (isDigit c)
      skipDigits) (fun _ => Escaped) := by
    refine Leaves.bind leaves_peek fun c => Leaves.bind (leaves_require msg _) fun _ => ?_
    exact leaves_skipDigits.pre fun u hu => hu.2.1
  have whole : Leaves Escaped integerPart (fun _ => Escaped) := by
    refine Leaves.bind (leaves_skipIf rfl rfl) fun zero => ?_
    split
    · exact Leaves.pure fun _ hu => hu
    · refine Leaves.bind leaves_peek fun c => ?_
      split
      · exact leaves_skipDigits.pre fun u hu => hu.1
      · exact leaves_fail _
  have fraction : Leaves Escaped fractionPart (fun _ => Escaped) := by
    refine Leaves.bind (leaves_skipIf rfl rfl) fun point => ?_
    split
    · exact digits _
    · exact Leaves.pure fun _ hu => hu
  have exponent : Leaves Escaped exponentPart (fun _ => Escaped) := by
    refine Leaves.bind (leaves_skipIf rfl rfl) fun marked => ?_
    split
    · exact Leaves.bind (leaves_skipIf rfl rfl) fun _ => digits _
    · exact Leaves.pure fun _ hu => hu
  refine Leaves.bind (leaves_skipIf rfl rfl) fun _ => ?_
  exact Leaves.bind whole fun _ => Leaves.bind fraction fun _ => exponent

/-- What the reader makes of escaped text: a tree without quotes, and escaped text behind it. -/
def Clean (v : Value) (u : Bytes) : Prop := v.Unquoted ∧ Escaped u

theorem leaves_parseNumber (convert : Bytes → Option Double) :
    Leaves Escaped (parseNumber convert) Clean := by
  refine Leaves.get fun c => Leaves.bind leaves_numberToken fun _ => Leaves.get fun c' => ?_
  refine Leaves.bind (leaves_sub _ _) fun n => Leaves.bind (leaves_slice _ _) fun tok => ?_
  split
  · exact Leaves.pure fun u hu => ⟨fun s hs => absurd hs List.not_mem_nil, hu⟩
  · exact leaves_fail _

/-- Every function of the recursion keeps what is behind its part of the text escaped. -/
structure Keeps (convert : Bytes → Option Double) (n : Nat) : Prop where
  value : Leaves Escaped (parseValue convert n) Clean
  object : Leaves (Starts 123) (parseObject convert n) Clean
  members : ∀ o, (Value.object o).Unquoted → Leaves Escaped (parseMembers convert n o) Clean
  array : Leaves (Starts 91) (parseArray convert n) Clean
  items : ∀ a, (Value.array a).Unquoted → Leaves Escaped (parseItems convert n a) Clean

theorem leaves_leaf {w : Value} (h : w.strings = []) : Leaves Escaped (pure w : Parser Value) Clean :=
  Leaves.pure fun _ hu => ⟨fun _ hs => absurd (h ▸ hs) List.not_mem_nil, hu⟩

theorem leaves_switch {convert : Bytes → Option Double} {n : Nat} (h : Keeps convert n) (b : UInt8) :
    Leaves (Starts b) (switch convert n b) Clean := by
  have here : ∀ u, Starts b u → Escaped u := fun u hu => hu.1
  unfold switch
  split
  case h_1 => exact h.object
  case h_2 => exact h.array
  case h_3 =>
    refine Leaves.bind leaves_parseString fun s => Leaves.pure fun u hu => ⟨fun r hr => ?_, hu.2⟩
    rw [List.mem_singleton.mp hr]
    exact hu.1
  case h_4 =>
    exact (Leaves.bind (leaves_expect (by decide)) fun _ => leaves_leaf rfl).pre here
  case h_5 =>
    exact (Leaves.bind (leaves_expect (by decide)) fun _ => leaves_leaf rfl).pre here
  case h_6 =>
    exact (Leaves.bind (leaves_expect (by decide)) fun _ => leaves_leaf rfl).pre here
  case h_7 => exact (leaves_parseNumber convert).pre here

theorem unquoted_push {a : List Value} {v : Value} (ha : (Value.array a).Unquoted) (hv : v.Unquoted) :
    (Value.array (a ++ [v])).Unquoted := by
  rw [Value.unquoted_array] at ha ⊢
  intro w hw
  rcases List.mem_append.mp hw with old | new
  · exact ha w old
  · exact List.mem_singleton.mp new ▸ hv

theorem unquoted_setKey {key : CString} {v : Value} {o : List (CString × Value)}
    (ho : (Value.object o).Unquoted) (plain : 34 ∉ key) (hv : v.Unquoted) :
    (Value.object (Value.setKey key v o)).Unquoted := by
  rw [Value.unquoted_object] at ho ⊢
  intro p hp
  rcases Value.mem_setKey hp with rfl | old
  · exact ⟨plain, hv⟩
  · exact ho p old

/-- A step of the recursion. -/
theorem Keeps.succ {convert : Bytes → Option Double} {n : Nat} (h : Keeps convert n) :
    Keeps convert (n + 1) where
  value := by
    rw [parseValue_succ]
    exact Leaves.bind leaves_skipWs fun _ => Leaves.bind leaves_peek fun b => leaves_switch h b
  object := by
    rw [parseObject]
    refine Leaves.bind (leaves_open (by decide)) fun _ => Leaves.bind leaves_skipWs fun _ => ?_
    refine Leaves.bind leaves_peek fun c => ?_
    split
    next close =>
      rw [beq_iff_eq.mp close]
      exact Leaves.bind (leaves_open (by decide)) fun _ => leaves_leaf rfl
    next =>
      exact (h.members [] fun _ hs => absurd hs List.not_mem_nil).pre fun _ hu => hu.1
  members := by
    intro o ho
    rw [parseMembers]
    refine Leaves.bind leaves_skipWs fun _ => Leaves.bind leaves_peek fun q => ?_
    refine Leaves.bind (leaves_require _ _) fun _ => Leaves.given fun quote => ?_
    rw [beq_iff_eq.mp quote]
    refine Leaves.bind leaves_parseString fun key => Leaves.given fun plain => ?_
    refine Leaves.bind leaves_skipWs fun _ => Leaves.bind leaves_take fun colon => ?_
    refine Leaves.bind (leaves_require _ _) fun _ => Leaves.given fun isColon => ?_
    rw [beq_iff_eq.mp isColon]
    refine Leaves.bind (leaves_behind h.value (by decide)) fun v => Leaves.given fun hv => ?_
    have whole := unquoted_setKey ho plain hv
    refine Leaves.bind leaves_skipWs fun _ => Leaves.bind leaves_take fun c => ?_
    split
    next close =>
      rw [beq_iff_eq.mp close]
      exact leaves_behind (Leaves.pure fun u hu => ⟨whole, hu⟩) (by decide)
    next =>
      refine Leaves.bind (leaves_require _ _) fun _ => Leaves.given fun comma => ?_
      rw [beq_iff_eq.mp comma]
      exact leaves_behind (h.members _ whole) (by decide)
  array := by
    rw [parseArray]
    refine Leaves.bind (leaves_open (by decide)) fun _ => Leaves.bind leaves_skipWs fun _ => ?_
    refine Leaves.bind leaves_peek fun c => ?_
    split
    next close =>
      rw [beq_iff_eq.mp close]
      exact Leaves.bind (leaves_open (by decide)) fun _ => leaves_leaf rfl
    next =>
      exact (h.items [] fun _ hs => absurd hs List.not_mem_nil).pre fun _ hu => hu.1
  items := by
    intro a ha
    rw [parseItems]
    refine Leaves.bind h.value fun v => Leaves.given fun hv => ?_
    have whole := unquoted_push ha hv
    refine Leaves.bind leaves_skipWs fun _ => Leaves.bind leaves_take fun c => ?_
    split
    next close =>
      rw [beq_iff_eq.mp close]
      exact leaves_behind (Leaves.pure fun u hu => ⟨whole, hu⟩) (by decide)
    next =>
      refine Leaves.bind (leaves_require _ _) fun _ => Leaves.given fun comma => ?_
      rw [beq_iff_eq.mp comma]
      exact leaves_behind (h.items _ whole) (by decide)

theorem keeps (convert : Bytes → Option Double) (n : Nat) : Keeps convert n := by
  induction n with
  | zero =>
    refine ⟨?_, ?_, fun o _ => ?_, ?_, fun a _ => ?_⟩
    · rw [parseValue]
      exact Leaves.stop _
    · rw [parseObject]
      exact Leaves.stop _
    · rw [parseMembers]
      exact Leaves.stop _
    · rw [parseArray]
      exact Leaves.stop _
    · rw [parseItems]
      exact Leaves.stop _
  | succ n ih => exact ih.succ

theorem leaves_document (convert : Bytes → Option Double) : Leaves Escaped (document convert) Clean := by
  refine Leaves.bind leaves_skipWs fun _ => Leaves.get fun c => ?_
  refine Leaves.bind (keeps convert _).value fun v => Leaves.given fun hv => ?_
  refine Leaves.bind leaves_skipWs fun _ => Leaves.get fun c => ?_
  exact Leaves.bind (leaves_require _ _) fun _ => Leaves.pure fun u hu => ⟨hv, hu.2⟩

end Parser

/-- No tree read from escaped text holds a quote. -/
theorem unquoted_of_parse {s : CString} {v : Value} (escaped : Escaped s) (h : Value.parse s = .ok v) :
    v.Unquoted := by
  unfold Value.parse Value.parseWith at h
  cases run : document stod { bytes := s } with
  | error e =>
    rw [run] at h
    cases h
  | ok p =>
    rw [run] at h
    cases h
    exact (leaves_document stod { bytes := s } p.1 p.2 (Nat.zero_le _) escaped run).2.1

end Warmth.Json
