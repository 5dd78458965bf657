import Warmth.JsonAcceptance
import Warmth.JsonRoundTrip
import Warmth.NumberText

/-! The round trip of trees with any numbers. -/

namespace Double

theorem fraction_small {d : Double} (small : d.magnitude < 0x430C6BF526340000) :
    d.fraction.1 < 10 ^ 15 * d.fraction.2 := by
  have grows {k j : Nat} (h : k ≤ j) : 2 ^ k ≤ 2 ^ j := Nat.pow_le_pow_right (by decide) h
  simp only [fraction]
  split
  next =>
    change d.magnitude % 2 ^ 52 < 10 ^ 15 * 2 ^ 1074
    have least : 2 ^ 4 ≤ 2 ^ 1074 := grows (by decide)
    generalize 2 ^ 1074 = t at *
    omega
  next =>
    have near : ¬1075 ≤ d.magnitude / 2 ^ 52 := by omega
    rw [if_neg near]
    change 2 ^ 52 + d.magnitude % 2 ^ 52 < 10 ^ 15 * 2 ^ (1075 - d.magnitude / 2 ^ 52)
    rcases Nat.lt_or_ge (d.magnitude / 2 ^ 52) 1072 with below | top
    · have least : 2 ^ 4 ≤ 2 ^ (1075 - d.magnitude / 2 ^ 52) := grows (by omega)
      omega
    · have exactly : d.magnitude / 2 ^ 52 = 1072 := by omega
      rw [exactly]
      omega

/-- A number in the range of the writer's integer branch is one. -/
theorem integral_of_whole {d : Double} (same : d.eq (.ofInt d.truncate) = true)
    (above : quadrillion.neg.lt d = true) (below : d.lt quadrillion = true) : d.Integral := by
  refine ⟨d.truncate, ?_, same⟩
  have upper : quadrillion.key = 0x430C6BF526340000 := by decide
  have lower : quadrillion.neg.key = -0x430C6BF526340000 := by decide
  have small : d.magnitude < 0x430C6BF526340000 := by
    simp only [lt, upper, lower, Bool.and_eq_true, decide_eq_true_eq] at above below
    have low : -0x430C6BF526340000 < d.key := above.2
    have high : d.key < 0x430C6BF526340000 := below.2
    have size : d.key.natAbs = d.magnitude := by
      unfold key
      split
      · rw [Int.natAbs_neg, Int.natAbs_natCast]
      · exact Int.natAbs_natCast _
    omega
  have quotient : d.fraction.1 / d.fraction.2 < 10 ^ 15 :=
    (Nat.div_lt_iff_lt_mul d.fraction_pos).mpr (fraction_small small)
  simp only [truncate]
  generalize d.fraction.1 / d.fraction.2 = n at *
  split
  · rwa [Int.natAbs_neg, Int.natAbs_natCast]
  · rwa [Int.natAbs_natCast]

/-- No integer is below the normal range. -/
theorem Integral.regular {d : Double} (h : d.Integral) : d.isSubnormal = false := by
  obtain ⟨-, whole, -⟩ := h.text
  refine Bool.eq_false_iff.mpr fun tiny => ?_
  simp only [isSubnormal, Bool.and_eq_true, decide_eq_true_eq] at tiny
  obtain ⟨some, small⟩ := tiny
  have none : d.magnitude / 2 ^ 52 = 0 := Nat.div_eq_of_lt small
  have quotient : d.fraction.1 / d.fraction.2 = 0 := by
    have grows {k j : Nat} (h : k ≤ j) : 2 ^ k ≤ 2 ^ j := Nat.pow_le_pow_right (by decide) h
    have least : 2 ^ 52 ≤ 2 ^ 1074 := grows (by decide)
    simp only [fraction, none, if_true]
    exact Nat.div_eq_of_lt (Nat.lt_of_lt_of_le (Nat.mod_lt _ (by decide)) least)
  have origin : d.truncate = 0 := by
    simp only [truncate, quotient]
    split <;> rfl
  rw [origin] at whole
  have zero : d.plain.magnitude = 0 := by
    rw [← whole]
    decide
  rw [plain_magnitude] at zero
  omega

end Double

namespace Warmth.Json

open Codec Double Numerals Json.Parser

/-- What the writer makes of a number is one of the grammar, and is read as that number up to the sign
of a zero, unless it is below the normal range. -/
theorem numberText_read {d : Double} (finite : d.isFinite = true) :
    IsNumber (numberText d) ∧
      stod (numberText d) = if d.isSubnormal then none else some d.plain := by
  by_cases integral : d.Integral
  · obtain ⟨small, whole, -⟩ := integral.text
    rw [numberText_of_integral integral, integral.regular, stod_decimal small, whole]
    exact ⟨isNumber_decimal _, rfl⟩
  · have text : numberText d = format17g d := by
      unfold numberText
      split
      next whole =>
        simp only [Bool.and_eq_true] at whole
        exact absurd (integral_of_whole whole.1 whole.2.1 whole.2.2) integral
      next => rfl
    have some : ¬d.magnitude = 0 := by
      intro zero
      refine integral ⟨0, by decide, ?_⟩
      rw [eq_iff_plain (isFinite_iff.mp finite).1 (by decide), plain, if_pos zero]
      decide
    rw [text, plain, if_neg some]
    exact ⟨isNumber_format17g finite, stod_format17g finite⟩

theorem escaped_numberText (d : Double) : Escaped (numberText d) := by
  unfold numberText
  split
  next => exact escaped_decimal d.truncate
  next =>
    refine Escaped.of_plain ?_
    cases finite : d.isFinite with
    | true => exact plain_number (isNumber_format17g finite)
    | false =>
      unfold format17g
      cases number : d.isNan with
      | true =>
        rw [if_pos rfl]
        cases d.negative <;> decide
      | false =>
        have bounded : d.isInf = true := by
          by_contra other
          have proper := isFinite_iff.mpr ⟨number, Bool.eq_false_iff.mpr other⟩
          rw [finite] at proper
          cases proper
        rw [bounded, if_neg Bool.false_ne_true, if_pos rfl]
        cases d.negative <;> decide

/-! What a text says about the numbers of its value. -/

section

variable {strings : Bytes → CString → Prop} {convert : Bytes → Option Double} {w : Bytes} {part : Part}

def Part.numbers : Part → List Double
  | value v => v.numbers
  | items vs => vs.flatMap Value.numbers
  | members ms => ms.flatMap fun p => p.2.numbers

theorem Assigned.mem {ms o : List (CString × Value)} (h : Assigned ms o) {p : CString × Value} (hp : p ∈ o) :
    p ∈ ms := by
  obtain ⟨before, behind, rfl⟩ := List.append_of_mem hp
  have found : (before ++ p :: behind).lookup p.1 = some p.2 := by
    refine List.lookup_eq_some_iff.mpr ⟨before, behind, rfl, fun q hq => ?_⟩
    have ordered := h.ordered
    rw [List.map_append, List.map_cons] at ordered
    exact bne_iff_ne.mpr fun same => List.lt_irrefl _ (same ▸ keys_before ordered q hq)
  rw [h.last] at found
  obtain ⟨ms₁, ms₂, parts, -⟩ := List.lookup_eq_some_iff.mp found
  rw [← List.mem_reverse, parts]
  exact List.mem_append_right _ List.mem_cons_self

/-- Every number of a value is the conversion of some token. -/
theorem Grammar.numbers (h : Grammar strings convert w part) :
    ∀ d ∈ part.numbers, ∃ token, convert token = some d := by
  induction h with
  | number _ value =>
    intro d hd
    rw [List.mem_singleton.mp hd]
    exact ⟨_, value⟩
  | null | bool | string | emptyArray | emptyObject => exact fun d hd => absurd hd List.not_mem_nil
  | array _ _ ih =>
    intro d hd
    exact ih d (by rwa [Part.numbers, Value.numbers_array] at hd)
  | object _ _ assigned ih =>
    intro d hd
    rw [Part.numbers, Value.numbers_object] at hd
    obtain ⟨p, hp, hd⟩ := List.mem_flatMap.mp hd
    exact ih d (List.mem_flatMap_of_mem (assigned.mem hp) hd)
  | lastItem _ _ ih | lastMember _ _ _ _ _ ih =>
    intro d hd
    exact ih d (by simpa [Part.numbers] using hd)
  | item _ _ _ _ ih ihs | member _ _ _ _ _ _ _ ih ihs =>
    intro d hd
    rcases List.mem_append.mp hd with first | later
    · exact ih d first
    · exact ihs d later

def Part.Ordered : Part → Prop
  | value v => v.Ordered
  | items vs => ∀ v ∈ vs, v.Ordered
  | members ms => ∀ p ∈ ms, p.2.Ordered

theorem Grammar.ordered (h : Grammar strings convert w part) : part.Ordered := by
  induction h with
  | null | bool | number | string => exact trivial
  | emptyArray => exact (Value.ordered_array []).mpr fun _ hv => absurd hv List.not_mem_nil
  | array _ _ ih => exact (Value.ordered_array _).mpr ih
  | emptyObject =>
    exact (Value.ordered_object []).mpr ⟨List.Pairwise.nil, fun _ hp => absurd hp List.not_mem_nil⟩
  | object _ _ assigned ih =>
    exact (Value.ordered_object _).mpr ⟨assigned.ordered, fun p hp => ih p (assigned.mem hp)⟩
  | lastItem _ _ ih => exact List.forall_mem_singleton.mpr ih
  | item _ _ _ _ ih ihs => exact List.forall_mem_cons.mpr ⟨ih, ihs⟩
  | lastMember _ _ _ _ _ ih => exact List.forall_mem_singleton.mpr ih
  | member _ _ _ _ _ _ _ ih ihs => exact List.forall_mem_cons.mpr ⟨ih, ihs⟩

end

/-! Converted numbers are finite. -/

theorem isFinite_neg (d : Double) : d.neg.isFinite = d.isFinite := by
  rw [isFinite, isFinite, neg_magnitude]

theorem subnormal_bits {n e t : Nat} (small : n * 2 ^ t < e) : n * 2 ^ (t + 52) / e < 2 ^ 52 := by
  rw [Nat.div_lt_iff_lt_mul (by omega), Nat.pow_add, ← Nat.mul_assoc, Nat.mul_comm (2 ^ 52)]
  exact Nat.mul_lt_mul_of_pos_right small (by decide)

theorem nearestFraction_finite {n e : Nat} {d : Double} (h : nearestFraction n e = some d) :
    d.isFinite = true := by
  have least : 1074 = 1022 + 52 := rfl
  rw [nearestFraction, least] at h
  split at h
  next =>
    cases h
    decide
  next =>
    split at h
    next small =>
      split at h
      next exactly =>
        cases h
        have few := subnormal_bits small
        generalize n * 2 ^ (1022 + 52) / e = k at few
        have bits : (UInt64.ofNat k).toNat = k := UInt64.toNat_ofNat_of_lt' (Nat.lt_trans few (by decide))
        rw [isFinite, magnitude, bits, Nat.mod_eq_of_lt (Nat.lt_trans few (by decide))]
        exact decide_eq_true (Nat.lt_trans few (by decide))
      next => cases h
    next =>
      split at h
      next => cases h
      next =>
        split at h
        next finite =>
          cases h
          exact finite
        next => cases h

theorem stod_finite {token : Bytes} {d : Double} (h : stod token = some d) : d.isFinite = true := by
  obtain ⟨m, e, found⟩ : ∃ m e, nearest (token.head? == some 45) m e = some d := ⟨_, _, h⟩
  obtain ⟨size, read, rfl⟩ := Option.map_eq_some_iff.mp found
  have finite := nearestFraction_finite read
  split
  · rw [isFinite_neg, finite]
  · exact finite

theorem parse_text {s : Bytes} {v : Value} (h : Value.parse s = .ok v) : Text Accepted stod s v := by
  rcases parseWith_total stod s with ⟨w, read, text⟩ | ⟨stop, -, refused⟩
  · cases h.symm.trans read
    exact text
  · cases h.symm.trans refused

/-- What the reader returns can be written: its keys ascend and its numbers are finite. -/
theorem parse_writable {s : Bytes} {v : Value} (h : Value.parse s = .ok v) :
    v.Ordered ∧ ∀ d ∈ v.numbers, d.isFinite = true := by
  obtain ⟨g, w, g', -, grammar, -, -⟩ := parse_text h
  refine ⟨grammar.ordered, fun d hd => ?_⟩
  obtain ⟨token, converted⟩ := grammar.numbers d hd
  exact stod_finite converted

/-- A number that the reader gives back from the writer's text. -/
def Recovered (d : Double) : Prop := d.isFinite = true ∧ d.isSubnormal = false

/-- The conversion that puts some number in the place of one it refuses. -/
def lenient (x : Double) (token : Bytes) : Option Double := (stod token).or (some x)

/-- What it makes of the writer's text for a number. -/
def lenientRead (x d : Double) : Double := if d.isSubnormal then x else d.plain

section

variable {v : Value} {indent : Int} {t : Bytes}

theorem lenient_legible (ordered : v.Ordered) (unquoted : v.Unquoted)
    (finite : ∀ d ∈ v.numbers, d.isFinite = true) (x : Double) :
    v.Legible (lenient x) (lenientRead x) := by
  refine ⟨fun d hd => ?_, ordered, unquoted⟩
  obtain ⟨number, read⟩ := numberText_read (finite d hd)
  refine ⟨number, ?_⟩
  rw [lenient, lenientRead, read]
  split <;> rfl

theorem regular_legible (ordered : v.Ordered) (unquoted : v.Unquoted)
    (recovered : ∀ d ∈ v.numbers, Recovered d) : v.Legible stod Double.plain := by
  refine ⟨fun d hd => ?_, ordered, unquoted⟩
  obtain ⟨finite, regular⟩ := recovered d hd
  obtain ⟨number, read⟩ := numberText_read finite
  rw [regular] at read
  exact ⟨number, read⟩

/-- A tree that is read from its own text has no number below the normal range: a conversion that took
such a number would show in the value, whatever it made of it. -/
theorem regular_of_parse (ordered : v.Ordered) (unquoted : v.Unquoted)
    (finite : ∀ d ∈ v.numbers, d.isFinite = true) (written : v.dump indent = some t) {w : Value}
    (read : Value.parse t = .ok w) : ∀ d ∈ v.numbers, d.isSubnormal = false := by
  have text := parse_text read
  have same (x : Double) : w = v.mapNumbers (lenientRead x) := by
    obtain ⟨g, u, g', white, grammar, white', parts⟩ := text
    have wider : Grammar Accepted (lenient x) u (.value w) :=
      grammar.mono id fun {token d} h => by rw [lenient, h]; rfl
    have once : Value.parseWith (lenient x) t = .ok w := Text.parse ⟨g, u, g', white, wider, white', parts⟩
    have again := (lenient_legible ordered unquoted finite x).parse_dump written
    exact Except.ok.inj (once.symm.trans again)
  intro d hd
  by_contra tiny
  have numbers : v.numbers.map (lenientRead zero) = v.numbers.map (lenientRead one) := by
    rw [← Value.numbers_mapNumbers, ← Value.numbers_mapNumbers, ← same, ← same]
  have apart := List.map_inj_left.mp numbers d hd
  have below : d.isSubnormal = true := Bool.not_eq_false _ ▸ tiny
  rw [lenientRead, lenientRead, if_pos below, if_pos below] at apart
  exact absurd apart (by decide)

/-- A tree comes back from its text just when it holds no quote, its indents fit an `int`, and every
number is finite and not below the normal range. -/
theorem dump_parses_iff (ordered : v.Ordered) (indent : Int) :
    (∃ t w, v.dump indent = some t ∧ Value.parse t = .ok w ∧ w.plain = v.plain) ↔
      v.Unquoted ∧ Room indent v.height ∧ ∀ d ∈ v.numbers, Recovered d := by
  constructor
  · rintro ⟨t, w, written, read, same⟩
    have escaped := escaped_of_numbers (fun d _ => escaped_numberText d) written
    have unquoted : v.Unquoted := by
      have clean := unquoted_of_parse escaped read
      rwa [Value.Unquoted, ← Value.strings_plain, ← same, Value.strings_plain]
    have finite : ∀ d ∈ v.numbers, d.isFinite = true := by
      intro d hd
      have mem : d.plain ∈ w.plain.numbers := by
        rw [same, Value.plain_eq, Value.numbers_mapNumbers]
        exact List.mem_map_of_mem hd
      rw [Value.plain_eq, Value.numbers_mapNumbers] at mem
      obtain ⟨d', hd', size⟩ := List.mem_map.mp mem
      have proper := (parse_writable read).2 d' hd'
      rwa [isFinite, ← plain_magnitude, size, plain_magnitude] at proper
    have regular := regular_of_parse ordered unquoted finite written read
    exact ⟨unquoted, (isSome_dump v).mp (Option.isSome_of_eq_some written),
      fun d hd => ⟨finite d hd, regular d hd⟩⟩
  · rintro ⟨unquoted, room, recovered⟩
    obtain ⟨t, written⟩ := Option.isSome_iff_exists.mp ((isSome_dump v).mpr room)
    refine ⟨t, v.plain, written, ?_, Value.plain_plain v⟩
    rw [Value.plain_eq]
    exact (regular_legible ordered unquoted recovered).parse_dump written

end

/-- A measured start, as an object with two keys. -/
def measured (d : Double) : Value :=
  .object [(text "seconds", .number d), (text "steps", .array [.bool true, .string (text "load")])]

theorem measured_ordered (d : Double) : (measured d).Ordered := by
  refine (Value.ordered_object _).mpr ⟨?_, ?_⟩
  · exact List.pairwise_pair.mpr (show text "seconds" < text "steps" by decide)
  · rintro p (_ | ⟨_, _ | ⟨_, none⟩⟩)
    · trivial
    · refine (Value.ordered_array _).mpr ?_
      rintro v (_ | ⟨_, _ | ⟨_, none⟩⟩)
      · trivial
      · trivial
      · cases none
    · cases none

theorem measured_unquoted (d : Double) : (measured d).Unquoted := by
  have strings : (measured d).strings = [text "seconds", text "steps", text "load"] := rfl
  rw [Value.Unquoted, strings]
  decide

theorem recovered_tenth : Recovered (.ofNatDiv 1 10) := ⟨by decide +kernel, by decide +kernel⟩

/-- A tenth comes back among the members of an object, the least double of all does not. -/
theorem dump_parses_measured :
    (∃ t w, (measured (.ofNatDiv 1 10)).dump 2 = some t ∧ Value.parse t = .ok w ∧
      w.plain = (measured (.ofNatDiv 1 10)).plain) ∧
    ¬∃ t w, (measured ⟨1⟩).dump 2 = some t ∧ Value.parse t = .ok w ∧
      w.plain = (measured ⟨1⟩).plain := by
  constructor
  · refine (dump_parses_iff (measured_ordered _) 2).mpr ⟨measured_unquoted _, by decide, ?_⟩
    exact List.forall_mem_singleton.mpr recovered_tenth
  · intro back
    obtain ⟨-, -, recovered⟩ := (dump_parses_iff (measured_ordered ⟨1⟩) 2).mp back
    have regular := (recovered ⟨1⟩ List.mem_cons_self).2
    cases regular

/-! The writer does not see the sign of a zero. -/

theorem numberText_plain (d : Double) : numberText d.plain = numberText d := by
  by_cases zero : d.magnitude = 0
  · have integral (a : Double) (h : a.magnitude = 0) : numberText a = decimal 0 := by
      have origin : a.Integral := by
        have number : a.isNan = false := decide_eq_false (by rw [h]; decide)
        refine ⟨0, by decide, ?_⟩
        rw [eq_iff_plain number (by decide), plain, if_pos h]
        decide
      rw [numberText_of_integral origin, truncate_of_zero h]
    rw [integral _ (by rw [plain_magnitude, zero]), integral d zero]
  · rw [plain, if_neg zero]

theorem writeItems_congr {f : Value → Value} {items : List Value} {indent : Int} {depth : Nat} {first : Bool}
    (same : ∀ v ∈ items, ∀ depth, writeValue indent depth (f v) = writeValue indent depth v) :
    writeItems indent depth first (items.map f) = writeItems indent depth first items := by
  induction items generalizing first with
  | nil => rfl
  | cons v rest ih =>
    obtain ⟨one, more⟩ := List.forall_mem_cons.mp same
    rw [List.map_cons, writeItems, writeItems]
    simp only [one, ih more]

theorem writeMembers_congr {f : Value → Value} {members : List (CString × Value)} {indent : Int} {depth : Nat}
    {first : Bool} (same : ∀ p ∈ members, ∀ depth, writeValue indent depth (f p.2) = writeValue indent depth p.2) :
    writeMembers indent depth first (members.map fun p => (p.1, f p.2)) =
      writeMembers indent depth first members := by
  induction members generalizing first with
  | nil => rfl
  | cons p rest ih =>
    obtain ⟨one, more⟩ := List.forall_mem_cons.mp same
    rw [List.map_cons, writeMembers, writeMembers]
    simp only [one, ih more]

theorem writeValue_plain (v : Value) (indent : Int) (depth : Nat) :
    writeValue indent depth v.plain = writeValue indent depth v := by
  induction v generalizing depth with
  | number d => exact congrArg some (numberText_plain d)
  | array items ih =>
    rw [Value.plain_array, writeValue, writeValue, writeItems_congr ih, List.isEmpty_map]
  | object members ih =>
    rw [Value.plain_object, writeValue, writeValue, writeMembers_congr ih, List.isEmpty_map]
  | _ => rfl

/-- Rewriting is stable: what the reader took from any text, once written, is read and written as the
same text again. -/
theorem rewriting_stable {s : Bytes} {v : Value} (read : Value.parse s = .ok v) (unquoted : v.Unquoted)
    (regular : ∀ d ∈ v.numbers, d.isSubnormal = false) {indent : Int} {t : Bytes}
    (written : v.dump indent = some t) :
    ∃ w, Value.parse t = .ok w ∧ w.dump indent = some t := by
  obtain ⟨ordered, finite⟩ := parse_writable read
  have back := (regular_legible ordered unquoted fun d hd => ⟨finite d hd, regular d hd⟩).parse_dump written
  refine ⟨v.plain, ?_, (writeValue_plain v indent 0).trans written⟩
  rw [Value.plain_eq]
  exact back

/-- A tree that was written with indents is read and rewritten without them. -/
theorem rewriting_stable_measured :
    ∃ s v t, (measured (.ofNatDiv 1 10)).dump 4 = some s ∧ Value.parse s = .ok v ∧
      v.dump (-1) = some t ∧ ∃ w, Value.parse t = .ok w ∧ w.dump (-1) = some t := by
  have ordered := measured_ordered (.ofNatDiv 1 10)
  have unquoted := measured_unquoted (.ofNatDiv 1 10)
  have recovered : ∀ d ∈ (measured (.ofNatDiv 1 10)).numbers, Recovered d :=
    List.forall_mem_singleton.mpr recovered_tenth
  have dumps (indent : Int) (room : Room indent 2) : ∃ t, (measured (.ofNatDiv 1 10)).dump indent = some t :=
    Option.isSome_iff_exists.mp ((isSome_dump (measured (.ofNatDiv 1 10))).mpr room)
  obtain ⟨s, pretty⟩ := dumps 4 (by decide)
  have read := (regular_legible ordered unquoted recovered).parse_dump pretty
  have same : (measured (.ofNatDiv 1 10)).plain = measured (.ofNatDiv 1 10) :=
    congrArg measured (show plain (.ofNatDiv 1 10) = .ofNatDiv 1 10 by decide +kernel)
  rw [← Value.plain_eq, same] at read
  obtain ⟨t, compact⟩ := dumps (-1) (by decide)
  exact ⟨s, _, t, pretty, read, compact,
    rewriting_stable read unquoted (fun d hd => (recovered d hd).2) compact⟩

end Warmth.Json
