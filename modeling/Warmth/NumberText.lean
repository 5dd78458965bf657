import Mathlib.Data.List.DropRight
import Warmth.JsonTokens
import Warmth.Significant

/-! `printf` and `stod` on a number: the text is a number of the grammar, and is read as the number. -/

namespace Warmth.Json

open Codec Double Numerals Json.Parser

theorem ofDigits_append (w v : Bytes) : ofDigits (w ++ v) = ofDigits w * 10 ^ v.length + ofDigits v := by
  have from_ (n : Nat) : v.foldl (fun n b => 10 * n + (b.toNat - 48)) n = n * 10 ^ v.length + ofDigits v := by
    induction v generalizing n with
    | nil => simp [ofDigits]
    | cons b v ih =>
      have first := ih (10 * n + (b.toNat - 48))
      have second := ih (10 * 0 + (b.toNat - 48))
      rw [ofDigits, List.foldl_cons, first, List.foldl_cons, second, List.length_cons, Nat.pow_succ]
      ring
  rw [ofDigits, List.foldl_append, from_, ← ofDigits]

theorem ofDigits_zeros (k : Nat) : ofDigits (List.replicate k 48) = 0 := by
  induction k with
  | zero => rfl
  | succ k ih => rw [List.replicate_succ', ofDigits_append, ih]; rfl

theorem ofDigits_zeros_append (k : Nat) (w : Bytes) : ofDigits (List.replicate k 48 ++ w) = ofDigits w := by
  rw [ofDigits_append, ofDigits_zeros, Nat.zero_mul, Nat.zero_add]

/-- Digits without the zeros at their end. -/
def stripped (ds : Bytes) : Bytes := (ds.reverse.dropWhile (· == 48)).reverse

theorem fractionText_eq (ds : Bytes) :
    fractionText ds = if (stripped ds).isEmpty then [] else 46 :: stripped ds := rfl

theorem stripped_append (ds : Bytes) : ∃ k, ds = stripped ds ++ List.replicate k 48 := by
  have whole : ds.rdropWhile (· == 48) ++ ds.rtakeWhile (· == 48) = ds :=
    List.rdropWhile_append_rtakeWhile
  have zeros : ds.rtakeWhile (· == 48) = List.replicate (ds.rtakeWhile (· == 48)).length 48 :=
    List.eq_replicate_of_mem fun b hb => beq_iff_eq.mp (List.mem_rtakeWhile_imp (p := (· == 48)) hb)
  refine ⟨(ds.rtakeWhile (· == 48)).length, ?_⟩
  rw [← zeros]
  exact whole.symm

/-- Zeros at the end of the decimals change nothing. -/
theorem scientific_stripped (whole ds : Bytes) (p : Int) :
    scientific (ofDigits (whole ++ stripped ds)) (p - (stripped ds).length) =
      scientific (ofDigits (whole ++ ds)) (p - ds.length) := by
  obtain ⟨k, parts⟩ := stripped_append ds
  have ten : (10 : Rat) ≠ 0 := by norm_num
  have digits : ofDigits (whole ++ ds) = ofDigits (whole ++ stripped ds) * 10 ^ k := by
    conv => lhs; rw [parts]
    rw [← List.append_assoc, ofDigits_append, ofDigits_zeros, List.length_replicate, Nat.add_zero]
  have length : ds.length = (stripped ds).length + k := by
    conv => lhs; rw [parts]
    rw [List.length_append, List.length_replicate]
  have exponent : p - (stripped ds).length = p - ds.length + k := by
    rw [length]
    push_cast
    ring
  rw [scientific, scientific, digits, exponent, zpow_add₀ ten, zpow_natCast]
  push_cast
  ring

/-- An exponent as `printf` writes it, with its value. -/
inductive ExponentText : Bytes → Int → Prop
  | none : ExponentText [] 0
  | minus {ds : Bytes} : Digits ds → ExponentText (101 :: 45 :: ds) (-(ofDigits ds : Int))
  | plus {ds : Bytes} : Digits ds → ExponentText (101 :: 43 :: ds) (ofDigits ds)

theorem takeWhile_digits {whole rest : Bytes} (digits : ∀ b ∈ whole, isDigit b = true)
    (stop : isDigit (rest.headD 0) = false) :
    (whole ++ rest).takeWhile isDigit = whole ∧ (whole ++ rest).dropWhile isDigit = rest := by
  rw [List.takeWhile_append_of_pos digits, List.dropWhile_append_of_pos digits]
  cases rest with
  | nil => exact ⟨List.append_nil whole, rfl⟩
  | cons b rest =>
    have other : ¬isDigit b = true := by
      rw [show isDigit b = false from stop]
      exact Bool.false_ne_true
    rw [List.takeWhile_cons_of_neg other, List.dropWhile_cons_of_neg other, List.append_nil]
    exact ⟨rfl, rfl⟩

section

variable {whole decimals exponent : Bytes} {p : Int}

theorem stripped_digits (digits : ∀ b ∈ decimals, isDigit b = true) :
    ∀ b ∈ stripped decimals, isDigit b = true := by
  obtain ⟨k, parts⟩ := stripped_append decimals
  intro b hb
  refine digits b ?_
  rw [parts]
  exact List.mem_append_left _ hb

theorem ExponentText.first (h : ExponentText exponent p) :
    isDigit (exponent.headD 0) = false ∧ exponent.headD 0 ≠ 46 := by
  cases h with
  | none => decide
  | minus | plus =>
    change isDigit 101 = false ∧ (101 : UInt8) ≠ 46
    decide

theorem fraction_first (h : ExponentText exponent p) :
    isDigit ((fractionText decimals ++ exponent).headD 0) = false := by
  rw [fractionText_eq]
  split
  · exact h.first.1
  · rfl

/-- What `stod` makes of the parts of a number. -/
theorem stod_parts (negative : Bool) (digits : Digits whole) (places : ∀ b ∈ decimals, isDigit b = true)
    (h : ExponentText exponent p) :
    stod ((if negative then [45] else []) ++ (whole ++ (fractionText decimals ++ exponent))) =
      nearest negative (ofDigits (whole ++ stripped decimals)) (p - (stripped decimals).length) := by
  have last := h.first
  have behind : isDigit ((fractionText decimals ++ exponent).headD 0) = false := fraction_first h
  obtain ⟨taken, dropped⟩ := takeWhile_digits digits.2 behind
  obtain ⟨b, ds, start⟩ := List.exists_cons_of_ne_nil digits.1
  have first : b ≠ 45 := by
    rintro rfl
    have digit := digits.2 45 (start ▸ List.mem_cons_self)
    cases digit
  have sign : (((if negative then [45] else []) ++ (whole ++ (fractionText decimals ++ exponent))).head? ==
      some 45) = negative := by
    cases negative
    · simpa [start] using first
    · rfl
  have rest : (if negative then
        ((if negative then [45] else []) ++ (whole ++ (fractionText decimals ++ exponent))).tail
      else (if negative then [45] else []) ++ (whole ++ (fractionText decimals ++ exponent))) =
        whole ++ (fractionText decimals ++ exponent) := by
    cases negative <;> rfl
  simp only [stod, sign, rest, taken, dropped]
  rw [fractionText_eq]
  split
  next empty =>
    have nothing : stripped decimals = [] := List.isEmpty_iff.mp empty
    have pointless : (exponent.head? == some 46) = false := by
      cases h with
      | none | minus | plus => rfl
    rw [List.nil_append, pointless, nothing]
    simp only [Bool.false_eq_true, if_false]
    cases h with
    | none | minus | plus => rfl
  next some_ =>
    obtain ⟨taken', dropped'⟩ := takeWhile_digits (stripped_digits places) last.1
    have point : ((46 :: stripped decimals ++ exponent).head? == some 46) = true := rfl
    have tail : (46 :: stripped decimals ++ exponent).tail = stripped decimals ++ exponent := rfl
    simp only [point, tail, taken', dropped', if_true]
    cases h with
    | none | minus | plus => rfl

theorem isNumber_parts (negative : Bool) (integer : IsInteger whole)
    (places : ∀ b ∈ decimals, isDigit b = true) (h : ExponentText exponent p) :
    IsNumber ((if negative then [45] else []) ++ (whole ++ (fractionText decimals ++ exponent))) := by
  refine ⟨_, whole, fractionText decimals, exponent, ?_, integer, ?_, ?_, rfl⟩
  · cases negative
    · exact Or.inl rfl
    · exact Or.inr rfl
  · rw [fractionText_eq]
    split
    next => exact Or.inl rfl
    next filled =>
      refine Or.inr ⟨stripped decimals, ⟨?_, stripped_digits places⟩, rfl⟩
      exact fun empty => filled (List.isEmpty_iff.mpr empty)
  · cases h with
    | none => exact Or.inl rfl
    | minus digits => exact Or.inr ⟨101, [45], _, Or.inl rfl, Or.inr (Or.inr rfl), digits, rfl⟩
    | plus digits => exact Or.inr ⟨101, [43], _, Or.inl rfl, Or.inr (Or.inl rfl), digits, rfl⟩

end

theorem Parser.IsInteger.digits {w : Bytes} (h : IsInteger w) : Digits w := by
  rcases h with rfl | ⟨b, ds, range, digits, rfl⟩
  · exact ⟨List.cons_ne_nil _ _, by simp; decide⟩
  · exact ⟨List.cons_ne_nil _ _, List.forall_mem_cons.mpr ⟨digit_of_range range, digits⟩⟩

/-- Seventeen digits. -/
theorem naturalText_length {n : Nat} (low : 10 ^ 16 ≤ n) (high : n < 10 ^ 17) :
    (naturalText n).length = 17 := by
  have some : n ≠ 0 := by omega
  have log : Nat.log 10 n = 16 := (Nat.log_eq_iff (Or.inl (by decide))).mpr ⟨low, high⟩
  rw [naturalText, if_neg some, List.length_reverse, List.length_map, Nat.length_digits 10 n (by decide) some,
    log]

/-- The digits up to some place. -/
theorem isInteger_take {n k : Nat} (positive : 0 < n) : IsInteger ((naturalText n).take (k + 1)) := by
  obtain ⟨b, ds, whole, range⟩ := naturalText_first positive
  have digits := naturalText_digits n
  rw [whole] at digits ⊢
  refine Or.inr ⟨b, ds.take k, range, fun d hd => ?_, rfl⟩
  exact digits d (List.mem_cons_of_mem _ (List.mem_of_mem_take hd))

theorem drop_digits (n k : Nat) : ∀ b ∈ (naturalText n).drop k, isDigit b = true :=
  fun b hb => naturalText_digits n b (List.mem_of_mem_drop hb)

theorem exponentText (x : Int) :
    ExponentText ([101, if x < 0 then 45 else 43] ++
      (if (naturalText x.natAbs).length < 2 then 48 :: naturalText x.natAbs else naturalText x.natAbs)) x := by
  have digits : Digits (if (naturalText x.natAbs).length < 2 then 48 :: naturalText x.natAbs
      else naturalText x.natAbs) := by
    split
    · exact ⟨List.cons_ne_nil _ _, List.forall_mem_cons.mpr ⟨rfl, naturalText_digits _⟩⟩
    · exact ⟨naturalText_ne_nil _, naturalText_digits _⟩
  have value : ofDigits (if (naturalText x.natAbs).length < 2 then 48 :: naturalText x.natAbs
      else naturalText x.natAbs) = x.natAbs := by
    split
    · exact (ofDigits_zeros_append 1 _).trans (ofDigits_naturalText _)
    · exact ofDigits_naturalText _
  generalize (if (naturalText x.natAbs).length < 2 then 48 :: naturalText x.natAbs
      else naturalText x.natAbs) = ds at *
  split
  next below =>
    have whole : x = -(ofDigits ds : Int) := by omega
    rw [whole]
    exact .minus digits
  next above =>
    have whole : x = ofDigits ds := by omega
    conv => arg 2; rw [whole]
    exact .plus digits

/-- The parts of what `printf` writes, which stand for the seventeen digits of the number. -/
theorem format17g_parts {d : Double} (finite : d.isFinite = true) (some : 0 < d.magnitude) :
    ∃ whole decimals exponent p, IsInteger whole ∧ (∀ b ∈ decimals, isDigit b = true) ∧
      ExponentText exponent p ∧
      scientific (ofDigits (whole ++ decimals)) (p - decimals.length) =
        scientific (significant d.fraction.1 d.fraction.2).1
          ((significant d.fraction.1 d.fraction.2).2 - 16) ∧
      format17g d = (if d.negative then [45] else []) ++ (whole ++ (fractionText decimals ++ exponent)) := by
  obtain ⟨number, bounded⟩ := isFinite_iff.mp finite
  obtain ⟨low, high⟩ := significant_bounds (fraction_numerator some) d.fraction_pos
  have positive : 0 < (significant d.fraction.1 d.fraction.2).1 := Nat.lt_of_lt_of_le (by decide) low
  have length := naturalText_length low high
  have nonzero : ¬d.magnitude = 0 := Nat.ne_of_gt some
  have digits := naturalText_digits (significant d.fraction.1 d.fraction.2).1
  have value := ofDigits_naturalText (significant d.fraction.1 d.fraction.2).1
  simp only [format17g, number, bounded, nonzero, Bool.false_eq_true, if_false]
  have first := fun k => isInteger_take (k := k) positive
  have rest := fun k => drop_digits (significant d.fraction.1 d.fraction.2).1 k
  generalize (significant d.fraction.1 d.fraction.2).2 = x at *
  generalize naturalText (significant d.fraction.1 d.fraction.2).1 = ds at *
  rw [← value]
  split
  next =>
    refine ⟨ds.take 1, ds.drop 1, _, x, first 0, rest 1, exponentText x, ?_, by simp⟩
    rw [List.take_append_drop, List.length_drop, length]
    rfl
  next near =>
    split
    next below =>
      refine ⟨[48], List.replicate (-x - 1).toNat 48 ++ ds, [], 0, Or.inl rfl, ?_, .none, ?_, by simp⟩
      · intro b hb
        rcases List.mem_append.mp hb with zero | digit
        · rw [List.eq_of_mem_replicate zero]
          rfl
        · exact digits b digit
      · have shift : (0 : Int) - (List.replicate (-x - 1).toNat (48 : UInt8) ++ ds).length = x - 16 := by
          rw [List.length_append, List.length_replicate, length]
          omega
        have text : ofDigits ([48] ++ (List.replicate (-x - 1).toNat 48 ++ ds)) = ofDigits ds := by
          rw [show [(48 : UInt8)] = List.replicate 1 48 from rfl, ofDigits_zeros_append,
            ofDigits_zeros_append]
        rw [shift, text]
    next above =>
      refine ⟨ds.take (x.toNat + 1), ds.drop (x.toNat + 1), [], 0, first _, rest _, .none, ?_, by simp⟩
      have shift : (0 : Int) - (ds.drop (x.toNat + 1)).length = x - 16 := by
        rw [List.length_drop, length]
        omega
      rw [List.take_append_drop, shift]

/-- Every finite number is written as a number of the grammar. -/
theorem isNumber_format17g {d : Double} (finite : d.isFinite = true) : IsNumber (format17g d) := by
  rcases Nat.eq_zero_or_pos d.magnitude with zero | some
  · obtain ⟨number, bounded⟩ := isFinite_iff.mp finite
    have text : format17g d = (if d.negative then [45] else []) ++ ([48] ++ (fractionText [] ++ [])) := by
      simp [format17g, number, bounded, zero, fractionText]
    rw [text]
    exact isNumber_parts d.negative (Or.inl rfl) (fun _ hb => absurd hb List.not_mem_nil) .none
  · obtain ⟨whole, decimals, exponent, p, integer, places, powered, -, text⟩ := format17g_parts finite some
    rw [text]
    exact isNumber_parts d.negative integer places powered

/-- Seventeen digits tell a double: what `printf` writes is read back as the number itself, unless it
is below the normal range, where `stod` throws. -/
theorem stod_format17g {d : Double} (finite : d.isFinite = true) :
    stod (format17g d) = if d.isSubnormal then none else some d := by
  rcases Nat.eq_zero_or_pos d.magnitude with zero | nonzero
  · obtain ⟨number, bounded⟩ := isFinite_iff.mp finite
    have text : format17g d = (if d.negative then [45] else []) ++ naturalText 0 := by
      simp only [format17g, number, bounded, zero, Bool.false_eq_true, if_false, if_true]
      rfl
    have regular : d.isSubnormal = false := by
      rw [isSubnormal, zero]
      rfl
    have sign := signed_magnitude d
    rw [zero] at sign
    rw [text, stod_naturalText, nearest_small d.negative (by decide), regular]
    exact congrArg some sign
  · obtain ⟨whole, decimals, exponent, p, integer, places, powered, same, text⟩ :=
      format17g_parts finite nonzero
    rw [text, stod_parts d.negative integer.digits places powered]
    exact nearest_digits finite nonzero ((scientific_stripped whole decimals p).trans same)

theorem stod_format17g_tenth : stod (format17g (.ofNatDiv 1 10)) = some (.ofNatDiv 1 10) := by
  have regular : (Double.ofNatDiv 1 10).isSubnormal = false := by decide +kernel
  have read := stod_format17g (d := .ofNatDiv 1 10) (by decide +kernel)
  rwa [regular] at read

end Warmth.Json
