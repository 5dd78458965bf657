import Mathlib.Algebra.Group.Nat.Defs
import Mathlib.Data.Nat.Log
import Mathlib.Tactic.Tauto

structure Double where
  bits : UInt64
deriving DecidableEq, Repr

namespace Double

def zero : Double := ⟨0⟩
def one : Double := ⟨0x3FF0000000000000⟩

def negative (d : Double) : Bool := 2 ^ 63 ≤ d.bits.toNat
def magnitude (d : Double) : Nat := d.bits.toNat % 2 ^ 63

/-- The magnitude of infinity; greater magnitudes are NaNs. -/
def infinity : Nat := 0x7FF0000000000000

def isNan (d : Double) : Bool := infinity < d.magnitude
def isInf (d : Double) : Bool := d.magnitude == infinity
def isFinite (d : Double) : Bool := d.magnitude < infinity

/-- Magnitudes are ordered as the numbers they stand for, so the sign makes them a key. -/
def key (d : Double) : Int := if d.negative then -(d.magnitude : Int) else d.magnitude

def lt (a b : Double) : Bool := !a.isNan && !b.isNan && decide (a.key < b.key)
def le (a b : Double) : Bool := !a.isNan && !b.isNan && decide (a.key ≤ b.key)

def neg (d : Double) : Double := ⟨d.bits ^^^ 0x8000000000000000⟩

/-- `v < 0.0 ? 0.0 : (v > 1.0 ? 1.0 : v)`. -/
def clampUnit (v : Double) : Double :=
  if v.lt zero then zero else if one.lt v then one else v

def inUnit (v : Double) : Bool := zero.le v && v.le one

def roundDiv (n d : Nat) : Nat :=
  let q := n / d
  let r := n % d
  if d < 2 * r ∨ (d = 2 * r ∧ q % 2 = 1) then q + 1 else q

/-- The double nearest to `n / d`, ties to even, for quotients in the normal range. -/
def ofNatDiv (n d : Nat) : Double :=
  if n = 0 then zero else
  let e₀ : Int := (Nat.log2 n : Int) - (Nat.log2 d : Int)
  let fits := if 0 ≤ e₀ then d * 2 ^ e₀.toNat ≤ n else d ≤ n * 2 ^ (-e₀).toNat
  let e := if fits then e₀ else e₀ - 1
  let m := if e ≤ 52 then roundDiv (n * 2 ^ (52 - e).toNat) d else roundDiv n (d * 2 ^ (e - 52).toNat)
  ⟨UInt64.ofNat ((e + 1023).toNat * 2 ^ 52 + (m - 2 ^ 52))⟩

/-- The natural number that a conversion of `n` to double yields, 53 significant bits kept. -/
def nearestNat (n : Nat) : Nat :=
  if n < 2 ^ 53 then n else
  let s := 2 ^ (Nat.log2 n - 52)
  roundDiv n s * s

theorem isFinite_iff {d : Double} : d.isFinite = true ↔ d.isNan = false ∧ d.isInf = false := by
  simp only [isFinite, isNan, isInf, decide_eq_true_eq, decide_eq_false_iff_not, beq_eq_false_iff_ne]
  omega

theorem inUnit_iff {v : Double} :
    v.inUnit = true ↔ v.isNan = false ∧ 0 ≤ v.key ∧ v.key ≤ one.key := by
  have hz : zero.isNan = false := by decide
  have ho : one.isNan = false := by decide
  have hk : zero.key = 0 := by decide
  simp only [inUnit, le, hz, ho, hk, Bool.and_eq_true, Bool.not_false, Bool.true_and,
    Bool.not_eq_true', decide_eq_true_eq, Bool.and_true]
  tauto

theorem isFinite_of_inUnit {v : Double} (h : v.inUnit = true) : v.isFinite = true := by
  obtain ⟨hn, _, ho⟩ := inUnit_iff.mp h
  have hone : one.key = 0x3FF0000000000000 := by decide
  have hz := (inUnit_iff.mp h).2.1
  rw [isFinite, decide_eq_true_eq, infinity]
  rw [hone] at ho
  unfold key at hz ho
  split at ho <;> split at hz <;> omega

theorem clampUnit_of_inUnit {v : Double} (h : v.inUnit = true) : v.clampUnit = v := by
  obtain ⟨_, hz, ho⟩ := inUnit_iff.mp h
  have hk : zero.key = 0 := by decide
  have hlo : v.lt zero = false := by
    simp only [lt, hk, Bool.and_eq_false_iff, decide_eq_false_iff_not]
    exact Or.inr (by omega)
  have hhi : one.lt v = false := by
    simp only [lt, Bool.and_eq_false_iff, decide_eq_false_iff_not]
    exact Or.inr (by omega)
  simp [clampUnit, hlo, hhi]

theorem inUnit_clampUnit {v : Double} (h : v.isNan = false) : v.clampUnit.inUnit = true := by
  have hz : zero.isNan = false := by decide
  have ho : one.isNan = false := by decide
  have hk : zero.key = 0 := by decide
  unfold clampUnit
  split
  next => decide
  next hlo =>
    split
    next => decide
    next hhi =>
      simp only [lt, h, hz, hk, Bool.not_false, Bool.true_and, decide_eq_true_eq] at hlo
      simp only [lt, h, ho, Bool.not_false, Bool.true_and, decide_eq_true_eq] at hhi
      exact inUnit_iff.mpr ⟨h, by omega, by omega⟩

end Double
