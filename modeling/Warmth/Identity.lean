import Warmth.Hash
import Std.Data.ExtTreeMap

namespace Warmth

open Codec Std

/-- `std::string`: bytes, not necessarily text. -/
abbrev CString := Bytes

/-- The bytes of a string literal of the source. -/
def text (s : String) : CString := s.toUTF8.data.toList

structure Id128 where
  hi : UInt64 := 0
  lo : UInt64 := 0
deriving DecidableEq, Repr, Inhabited

namespace Id128

/-- The defaulted `operator<=>`: high half first. -/
instance : Ord Id128 := ⟨compareLex (compareOn Id128.hi) (compareOn Id128.lo)⟩

instance : TransOrd Id128 :=
  inferInstanceAs (TransCmp (compareLex (compareOn Id128.hi) (compareOn Id128.lo)))

instance : LawfulEqOrd Id128 where
  eq_of_compare := by
    intro a b h
    change ((compare a.hi b.hi).then (compare a.lo b.lo)) = .eq at h
    obtain ⟨hh, hl⟩ := Ordering.then_eq_eq.mp h
    obtain ⟨ahi, alo⟩ := a
    obtain ⟨bhi, blo⟩ := b
    cases LawfulEqOrd.eq_of_compare hh
    cases LawfulEqOrd.eq_of_compare hl
    rfl

def isValid (x : Id128) : Bool := x.hi != 0 || x.lo != 0

def toBytes (x : Id128) : Bytes := beBytes 8 x.hi.toNat ++ beBytes 8 x.lo.toNat

def fromBytes (b : Bytes) : Id128 :=
  ⟨UInt64.ofNat (ofBe (b.take 8)), UInt64.ofNat (ofBe ((b.drop 8).take 8))⟩

def derive (s : CString) : Id128 := fromBytes (digest16 s)

def hexDigit (n : UInt8) : UInt8 := if n < 10 then 48 + n else 87 + n

/-- The two lower-case hexadecimal digits of a byte. -/
def hexByte (b : UInt8) : Bytes := [hexDigit (b / 16), hexDigit (b % 16)]

/-- Both halves printed with `%.016llx`. -/
def toString (x : Id128) : CString := x.toBytes.flatMap hexByte

@[simp] theorem toBytes_length (x : Id128) : x.toBytes.length = 16 := by simp [toBytes]

theorem fromBytes_toBytes (x : Id128) : fromBytes x.toBytes = x := by
  have hhi : x.hi.toNat < 256 ^ 8 := x.hi.toNat_lt
  have hlo : x.lo.toNat < 256 ^ 8 := x.lo.toNat_lt
  have first : x.toBytes.take 8 = beBytes 8 x.hi.toNat :=
    List.take_left' (beBytes_length 8 x.hi.toNat)
  have second : (x.toBytes.drop 8).take 8 = beBytes 8 x.lo.toNat := by
    rw [toBytes, List.drop_left' (beBytes_length 8 x.hi.toNat)]
    exact List.take_of_length_le (by simp)
  rw [fromBytes, first, second, ofBe_beBytes hhi, ofBe_beBytes hlo, UInt64.ofNat_toNat,
    UInt64.ofNat_toNat]

theorem toBytes_injective {x y : Id128} (h : x.toBytes = y.toBytes) : x = y := by
  rw [← fromBytes_toBytes x, h, fromBytes_toBytes]

theorem hexDigit_injective {m n : UInt8} (hm : m < 16) (hn : n < 16) (h : hexDigit m = hexDigit n) :
    m = n := by
  unfold hexDigit at h
  split at h <;> split at h <;> grind

theorem hexByte_injective {a b : UInt8} (h : hexByte a = hexByte b) : a = b := by
  simp only [hexByte, List.cons.injEq, and_true] at h
  have quot : ∀ c : UInt8, c / 16 < 16 := by
    intro c
    have := c.toNat_lt
    rw [UInt8.lt_iff_toNat_lt, UInt8.toNat_div]
    simp only [UInt8.reduceToNat]
    omega
  have rem : ∀ c : UInt8, c % 16 < 16 := by
    intro c
    rw [UInt8.lt_iff_toNat_lt, UInt8.toNat_mod]
    simp only [UInt8.reduceToNat]
    omega
  have hq := congrArg UInt8.toNat (hexDigit_injective (quot a) (quot b) h.1)
  have hr := congrArg UInt8.toNat (hexDigit_injective (rem a) (rem b) h.2)
  simp only [UInt8.toNat_div, UInt8.toNat_mod, UInt8.reduceToNat] at hq hr
  apply UInt8.toNat_inj.mp
  omega

theorem flatMap_hexByte_injective {as bs : Bytes} (h : as.flatMap hexByte = bs.flatMap hexByte) :
    as = bs := by
  induction as generalizing bs with
  | nil =>
    cases bs with
    | nil => rfl
    | cons b bs => simp [hexByte] at h
  | cons a as ih =>
    cases bs with
    | nil => simp [hexByte] at h
    | cons b bs =>
      simp only [List.flatMap_cons] at h
      obtain ⟨hb, hr⟩ := List.append_inj h rfl
      rw [hexByte_injective hb, ih hr]

theorem toString_injective {x y : Id128} (h : x.toString = y.toString) : x = y :=
  toBytes_injective (flatMap_hexByte_injective h)

end Id128

/-- A generation counter; the tag keeps the kinds of generation apart. -/
structure BasicGeneration (Tag : Type) where
  value : UInt64 := 0
deriving DecidableEq, Repr, Inhabited

namespace BasicGeneration

variable {Tag : Type}

instance : Ord (BasicGeneration Tag) := ⟨compareOn BasicGeneration.value⟩

instance : TransOrd (BasicGeneration Tag) :=
  inferInstanceAs (TransCmp (compareOn (@BasicGeneration.value Tag)))

instance : LawfulEqOrd (BasicGeneration Tag) where
  eq_of_compare := by
    intro a b h
    obtain ⟨a⟩ := a
    obtain ⟨b⟩ := b
    exact congrArg _ (LawfulEqOrd.eq_of_compare (show compare a b = .eq from h))

def initial : BasicGeneration Tag := ⟨0⟩

def next (g : BasicGeneration Tag) : BasicGeneration Tag :=
  if g.value.toNat = 2 ^ 64 - 1 then g else ⟨g.value + 1⟩

theorem next_value_toNat (g : BasicGeneration Tag) :
    g.next.value.toNat = min (g.value.toNat + 1) (2 ^ 64 - 1) := by
  have := g.value.toNat_lt
  unfold next
  split
  next h => omega
  next h =>
    rw [UInt64.toNat_add, UInt64.toNat_one]
    omega

end BasicGeneration

inductive WarmthGenerationTag deriving DecidableEq, Repr
inductive DependencyGenerationTag deriving DecidableEq, Repr
inductive PolicyGenerationTag deriving DecidableEq, Repr
inductive CoordinatorEpochTag deriving DecidableEq, Repr
inductive AttemptIdTag deriving DecidableEq, Repr

abbrev WarmthGeneration := BasicGeneration WarmthGenerationTag
abbrev DependencyGeneration := BasicGeneration DependencyGenerationTag
abbrev PolicyGeneration := BasicGeneration PolicyGenerationTag
abbrev CoordinatorEpoch := BasicGeneration CoordinatorEpochTag
abbrev AttemptId := BasicGeneration AttemptIdTag

abbrev WarmthObjectId := Id128
abbrev WorkloadId := Id128
abbrev ModelId := Id128
abbrev ArtifactId := Id128
abbrev ReplicaId := Id128
abbrev EngineId := Id128
abbrev NodeId := Id128
abbrev WorkerId := Id128
abbrev WorkerBootId := Id128

end Warmth
