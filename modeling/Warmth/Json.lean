import Warmth.Numerals

namespace Warmth.Json

open Codec Numerals

/-- A JSON value; the members of an object stand in the order of their keys. -/
inductive Value
  | null
  | bool (b : Bool)
  | number (d : Double)
  | string (s : CString)
  | array (items : List Value)
  | object (members : List (CString × Value))

namespace Value

/-- `set` on the members of an object. -/
def setKey (key : CString) (v : Value) : List (CString × Value) → List (CString × Value)
  | [] => [(key, v)]
  | (k, w) :: rest =>
    if key < k then (key, v) :: (k, w) :: rest
    else if key = k then (k, v) :: rest
    else (k, w) :: setKey key v rest

end Value

/-- The largest `int`. -/
def kIntMax : Int := 2 ^ 31 - 1

/-- What `write_escaped` writes for one character. -/
def escape (c : UInt8) : Bytes :=
  match c with
  | 34 => [34]
  | 92 => [92, 92]
  | 8 => [92, 98]
  | 12 => [92, 102]
  | 10 => [92, 110]
  | 13 => [92, 114]
  | 9 => [92, 116]
  | _ => if c < 32 then [92, 117, 48, 48] ++ Id128.hexByte c else [c]

def writeEscaped (s : CString) : Bytes := 34 :: (s.flatMap escape ++ [34])

def numberText (d : Double) : Bytes :=
  if d.eq (.ofInt d.truncate) && (Double.quadrillion.neg.lt d && d.lt Double.quadrillion) then
    decimal d.truncate
  else format17g d

/-- A new line at some depth when the output is pretty; the product is one of `int`s. -/
def lineBreak (indent : Int) (depth : Nat) : Option Bytes :=
  if indent < 0 then some []
  else if depth * indent ≤ kIntMax then some (10 :: List.replicate (depth * indent).toNat 32)
  else none

/-- `depth + 1` -/
def deeper (depth : Nat) : Option Nat := if depth < kIntMax then some (depth + 1) else none

mutual

/-- `write_value`; `none` where an `int` overflows. -/
def writeValue (indent : Int) (depth : Nat) : Value → Option Bytes
  | .null => some (text "null")
  | .bool b => some (if b then text "true" else text "false")
  | .number d => some (numberText d)
  | .string s => some (writeEscaped s)
  | .array items => do
    let body ← writeItems indent depth true items
    let close ← if items.isEmpty then some [] else lineBreak indent depth
    return 91 :: (body ++ close ++ [93])
  | .object members => do
    let body ← writeMembers indent depth true members
    let close ← if members.isEmpty then some [] else lineBreak indent depth
    return 123 :: (body ++ close ++ [125])

def writeItems (indent : Int) (depth : Nat) (first : Bool) : List Value → Option Bytes
  | [] => some []
  | v :: rest => do
    let inner ← deeper depth
    let gap ← lineBreak indent inner
    let item ← writeValue indent inner v
    let tail ← writeItems indent depth false rest
    return (if first then [] else [44]) ++ (gap ++ item ++ tail)

def writeMembers (indent : Int) (depth : Nat) (first : Bool) : List (CString × Value) → Option Bytes
  | [] => some []
  | (key, v) :: rest => do
    let inner ← deeper depth
    let gap ← lineBreak indent inner
    let item ← writeValue indent inner v
    let tail ← writeMembers indent depth false rest
    let space : Bytes := if indent < 0 then [] else [32]
    return (if first then [] else [44]) ++ (gap ++ writeEscaped key ++ 58 :: space ++ item ++ tail)

end

/-- `dump` -/
def Value.dump (v : Value) (indent : Int) : Option Bytes := writeValue indent 0 v

end Warmth.Json
