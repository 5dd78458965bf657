import Warmth.ByteCursor
import Warmth.Json

namespace Warmth.Json

open Codec Numerals

/-- What `parse` throws: a message and the offset it names. -/
inductive ParseError
  | failed (offset : Nat) (msg : String)
  | outOfFuel
deriving DecidableEq, Repr

def ParseError.what : ParseError → String
  | .failed offset msg => "JSON parse error at offset " ++ toString offset ++ ": " ++ msg
  | .outOfFuel => ""

abbrev Parser (α : Type) := Reader ParseError α

namespace Parser

open Reader (byteAt reject slice sub)

def fail {α : Type} (msg : String) : Parser α := do
  let c ← get
  reject (.failed c.index msg)

def require (msg : String) (ok : Bool) : Parser Unit := if ok then pure () else fail msg

/-- A loop of the source, with fuel for as many turns as there are bytes, and one more. -/
def looping {α : Type} (body : Nat → Parser α) : Parser α := do
  let c ← get
  body (c.bytes.length + 1)

/-- `peek`, which returns NUL at the end. -/
def peek : Parser UInt8 := do
  let c ← get
  if c.index < c.bytes.length then byteAt c.index else pure 0

def take : Parser UInt8 := do
  let c ← get
  if c.bytes.length ≤ c.index then fail "unexpected end" else
  let b ← byteAt c.index
  modify fun c => c.advance 1
  return b

/-- `if (p(peek())) ++i_` -/
def skipIf (p : UInt8 → Bool) : Parser Bool := do
  let b ← peek
  if p b then
    modify fun c => c.advance 1
    return true
  else return false

def isSpace (b : UInt8) : Bool := b == 32 || b == 9 || b == 10 || b == 13

def skipWhile (p : UInt8 → Bool) : Nat → Parser Unit
  | 0 => reject .outOfFuel
  | n + 1 => do
    let more ← skipIf p
    if more then skipWhile p n else pure ()

/-- `skip_ws`; the NUL that `peek` returns at the end is no space. -/
def skipWs : Parser Unit := looping (skipWhile isSpace)

def skipDigits : Parser Unit := looping (skipWhile isDigit)

def expect : CString → Parser Unit
  | [] => pure ()
  | b :: lit => do
    let c ← take
    require "unexpected token" (c == b)
    expect lit

/-- The value of a hexadecimal digit. -/
def hexValue (c : UInt8) : Option UInt32 :=
  if 48 ≤ c && c ≤ 57 then some (c - 48).toUInt32
  else if 97 ≤ c && c ≤ 102 then some (c - 97 + 10).toUInt32
  else if 65 ≤ c && c ≤ 70 then some (c - 65 + 10).toUInt32
  else none

def pushHex (v nv : UInt32) : UInt32 := (v <<< 4) ||| nv

def hexDigits : Nat → UInt32 → Parser UInt32
  | 0, v => pure v
  | k + 1, v => do
    let c ← take
    match hexValue c with
    | some nv => hexDigits k (pushHex v nv)
    | none => fail "bad hex"

def parseHex4 : Parser UInt32 := hexDigits 4 0

def lead (mark u : UInt32) : UInt8 := (mark ||| u).toUInt8

def continuation (u : UInt32) : UInt8 := lead 0x80 (u &&& 0x3F)

/-- What `append_utf8` appends. -/
def utf8 (u : UInt32) : Bytes :=
  if u < 0x80 then [u.toUInt8]
  else if u < 0x800 then [lead 0xC0 (u >>> 6), continuation u]
  else if u < 0x10000 then [lead 0xE0 (u >>> 12), continuation (u >>> 6), continuation u]
  else [lead 0xF0 (u >>> 18), continuation (u >>> 12), continuation (u >>> 6), continuation u]

/-- A backslash and a `u` come next. -/
def atUnicode : Parser Bool := do
  let b ← peek
  let c ← get
  if b == 92 && c.index + 1 < c.bytes.length then
    let u ← byteAt (c.index + 1)
    return u == 117
  else return false

/-- The scalar value of a surrogate pair; the differences wrap. -/
def surrogates (hi lo : UInt32) : UInt32 :=
  (0x10000 : UInt32) + ((hi - 0xD800) <<< (10 : UInt32)) + (lo - 0xDC00)

/-- What stands behind `\u`. -/
def unicodeEscape : Parser Bytes := do
  let cp ← parseHex4
  if 0xD800 ≤ cp && cp ≤ 0xDBFF then
    let paired ← atUnicode
    if paired then
      modify fun c => c.advance 2
      let lo ← parseHex4
      return utf8 (surrogates cp lo)
    else fail "lone high surrogate"
  else return utf8 cp

/-- What stands behind a backslash. -/
def parseEscape : Parser Bytes := do
  let e ← take
  match e with
  | 34 => return [34]
  | 92 => return [92]
  | 47 => return [47]
  | 98 => return [8]
  | 102 => return [12]
  | 110 => return [10]
  | 114 => return [13]
  | 116 => return [9]
  | 117 => unicodeEscape
  | _ => fail "bad escape"

def stringLoop : Nat → CString → Parser CString
  | 0, _ => reject .outOfFuel
  | n + 1, out => do
    let c ← take
    if c == 34 then pure out
    else if c == 92 then do
      let bs ← parseEscape
      stringLoop n (out ++ bs)
    else do
      require "control char in string" (!(c < 32))
      stringLoop n (out ++ [c])

def parseString : Parser CString := do
  let _ ← take
  looping fun n => stringLoop n []

def integerPart : Parser Unit := do
  let zero ← skipIf (· == 48)
  if zero then pure () else
  let c ← peek
  if 49 ≤ c && c ≤ 57 then skipDigits else fail "bad number"

def fractionPart : Parser Unit := do
  let point ← skipIf (· == 46)
  if point then
    let c ← peek
    require "bad fraction" (isDigit c)
    skipDigits
  else pure ()

def exponentPart : Parser Unit := do
  let marked ← skipIf fun c => c == 101 || c == 69
  if marked then
    let _ ← skipIf fun c => c == 43 || c == 45
    let c ← peek
    require "bad exponent" (isDigit c)
    skipDigits
  else pure ()

/-- The part of `parse_number` that moves past the token. -/
def numberToken : Parser Unit := do
  let _ ← skipIf (· == 45)
  integerPart
  fractionPart
  exponentPart

section

-- the conversion of a number token
variable (convert : Bytes → Option Double)

def parseNumber : Parser Value := do
  let start := (← get).index
  numberToken
  let n ← sub (← get).index start
  let tok ← slice start n
  match convert tok with
  | some d => return .number d
  | none => fail "bad number value"

mutual

/-- `parse_value`, whose recursion takes one unit of fuel a call. -/
def parseValue : Nat → Parser Value
  | 0 => reject .outOfFuel
  | n + 1 => do
    skipWs
    let c ← peek
    match c with
    | 123 => parseObject n
    | 91 => parseArray n
    | 34 => do
      let s ← parseString
      return .string s
    | 116 => do
      expect (text "true")
      return .bool true
    | 102 => do
      expect (text "false")
      return .bool false
    | 110 => do
      expect (text "null")
      return .null
    | _ => parseNumber convert

def parseObject : Nat → Parser Value
  | 0 => reject .outOfFuel
  | n + 1 => do
    let _ ← take
    skipWs
    let c ← peek
    if c == 125 then do
      let _ ← take
      return .object []
    else parseMembers n []

/-- The loop of `parse_object`. -/
def parseMembers : Nat → List (CString × Value) → Parser Value
  | 0, _ => reject .outOfFuel
  | n + 1, o => do
    skipWs
    let q ← peek
    require "expected object key" (q == 34)
    let key ← parseString
    skipWs
    let colon ← take
    require "expected colon" (colon == 58)
    let v ← parseValue n
    skipWs
    let c ← take
    if c == 125 then return .object (Value.setKey key v o) else
    require "expected comma or closing brace" (c == 44)
    parseMembers n (Value.setKey key v o)

def parseArray : Nat → Parser Value
  | 0 => reject .outOfFuel
  | n + 1 => do
    let _ ← take
    skipWs
    let c ← peek
    if c == 93 then do
      let _ ← take
      return .array []
    else parseItems n []

/-- The loop of `parse_array`. -/
def parseItems : Nat → List Value → Parser Value
  | 0, _ => reject .outOfFuel
  | n + 1, a => do
    let v ← parseValue n
    skipWs
    let c ← take
    if c == 93 then return .array (a ++ [v]) else
    require "expected comma or closing bracket" (c == 44)
    parseItems n (a ++ [v])

end

/-- `Parser::parse` -/
def document : Parser Value := do
  skipWs
  let fuel := 3 * (← get).bytes.length + 3
  let v ← parseValue convert fuel
  skipWs
  let c ← get
  require "trailing characters" (c.index == c.bytes.length)
  return v

end

end Parser

/-- `Value::parse` over a conversion of number tokens. -/
def Value.parseWith (convert : Bytes → Option Double) (s : CString) :
    Except (Stop ParseError) Value :=
  (Parser.document convert { bytes := s }).map Prod.fst

/-- `Value::parse` -/
def Value.parse (s : CString) : Except (Stop ParseError) Value := Value.parseWith stod s

end Warmth.Json
