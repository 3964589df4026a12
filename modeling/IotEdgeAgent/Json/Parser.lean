import IotEdgeAgent.Json.Value

/-!
# The parser of parson

The text is what is left of a string of C: where it ends stands the NUL. A null pointer for a
value is the stop `rejected`. Allocations succeed.
-/

namespace IotEdgeAgent.Json

open Strings Separated

def MAX_NESTING : ℕ := 2048

def isspace (c : UInt8) : Bool := c = byte ' ' || (0x09 ≤ c && c ≤ 0x0d)

def isdigit (c : UInt8) : Bool := byte '0' ≤ c && c ≤ byte '9'

/-- What stands behind the next quote that no backslash precedes. -/
def behindQuote : List UInt8 → Option (List UInt8)
  | [] => none
  | [c] => if c = byte '"' then some [] else none
  | c :: d :: text =>
    if c = byte '"' then some (d :: text)
    else if c = byte '\\' then behindQuote text
    else behindQuote (d :: text)

def skipQuotes : List UInt8 → Option (List UInt8)
  | [] => none
  | c :: text => if c = byte '"' then behindQuote text else none

def hexCharToInt (c : UInt8) : Option ℕ :=
  if byte '0' ≤ c ∧ c ≤ byte '9' then some (c - byte '0').toNat
  else if byte 'a' ≤ c ∧ c ≤ byte 'f' then some ((c - byte 'a').toNat + 10)
  else if byte 'A' ≤ c ∧ c ≤ byte 'F' then some ((c - byte 'A').toNat + 10)
  else none

def hexValue (s0 s1 s2 s3 : UInt8) : Option ℕ := do
  let x1 ← hexCharToInt s0
  let x2 ← hexCharToInt s1
  let x3 ← hexCharToInt s2
  let x4 ← hexCharToInt s3
  return x1 <<< 12 ||| x2 <<< 8 ||| x3 <<< 4 ||| x4

def parseUtf16Hex : List UInt8 → Option (ℕ × List UInt8)
  | s0 :: s1 :: s2 :: s3 :: text => (hexValue s0 s1 s2 s3).map fun cp => (cp, text)
  | _ => none

/-- `(cp >> shift) & 0x3F | 0x80` -/
def continuation (cp shift : ℕ) : UInt8 := UInt8.ofNat (cp >>> shift &&& 0x3f ||| 0x80)

def parseUtf16 (unprocessed : List UInt8) : Option (List UInt8 × List UInt8) := do
  let (cp, text) ← parseUtf16Hex unprocessed
  if cp < 0x80 then return ([UInt8.ofNat cp], text)
  else if cp < 0x800 then
    return ([UInt8.ofNat (cp >>> 6 &&& 0x1f ||| 0xc0), continuation cp 0], text)
  else if cp < 0xd800 ∨ 0xdfff < cp then
    return ([UInt8.ofNat (cp >>> 12 &&& 0x0f ||| 0xe0), continuation cp 6, continuation cp 0], text)
  else if cp ≤ 0xdbff then
    match text with
    | b :: u :: text =>
      if b ≠ byte '\\' ∨ u ≠ byte 'u' then none
      else
        let (trail, text) ← parseUtf16Hex text
        if trail < 0xdc00 ∨ 0xdfff < trail then none
        else
          let cp := ((cp - 0xd800 &&& 0x3ff) <<< 10 ||| (trail - 0xdc00 &&& 0x3ff)) + 0x10000
          return ([UInt8.ofNat (cp >>> 18 &&& 0x07 ||| 0xf0), continuation cp 12,
            continuation cp 6, continuation cp 0], text)
    | _ => none
  else none

def unescapeLetters : List (UInt8 × UInt8) :=
  [(byte '"', byte '"'), (byte '\\', byte '\\'), (byte '/', byte '/'), (byte 'b', 0x08),
    (byte 'f', 0x0c), (byte 'n', 0x0a), (byte 'r', 0x0d), (byte 't', 0x09)]

def processChar : List UInt8 → Option (List UInt8 × List UInt8)
  | [] => none
  | c :: input =>
    if c = byte '\\' then
      match input with
      | [] => none
      | letter :: input =>
        if letter = byte 'u' then parseUtf16 input
        else (unescapeLetters.lookup letter).map fun c => ([c], input)
    else if c < 0x20 then none
    else some ([c], input)

/-- The loop, for as many rounds as there are characters: `len` of the input are left. -/
def processChars : ℕ → List UInt8 → ℕ → Option (List UInt8)
  | 0, _, _ => some []
  | rounds + 1, input, len =>
    if input = [] ∨ len = 0 then some []
    else do
      let (processed, rest) ← processChar input
      let output ← processChars rounds rest (len - (input.length - rest.length))
      return processed ++ output

def processString (input : List UInt8) (len : ℕ) : Option CText :=
  (processChars len input len).map cString

def getQuotedString (text : List UInt8) : Option (CText × List UInt8) := do
  let rest ← skipQuotes text
  let string ← processString (text.drop 1) (text.length - rest.length - 2)
  return (string, rest)

def isDecimal (string : List UInt8) (length : ℕ) : Bool :=
  if 1 < length ∧ string[0]? = some (byte '0') ∧ string[1]? ≠ some (byte '.') then false
  else if 2 < length ∧ string.take 2 = bytes ['-', '0'] ∧ string[2]? ≠ some (byte '.') then false
  else !(string.take length).any fun c => c = byte 'x' || c = byte 'X'

section
variable {ν : Type} (numbers : Numbers ν)

abbrev Parsed (ν : Type) := Except Stop (Value ν × List UInt8)

def parseToken (token : List Char) (value : Value ν) (text : List UInt8) : Parsed ν :=
  if text.take token.length = bytes token then .ok (value, text.drop token.length)
  else .error .rejected

def parseNullValue (text : List UInt8) : Parsed ν := parseToken ['n', 'u', 'l', 'l'] .null text

def parseBooleanValue (text : List UInt8) : Parsed ν :=
  if text.take 4 = bytes ['t', 'r', 'u', 'e'] then
    parseToken ['t', 'r', 'u', 'e'] (.boolean true) text
  else parseToken ['f', 'a', 'l', 's', 'e'] (.boolean false) text

def parseStringValue (text : List UInt8) : Parsed ν :=
  match getQuotedString text with
  | none => .error .rejected
  | some (string, text) => .ok (.string string, text)

def parseNumberValue (text : List UInt8) : Parsed ν :=
  let read := numbers.strtod text
  if read.errno ∨ !isDecimal text read.length ∨ !numbers.isFinite read.number then
    .error .rejected
  else .ok (.number read.number, text.drop read.length)

def parseItem (parseValue : List UInt8 → Parsed ν) (items : List (Value ν)) (text : List UInt8) :
    Except Stop (List (Value ν) × List UInt8) :=
  (parseValue text).map fun (item, text) => (items ++ [item], text)

/-- One round of the loop of `parse_object_value`; `json_object_add` refuses a name that is there
already. -/
def parseMember (parseValue : List UInt8 → Parsed ν) (members : List (CText × Value ν))
    (text : List UInt8) : Except Stop (List (CText × Value ν) × List UInt8) :=
  match getQuotedString text with
  | none => .error .rejected
  | some (name, text) =>
    match skip isspace text with
    | [] => .error .rejected
    | c :: text =>
      if c ≠ byte ':' then .error .rejected
      else
        match parseValue text with
        | .error stop => .error stop
        | .ok (value, text) =>
          if name ∈ members.map (·.1) then .error .rejected
          else .ok (members ++ [(name, value)], text)

/-- What the two loops have in common, from behind the opening character on. -/
def parseItems {σ : Type} (closing : UInt8)
    (item : σ → List UInt8 → Except Stop (σ × List UInt8)) (empty : σ) (text : List UInt8) :
    Except Stop (σ × List UInt8) :=
  match skip isspace text with
  | [] => .error .rejected
  | c :: text =>
    if c = closing then .ok (empty, text)
    else readItems isspace (byte ',') closing item (text.length + 2) empty (c :: text)

def parseArrayValue (parseValue : List UInt8 → Parsed ν) (text : List UInt8) : Parsed ν :=
  (parseItems (byte ']') (parseItem parseValue) [] text).map fun (items, text) =>
    (.array items, text)

def parseObjectValue (parseValue : List UInt8 → Parsed ν) (text : List UInt8) : Parsed ν :=
  (parseItems (byte '}') (parseMember parseValue) [] text).map fun (members, text) =>
    (.object members, text)

/-- `levels` is `MAX_NESTING + 1` less the nesting. -/
def parseValue : ℕ → List UInt8 → Parsed ν
  | 0, _ => .error .rejected
  | levels + 1, text =>
    match skip isspace text with
    | [] => .error .rejected
    | c :: text =>
      if c = byte '{' then parseObjectValue (parseValue levels) text
      else if c = byte '[' then parseArrayValue (parseValue levels) text
      else if c = byte '"' then parseStringValue (c :: text)
      else if c = byte 'f' ∨ c = byte 't' then parseBooleanValue (c :: text)
      else if c = byte '-' ∨ isdigit c then parseNumberValue numbers (c :: text)
      else if c = byte 'n' then parseNullValue (c :: text)
      else .error .rejected

def skipByteOrderMark (text : List UInt8) : List UInt8 :=
  if text.take 3 = [0xef, 0xbb, 0xbf] then text.drop 3 else text

/-- What stands behind the value is not looked at. -/
def jsonParseString (string : CText) : Except Stop (Value ν) :=
  (parseValue numbers (MAX_NESTING + 1) (skipByteOrderMark string.bytes)).map (·.1)

end

end IotEdgeAgent.Json
