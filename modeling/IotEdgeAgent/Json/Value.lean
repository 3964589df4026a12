import IotEdgeAgent.Library.Separated
import IotEdgeAgent.Library.Strings

/-!
# JSON documents and their text

The values of parson and what `json_serialize_to_buffer_r` writes for them. `sprintf` and `strtod`
are parameters, with the numbers that they are about.
-/

namespace IotEdgeAgent.Json

open Strings Separated

def byte (c : Char) : UInt8 := UInt8.ofNat c.toNat

def bytes (text : List Char) : List UInt8 := text.map byte

inductive Value (ν : Type)
  | null
  | boolean (value : Bool)
  | number (value : ν)
  | string (value : CText)
  | array (items : List (Value ν))
  | object (members : List (CText × Value ν))

/-- What `strtod` leaves behind: the number, the characters it took and whether it set `errno`. -/
structure Strtod (ν : Type) where
  number : ν
  length : ℕ
  errno : Bool
  deriving DecidableEq

/-- The numbers as the C library knows them; `print` is `sprintf` with `FLOAT_FORMAT`. -/
structure Numbers (ν : Type) where
  print : ν → CText
  strtod : List UInt8 → Strtod ν
  isFinite : ν → Bool

def escapeLetters : List (UInt8 × UInt8) :=
  [(byte '"', byte '"'), (byte '\\', byte '\\'), (byte '/', byte '/'), (0x08, byte 'b'),
    (0x0c, byte 'f'), (0x0a, byte 'n'), (0x0d, byte 'r'), (0x09, byte 't')]

def hexDigit (digit : UInt8) : UInt8 :=
  if digit < 10 then byte '0' + digit else byte 'a' + (digit - 10)

def escape (c : UInt8) : List UInt8 :=
  match escapeLetters.lookup c with
  | some letter => [byte '\\', letter]
  | none =>
    if c < 0x20 then bytes ['\\', 'u', '0', '0'] ++ [hexDigit (c / 16), hexDigit (c % 16)]
    else [c]

def jsonSerializeString (string : CText) : List UInt8 :=
  byte '"' :: string.bytes.flatMap escape ++ [byte '"']

def appendIndent (level : ℕ) : List UInt8 :=
  (List.replicate level (bytes [' ', ' ', ' ', ' '])).flatten

def indentIf (isPretty : Bool) (level : ℕ) : List UInt8 :=
  if isPretty then appendIndent level else []

def newlineIf (isPretty : Bool) : List UInt8 := if isPretty then [byte '\n'] else []

def blankIf (isPretty : Bool) : List UInt8 := if isPretty then [byte ' '] else []

/-- The loop over the items of an array or an object, which are at the next level. -/
def serializeItems (isPretty : Bool) (level : ℕ) (texts : List (List UInt8)) : List UInt8 :=
  if texts = [] then []
  else newlineIf isPretty ++
    entries (byte ',') (indentIf isPretty (level + 1)) (newlineIf isPretty) texts ++
    indentIf isPretty level

def serializeMember (isPretty : Bool) (texts : List (CText × List UInt8)) (key : CText) :
    List UInt8 :=
  jsonSerializeString key ++ byte ':' :: blankIf isPretty ++ (texts.lookup key).getD []

section
variable {ν : Type} (numbers : Numbers ν) (isPretty : Bool)

mutual

def serialize (level : ℕ) : Value ν → List UInt8
  | .null => bytes ['n', 'u', 'l', 'l']
  | .boolean value => if value then bytes ['t', 'r', 'u', 'e'] else bytes ['f', 'a', 'l', 's', 'e']
  | .number value => (numbers.print value).bytes
  | .string value => jsonSerializeString value
  | .array items =>
    byte '[' :: serializeItems isPretty level (itemTexts (level + 1) items) ++ [byte ']']
  | .object members =>
    let texts := memberTexts (level + 1) members
    byte '{' :: serializeItems isPretty level
      (texts.map fun text => serializeMember isPretty texts text.1) ++ [byte '}']

def itemTexts (level : ℕ) : List (Value ν) → List (List UInt8)
  | [] => []
  | item :: items => serialize level item :: itemTexts level items

def memberTexts (level : ℕ) : List (CText × Value ν) → List (CText × List UInt8)
  | [] => []
  | (name, value) :: members => (name, serialize level value) :: memberTexts level members

end

end

end IotEdgeAgent.Json
