import IotEdgeAgent.Library.Strings

/-!
# JSON documents and the strings taken from them

A document as `json_parse_string` leaves it, the accessors that the agent reads it with, and the
string functions of C that a value read from it is handed to. A missing pointer is `none`, so an
accessor answers `none` for a member that is missing or of another type. The names that the agent
looks up have no dot in them.
-/

namespace IotEdgeAgent.Parson

inductive JsonValue
  | null
  | boolean (value : Bool)
  | number (value : Rat)
  | string (value : String)
  | array (values : List JsonValue)
  | object (members : List (String × JsonValue))

abbrev JsonObject := List (String × JsonValue)
abbrev JsonArray := List JsonValue

def jsonValueGetObject : Option JsonValue → Option JsonObject
  | some (.object members) => some members
  | _ => none

def jsonValueGetArray : Option JsonValue → Option JsonArray
  | some (.array values) => some values
  | _ => none

def jsonValueGetString : Option JsonValue → Option String
  | some (.string value) => some value
  | _ => none

def jsonValueGetNumber : Option JsonValue → Rat
  | some (.number value) => value
  | _ => 0

section Members
variable (object : Option JsonObject) (name : String)

def jsonObjectDotgetValue : Option JsonValue := object.bind (List.lookup name)

def jsonObjectDotgetString : Option String := jsonValueGetString (jsonObjectDotgetValue object name)

def jsonObjectDotgetNumber : Rat := jsonValueGetNumber (jsonObjectDotgetValue object name)

def jsonObjectDotgetObject : Option JsonObject :=
  jsonValueGetObject (jsonObjectDotgetValue object name)

def jsonObjectDotgetArray : Option JsonArray :=
  jsonValueGetArray (jsonObjectDotgetValue object name)

end Members

def elementObject (element : JsonValue) : Option JsonObject := jsonValueGetObject (some element)

def toInt (value : Rat) : ℤ := value.num.tdiv value.den

def toUint8 (value : Rat) : UInt8 := UInt8.ofInt (toInt value)

def bytesOf (s : String) : List UInt8 := s.toUTF8.data.toList

inductive NullString
  | strcmp
  | strlen
  | strncpy
  deriving DecidableEq, Repr

def strcmp : Option String → Option String → Except NullString Bool
  | some s, some t => .ok (s == t)
  | _, _ => .error .strcmp

def strlen : Option String → Except NullString ℕ
  | some s => .ok (bytesOf s).length
  | none => .error .strlen

def written (s : String) (count : ℕ) : List UInt8 :=
  (Strings.strncpy (bytesOf s ++ [0]) count).getD []

def strncpy (src : Option String) (count : ℕ) : Except NullString (List UInt8) :=
  match src with
  | some s => .ok (written s count)
  | none => .error .strncpy

def strncpyS (dstSizeInBytes : ℕ) (src : Option String) (maxCount : ℕ) : Bool × List UInt8 :=
  match src with
  | none => (false, [0])
  | some s =>
    let srcLength := min (bytesOf s).length maxCount
    if dstSizeInBytes < srcLength + 1 then (false, [0])
    else (true, (bytesOf s).take srcLength ++ [0])

def copyChecked (src : Option String) (count : ℕ) : Except NullString (Option (List UInt8)) :=
  match src with
  | none => .ok none
  | some s => (strncpy (some s) count).map some

def strncpyWhole (dstSizeInBytes : ℕ) (src : Option String) : Except NullString (List UInt8) :=
  (strlen src).map fun maxCount => (strncpyS dstSizeInBytes src maxCount).2

section Strings
variable {src : Option String} {count : ℕ}

theorem copyChecked_ok (src : Option String) (count : ℕ) :
    ∃ copied, copyChecked src count = .ok copied ∧ copied.isSome = src.isSome := by
  cases src with
  | none => exact ⟨none, rfl, rfl⟩
  | some s => exact ⟨_, rfl, rfl⟩

theorem strncpyS_whole (s : String) :
    (strncpyS count (some s) (bytesOf s).length).1 = decide (s.utf8ByteSize + 1 ≤ count) := by
  have hlength : (bytesOf s).length = s.utf8ByteSize := rfl
  simp only [strncpyS, Nat.min_self, hlength]
  by_cases hfit : count < s.utf8ByteSize + 1
  · rw [if_pos hfit, decide_eq_false (Nat.not_le.mpr hfit)]
  · rw [if_neg hfit, decide_eq_true (Nat.not_lt.mp hfit)]

end Strings

end IotEdgeAgent.Parson
