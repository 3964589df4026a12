import IotEdgeAgent.Json.Utf8

/-!
# Published documents

The documents that the protocols build for their responses, and what a receiver reads from the
text that is sent. Setting a member fails without a trace when its string is not UTF-8.
-/

namespace IotEdgeAgent.Json

open Strings

variable {ν : Type} {numbers : Numbers ν} {name : CText} {value : Value ν}
  {members : List (CText × Value ν)}

def jsonValueInitString (string : CText) : Option (Value ν) :=
  if isValidUtf8 string.bytes then some (.string string) else none

/-- The value is overwritten where the name is known, else added at the end. -/
def setMember (name : CText) (value : Value ν) :
    List (CText × Value ν) → List (CText × Value ν)
  | [] => [(name, value)]
  | member :: members =>
    if member.1 = name then (member.1, value) :: members
    else member :: setMember name value members

def jsonObjectSetValue (object : List (CText × Value ν)) (name : CText)
    (value : Option (Value ν)) : List (CText × Value ν) :=
  match value with
  | none => object
  | some value => setMember name value object

def jsonObjectSetString (object : List (CText × Value ν)) (name string : CText) :
    List (CText × Value ν) :=
  jsonObjectSetValue object name (jsonValueInitString string)

def key (name : List Char) : CText := cString (bytes name)

def timestampKey : CText := key ['t', 'i', 'm', 'e', 's', 't', 'a', 'm', 'p']
def tokenKey : CText := key ['t', 'o', 'k', 'e', 'n']
def dataRawKey : CText := key ['d', 'a', 't', 'a', '_', 'r', 'a', 'w']
def bodyKey : CText := key ['b', 'o', 'd', 'y']
def nameKey : CText := key ['n', 'a', 'm', 'e']
def valKey : CText := key ['v', 'a', 'l']

def tokenText : CText := key ['0', '7', '7', 'd', 'e', '8', '7', 'b', '3', 'a', '0', '4']

def singleText : CText := key ['s', 'i', 'n', 'g', 'l', 'e']

def bodyItem (item : CText × CText) : Value ν :=
  .object (jsonObjectSetString (jsonObjectSetString [] nameKey item.1) valKey item.2)

def setBody (root : List (CText × Value ν)) (body : List (CText × CText)) :
    List (CText × Value ν) :=
  jsonObjectSetValue root bodyKey (some (.array (body.map bodyItem)))

def modbusPayload (timestamp : CText) (body : List (CText × CText)) : Value ν :=
  .object (jsonObjectSetString (jsonObjectSetString (setBody [] body) tokenKey tokenText)
    timestampKey timestamp)

def dlt698Payload (realtime : Bool) (timestamp : CText) (body : List (CText × CText)) : Value ν :=
  let root := jsonObjectSetString (jsonObjectSetString [] timestampKey timestamp) tokenKey tokenText
  let root :=
    if realtime then jsonObjectSetString root dataRawKey singleText else root
  .object (setBody root body)

def jsonObjectGetValue (object : Value ν) (name : CText) : Option (Value ν) :=
  match object with
  | .object members => members.lookup name
  | _ => none

def jsonObjectGetString (object : Value ν) (name : CText) : Option CText :=
  match jsonObjectGetValue object name with
  | some (.string string) => some string
  | _ => none

def jsonObjectGetArray (object : Value ν) (name : CText) : List (Value ν) :=
  match jsonObjectGetValue object name with
  | some (.array items) => items
  | _ => []

structure Report where
  timestamp : Option CText
  token : Option CText
  dataRaw : Option CText
  body : List (Option CText × Option CText)
  deriving DecidableEq

def readReport (document : Value ν) : Report where
  timestamp := jsonObjectGetString document timestampKey
  token := jsonObjectGetString document tokenKey
  dataRaw := jsonObjectGetString document dataRawKey
  body := (jsonObjectGetArray document bodyKey).map fun item =>
    (jsonObjectGetString item nameKey, jsonObjectGetString item valKey)

theorem lookup_setMember_self : (setMember name value members).lookup name = some value := by
  induction members with
  | nil => exact List.lookup_cons_self
  | cons member members ih =>
    rw [setMember]
    split_ifs with h
    · rw [h]
      exact List.lookup_cons_self
    · have hne : (name == member.1) = false := beq_eq_false_iff_ne.mpr (Ne.symm h)
      rw [List.lookup_cons, hne]
      exact ih

theorem lookup_setMember_ne {other : CText} (h : other ≠ name) :
    (setMember name value members).lookup other = members.lookup other := by
  induction members with
  | nil =>
    rw [setMember, List.lookup_cons, beq_eq_false_iff_ne.mpr h]
  | cons member members ih =>
    rw [setMember]
    split_ifs with heq
    · have hne : (other == member.1) = false := beq_eq_false_iff_ne.mpr (heq ▸ h)
      rw [List.lookup_cons, List.lookup_cons, hne]
    · rw [List.lookup_cons, List.lookup_cons, ih]

theorem mem_setMember {member : CText × Value ν} (h : member ∈ setMember name value members) :
    member ∈ members ∨ member.2 = value := by
  induction members with
  | nil => exact .inr (by rw [List.mem_singleton.mp h])
  | cons first members ih =>
    rw [setMember] at h
    split_ifs at h
    · obtain rfl | h := List.mem_cons.mp h
      · exact .inr rfl
      · exact .inl (List.mem_cons_of_mem _ h)
    · obtain rfl | h := List.mem_cons.mp h
      · exact .inl List.mem_cons_self
      · exact (ih h).imp_left (List.mem_cons_of_mem _)

theorem names_setMember :
    (setMember name value members).map (·.1) = members.map (·.1) ∨
      name ∉ members.map (·.1) ∧
        (setMember name value members).map (·.1) = members.map (·.1) ++ [name] := by
  induction members with
  | nil => exact .inr ⟨List.not_mem_nil, rfl⟩
  | cons member members ih =>
    rw [setMember]
    split_ifs with heq
    · exact .inl rfl
    · rw [List.map_cons, List.map_cons, List.mem_cons, not_or]
      obtain ih | ⟨hnew, ih⟩ := ih
      · exact .inl (by rw [ih])
      · exact .inr ⟨⟨Ne.symm heq, hnew⟩, by rw [ih, List.cons_append]⟩

theorem nodup_setMember (h : (members.map (·.1)).Nodup) :
    ((setMember name value members).map (·.1)).Nodup := by
  obtain hnames | ⟨hnew, hnames⟩ := @names_setMember _ name value members
  · rwa [hnames]
  · rw [hnames, List.nodup_append]
    refine ⟨h, List.nodup_cons.mpr ⟨List.not_mem_nil, List.nodup_nil⟩, ?_⟩
    rintro known hknown other hother rfl
    exact hnew (List.mem_singleton.mp hother ▸ hknown)

def readable (string : CText) : Option CText :=
  if isValidUtf8 string.bytes then some string else none

theorem jsonValueInitString_eq (string : CText) :
    jsonValueInitString string = (readable string).map (@Value.string ν) := by
  rw [jsonValueInitString, readable]
  split_ifs <;> rfl

theorem getString_setString_self (string : CText) (h : members.lookup name = none) :
    jsonObjectGetString (.object (jsonObjectSetString members name string)) name =
      readable string := by
  rw [jsonObjectSetString, jsonValueInitString_eq]
  cases readable string with
  | none => rw [jsonObjectGetString, jsonObjectGetValue, Option.map_none, jsonObjectSetValue, h]
  | some string =>
    rw [jsonObjectGetString, jsonObjectGetValue, Option.map_some, jsonObjectSetValue,
      lookup_setMember_self]

theorem lookup_setString_ne {other string : CText} (h : other ≠ name) :
    (jsonObjectSetString members name string).lookup other = members.lookup other := by
  rw [jsonObjectSetString]
  cases jsonValueInitString string with
  | none => rfl
  | some value => exact lookup_setMember_ne h

section Sendable
variable {levels : ℕ}

structure Sendable (numbers : Numbers ν) (levels : ℕ) (value : Value ν) : Prop where
  names : value.Everywhere Value.DistinctNames
  restored : value.Everywhere (Value.Restored numbers)
  height : value.height < levels

structure SendableMembers (numbers : Numbers ν) (levels : ℕ) (members : List (CText × Value ν)) :
    Prop where
  names : (members.map (·.1)).Nodup
  values : ∀ member ∈ members, Sendable numbers levels member.2

theorem sendable_string (string : CText) : Sendable numbers (levels + 1) (.string string) :=
  ⟨trivial, trivial, Nat.succ_pos levels⟩

theorem sendable_array {items : List (Value ν)} (h : ∀ item ∈ items, Sendable numbers levels item) :
    Sendable numbers (levels + 1) (.array items) where
  names := Value.everywhere_array.mpr ⟨trivial, fun item hitem => (h item hitem).names⟩
  restored := Value.everywhere_array.mpr ⟨trivial, fun item hitem => (h item hitem).restored⟩
  height := Value.heightItems_lt.mpr fun item hitem => (h item hitem).height

theorem sendable_object (h : SendableMembers numbers levels members) :
    Sendable numbers (levels + 1) (.object members) where
  names := Value.everywhere_object.mpr
    ⟨h.names, fun member hmember => (h.values member hmember).names⟩
  restored := Value.everywhere_object.mpr
    ⟨trivial, fun member hmember => (h.values member hmember).restored⟩
  height := Value.heightMembers_lt.mpr fun member hmember => (h.values member hmember).height

theorem sendableMembers_nil : SendableMembers numbers levels [] :=
  ⟨List.nodup_nil, List.forall_mem_nil _⟩

theorem SendableMembers.setMember (h : SendableMembers numbers levels members) (name : CText)
    (hvalue : Sendable numbers levels value) :
    SendableMembers numbers levels (setMember name value members) where
  names := nodup_setMember h.names
  values member hmember := (mem_setMember hmember).elim (h.values member) (· ▸ hvalue)

theorem SendableMembers.setString (h : SendableMembers numbers (levels + 1) members)
    (name string : CText) :
    SendableMembers numbers (levels + 1) (jsonObjectSetString members name string) := by
  rw [jsonObjectSetString, jsonValueInitString_eq]
  cases readable string with
  | none => exact h
  | some string => exact h.setMember name (sendable_string string)

theorem sendable_bodyItem (item : CText × CText) :
    Sendable numbers (levels + 2) (bodyItem item) :=
  sendable_object ((sendableMembers_nil.setString _ _).setString _ _)

theorem SendableMembers.setBody (h : SendableMembers numbers (levels + 3) members)
    (body : List (CText × CText)) :
    SendableMembers numbers (levels + 3) (setBody members body) := by
  refine h.setMember _ (sendable_array fun item hitem => ?_)
  obtain ⟨pair, -, rfl⟩ := List.mem_map.mp hitem
  exact sendable_bodyItem pair

theorem sendable_modbusPayload (timestamp : CText) (body : List (CText × CText)) :
    Sendable numbers (levels + 4) (modbusPayload timestamp body) :=
  sendable_object (((sendableMembers_nil.setBody body).setString _ _).setString _ _)

theorem sendable_dlt698Payload (realtime : Bool) (timestamp : CText)
    (body : List (CText × CText)) :
    Sendable numbers (levels + 4) (dlt698Payload realtime timestamp body) := by
  refine sendable_object (SendableMembers.setBody ?_ body)
  have hroot := ((@sendableMembers_nil _ numbers (levels + 3)).setString
    timestampKey timestamp).setString tokenKey tokenText
  cases realtime with
  | false => exact hroot
  | true => exact hroot.setString _ _

theorem Sendable.read_back {value : Value ν} (h : Sendable numbers (MAX_NESTING + 1) value) :
    jsonParseString numbers (jsonSerializeToString numbers false value) = .ok value :=
  (document_read_back value h.names h.restored).trans (if_pos (Nat.le_of_lt_succ h.height))

end Sendable

theorem getString_congr {members' : List (CText × Value ν)}
    (h : members.lookup name = members'.lookup name) :
    jsonObjectGetString (.object members) name = jsonObjectGetString (.object members') name := by
  rw [jsonObjectGetString, jsonObjectGetString, jsonObjectGetValue, jsonObjectGetValue, h]

theorem getString_setString_ne {other string : CText} (h : other ≠ name) :
    jsonObjectGetString (.object (jsonObjectSetString members name string)) other =
      jsonObjectGetString (.object members) other :=
  getString_congr (lookup_setString_ne h)

theorem readItem_bodyItem (item : CText × CText) :
    (jsonObjectGetString (@bodyItem ν item) nameKey,
        jsonObjectGetString (@bodyItem ν item) valKey) =
      (readable item.1, readable item.2) := by
  have hne : nameKey ≠ valKey := by decide
  rw [bodyItem, getString_setString_ne hne, getString_setString_self _ rfl,
    getString_setString_self]
  exact lookup_setString_ne hne.symm

theorem lookup_setBody (body : List (CText × CText)) :
    (setBody members body).lookup bodyKey =
      some (.array (body.map bodyItem)) := lookup_setMember_self

theorem lookup_setBody_ne {other : CText} (h : other ≠ bodyKey) (body : List (CText × CText)) :
    (setBody members body).lookup other = members.lookup other := lookup_setMember_ne h

theorem readBody (body : List (CText × CText)) :
    (body.map (@bodyItem ν)).map (fun item =>
        (jsonObjectGetString item nameKey, jsonObjectGetString item valKey)) =
      body.map fun item => (readable item.1, readable item.2) := by
  rw [List.map_map]
  exact List.map_congr_left fun item _ => readItem_bodyItem item

theorem readable_token : readable tokenText = some tokenText := by decide

theorem readReport_modbusPayload (timestamp : CText) (body : List (CText × CText)) :
    readReport (@modbusPayload ν timestamp body) =
      { timestamp := readable timestamp
        token := some tokenText
        dataRaw := none
        body := body.map fun item => (readable item.1, readable item.2) } := by
  have htoken : tokenKey ≠ timestampKey := by decide
  have hdataRaw : dataRawKey ≠ timestampKey ∧ dataRawKey ≠ tokenKey := by decide
  have hbody : bodyKey ≠ timestampKey ∧ bodyKey ≠ tokenKey := by decide
  have htimestamp : timestampKey ≠ bodyKey := by decide
  rw [readReport, modbusPayload, getString_setString_self, getString_setString_ne htoken,
    getString_setString_self, getString_setString_ne hdataRaw.1,
    getString_setString_ne hdataRaw.2, readable_token]
  · congr 1
    rw [jsonObjectGetArray, jsonObjectGetValue, lookup_setString_ne hbody.1,
      lookup_setString_ne hbody.2, lookup_setBody]
    exact readBody body
  · exact lookup_setBody_ne (by decide) body
  · rw [lookup_setString_ne htoken.symm]
    exact lookup_setBody_ne htimestamp body

theorem readReport_dlt698Payload (realtime : Bool) (timestamp : CText)
    (body : List (CText × CText)) :
    readReport (@dlt698Payload ν realtime timestamp body) =
      { timestamp := readable timestamp
        token := some tokenText
        dataRaw := if realtime then some singleText else none
        body := body.map fun item => (readable item.1, readable item.2) } := by
  have htimestamp : timestampKey ≠ bodyKey ∧ timestampKey ≠ dataRawKey ∧
      timestampKey ≠ tokenKey := by decide
  have htoken : tokenKey ≠ bodyKey ∧ tokenKey ≠ dataRawKey ∧ tokenKey ≠ timestampKey := by decide
  have hdataRaw : dataRawKey ≠ bodyKey ∧ dataRawKey ≠ tokenKey ∧ dataRawKey ≠ timestampKey := by
    decide
  have hsingle : readable singleText = some singleText := by decide
  rw [readReport, dlt698Payload]
  congr 1
  · refine (getString_congr (lookup_setBody_ne htimestamp.1 body)).trans ?_
    cases realtime with
    | false => exact (getString_setString_ne htimestamp.2.2).trans (getString_setString_self _ rfl)
    | true =>
      refine (getString_setString_ne htimestamp.2.1).trans ?_
      exact (getString_setString_ne htimestamp.2.2).trans (getString_setString_self _ rfl)
  · refine (getString_congr (lookup_setBody_ne htoken.1 body)).trans ?_
    have hself : jsonObjectGetString (.object (jsonObjectSetString
        (jsonObjectSetString (@List.nil (CText × Value ν)) timestampKey timestamp) tokenKey
        tokenText)) tokenKey = some tokenText :=
      (getString_setString_self _ (lookup_setString_ne htoken.2.2)).trans readable_token
    cases realtime with
    | false => exact hself
    | true => exact (getString_setString_ne htoken.2.1).trans hself
  · refine (getString_congr (lookup_setBody_ne hdataRaw.1 body)).trans ?_
    have hnone : (jsonObjectSetString
        (jsonObjectSetString (@List.nil (CText × Value ν)) timestampKey timestamp) tokenKey
        tokenText).lookup dataRawKey = none :=
      (lookup_setString_ne hdataRaw.2.1).trans (lookup_setString_ne hdataRaw.2.2)
    cases realtime with
    | false => exact @getString_congr _ dataRawKey _ [] hnone
    | true => exact (getString_setString_self _ hnone).trans hsingle
  · rw [jsonObjectGetArray, jsonObjectGetValue, lookup_setBody]
    exact readBody body

/-- Both protocols publish texts from which a receiver reads the timestamp, the token and, in
order, the name and the value of each item, as far as they are UTF-8. -/
theorem published_read_back (numbers : Numbers ν) (realtime : Bool) (timestamp : CText)
    (body : List (CText × CText)) :
    (jsonParseString numbers
        (jsonSerializeToString numbers false (modbusPayload timestamp body))).map readReport =
      .ok { timestamp := readable timestamp
            token := some tokenText
            dataRaw := none
            body := body.map fun item => (readable item.1, readable item.2) } ∧
    (jsonParseString numbers
        (jsonSerializeToString numbers false (dlt698Payload realtime timestamp body))).map
          readReport =
      .ok { timestamp := readable timestamp
            token := some tokenText
            dataRaw := if realtime then some singleText else none
            body := body.map fun item => (readable item.1, readable item.2) } := by
  have hmodbus := (@sendable_modbusPayload _ numbers (MAX_NESTING - 3) timestamp body).read_back
  have hdlt698 := (@sendable_dlt698Payload _ numbers (MAX_NESTING - 3) realtime timestamp
    body).read_back
  rw [hmodbus, hdlt698, Except.map, Except.map, readReport_modbusPayload,
    readReport_dlt698Payload]
  exact ⟨rfl, rfl⟩

end IotEdgeAgent.Json
