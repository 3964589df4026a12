import IotEdgeAgent.Agent.ModelParsers
import Mathlib.Tactic.SplitIfs
import Mathlib.Tactic.Tauto

/-!
# Strings that are missing from a configuration

Most parsers test a string before they use it. `channel_info_list_create` does not test the
parity, `parse_modbus_model_by_json` tests none of its strings, and the device list is compared
without a test. For each parser, when it hands on a null pointer and when it accepts.
-/

namespace IotEdgeAgent.Configuration

open Collect Parson

def HasStrings (object : Option JsonObject) (names : List String) : Prop :=
  ∀ name ∈ names, (jsonObjectDotgetString object name).isSome

def PassesNull {α : Type*} (r : Except NullString α) : Prop := ∃ e, r = .error e

/-- No null pointer is passed for a string, and null is returned when a string is missing. -/
def Rejects {α : Type*} (missing : Prop) (r : Except NullString (Option α)) : Prop :=
  ¬ PassesNull r ∧ (missing → r = .ok none)

structure Parses {α : Type*} (fails accepts : Prop) (r : Except NullString (Option α)) : Prop where
  fails_iff : PassesNull r ↔ fails
  accepts_iff : (∃ a, r = .ok (some a)) ↔ accepts

section Parsers
variable {α β : Type*} {missing fails accepts : Prop} {r : Except NullString (Option α)}

theorem Parses.rejects_iff (h : Parses fails accepts r) (hmissing : missing → ¬ accepts) :
    Rejects missing r ↔ ¬ fails := by
  rw [← h.fails_iff]
  constructor
  · exact And.left
  · intro hsound
    refine ⟨hsound, fun hm => ?_⟩
    cases hr : r with
    | error e => exact absurd ⟨e, hr⟩ hsound
    | ok answer =>
      cases answer with
      | none => rfl
      | some a => exact absurd (h.accepts_iff.mp ⟨a, hr⟩) (hmissing hm)

theorem passesNull_map (r : Except NullString α) (f : α → β) :
    PassesNull (r.map f) ↔ PassesNull r := by
  cases r <;> simp [PassesNull, Except.map]

theorem passesNull_collect_iff {γ : Type*} {step : ℕ → γ → Except NullString (Verdict α)}
    {passes : ℕ → γ → Prop} {as : List γ}
    (hpasses : ∀ i a, passes i a ↔ ∃ verdict, step i a = .ok verdict ∧ verdict ≠ .refuse) :
    PassesNull (collect step as) ↔ ∃ j a, Reached passes as j a ∧ PassesNull (step j a) :=
  collect_fails_iff hpasses

theorem any_const (o : Option α) (p : Bool) : (o.any fun _ => p) = (o.isSome && p) := by
  cases o <;> simp

end Parsers

def portNames : List String :=
  ["baudRate", "stopBit", "dataBit", "port", "ip", "serialID", "portType"]

def channelNames : List String := ["timeOut", "dev", "protoType", "modeltype"]

def KnownParity (port : Option JsonObject) : Prop :=
  ∃ parity ∈ ["NONE", "EVEN", "ODD"], jsonObjectDotgetString port "parity" = some parity

def PortComplete (port : Option JsonObject) : Prop := HasStrings port portNames ∧ KnownParity port

def ChannelComplete (array : Option JsonObject) : Prop :=
  HasStrings array channelNames ∧
    ∃ port, jsonObjectDotgetObject array "port" = some port ∧ PortComplete (some port)

def ParityMissing (array : Option JsonObject) : Prop :=
  ∃ port, jsonObjectDotgetObject array "port" = some port ∧
    jsonObjectDotgetString (some port) "parity" = none

theorem parseParity_spec (port : Option JsonObject) :
    Parses (jsonObjectDotgetString port "parity" = none) (KnownParity port) (parseParity port) := by
  cases hparity : jsonObjectDotgetString port "parity" with
  | none =>
    constructor <;> simp [PassesNull, KnownParity, parseParity, hparity, strcmp, bind, Except.bind]
  | some parity =>
    have heq : parseParity port = .ok
        (if "NONE" = parity then some 'N'
          else if "EVEN" = parity then some 'E'
          else if "ODD" = parity then some 'O' else none) := by
      simp only [parseParity, hparity, strcmp, bind, Except.bind, beq_iff_eq, pure, Except.pure]
      split_ifs <;> rfl
    rw [heq]
    constructor
    · simp [PassesNull]
    · have hknown : KnownParity port ↔ parity = "NONE" ∨ parity = "EVEN" ∨ parity = "ODD" := by
        simp [KnownParity, hparity]
      rw [hknown]
      split_ifs with hnone heven hodd
      · simp [← hnone]
      · simp [← heven]
      · simp [← hodd]
      · simp [Ne.symm hnone, Ne.symm heven, Ne.symm hodd]

theorem parsePort_spec (port : Option JsonObject) :
    Parses (jsonObjectDotgetString port "parity" = none) (PortComplete port) (parsePort port) := by
  obtain ⟨host, hhost, hhost'⟩ :=
    copyChecked_ok (jsonObjectDotgetString port "ip") MAX_SIZE_OF_HOST
  obtain ⟨serialID, hserialID, hserialID'⟩ :=
    copyChecked_ok (jsonObjectDotgetString port "serialID") MAX_SIZE_OF_SERIAL_ID
  obtain ⟨portType, hportType, hportType'⟩ :=
    copyChecked_ok (jsonObjectDotgetString port "portType") MAX_SIZE_OF_PORT_TYPE
  obtain ⟨hfails, haccepts⟩ := parseParity_spec port
  rw [PortComplete, ← haccepts, ← hfails]
  simp only [HasStrings, portNames, List.forall_mem_cons, ← hhost', ← hserialID', ← hportType']
  simp only [parsePort, hhost, hserialID, hportType]
  cases parseParity port with
  | error e => constructor <;> simp [PassesNull, bind, Except.bind]
  | ok parity =>
    constructor
    · simp [PassesNull, bind, Except.bind, pure, Except.pure]
    · cases parity with
      | none => simp [bind, Except.bind, pure, Except.pure]
      | some parity =>
        simp only [bind, Except.bind, pure, Except.pure, Except.ok.injEq, Option.bind_some,
          ← Option.isSome_iff_exists, Option.isSome_bind, Option.isSome_some, any_const]
        simp
        tauto

theorem parseChannel_spec (array : Option JsonObject) :
    Parses (ParityMissing array) (ChannelComplete array) (parseChannel array) := by
  obtain ⟨device, hdevice, hdevice'⟩ :=
    copyChecked_ok (jsonObjectDotgetString array "dev") MAX_SIZE_OF_DEVICE_NAME
  obtain ⟨protoType, hprotoType, hprotoType'⟩ :=
    copyChecked_ok (jsonObjectDotgetString array "protoType") MAX_SIZE_OF_PROTO_TYPE
  obtain ⟨modelNmae, hmodelNmae, hmodelNmae'⟩ :=
    copyChecked_ok (jsonObjectDotgetString array "modeltype") MAX_SIZE_OF_MODEL_TYPE
  simp only [ParityMissing, ChannelComplete, HasStrings, channelNames, List.forall_mem_cons,
    ← hdevice', ← hprotoType', ← hmodelNmae']
  simp only [parseChannel, hdevice, hprotoType, hmodelNmae]
  cases jsonObjectDotgetObject array "port" with
  | none => constructor <;> simp [PassesNull, bind, Except.bind, pure, Except.pure]
  | some port =>
    obtain ⟨hfails, haccepts⟩ := parsePort_spec (some port)
    simp only [Option.some.injEq, exists_eq_left', ← hfails, ← haccepts]
    cases parsePort (some port) with
    | error e => constructor <;> simp [PassesNull, bind, Except.bind]
    | ok portOptions =>
      constructor
      · simp [PassesNull, bind, Except.bind, pure, Except.pure]
      · cases portOptions with
        | none => simp [bind, Except.bind, pure, Except.pure]
        | some portOptions =>
          simp only [bind, Except.bind, pure, Except.pure, Except.ok.injEq, Option.bind_some,
            ← Option.isSome_iff_exists, Option.isSome_bind, Option.isSome_some, any_const]
          simp

def bodyOf (message : Option JsonValue) : Option JsonArray :=
  jsonObjectDotgetArray (jsonValueGetObject message) "body"

section Channels
variable (outcome : ℕ → ChannelElementOutcome)

def ChannelPasses (i : ℕ) (element : JsonValue) : Prop :=
  (outcome i).allocated ∧ ChannelComplete (elementObject element) ∧ (outcome i).added

/-- The body is read up to an element whose port has no parity: all elements in front of it are
complete and were added to the list. -/
def ParityReached (channelJson : Option JsonValue) (listCreated : Bool) : Prop :=
  listCreated ∧ ∃ body, bodyOf channelJson = some body ∧ ∃ j element,
    Reached (ChannelPasses outcome) body j element ∧
      (outcome j).allocated ∧ ParityMissing (elementObject element)

theorem channelStep_fails_iff (i : ℕ) (element : JsonValue) :
    PassesNull (channelStep outcome i element) ↔
      (outcome i).allocated ∧ ParityMissing (elementObject element) := by
  rw [channelStep]
  cases (outcome i).allocated with
  | false => simp [PassesNull]
  | true => simpa [passesNull_map] using (parseChannel_spec (elementObject element)).fails_iff

theorem channelStep_passes_iff (i : ℕ) (element : JsonValue) :
    ChannelPasses outcome i element ↔
      ∃ verdict, channelStep outcome i element = .ok verdict ∧ verdict ≠ .refuse := by
  rw [ChannelPasses, channelStep, ← (parseChannel_spec (elementObject element)).accepts_iff]
  cases (outcome i).allocated with
  | false => simp
  | true =>
    cases parseChannel (elementObject element) with
    | error e => simp [Except.map]
    | ok channelInfo? =>
      cases channelInfo? with
      | none => simp [Except.map]
      | some channelInfo => cases (outcome i).added <;> simp [Except.map]

theorem channelInfoListCreate_spec (channelJson : Option JsonValue) (listCreated : Bool) :
    Parses (ParityReached outcome channelJson listCreated)
      (listCreated ∧ ∃ body, bodyOf channelJson = some body ∧
        ∀ j element, body[j]? = some element → ChannelPasses outcome j element)
      (channelInfoListCreate channelJson listCreated outcome) := by
  rw [ParityReached, channelInfoListCreate, ← bodyOf]
  cases hbody : bodyOf channelJson with
  | none => constructor <;> simp [PassesNull]
  | some body =>
    cases listCreated with
    | false => constructor <;> simp [PassesNull]
    | true =>
      constructor
      · simp [passesNull_collect_iff (channelStep_passes_iff outcome), channelStep_fails_iff]
      · simp [collect_accepts_iff (channelStep_passes_iff outcome)]

def ChannelStringMissing (channelJson : Option JsonValue) : Prop :=
  ∃ body, bodyOf channelJson = some body ∧ ∃ element ∈ body,
    ¬ (HasStrings (elementObject element) channelNames ∧
      HasStrings (jsonObjectDotgetObject (elementObject element) "port") ("parity" :: portNames))

theorem channelStringMissing_incomplete {channelJson : Option JsonValue} {listCreated : Bool}
    (hmissing : ChannelStringMissing channelJson) :
    ¬ (listCreated ∧ ∃ body, bodyOf channelJson = some body ∧
      ∀ j element, body[j]? = some element → ChannelPasses outcome j element) := by
  obtain ⟨body, hbody, element, hmem, hlacks⟩ := hmissing
  rintro ⟨-, body', hbody', hall⟩
  obtain rfl : body = body' := Option.some.inj (hbody.symm.trans hbody')
  obtain ⟨j, hj⟩ := List.mem_iff_getElem?.mp hmem
  obtain ⟨-, ⟨hstrings, port, hport, hcomplete, parity, -, hparity⟩, -⟩ := hall j element hj
  refine hlacks ⟨hstrings, ?_⟩
  rw [hport]
  intro name hname
  rcases List.mem_cons.mp hname with rfl | hname
  · simp [hparity]
  · exact hcomplete name hname

end Channels

def modelNames : List String := ["acqMode", "DBTopic"]

def registerNames : List String := ["m", "df", "math"]

def HasRegisters (jsonObject : Option JsonObject) : Prop :=
  ∃ register registers, jsonObjectDotgetArray jsonObject "regGrp" = some (register :: registers)

def ModbusStrings (jsonObject : Option JsonObject) : Prop :=
  HasStrings jsonObject modelNames ∧
    ∀ registers, jsonObjectDotgetArray jsonObject "regGrp" = some registers →
      ∀ register ∈ registers, HasStrings (elementObject register) registerNames

def acqFileNames : List String := ["m", "math", "oad", "addr"]

theorem parseRegister_passesNull_iff (regGrpObject : Option JsonObject) :
    PassesNull (parseRegister regGrpObject) ↔ ¬ HasStrings regGrpObject registerNames := by
  simp only [HasStrings, registerNames, List.forall_mem_cons, parseRegister]
  cases jsonObjectDotgetString regGrpObject "m" with
  | none => simp [PassesNull, strncpyWhole, strlen, Except.map, bind, Except.bind]
  | some m =>
    cases jsonObjectDotgetString regGrpObject "df" with
    | none => simp [PassesNull, strncpyWhole, strlen, Except.map, bind, Except.bind]
    | some df =>
      cases jsonObjectDotgetString regGrpObject "math" <;>
        simp [PassesNull, strncpyWhole, strlen, Except.map, bind, Except.bind, pure, Except.pure]

theorem passesNull_mapM_iff {α β : Type*} (f : α → Except NullString β) (l : List α) :
    PassesNull (l.mapM f) ↔ ∃ a ∈ l, PassesNull (f a) := by
  induction l with
  | nil => simp [PassesNull, pure, Except.pure]
  | cons a l ih =>
    simp only [List.mapM_cons, List.mem_cons, exists_eq_or_imp, ← ih]
    cases f a with
    | error e => simp [PassesNull, bind, Except.bind]
    | ok b => cases l.mapM f <;> simp [PassesNull, bind, Except.bind, pure, Except.pure]

theorem parseModbusModelByJson_spec (jsonObject : Option JsonObject) (allocated : Bool) :
    Parses (HasRegisters jsonObject ∧ allocated ∧ ¬ ModbusStrings jsonObject)
      (HasRegisters jsonObject ∧ allocated ∧ ModbusStrings jsonObject)
      (parseModbusModelByJson jsonObject allocated) := by
  rw [HasRegisters, ModbusStrings, parseModbusModelByJson]
  cases jsonObjectDotgetArray jsonObject "regGrp" with
  | none => constructor <;> simp [PassesNull]
  | some registers =>
    cases registers with
    | nil => constructor <;> simp [PassesNull]
    | cons register registers =>
      cases allocated with
      | false => constructor <;> simp [PassesNull]
      | true =>
        have hregisters := passesNull_mapM_iff
          (fun register => parseRegister (elementObject register)) (register :: registers)
        simp only [parseRegister_passesNull_iff] at hregisters
        have hall : (∀ r ∈ register :: registers, HasStrings (elementObject r) registerNames) ↔
            ¬ PassesNull ((register :: registers).mapM
              fun register => parseRegister (elementObject register)) := by
          rw [hregisters]
          simp only [not_exists, not_and, not_not]
        simp only [Option.some.injEq, forall_eq', hall]
        simp only [HasStrings, modelNames, List.forall_mem_cons, PassesNull]
        cases jsonObjectDotgetString jsonObject "acqMode" with
        | none => constructor <;> simp [PassesNull, strncpy, bind, Except.bind]
        | some acqMode =>
          cases jsonObjectDotgetString jsonObject "DBTopic" with
          | none => constructor <;> simp [PassesNull, strncpy, bind, Except.bind]
          | some dbTopic =>
            cases (register :: registers).mapM
              fun register => parseRegister (elementObject register) with
            | error e => constructor <;> simp [PassesNull, strncpy, bind, Except.bind]
            | ok mRegister =>
              constructor <;> simp [PassesNull, strncpy, bind, Except.bind, pure, Except.pure]

theorem parseAcqFile_spec (acqFile : Option JsonObject) :
    Parses False (HasStrings acqFile acqFileNames) (parseAcqFile acqFile) := by
  cases acqFile with
  | none =>
    constructor
    · simp [PassesNull, parseAcqFile]
    · constructor
      · rintro ⟨a, ha⟩
        simp [parseAcqFile] at ha
      · intro hstrings
        exact absurd (hstrings "m" (List.mem_cons_self ..)) Bool.false_ne_true
  | some members =>
    obtain ⟨m, hm, hm'⟩ := copyChecked_ok (jsonObjectDotgetString (some members) "m") MAX_SIZE_OF_M
    obtain ⟨math, hmath, hmath'⟩ :=
      copyChecked_ok (jsonObjectDotgetString (some members) "math") MAX_SIZE_OF_MATH
    simp only [HasStrings, acqFileNames, List.forall_mem_cons, ← hm', ← hmath', parseAcqFile, hm,
      hmath]
    constructor
    · simp [PassesNull, bind, Except.bind, pure, Except.pure]
    · simp only [bind, Except.bind, pure, Except.pure, Except.ok.injEq,
        ← Option.isSome_iff_exists, Option.isSome_bind, Option.isSome_some, any_const]
      simp
      tauto

theorem parseAcqInt_isSome (jsonObject : Option JsonObject) :
    (parseAcqInt jsonObject).isSome ↔ jsonObjectDotgetNumber jsonObject "acqInt" ≠ 0 := by
  rw [parseAcqInt]
  split_ifs with hzero
  · simp [hzero]
  · simp [hzero]

def Dlt698Complete (jsonObject : Option JsonObject) : Prop :=
  HasStrings jsonObject modelNames ∧
    HasStrings (jsonObjectDotgetObject jsonObject "AcqFile") acqFileNames ∧
    jsonObjectDotgetNumber jsonObject "acqInt" ≠ 0 ∧
    (jsonObjectDotgetObject jsonObject "startTime").isSome ∧
    (jsonObjectDotgetObject jsonObject "endTime").isSome

theorem parseDlt698Members_spec (jsonObject : Option JsonObject) :
    Parses False (Dlt698Complete jsonObject) (parseDlt698Members jsonObject) := by
  obtain ⟨acqMode, hmode, hmode'⟩ :=
    copyChecked_ok (jsonObjectDotgetString jsonObject "acqMode") MAX_SIZE_OF_MODE
  obtain ⟨dbTopic, htopic, htopic'⟩ :=
    copyChecked_ok (jsonObjectDotgetString jsonObject "DBTopic") MAX_SIZE_OF_DBTOPIC
  obtain ⟨hfails, haccepts⟩ := parseAcqFile_spec (jsonObjectDotgetObject jsonObject "AcqFile")
  rw [Dlt698Complete, ← haccepts, ← parseAcqInt_isSome]
  simp only [HasStrings, modelNames, List.forall_mem_cons, ← hmode', ← htopic']
  simp only [parseDlt698Members, hmode, htopic]
  cases hfile : parseAcqFile (jsonObjectDotgetObject jsonObject "AcqFile") with
  | error e => exact (hfails.mp ⟨e, hfile⟩).elim
  | ok acqFile =>
    constructor
    · simp [PassesNull, bind, Except.bind, pure, Except.pure]
    · simp only [bind, Except.bind, pure, Except.pure, Except.ok.injEq,
        ← Option.isSome_iff_exists, Option.isSome_bind, Option.isSome_some, any_const]
      simp
      tauto

theorem parseDlt698ModelByJson_spec (jsonObject : Option JsonObject) (allocated : Bool) :
    Parses False (jsonObject.isSome ∧ allocated ∧ Dlt698Complete jsonObject)
      (parseDlt698ModelByJson jsonObject allocated) := by
  rw [parseDlt698ModelByJson]
  cases hobject : jsonObject with
  | none => constructor <;> simp [PassesNull]
  | some members =>
    cases allocated with
    | false => constructor <;> simp [PassesNull]
    | true => simpa using parseDlt698Members_spec (some members)

section Init
variable (outcome : ℕ → ElementOutcome)

def ModbusPasses (i : ℕ) (element : JsonValue) : Prop :=
  ∀ modbusObject, elementObject element = some modbusObject →
    HasRegisters (some modbusObject) ∧ (outcome i).allocated ∧ ModbusStrings (some modbusObject) ∧
      (outcome i).dataCreated

def ModbusUnsound (i : ℕ) (element : JsonValue) : Prop :=
  ∃ modbusObject, elementObject element = some modbusObject ∧
    HasRegisters (some modbusObject) ∧ (outcome i).allocated ∧ ¬ ModbusStrings (some modbusObject)

theorem modbusStep_passesNull_iff (i : ℕ) (element : JsonValue) :
    PassesNull (modbusStep outcome i element) ↔ ModbusUnsound outcome i element := by
  rw [ModbusUnsound, modbusStep]
  cases elementObject element with
  | none => simp [PassesNull]
  | some modbusObject =>
    have hfails :=
      (parseModbusModelByJson_spec (some modbusObject) (outcome i).allocated).fails_iff
    simpa [passesNull_map] using hfails

theorem modbusStep_passes_iff (i : ℕ) (element : JsonValue) :
    ModbusPasses outcome i element ↔
      ∃ verdict, modbusStep outcome i element = .ok verdict ∧ verdict ≠ .refuse := by
  rw [ModbusPasses, modbusStep]
  cases elementObject element with
  | none => simp
  | some modbusObject =>
    have haccepts :=
      (parseModbusModelByJson_spec (some modbusObject) (outcome i).allocated).accepts_iff
    simp only [Option.some.injEq, forall_eq']
    rw [← and_assoc, ← and_assoc, and_assoc (a := HasRegisters _), ← haccepts]
    cases parseModbusModelByJson (some modbusObject) (outcome i).allocated with
    | error e => simp [Except.map]
    | ok modelInfo? =>
      cases modelInfo? with
      | none => simp [Except.map]
      | some modelInfo =>
        cases (outcome i).dataCreated with
        | false => simp [Except.map]
        | true => cases (outcome i).added <;> simp [Except.map]

end Init

/-- `modbus_init` gets to a model that is unsound: all models in front of it are accepted. -/
def ModbusReached (models : JsonArray) (outcome : InitOutcome) : Prop :=
  outcome.allocated ∧ outcome.masterInit ∧ outcome.listCreated ∧
    ∃ j element, Reached (ModbusPasses outcome.element) models j element ∧
      ModbusUnsound outcome.element j element

theorem modbusInit_passesNull_iff (models : JsonArray) (outcome : InitOutcome) :
    PassesNull (modbusInit (some models) outcome) ↔ ModbusReached models outcome := by
  rw [ModbusReached, modbusInit]
  cases outcome.allocated with
  | false => simp [PassesNull]
  | true =>
    cases outcome.masterInit with
    | false => simp [PassesNull]
    | true =>
      cases outcome.listCreated with
      | false => simp [PassesNull]
      | true =>
        simp [passesNull_map, passesNull_collect_iff (modbusStep_passes_iff outcome.element),
          modbusStep_passesNull_iff]

theorem dlt698Step_sound (outcome : ℕ → ElementOutcome) (i : ℕ) (element : JsonValue) :
    ¬ PassesNull (dlt698Step outcome i element) := by
  rw [dlt698Step]
  cases elementObject element with
  | none => simp [PassesNull]
  | some dlt698Object =>
    have hfails :=
      (parseDlt698ModelByJson_spec (some dlt698Object) (outcome i).allocated).fails_iff
    simpa [passesNull_map] using hfails

theorem dlt698Init_sound (models : JsonArray) (outcome : InitOutcome) :
    ¬ PassesNull (dlt698Init (some models) outcome) := by
  rw [dlt698Init]
  split_ifs
  · simp [PassesNull]
  · rw [passesNull_map, passesNull_collect_iff fun _ _ => Iff.rfl]
    rintro ⟨j, element, -, hfails⟩
    exact dlt698Step_sound outcome.element j element hfails

theorem construct_passesNull_iff (interface : Agent.InterDescription) (models : JsonArray)
    (outcome : InitOutcome) :
    PassesNull (construct interface (some models) outcome) ↔
      interface = .modbus ∧ ModbusReached models outcome := by
  cases interface with
  | modbus => simpa [construct] using modbusInit_passesNull_iff models outcome
  | dlt698 => simpa [construct] using dlt698Init_sound models outcome

def ProtocolUnsound (jsonObject : Option JsonObject) (outcome : ProtocolOutcome) : Prop :=
  jsonObjectDotgetString jsonObject "protoType" = some "MODBUS" ∧
    (jsonObjectDotgetString jsonObject "name").isSome ∧ outcome.allocated ∧
    ∃ models, jsonObjectDotgetArray jsonObject "body" = some models ∧
      ModbusReached models outcome.construct

theorem protocolInit_passesNull_iff (jsonObject : Option JsonObject) (outcome : ProtocolOutcome) :
    PassesNull (protocolInit jsonObject outcome) ↔ ProtocolUnsound jsonObject outcome := by
  rw [ProtocolUnsound, protocolInit]
  cases jsonObjectDotgetString jsonObject "protoType" with
  | none => simp [PassesNull]
  | some protoType =>
    cases jsonObjectDotgetString jsonObject "name" with
    | none => simp [PassesNull]
    | some modelName =>
      cases outcome.allocated with
      | false => simp [PassesNull]
      | true =>
        simp only [Bool.not_true, Bool.false_eq_true, if_false, findInterface_some, Agent.interfaceOf, bind,
          Except.bind]
        cases jsonObjectDotgetArray jsonObject "body" with
        | none => split_ifs <;> simp [PassesNull, pure, Except.pure]
        | some models =>
          split_ifs with hmodbus hdlt698
          · have hinit := construct_passesNull_iff .modbus models outcome.construct
            simp only [strlen]
            cases hdesc : construct .modbus (some models) outcome.construct <;>
              simp_all [PassesNull, pure, Except.pure]
          · have hinit := construct_passesNull_iff .dlt698 models outcome.construct
            simp only [strlen]
            cases hdesc : construct .dlt698 (some models) outcome.construct <;>
              simp_all [PassesNull, pure, Except.pure]
          · simp [hmodbus, PassesNull, pure, Except.pure]

theorem protocolInit_missing {jsonObject : Option JsonObject} (outcome : ProtocolOutcome)
    (hmissing : ¬ HasStrings jsonObject ["protoType", "name"]) :
    protocolInit jsonObject outcome = .ok none := by
  rw [protocolInit]
  cases hproto : jsonObjectDotgetString jsonObject "protoType" with
  | none => rfl
  | some protoType =>
    cases hname : jsonObjectDotgetString jsonObject "name" with
    | none => rfl
    | some modelName => exact absurd (by simp [HasStrings, hproto, hname]) hmissing

def ThingUnsound (g : Agent.Globals) (message : Option JsonValue) (outcome : ℕ → ModelOutcome) :
    Prop :=
  g.gPmMapList.isSome ∧ ∃ body, bodyOf message = some body ∧ ∃ j element bodyObject,
    body[j]? = some element ∧ elementObject element = some bodyObject ∧
      ProtocolUnsound (some bodyObject) (outcome j).protocol

def DeviceUnsound (message : Option JsonValue) : Prop :=
  ∃ body, bodyOf message = some body ∧ ∃ bodyContent ∈ body,
    jsonObjectDotgetString (elementObject bodyContent) "dev" = none

def MessageUnsound (g : Agent.Globals) (topicName : String) (message : Option JsonValue)
    (outcome : MessageOutcome) : Prop :=
  match topicName.toList.getLast? with
  | some 'l' => ThingUnsound g message outcome.model
  | some 'v' => ParityReached outcome.channel message outcome.listCreated
  | some 't' => DeviceUnsound message
  | _ => False

theorem constructModels_passesNull_iff (outcome : ℕ → ModelOutcome) (g : Agent.Globals)
    (mapList : List Agent.PmChannelMap) (body : JsonArray) :
    PassesNull (constructModels outcome g mapList body) ↔ ∃ j element bodyObject,
      body[j]? = some element ∧ elementObject element = some bodyObject ∧
        ProtocolUnsound (some bodyObject) (outcome j).protocol := by
  induction body generalizing outcome g mapList with
  | nil => simp [PassesNull, constructModels]
  | cons element body ih =>
    have hsplit : (∃ j e bodyObject, (element :: body)[j]? = some e ∧
        elementObject e = some bodyObject ∧
          ProtocolUnsound (some bodyObject) (outcome j).protocol) ↔
        (∃ bodyObject, elementObject element = some bodyObject ∧
          ProtocolUnsound (some bodyObject) (outcome 0).protocol) ∨
        ∃ j e bodyObject, body[j]? = some e ∧ elementObject e = some bodyObject ∧
          ProtocolUnsound (some bodyObject) (outcome (j + 1)).protocol := by
      constructor
      · rintro ⟨j, e, bodyObject, he, hobject, hunsound⟩
        cases j with
        | zero => exact .inl ⟨bodyObject, Option.some.inj he ▸ hobject, hunsound⟩
        | succ j => exact .inr ⟨j, e, bodyObject, he, hobject, hunsound⟩
      · rintro (⟨bodyObject, hobject, hunsound⟩ | ⟨j, e, bodyObject, he, hobject, hunsound⟩)
        · exact ⟨0, element, bodyObject, rfl, hobject, hunsound⟩
        · exact ⟨j + 1, e, bodyObject, he, hobject, hunsound⟩
    rw [hsplit, constructModels]
    cases elementObject element with
    | none => simpa using ih (fun i => outcome (i + 1)) g mapList
    | some bodyObject =>
      have hfirst := protocolInit_passesNull_iff (some bodyObject) (outcome 0).protocol
      simp only [Option.some.injEq, exists_eq_left', ← hfirst]
      cases protocolInit (some bodyObject) (outcome 0).protocol with
      | error e => simp [PassesNull, bind, Except.bind]
      | ok pmHandle? =>
        cases pmHandle? with
        | none =>
          simpa [PassesNull, bind, Except.bind] using ih (fun i => outcome (i + 1)) g mapList
        | some pmHandle =>
          simpa [PassesNull, bind, Except.bind] using ih (fun i => outcome (i + 1)) _ _

theorem thingInstanceConstruct_passesNull_iff (g : Agent.Globals) (message : Option JsonValue)
    (outcome : ℕ → ModelOutcome) :
    PassesNull (thingInstanceConstruct g message outcome) ↔ ThingUnsound g message outcome := by
  rw [ThingUnsound, thingInstanceConstruct, bodyOf]
  cases g.gPmMapList with
  | none => simp [PassesNull]
  | some mapList =>
    cases jsonValueGetObject message with
    | none => simp [PassesNull, jsonObjectDotgetArray, jsonObjectDotgetValue, jsonValueGetArray]
    | some object =>
      cases hbody : jsonObjectDotgetArray (some object) "body" with
      | none => simp [PassesNull, hbody]
      | some body =>
        simp only [Option.isSome_some, true_and, Option.some.injEq, exists_eq_left', hbody,
          ← constructModels_passesNull_iff outcome g mapList body]
        cases constructModels outcome g mapList body <;>
          simp [PassesNull, bind, Except.bind, pure, Except.pure]

theorem existInList_passesNull_iff (devname : String) (body : JsonArray) :
    PassesNull (existInList devname body) ↔ ∃ bodyContent ∈ body,
      jsonObjectDotgetString (elementObject bodyContent) "dev" = none := by
  induction body with
  | nil => simp [PassesNull, existInList]
  | cons bodyContent body ih =>
    simp only [List.mem_cons, exists_eq_or_imp, ← ih, existInList]
    cases jsonObjectDotgetString (elementObject bodyContent) "dev" with
    | none => simp [PassesNull, strcmp, bind, Except.bind]
    | some device =>
      cases existInList devname body <;>
        simp [PassesNull, strcmp, bind, Except.bind, pure, Except.pure]

theorem onRecvCallback_passesNull_iff (g : Agent.Globals) (devname topicName : String)
    (message : Option JsonValue) (outcome : MessageOutcome) :
    PassesNull (onRecvCallback g devname topicName message outcome) ↔
      MessageUnsound g topicName message outcome := by
  rw [onRecvCallback, MessageUnsound]
  generalize topicName.toList.getLast? = last
  split
  · rw [passesNull_map]
    exact thingInstanceConstruct_passesNull_iff g message outcome.model
  · rw [passesNull_map]
    exact (channelInfoListCreate_spec outcome.channel message outcome.listCreated).fails_iff
  · rw [passesNull_map, existInList_passesNull_iff, DeviceUnsound, ← bodyOf]
    cases bodyOf message <;> simp
  · simp [PassesNull]

/-- A null pointer is passed for a string exactly in the places where the code reads a string
without a test; every string that is tested is missed with the error return of its parser. -/
theorem missing_strings_rejected_iff (g : Agent.Globals) (devname topicName : String)
    (message channelJson : Option JsonValue) (outcome : MessageOutcome) (listCreated : Bool)
    (channelOutcome : ℕ → ChannelElementOutcome) (jsonObject : Option JsonObject)
    (protocolOutcome : ProtocolOutcome) (allocated : Bool) :
    (¬ PassesNull (onRecvCallback g devname topicName message outcome) ↔
      ¬ MessageUnsound g topicName message outcome) ∧
    (Rejects (ChannelStringMissing channelJson)
        (channelInfoListCreate channelJson listCreated channelOutcome) ↔
      ¬ ParityReached channelOutcome channelJson listCreated) ∧
    (Rejects (¬ HasStrings jsonObject ["protoType", "name"])
        (protocolInit jsonObject protocolOutcome) ↔
      ¬ ProtocolUnsound jsonObject protocolOutcome) ∧
    (Rejects (¬ ModbusStrings jsonObject) (parseModbusModelByJson jsonObject allocated) ↔
      ¬ (HasRegisters jsonObject ∧ allocated ∧ ¬ ModbusStrings jsonObject)) ∧
    Rejects (¬ (HasStrings jsonObject modelNames ∧
        HasStrings (jsonObjectDotgetObject jsonObject "AcqFile") acqFileNames))
      (parseDlt698ModelByJson jsonObject allocated) := by
  refine ⟨?_, ?_, ?_, ?_, ?_⟩
  · rw [onRecvCallback_passesNull_iff]
  · exact (channelInfoListCreate_spec channelOutcome channelJson listCreated).rejects_iff
      (channelStringMissing_incomplete channelOutcome)
  · rw [← protocolInit_passesNull_iff]
    exact ⟨And.left, fun hsound => ⟨hsound, protocolInit_missing protocolOutcome⟩⟩
  · exact (parseModbusModelByJson_spec jsonObject allocated).rejects_iff
      fun hmissing haccepts => hmissing haccepts.2.2
  · exact ((parseDlt698ModelByJson_spec jsonObject allocated).rejects_iff
      fun hmissing haccepts => hmissing ⟨haccepts.2.2.1, haccepts.2.2.2.1⟩).mpr not_false

/-! A channel whose port has every member but the parity. -/

def noParityPort : JsonObject :=
  [("baudRate", .string "9600"), ("stopBit", .string "1"), ("dataBit", .string "8"),
    ("port", .string "502"), ("ip", .string "10.0.0.2"), ("serialID", .string "ttyS1"),
    ("portType", .string "serial")]

def noParityMessage : JsonValue :=
  .object [("body", .array [.object [("timeOut", .string "5"), ("dev", .string "meter"),
    ("protoType", .string "MODBUS"), ("modeltype", .string "M1"), ("port", .object noParityPort)]])]

def allGranted : MessageOutcome where
  listCreated := true
  channel := fun _ => ⟨true, true⟩
  model := fun _ => ⟨⟨true, true, true, true, fun _ => ⟨true, true, true⟩⟩, fun _ => true⟩

theorem missing_parity_passes_null :
    ¬ ∀ g devname topicName message outcome,
      ¬ PassesNull (onRecvCallback g devname topicName message outcome) := by
  intro h
  exact h Agent.started "meter" "/devMgr/get/response/modbus/dev" (some noParityMessage) allGranted
    ⟨.strcmp, rfl⟩

end IotEdgeAgent.Configuration
