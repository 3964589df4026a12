import IotEdgeAgent.Library.ByteWalk
import IotEdgeAgent.Library.Collect
import IotEdgeAgent.Agent.IotMain
import IotEdgeAgent.Agent.Parson
import Mathlib.Tactic.SplitIfs

/-!
# Reading the configuration from JSON

The parsers of the three messages that configure the agent: the device list, the channel models
and the thing models. A parser that returns null answers `none`; one that hands a null pointer to
a function for strings does not return. A character array of C is given by the bytes that are
written to it. What the allocator answers is part of the outcome of a call.
-/

namespace IotEdgeAgent.Configuration

open Collect Parson
open Strings (atoi)

def MAX_SIZE_OF_HOST : ℕ := 20
def MAX_SIZE_OF_PORT_TYPE : ℕ := 20
def MAX_SIZE_OF_SERIAL_ID : ℕ := 20
def MAX_SIZE_OF_DEVICE_NAME : ℕ := 64
def MAX_SIZE_OF_PROTO_TYPE : ℕ := 64
def MAX_SIZE_OF_MODEL_TYPE : ℕ := 64

structure DevicePortOption where
  baudRate : ℤ
  dataBit : ℤ
  stopBit : ℤ
  parity : Char
  port : ℤ
  host : List UInt8
  portType : List UInt8
  serialID : List UInt8

structure ChannelModelInfo where
  timeOut : ℤ
  device : List UInt8
  protoType : List UInt8
  modelNmae : List UInt8
  portOptions : DevicePortOption

/-- The string is read anew for each comparison, without a test. -/
def parseParity (port : Option JsonObject) : Except NullString (Option Char) := do
  if ← strcmp (some "NONE") (jsonObjectDotgetString port "parity") then return some 'N'
  else if ← strcmp (some "EVEN") (jsonObjectDotgetString port "parity") then return some 'E'
  else if ← strcmp (some "ODD") (jsonObjectDotgetString port "parity") then return some 'O'
  else return none

def parsePort (port : Option JsonObject) : Except NullString (Option DevicePortOption) := do
  let baudRate := (jsonObjectDotgetString port "baudRate").map atoi
  let stopBit := (jsonObjectDotgetString port "stopBit").map atoi
  let dataBit := (jsonObjectDotgetString port "dataBit").map atoi
  let portNumber := (jsonObjectDotgetString port "port").map atoi
  let host ← copyChecked (jsonObjectDotgetString port "ip") MAX_SIZE_OF_HOST
  let serialID ← copyChecked (jsonObjectDotgetString port "serialID") MAX_SIZE_OF_SERIAL_ID
  let portType ← copyChecked (jsonObjectDotgetString port "portType") MAX_SIZE_OF_PORT_TYPE
  let parity ← parseParity port
  return do
    return {
      baudRate := ← baudRate
      dataBit := ← dataBit
      stopBit := ← stopBit
      parity := ← parity
      port := ← portNumber
      host := ← host
      portType := ← portType
      serialID := ← serialID }

def parseChannel (array : Option JsonObject) : Except NullString (Option ChannelModelInfo) := do
  let timeOut := (jsonObjectDotgetString array "timeOut").map atoi
  let device ← copyChecked (jsonObjectDotgetString array "dev") MAX_SIZE_OF_DEVICE_NAME
  let protoType ← copyChecked (jsonObjectDotgetString array "protoType") MAX_SIZE_OF_PROTO_TYPE
  let modelNmae ← copyChecked (jsonObjectDotgetString array "modeltype") MAX_SIZE_OF_MODEL_TYPE
  match jsonObjectDotgetObject array "port" with
  | none => return none
  | some port =>
    let portOptions ← parsePort (some port)
    return do
      return {
        timeOut := ← timeOut
        device := ← device
        protoType := ← protoType
        modelNmae := ← modelNmae
        portOptions := ← portOptions }

structure ChannelElementOutcome where
  allocated : Bool
  added : Bool

def channelStep (outcome : ℕ → ChannelElementOutcome) (i : ℕ) (element : JsonValue) :
    Except NullString (Verdict ChannelModelInfo) :=
  if !(outcome i).allocated then .ok .refuse
  else (parseChannel (elementObject element)).map fun
    | some channelInfo => if (outcome i).added then .add channelInfo else .refuse
    | none => .refuse

def channelInfoListCreate (channelJson : Option JsonValue) (listCreated : Bool)
    (outcome : ℕ → ChannelElementOutcome) :
    Except NullString (Option (List ChannelModelInfo)) :=
  match jsonObjectDotgetArray (jsonValueGetObject channelJson) "body" with
  | none => .ok none
  | some channelBody =>
    if !listCreated then .ok none else collect (channelStep outcome) channelBody

def MAX_SIZE_OF_M : ℕ := 32
def MAX_SIZE_OF_DF : ℕ := 8
def MAX_SIZE_OF_MATH : ℕ := 32
def MAX_SIZE_OF_MODE : ℕ := 32
def MAX_SIZE_OF_DBTOPIC : ℕ := 64

structure InvTime where
  invMons : ℤ
  invDays : ℤ
  invHous : ℤ
  invMins : ℤ
  deriving DecidableEq, Repr

def parseInvTime (time : Option JsonObject) : InvTime where
  invMons := toInt (jsonObjectDotgetNumber time "InvMons")
  invDays := toInt (jsonObjectDotgetNumber time "InvDays")
  invHous := toInt (jsonObjectDotgetNumber time "InvHous")
  invMins := toInt (jsonObjectDotgetNumber time "InvMins")

structure RegisterTag where
  id : UInt8
  big : UInt8
  address : UInt8
  m : List UInt8
  df : List UInt8
  math : List UInt8

structure ModbusModelInfo where
  startTime : InvTime
  endTime : InvTime
  acqMode : List UInt8
  dbTopic : List UInt8
  acqInt : ℤ
  fn : UInt8
  devAddr : UInt8
  regCount : UInt16
  mRegister : List RegisterTag

def parseRegister (regGrpObject : Option JsonObject) : Except NullString RegisterTag := do
  let m ← strncpyWhole MAX_SIZE_OF_M (jsonObjectDotgetString regGrpObject "m")
  let df ← strncpyWhole MAX_SIZE_OF_DF (jsonObjectDotgetString regGrpObject "df")
  let math ← strncpyWhole MAX_SIZE_OF_MATH (jsonObjectDotgetString regGrpObject "math")
  return {
    id := toUint8 (jsonObjectDotgetNumber regGrpObject "id")
    big := toUint8 (jsonObjectDotgetNumber regGrpObject "big")
    address := toUint8 (jsonObjectDotgetNumber regGrpObject "address")
    m := m
    df := df
    math := math }

def parseModbusModelByJson (jsonObject : Option JsonObject) (allocated : Bool) :
    Except NullString (Option ModbusModelInfo) :=
  match jsonObjectDotgetArray jsonObject "regGrp" with
  | none | some [] => .ok none
  | some regGrp =>
    if !allocated then .ok none
    else do
      let acqMode ← strncpy (jsonObjectDotgetString jsonObject "acqMode") MAX_SIZE_OF_MODE
      let dbTopic ← strncpy (jsonObjectDotgetString jsonObject "DBTopic") MAX_SIZE_OF_DBTOPIC
      let mRegister ← regGrp.mapM fun register => parseRegister (elementObject register)
      return some {
        startTime := parseInvTime (jsonObjectDotgetObject jsonObject "startTime")
        endTime := parseInvTime (jsonObjectDotgetObject jsonObject "endTime")
        acqMode := acqMode
        dbTopic := dbTopic
        acqInt := toInt (jsonObjectDotgetNumber jsonObject "acqInt")
        fn := toUint8 (jsonObjectDotgetNumber jsonObject "fn")
        devAddr := toUint8 (jsonObjectDotgetNumber jsonObject "devAddr")
        regCount := UInt16.ofNat regGrp.length
        mRegister := mRegister }

structure AcqfileTag where
  id : UInt8
  big : UInt8
  oad : String
  addr : String
  m : List UInt8
  math : List UInt8

structure Dlt698ModelInfo where
  startTime : InvTime
  endTime : InvTime
  acqMode : List UInt8
  dbTopic : List UInt8
  acqInt : ℤ
  acqFile : AcqfileTag

def parseAcqFile (acqFile : Option JsonObject) : Except NullString (Option AcqfileTag) :=
  match acqFile with
  | none => .ok none
  | some members => do
    let m ← copyChecked (jsonObjectDotgetString (some members) "m") MAX_SIZE_OF_M
    let math ← copyChecked (jsonObjectDotgetString (some members) "math") MAX_SIZE_OF_MATH
    return do
      return {
        id := toUint8 (jsonObjectDotgetNumber (some members) "id")
        big := toUint8 (jsonObjectDotgetNumber (some members) "big")
        oad := ← jsonObjectDotgetString (some members) "oad"
        addr := ← jsonObjectDotgetString (some members) "addr"
        m := ← m
        math := ← math }

/-- A missing `acqInt` reads as 0, and 0 is refused. -/
def parseAcqInt (jsonObject : Option JsonObject) : Option ℤ :=
  if jsonObjectDotgetNumber jsonObject "acqInt" = 0 then none
  else some (toInt (jsonObjectDotgetNumber jsonObject "acqInt"))

def parseDlt698Members (jsonObject : Option JsonObject) :
    Except NullString (Option Dlt698ModelInfo) := do
  let acqInt := parseAcqInt jsonObject
  let acqMode ← copyChecked (jsonObjectDotgetString jsonObject "acqMode") MAX_SIZE_OF_MODE
  let dbTopic ← copyChecked (jsonObjectDotgetString jsonObject "DBTopic") MAX_SIZE_OF_DBTOPIC
  let startTime := jsonObjectDotgetObject jsonObject "startTime"
  let endTime := jsonObjectDotgetObject jsonObject "endTime"
  let acqFile ← parseAcqFile (jsonObjectDotgetObject jsonObject "AcqFile")
  return do
    return {
      startTime := parseInvTime (some (← startTime))
      endTime := parseInvTime (some (← endTime))
      acqMode := ← acqMode
      dbTopic := ← dbTopic
      acqInt := ← acqInt
      acqFile := ← acqFile }

def parseDlt698ModelByJson (jsonObject : Option JsonObject) (allocated : Bool) :
    Except NullString (Option Dlt698ModelInfo) :=
  if jsonObject.isNone || !allocated then .ok none else parseDlt698Members jsonObject

inductive DataDescription
  | modbus (models : List ModbusModelInfo)
  | dlt698 (models : List Dlt698ModelInfo)

structure ElementOutcome where
  allocated : Bool
  dataCreated : Bool
  added : Bool

structure InitOutcome where
  allocated : Bool
  masterInit : Bool
  listCreated : Bool
  element : ℕ → ElementOutcome

def modbusStep (outcome : ℕ → ElementOutcome) (i : ℕ) (element : JsonValue) :
    Except NullString (Verdict ModbusModelInfo) :=
  match elementObject element with
  | none => .ok .skip
  | some modbusObject =>
    (parseModbusModelByJson (some modbusObject) (outcome i).allocated).map fun
      | none => .refuse
      | some modelInfo =>
        if !(outcome i).dataCreated then .refuse
        -- What `singlylinkedlist_add` returns is not looked at.
        else if (outcome i).added then .add modelInfo
        else .skip

def modbusInit (jsonArray : Option JsonArray) (outcome : InitOutcome) :
    Except NullString (Option DataDescription) :=
  match jsonArray with
  | none => .ok none
  | some models =>
    if !outcome.allocated || !outcome.masterInit || !outcome.listCreated then .ok none
    else (collect (modbusStep outcome.element) models).map (Option.map .modbus)

/-- The request is taken to be created: the code writes through its pointer without a test. -/
def dlt698Step (outcome : ℕ → ElementOutcome) (i : ℕ) (element : JsonValue) :
    Except NullString (Verdict Dlt698ModelInfo) :=
  match elementObject element with
  | none => .ok .skip
  | some dlt698Object =>
    (parseDlt698ModelByJson (some dlt698Object) (outcome i).allocated).map fun
      | none => .refuse
      | some modelInfo => if (outcome i).added then .add modelInfo else .skip

def dlt698Init (jsonArray : Option JsonArray) (outcome : InitOutcome) :
    Except NullString (Option DataDescription) :=
  match jsonArray with
  | none => .ok none
  | some models =>
    if !outcome.allocated || !outcome.listCreated then .ok none
    else (collect (dlt698Step outcome.element) models).map (Option.map .dlt698)

def construct (interface : Agent.InterDescription) (jsonArray : Option JsonArray)
    (outcome : InitOutcome) : Except NullString (Option DataDescription) :=
  match interface with
  | .modbus => modbusInit jsonArray outcome
  | .dlt698 => dlt698Init jsonArray outcome

structure PmInstance where
  modelName : String
  dataDesc : DataDescription

structure ProtocolOutcome where
  allocated : Bool
  construct : InitOutcome

def findInterface (protoType : Option String) :
    Except NullString (Option Agent.InterDescription) := do
  if ← strcmp protoType (some "MODBUS") then return some .modbus
  else if ← strcmp protoType (some "DLT698.45") then return some .dlt698
  else return none

def protocolInit (jsonObject : Option JsonObject) (outcome : ProtocolOutcome) :
    Except NullString (Option PmInstance) :=
  match jsonObjectDotgetString jsonObject "protoType", jsonObjectDotgetString jsonObject "name" with
  | some protoType, some modelName =>
    if !outcome.allocated then .ok none
    else do
      match ← findInterface (some protoType), jsonObjectDotgetArray jsonObject "body" with
      | some interface, some body =>
        let maxCount ← strlen (some modelName)
        let copied := (strncpyS Agent.MAX_SIZE_OF_MNAME (some modelName) maxCount).1
        let dataDesc ← construct interface (some body) outcome.construct
        return if copied then dataDesc.map (⟨modelName, ·⟩) else none
      | _, _ => return none
  | _, _ => .ok none

structure ModelOutcome where
  protocol : ProtocolOutcome
  threadCreated : ℕ → Bool

section Things
open Agent (Globals PmChannelMap)

def constructModels (outcome : ℕ → ModelOutcome) (g : Globals) (mapList : List PmChannelMap) :
    JsonArray → Except NullString (Globals × List PmChannelMap)
  | [] => .ok (g, mapList)
  | element :: body =>
    match elementObject element with
    | none => constructModels (fun i => outcome (i + 1)) g mapList body
    | some bodyObject => do
      match ← protocolInit (some bodyObject) (outcome 0).protocol with
      | none => constructModels (fun i => outcome (i + 1)) g mapList body
      | some pmHandle =>
        let mapped := Agent.mapChannels ⟨g.pmCreated, pmHandle.modelName⟩
          (outcome 0).threadCreated 0
          { g with pmCreated := g.pmCreated + 1, gThreadCount := 0 } mapList
        constructModels (fun i => outcome (i + 1)) mapped.1 mapped.2 body

def thingInstanceConstruct (g : Globals) (message : Option JsonValue)
    (outcome : ℕ → ModelOutcome) : Except NullString (Globals × Bool) :=
  match g.gPmMapList, jsonValueGetObject message with
  | none, _ => .ok (g, false)
  | some _, none => .ok (g, false)
  | some mapList, some object =>
    match jsonObjectDotgetArray (some object) "body" with
    | none => .ok (Agent.testThreads g mapList false)
    | some body => do
      let (g, mapList) ← constructModels outcome g mapList body
      return Agent.testThreads g mapList true

end Things

def existInList (devname : String) : JsonArray → Except NullString Bool
  | [] => .ok false
  | bodyContent :: body => do
    let found ← strcmp (jsonObjectDotgetString (elementObject bodyContent) "dev") (some devname)
    return found || (← existInList devname body)

structure MessageOutcome where
  listCreated : Bool
  channel : ℕ → ChannelElementOutcome
  model : ℕ → ModelOutcome

inductive Received
  | thingModel (result : Agent.Globals × Bool)
  | channelModel (channelList : Option (List ChannelModelInfo))
  | deviceList (exists_ : Bool)
  | unknown

/-- `message` is what `json_parse_string` makes of the payload. -/
def onRecvCallback (g : Agent.Globals) (devname topicName : String) (message : Option JsonValue)
    (outcome : MessageOutcome) : Except NullString Received :=
  match topicName.toList.getLast? with
  | some 'l' => (thingInstanceConstruct g message outcome.model).map .thingModel
  | some 'v' =>
    (channelInfoListCreate message outcome.listCreated outcome.channel).map .channelModel
  | some 't' =>
    (existInList devname
      ((jsonObjectDotgetArray (jsonValueGetObject message) "body").getD [])).map .deviceList
  | _ => .ok .unknown

section Accepted
open ByteWalk (bind_eq_ok)

variable {jsonObject : Option JsonObject} {allocated : Bool}

theorem parseModbusModelByJson_ok {model : ModbusModelInfo}
    (h : parseModbusModelByJson jsonObject allocated = .ok (some model)) :
    ∃ regGrp acqMode dbTopic mRegister,
      jsonObjectDotgetArray jsonObject "regGrp" = some regGrp ∧
      regGrp.mapM (fun register => parseRegister (elementObject register)) = .ok mRegister ∧
      model = {
        startTime := parseInvTime (jsonObjectDotgetObject jsonObject "startTime")
        endTime := parseInvTime (jsonObjectDotgetObject jsonObject "endTime")
        acqMode := acqMode
        dbTopic := dbTopic
        acqInt := toInt (jsonObjectDotgetNumber jsonObject "acqInt")
        fn := toUint8 (jsonObjectDotgetNumber jsonObject "fn")
        devAddr := toUint8 (jsonObjectDotgetNumber jsonObject "devAddr")
        regCount := UInt16.ofNat regGrp.length
        mRegister := mRegister } := by
  rw [parseModbusModelByJson] at h
  split at h
  · cases h
  · cases h
  next regGrp _ hregGrp =>
    split_ifs at h
    · cases h
    · obtain ⟨acqMode, -, h⟩ := bind_eq_ok h
      obtain ⟨dbTopic, -, h⟩ := bind_eq_ok h
      obtain ⟨mRegister, hmap, h⟩ := bind_eq_ok h
      cases h
      exact ⟨regGrp, acqMode, dbTopic, mRegister, hregGrp, hmap, rfl⟩

theorem parseDlt698ModelByJson_ok {model : Dlt698ModelInfo}
    (h : parseDlt698ModelByJson jsonObject allocated = .ok (some model)) :
    ∃ startTime endTime acqMode dbTopic acqInt acqFile,
      jsonObjectDotgetObject jsonObject "startTime" = some startTime ∧
      jsonObjectDotgetObject jsonObject "endTime" = some endTime ∧
      parseAcqFile (jsonObjectDotgetObject jsonObject "AcqFile") = .ok (some acqFile) ∧
      model = {
        startTime := parseInvTime (some startTime)
        endTime := parseInvTime (some endTime)
        acqMode := acqMode
        dbTopic := dbTopic
        acqInt := acqInt
        acqFile := acqFile } := by
  rw [parseDlt698ModelByJson] at h
  split_ifs at h
  · cases h
  · obtain ⟨acqMode?, -, h⟩ := bind_eq_ok h
    obtain ⟨dbTopic?, -, h⟩ := bind_eq_ok h
    obtain ⟨acqFile?, hfile, h⟩ := bind_eq_ok h
    have h := Except.ok.inj h
    obtain ⟨startTime, hstart, h⟩ := Option.bind_eq_some_iff.mp h
    obtain ⟨endTime, hend, h⟩ := Option.bind_eq_some_iff.mp h
    obtain ⟨acqMode, -, h⟩ := Option.bind_eq_some_iff.mp h
    obtain ⟨dbTopic, -, h⟩ := Option.bind_eq_some_iff.mp h
    obtain ⟨acqInt, -, h⟩ := Option.bind_eq_some_iff.mp h
    obtain ⟨acqFile, rfl, h⟩ := Option.bind_eq_some_iff.mp h
    cases h
    exact ⟨startTime, endTime, acqMode, dbTopic, acqInt, acqFile, hstart, hend, hfile, rfl⟩

end Accepted

section Refinement
open Agent (Globals PmChannelMap ThingModel)

abbrev ModelBody := JsonArray × InitOutcome

def constructs (interface : Agent.InterDescription) (body : ModelBody) : Bool :=
  match construct interface (some body.1) body.2 with
  | .ok (some _) => true
  | _ => false

def thingModel (bodyObject : JsonObject) (outcome : ModelOutcome) : ThingModel ModelBody where
  protoType := jsonObjectDotgetString (some bodyObject) "protoType"
  name := jsonObjectDotgetString (some bodyObject) "name"
  body := (jsonObjectDotgetArray (some bodyObject) "body").map (·, outcome.protocol.construct)

def thingModels (outcome : ℕ → ModelOutcome) : JsonArray → Agent.Models ModelBody
  | [] => []
  | element :: body =>
    (elementObject element).map
        (fun bodyObject => (thingModel bodyObject (outcome 0),
          ⟨(outcome 0).protocol.allocated, (outcome 0).threadCreated⟩)) ::
      thingModels (fun i => outcome (i + 1)) body

def thingMessage (message : Option JsonValue) (outcome : ℕ → ModelOutcome) :
    Agent.ThingMessage ModelBody :=
  match jsonValueGetObject message with
  | none => .noObject
  | some object =>
    match jsonObjectDotgetArray (some object) "body" with
    | none => .noBody
    | some body => .body (thingModels outcome body)

theorem findInterface_some (protoType : String) :
    findInterface (some protoType) = .ok (Agent.interfaceOf protoType) := by
  simp only [findInterface, Agent.interfaceOf, strcmp, bind, Except.bind, beq_iff_eq, pure, Except.pure]
  split_ifs <;> rfl

theorem constructs_eq {interface : Agent.InterDescription} {body : ModelBody}
    {dataDesc : Option DataDescription}
    (h : construct interface (some body.1) body.2 = .ok dataDesc) :
    constructs interface body = dataDesc.isSome := by
  rw [constructs, h]
  cases dataDesc <;> rfl

theorem protocolInit_name {bodyObject : JsonObject} {outcome : ModelOutcome}
    {pmHandle? : Option PmInstance}
    (h : protocolInit (some bodyObject) outcome.protocol = .ok pmHandle?) :
    Agent.instanceName constructs (thingModel bodyObject outcome) outcome.protocol.allocated =
      pmHandle?.map (·.modelName) := by
  rw [protocolInit] at h
  simp only [Agent.instanceName, thingModel]
  cases hproto : jsonObjectDotgetString (some bodyObject) "protoType" with
  | none =>
    simp only [hproto, Except.ok.injEq] at h
    rw [← h, Option.map_none]
  | some protoType =>
    cases hname : jsonObjectDotgetString (some bodyObject) "name" with
    | none =>
      simp only [hproto, hname, Except.ok.injEq] at h
      rw [← h, Option.map_none]
    | some modelName =>
      simp only [hproto, hname] at h ⊢
      cases halloc : outcome.protocol.allocated with
      | false =>
        rw [halloc] at h
        exact congrArg (Option.map (·.modelName)) (Except.ok.inj h)
      | true =>
        simp only [halloc, Bool.not_true, Bool.false_eq_true, if_false, findInterface_some, bind,
          Except.bind] at h ⊢
        generalize Agent.interfaceOf protoType = interface? at h ⊢
        cases interface? with
        | none => exact congrArg (Option.map (·.modelName)) (Except.ok.inj h)
        | some interface =>
          cases hbody : jsonObjectDotgetArray (some bodyObject) "body" with
          | none =>
            rw [hbody] at h
            exact congrArg (Option.map (·.modelName)) (Except.ok.inj h)
          | some models =>
            simp only [hbody, strlen, strncpyS_whole, Option.map_some] at h ⊢
            cases hdesc : construct interface (some models) outcome.protocol.construct with
            | error e => simp [hdesc] at h
            | ok dataDesc =>
              simp only [hdesc, pure, Except.pure, Except.ok.injEq, decide_eq_true_eq] at h
              have hconstructs : constructs interface (models, outcome.protocol.construct) =
                  dataDesc.isSome := constructs_eq hdesc
              rw [← h, hconstructs]
              cases dataDesc with
              | none => simp
              | some dataDesc =>
                simp only [Option.isSome_some, true_and]
                split_ifs <;> rfl

theorem constructModels_refines {outcome : ℕ → ModelOutcome} {g : Globals}
    {mapList : List PmChannelMap} {body : JsonArray} {result : Globals × List PmChannelMap}
    (h : constructModels outcome g mapList body = .ok result) :
    Agent.constructModels constructs g mapList (thingModels outcome body) = result := by
  induction body generalizing outcome g mapList with
  | nil => exact Except.ok.inj h
  | cons element body ih =>
    rw [constructModels] at h
    rw [thingModels, Agent.constructModels]
    cases hobject : elementObject element with
    | none =>
      rw [hobject] at h
      exact ih h
    | some bodyObject =>
      simp only [hobject, bind, Except.bind] at h
      simp only [Option.map_some, Agent.constructModel]
      cases hinit : protocolInit (some bodyObject) (outcome 0).protocol with
      | error e => simp [hinit] at h
      | ok pmHandle? =>
        rw [hinit] at h
        rw [protocolInit_name hinit]
        cases pmHandle? with
        | none => exact ih h
        | some pmHandle => exact ih h

/-- A thing-model message that is handled is handled as it is with the text left out. -/
theorem thingInstanceConstruct_refines {g : Globals} {message : Option JsonValue}
    {outcome : ℕ → ModelOutcome} {result : Globals × Bool}
    (h : thingInstanceConstruct g message outcome = .ok result) :
    Agent.thingInstanceConstruct constructs g (thingMessage message outcome) = result := by
  unfold thingInstanceConstruct at h
  unfold Agent.thingInstanceConstruct thingMessage
  cases hmaps : g.gPmMapList with
  | none =>
    rw [hmaps] at h
    exact Except.ok.inj h
  | some mapList =>
    cases hobject : jsonValueGetObject message with
    | none =>
      rw [hmaps, hobject] at h
      exact Except.ok.inj h
    | some object =>
      cases hbody : jsonObjectDotgetArray (some object) "body" with
      | none =>
        simp only [hmaps, hobject, hbody] at h
        simp only [hbody]
        exact Except.ok.inj h
      | some body =>
        simp only [hmaps, hobject, hbody, bind, Except.bind] at h
        simp only [hbody]
        cases hmodels : constructModels outcome g mapList body with
        | error e => simp [hmodels] at h
        | ok constructed =>
          rw [hmodels] at h
          rw [constructModels_refines hmodels]
          exact Except.ok.inj h

end Refinement

end IotEdgeAgent.Configuration
