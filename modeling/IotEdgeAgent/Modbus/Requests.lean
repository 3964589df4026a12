import IotEdgeAgent.Agent.DataCreate
import IotEdgeAgent.Modbus.Master

/-!
# The request of each Modbus entry

`modbus_init` builds the requests of all models with one master and moves each frame out of it
into the entry. It does not look at what the building returns: an entry whose model can not be
asked for gets the null pointer that the entry in front of it has left.
-/

namespace IotEdgeAgent.Modbus.Requests
open Collect Parson Protocol IotEdgeAgent.Configuration Configuration.DataCreate Master

inductive Failure
  | nullString (e : NullString)
  | fault (e : Fault)

/-- `frame` is the pointer `data_request->data`; the request in `info` has the bytes behind it. -/
structure ModbusEntry where
  info : PmDataInfo ModbusModelInfo
  frame : Option Frame

structure EntryOutcome where
  modelAllocated : Bool
  allocations : Allocations ModbusModelInfo
  frameAllocated : Bool
  added : Bool

structure InitOutcome where
  allocated : Bool
  listCreated : Bool
  element : ℕ → EntryOutcome

/-- Other functions build nothing, and what the building returns is not looked at. -/
def buildRequest (status : ModbusMaster) (calloc : Option ℕ) (model : ModbusModelInfo) :
    ModbusMaster :=
  if model.fn = 3 ∨ model.fn = 4 then
    (modbusBuildRequest0304 status calloc model.fn model.devAddr 0 model.regCount).2
  else status

def requestOf (status : ModbusMaster) : DataRequest :=
  ⟨(status.frame.map Frame.bytes).getD [], status.length⟩

/-- `k` is the number of the model. When no entry is created the master was not used. -/
def createEntry (status : ModbusMaster) (k : ℕ) (model : ModbusModelInfo)
    (outcome : EntryOutcome) : Except Fault (Option ModbusEntry × ModbusMaster) :=
  let built := buildRequest status (if outcome.frameAllocated then some k else none) model
  (modbusDataInfoCreate (requestOf built) (some model) outcome.allocations).map fun
    | none => (none, status)
    | some info => (some ⟨info, built.frame⟩, { built with frame := none })

section
variable (outcome : ℕ → EntryOutcome)

def modbusStep (status : ModbusMaster) (k : ℕ) (element : JsonValue) :
    Except Failure (ModbusMaster × Verdict ModbusEntry) :=
  match elementObject element with
  | none => .ok (status, .skip)
  | some modbusObject =>
    match parseModbusModelByJson (some modbusObject) (outcome k).modelAllocated with
    | .error e => .error (.nullString e)
    | .ok none => .ok (status, .refuse)
    | .ok (some modelInfo) =>
      match createEntry status k modelInfo (outcome k) with
      | .error e => .error (.fault e)
      | .ok (none, status) => .ok (status, .refuse)
      | .ok (some entry, status) =>
        let entry := { entry with info := { entry.info with modelInfo := some modelInfo } }
        .ok (status, if (outcome k).added then .add entry else .skip)

end

/-- Of a list that is refused only the master is left. -/
def modbusInit (status : ModbusMaster) (jsonArray : Option JsonArray) (outcome : InitOutcome) :
    Except Failure (Option (List ModbusEntry) × ModbusMaster) :=
  match jsonArray with
  | none => .ok (none, status)
  | some models =>
    if !outcome.allocated then .ok (none, status)
    else if !outcome.listCreated then .ok (none, modbusMasterInit status)
    else collectFrom (modbusStep outcome.element) (modbusMasterInit status) 0 models

def registerCount (jsonObject : Option JsonObject) : UInt16 :=
  UInt16.ofNat ((jsonObjectDotgetArray jsonObject "regGrp").getD []).length

/-- The numbers of the document can be asked for, and there is memory for the frame. -/
structure Buildable (jsonObject : Option JsonObject) (frameAllocated : Bool) : Prop where
  requestable : Requestable (toUint8 (jsonObjectDotgetNumber jsonObject "fn"))
    (toUint8 (jsonObjectDotgetNumber jsonObject "devAddr")) (registerCount jsonObject)
  allocated : frameAllocated

/-- The request of the entry is a frame of eight bytes, made from the fields of its model. -/
def HasFrame (entry : ModbusEntry) (frame : Frame) : Prop :=
  ∃ model, entry.info.modelInfo = some model ∧ entry.frame = some frame ∧
    frame.bytes = requestBytes model.devAddr model.fn 0 model.regCount ∧
    entry.info.dataRequest = some ⟨frame.bytes, 8⟩

/-- Every entry has a frame. No two entries share one, the master has kept none, and none was
released. -/
structure EachOwns (before after : ModbusMaster) (entries : List ModbusEntry) : Prop where
  owned : ∀ entry ∈ entries, ∃ frame, HasFrame entry frame
  distinct : entries.Pairwise fun entry entry' => entry.frame ≠ entry'.frame
  moved : after.frame = none
  kept : after.released = before.released

section
variable {jsonObject : Option JsonObject} {allocated : Bool} {model : ModbusModelInfo}

theorem parseModbus_request (h : parseModbusModelByJson jsonObject allocated = .ok (some model)) :
    model.fn = toUint8 (jsonObjectDotgetNumber jsonObject "fn") ∧
      model.devAddr = toUint8 (jsonObjectDotgetNumber jsonObject "devAddr") ∧
      model.regCount = registerCount jsonObject := by
  obtain ⟨regGrp, _, _, _, hregGrp, -, rfl⟩ := parseModbusModelByJson_ok h
  rw [registerCount, hregGrp]
  exact ⟨rfl, rfl, rfl⟩

theorem buildable_iff (h : parseModbusModelByJson jsonObject allocated = .ok (some model))
    (frameAllocated : Bool) :
    Buildable jsonObject frameAllocated ↔
      Requestable model.fn model.devAddr model.regCount ∧ frameAllocated := by
  obtain ⟨hfn, hdevAddr, hregCount⟩ := parseModbus_request h
  rw [hfn, hdevAddr, hregCount]
  exact ⟨fun h => ⟨h.requestable, h.allocated⟩, fun h => ⟨h.1, h.2⟩⟩

end

section
variable {status status' : ModbusMaster} {k : ℕ} {model : ModbusModelInfo} {entry : ModbusEntry}

structure Idle (before status : ModbusMaster) : Prop where
  moved : status.frame = none
  kept : status.released = before.released

variable {before : ModbusMaster}

def modelBytes (model : ModbusModelInfo) : List UInt8 :=
  requestBytes model.devAddr model.fn 0 model.regCount

theorem buildRequest_ok (h : Requestable model.fn model.devAddr model.regCount)
    (hidle : Idle before status) :
    (buildRequest status (some k) model).frame = some ⟨k, modelBytes model⟩ ∧
      (buildRequest status (some k) model).length = 8 ∧
      (buildRequest status (some k) model).released = before.released := by
  rw [buildRequest, if_pos h.function, modbusBuildRequest0304_ok h k hidle.moved]
  exact ⟨rfl, rfl, hidle.kept⟩

theorem buildRequest_failed {calloc : Option ℕ}
    (h : ¬ (Requestable model.fn model.devAddr model.regCount ∧ calloc.isSome))
    (hidle : Idle before status) : Idle before (buildRequest status calloc model) := by
  unfold buildRequest
  split_ifs
  · constructor
    · exact (modbusBuildRequest0304_failed h hidle.moved).1
    · exact (modbusBuildRequest0304_failed h hidle.moved).2.trans hidle.kept
  · exact hidle

theorem createEntry_ok {outcome : EntryOutcome} {answer : Option ModbusEntry}
    (h : createEntry status k model outcome = .ok (answer, status')) :
    (answer = none ∧ status' = status) ∨
      ∃ info built, built = buildRequest status (if outcome.frameAllocated then some k else none)
          model ∧ answer = some ⟨info, built.frame⟩ ∧ status' = { built with frame := none } ∧
        info.dataRequest = some (requestOf built) := by
  obtain ⟨info?, hcreate, h⟩ := map_eq_ok h
  cases info? with
  | none =>
    cases h
    exact .inl ⟨rfl, rfl⟩
  | some info =>
    cases h
    obtain ⟨request, hrequest, hinfo⟩ := dataCreate_request hcreate
    cases hrequest
    exact .inr ⟨info, _, rfl, rfl, rfl, hinfo⟩

structure Created (k : ℕ) (model : ModbusModelInfo) (frameAllocated : Bool) (entry : ModbusEntry) :
    Prop where
  own : Requestable model.fn model.devAddr model.regCount ∧ frameAllocated →
    entry.frame = some ⟨k, modelBytes model⟩ ∧
      entry.info.dataRequest = some ⟨modelBytes model, 8⟩
  null : ¬ (Requestable model.fn model.devAddr model.regCount ∧ frameAllocated) →
    entry.frame = none

theorem createEntry_some {outcome : EntryOutcome} (hidle : Idle before status)
    (h : createEntry status k model outcome = .ok (some entry, status')) :
    Idle before status' ∧ Created k model outcome.frameAllocated entry := by
  obtain ⟨hnone, -⟩ | ⟨info, built, hbuilt, hentry, rfl, hrequest⟩ := createEntry_ok h
  · cases hnone
  · obtain rfl := Option.some.inj hentry
    by_cases hframe : Requestable model.fn model.devAddr model.regCount ∧ outcome.frameAllocated
    · rw [if_pos hframe.2] at hbuilt
      obtain ⟨hbytes, hlength, hreleased⟩ := buildRequest_ok (k := k) hframe.1 hidle
      rw [← hbuilt] at hbytes hlength hreleased
      refine ⟨⟨rfl, hreleased⟩, fun _ => ⟨hbytes, ?_⟩, fun hnot => absurd hframe hnot⟩
      rw [hrequest, requestOf, hbytes, hlength]
      rfl
    · have hcalloc : ¬ (Requestable model.fn model.devAddr model.regCount ∧
          (if outcome.frameAllocated then some k else none).isSome) := by
        simpa using hframe
      have hleft := buildRequest_failed hcalloc hidle
      rw [← hbuilt] at hleft
      exact ⟨⟨rfl, hleft.kept⟩, fun h => absurd h hframe, fun _ => hleft.moved⟩

structure Made (outcome : ℕ → EntryOutcome) (k : ℕ) (element : JsonValue) (entry : ModbusEntry) :
    Prop where
  added : (outcome k).added
  model : ∃ modbusObject model, elementObject element = some modbusObject ∧
    parseModbusModelByJson (some modbusObject) (outcome k).modelAllocated = .ok (some model) ∧
    entry.info.modelInfo = some model ∧ Created k model (outcome k).frameAllocated entry

def Skipped (outcome : ℕ → EntryOutcome) (k : ℕ) (element : JsonValue) : Prop :=
  ∀ modbusObject, elementObject element = some modbusObject → (outcome k).added = false

theorem modbusStep_cases {outcome : ℕ → EntryOutcome} {element : JsonValue}
    {verdict : Verdict ModbusEntry}
    (h : modbusStep outcome status k element = .ok (status', verdict)) :
    (elementObject element = none ∧ status' = status ∧ verdict = .skip) ∨
    ∃ modbusObject, elementObject element = some modbusObject ∧
      ((parseModbusModelByJson (some modbusObject) (outcome k).modelAllocated = .ok none ∧
          status' = status ∧ verdict = .refuse) ∨
        ∃ model,
          parseModbusModelByJson (some modbusObject) (outcome k).modelAllocated =
            .ok (some model) ∧
          ((createEntry status k model (outcome k) = .ok (none, status') ∧ verdict = .refuse) ∨
            ∃ entry, createEntry status k model (outcome k) = .ok (some entry, status') ∧
              verdict = if (outcome k).added then
                .add { entry with info := { entry.info with modelInfo := some model } }
              else .skip)) := by
  unfold modbusStep at h
  cases hobject : elementObject element with
  | none =>
    rw [hobject] at h
    cases h
    exact .inl ⟨rfl, rfl, rfl⟩
  | some modbusObject =>
    rw [hobject] at h
    refine .inr ⟨modbusObject, rfl, ?_⟩
    dsimp only at h
    split at h
    · cases h
    next hparse =>
      cases h
      exact .inl ⟨hparse, rfl, rfl⟩
    next model hparse =>
      refine .inr ⟨model, hparse, ?_⟩
      split at h
      · cases h
      next hcreate =>
        cases h
        exact .inl ⟨hcreate, rfl⟩
      next entry s hcreate =>
        cases h
        exact .inr ⟨entry, hcreate, rfl⟩

theorem modbusStep_yields {outcome : ℕ → EntryOutcome} {element : JsonValue}
    {verdict : Verdict ModbusEntry} (hidle : Idle before status)
    (h : modbusStep outcome status k element = .ok (status', verdict)) :
    Idle before status' ∧ (verdict = .skip → Skipped outcome k element) ∧
      ∀ entry, verdict = .add entry → Made outcome k element entry := by
  obtain ⟨hobject, rfl, rfl⟩ | ⟨modbusObject, hobject, h⟩ := modbusStep_cases h
  · refine ⟨hidle, fun _ modbusObject hsome => ?_, fun entry hadd => ?_⟩
    · rw [hobject] at hsome
      cases hsome
    · cases hadd
  · obtain ⟨-, rfl, rfl⟩ | ⟨model, hparse, ⟨hcreate, rfl⟩ | ⟨entry, hcreate, rfl⟩⟩ := h
    · exact ⟨hidle, fun hskip => (by cases hskip), fun entry hadd => (by cases hadd)⟩
    · obtain ⟨-, rfl⟩ | ⟨info, built, -, hnone, -⟩ := createEntry_ok hcreate
      · exact ⟨hidle, fun hskip => (by cases hskip), fun entry hadd => (by cases hadd)⟩
      · cases hnone
    · obtain ⟨hnext, hcreated⟩ := createEntry_some hidle hcreate
      refine ⟨hnext, fun hskip modbusObject' _ => ?_, fun entry' hadd => ?_⟩
      · by_contra hadded
        rw [if_pos (Bool.eq_true_of_not_eq_false hadded)] at hskip
        cases hskip
      · split_ifs at hadd with hadded
        cases hadd
        exact ⟨hadded, modbusObject, model, hobject, hparse, rfl, hcreated.own, hcreated.null⟩

end

section
variable {status status' : ModbusMaster} {models : JsonArray} {outcome : InitOutcome}
  {entries : List ModbusEntry}

theorem modbusInit_yields
    (h : modbusInit status (some models) outcome = .ok (some entries, status')) :
    Idle status status' ∧
      Yields (Made outcome.element) (Skipped outcome.element) 0 models entries := by
  unfold modbusInit at h
  dsimp only at h
  split_ifs at h
  · cases h
  · cases h
  · have hstart : Idle status (modbusMasterInit status) := ⟨rfl, rfl⟩
    refine collectFrom_yields (fun s k element s' verdict => ?_) hstart h
    exact modbusStep_yields

theorem Made.hasFrame {k : ℕ} {element : JsonValue} {entry : ModbusEntry}
    (hmade : Made outcome.element k element entry)
    (hbuildable : ∀ modbusObject, elementObject element = some modbusObject →
      (outcome.element k).added →
        Buildable (some modbusObject) (outcome.element k).frameAllocated) :
    ∃ frame, HasFrame entry frame ∧ frame.call = k := by
  obtain ⟨modbusObject, model, hobject, hparse, hmodel, hcreated⟩ := hmade.model
  have hframe := (buildable_iff hparse _).mp (hbuildable modbusObject hobject hmade.added)
  obtain ⟨hown, hrequest⟩ := hcreated.own hframe
  exact ⟨_, ⟨model, hmodel, hown, rfl, hrequest⟩, rfl⟩

theorem entry_of_model
    (h : modbusInit status (some models) outcome = .ok (some entries, status')) {k : ℕ}
    {element : JsonValue} {modbusObject : JsonObject} (hk : models[k]? = some element)
    (hobject : elementObject element = some modbusObject) (hadded : (outcome.element k).added) :
    ∃ entry ∈ entries, ∃ model,
      parseModbusModelByJson (some modbusObject) (outcome.element k).modelAllocated =
        .ok (some model) ∧
      entry.info.modelInfo = some model ∧
        Created k model (outcome.element k).frameAllocated entry := by
  have hwhere := (modbusInit_yields h).2.of_getElem? hk
  rw [Nat.zero_add] at hwhere
  obtain hskip | ⟨entry, hentry, hmade⟩ := hwhere
  · rw [hskip modbusObject hobject] at hadded
    cases hadded
  · obtain ⟨modbusObject', model, hobject', hparse, hmodel, hcreated⟩ := hmade.model
    obtain rfl : modbusObject = modbusObject' := Option.some.inj (hobject.symm.trans hobject')
    exact ⟨entry, hentry, model, hparse, hmodel, hcreated⟩

/-- In a list that is accepted each entry has its own frame if and only if each model that gets an
entry can be asked for. -/
theorem eachOwns_iff
    (h : modbusInit status (some models) outcome = .ok (some entries, status')) :
    EachOwns status status' entries ↔
      ∀ k element modbusObject, models[k]? = some element →
        elementObject element = some modbusObject → (outcome.element k).added →
          Buildable (some modbusObject) (outcome.element k).frameAllocated := by
  obtain ⟨hidle, hyields⟩ := modbusInit_yields h
  constructor
  · intro howns k element modbusObject hk hobject hadded
    obtain ⟨entry, hentry, model, hparse, -, hcreated⟩ := entry_of_model h hk hobject hadded
    obtain ⟨frame, -, -, hframe, -, -⟩ := howns.owned entry hentry
    rw [buildable_iff hparse]
    by_contra hnot
    rw [hcreated.null hnot] at hframe
    cases hframe
  · intro hbuildable
    have hframes : ∀ k element entry, models[k]? = some element →
        Made outcome.element k element entry → ∃ frame, HasFrame entry frame ∧ frame.call = k :=
      fun k element entry hk hmade =>
        hmade.hasFrame fun modbusObject => hbuildable k element modbusObject hk
    refine ⟨fun entry hentry => ?_, ?_, hidle.moved, hidle.kept⟩
    · obtain ⟨k, element, hk, hmade⟩ := hyields.of_mem hentry
      rw [Nat.zero_add] at hmade
      obtain ⟨frame, hframe, -⟩ := hframes k element entry hk hmade
      exact ⟨frame, hframe⟩
    · refine hyields.pairwise.imp fun hpair => ?_
      obtain ⟨j, k, element, element', hlt, hj, hmade, hk, hmade'⟩ := hpair
      rw [Nat.zero_add] at hmade hmade'
      obtain ⟨frame, ⟨-, -, hframe, -⟩, hcall⟩ := hframes j element _ hj hmade
      obtain ⟨frame', ⟨-, -, hframe', -⟩, hcall'⟩ := hframes k element' _ hk hmade'
      rw [hframe, hframe']
      intro hsame
      have hnumber : j = k := hcall ▸ hcall' ▸ congrArg Frame.call (Option.some.inj hsame)
      exact hlt.ne hnumber

end

/-! A list with a model for function 1 behind one for function 3. -/

def document (fn : Rat) : JsonObject :=
  [("acqMode", .string "realtime"), ("DBTopic", .string "rspData/energy"), ("fn", .number fn),
    ("devAddr", .number 1), ("regGrp", .array [.object [("m", .string "Ua"),
      ("df", .string "u16"), ("math", .string "-1"), ("address", .number 0)]])]

def granted : InitOutcome where
  allocated := true
  listCreated := true
  element := fun _ => ⟨true, ⟨some ⟨none, none, none⟩, some zeroTimeToSend, true⟩, true, true⟩

def freshMaster : ModbusMaster := ⟨none, 0, 0, [], .ok⟩

def bothFunctions : JsonArray := [.object (document 3), .object (document 4)]

theorem eachOwns_iff_document :
    ∃ entries status', modbusInit freshMaster (some bothFunctions) granted =
        .ok (some entries, status') ∧
      (EachOwns freshMaster status' entries ↔
        ∀ k element modbusObject, bothFunctions[k]? = some element →
          elementObject element = some modbusObject → (granted.element k).added →
            Buildable (some modbusObject) (granted.element k).frameAllocated) :=
  ⟨_, _, rfl, eachOwns_iff rfl⟩

/-- The second entry has the null pointer, with the length of the first frame. -/
theorem function1_without_frame :
    (∃ entries status', modbusInit freshMaster (some [.object (document 3), .object (document 1)])
        granted = .ok (some entries, status') ∧
      entries.map (·.frame) = [some ⟨0, requestBytes 1 3 0 1⟩, none] ∧
      entries.map (·.info.dataRequest) = [some ⟨requestBytes 1 3 0 1, 8⟩, some ⟨[], 8⟩]) ∧
      ¬ ∀ status models outcome entries status',
        modbusInit status (some models) outcome = .ok (some entries, status') →
          EachOwns status status' entries := by
  have hrun : ∃ entries status', modbusInit freshMaster
      (some [.object (document 3), .object (document 1)]) granted = .ok (some entries, status') ∧
        entries.map (·.frame) = [some ⟨0, requestBytes 1 3 0 1⟩, none] ∧
        entries.map (·.info.dataRequest) =
          [some ⟨requestBytes 1 3 0 1, 8⟩, some ⟨[], 8⟩] := ⟨_, _, rfl, rfl, rfl⟩
  refine ⟨hrun, fun hall => ?_⟩
  obtain ⟨entries, status', hinit, hframes, -⟩ := hrun
  have howns := hall _ _ _ entries status' hinit
  have hnull : none ∈ entries.map (·.frame) := by
    rw [hframes]
    exact List.mem_cons_of_mem _ List.mem_cons_self
  obtain ⟨entry, hentry, hnone⟩ := List.mem_map.mp hnull
  obtain ⟨frame, -, -, hframe, -⟩ := howns.owned entry hentry
  rw [hnone] at hframe
  cases hframe

def modelOutcome (outcome : InitOutcome) : Configuration.InitOutcome where
  allocated := outcome.allocated
  masterInit := true
  listCreated := outcome.listCreated
  element := fun k => {
    allocated := (outcome.element k).modelAllocated
    dataCreated := (outcome.element k).allocations.result.isSome &&
      (outcome.element k).allocations.dataRequest
    added := (outcome.element k).added }

section
variable {status status' : ModbusMaster} {k : ℕ} {model : ModbusModelInfo}

theorem createEntry_isSome {outcome : EntryOutcome} {answer : Option ModbusEntry}
    (h : createEntry status k model outcome = .ok (answer, status')) :
    answer.isSome = (outcome.allocations.result.isSome && outcome.allocations.dataRequest) := by
  obtain ⟨info?, hcreate, h⟩ := map_eq_ok h
  have hsame : answer.isSome = info?.isSome := by
    cases info? <;> cases h <;> rfl
  rw [hsame]
  exact dataCreate_isSome hcreate

end

theorem modbusStep_models {outcome : InitOutcome} {status status' : ModbusMaster} {k : ℕ}
    {element : JsonValue} {verdict : Verdict ModbusEntry}
    (h : modbusStep outcome.element status k element = .ok (status', verdict)) :
    ∃ verdict', Configuration.modbusStep (modelOutcome outcome).element k element = .ok verdict' ∧
      verdict.map (·.info.modelInfo) = verdict'.map some := by
  have hallocated : ((modelOutcome outcome).element k).allocated =
      (outcome.element k).modelAllocated := rfl
  have hadded : ((modelOutcome outcome).element k).added = (outcome.element k).added := rfl
  unfold Configuration.modbusStep
  obtain ⟨hobject, -, rfl⟩ | ⟨modbusObject, hobject, h⟩ := modbusStep_cases h
  · rw [hobject]
    exact ⟨.skip, rfl, rfl⟩
  · rw [hobject]
    dsimp only
    rw [hallocated]
    obtain ⟨hparse, -, rfl⟩ | ⟨model, hparse, ⟨hcreate, rfl⟩ | ⟨entry, hcreate, rfl⟩⟩ := h
    · rw [hparse]
      exact ⟨.refuse, rfl, rfl⟩
    · have hcreated : ((modelOutcome outcome).element k).dataCreated = false :=
        (createEntry_isSome hcreate).symm
      rw [hparse]
      exact ⟨.refuse, by simp [Except.map, hcreated], rfl⟩
    · have hcreated : ((modelOutcome outcome).element k).dataCreated = true :=
        (createEntry_isSome hcreate).symm
      rw [hparse]
      simp only [Except.map, hcreated, hadded]
      cases (outcome.element k).added with
      | false => exact ⟨.skip, rfl, rfl⟩
      | true => exact ⟨.add model, rfl, rfl⟩

/-- The models of the entries are those that the loop over the models alone collects. -/
theorem modbusInit_models {status status' : ModbusMaster} {models : Option JsonArray}
    {outcome : InitOutcome} {result : Option (List ModbusEntry)}
    (h : modbusInit status models outcome = .ok (result, status')) :
    ∃ collected : Option (List ModbusModelInfo),
      Configuration.modbusInit models (modelOutcome outcome) = .ok (collected.map .modbus) ∧
      result.map (List.map (·.info.modelInfo)) = collected.map (List.map some) := by
  unfold modbusInit at h
  unfold Configuration.modbusInit
  cases models with
  | none =>
    cases h
    exact ⟨none, rfl, rfl⟩
  | some models =>
    dsimp only at h ⊢
    split_ifs at h with hallocated hcreated
    · cases h
      exact ⟨none, by simp [modelOutcome, hallocated], rfl⟩
    · cases h
      exact ⟨none, by simp [modelOutcome, hcreated], rfl⟩
    · have hstep : ∀ s k element s' verdict,
          modbusStep outcome.element s k element = .ok (s', verdict) →
            ∃ verdict', Configuration.modbusStep (modelOutcome outcome).element k element =
              .ok verdict' ∧ verdict.map (·.info.modelInfo) = verdict'.map some :=
        fun _ _ _ _ _ => modbusStep_models
      obtain ⟨collected, hcollect, hsame⟩ := collect_of_collectFrom hstep h
      simp only [Nat.zero_add] at hcollect
      refine ⟨collected, ?_, hsame⟩
      rw [if_neg, hcollect]
      · rfl
      · simp only [Bool.not_eq_true', Bool.not_eq_false] at hallocated hcreated
        simp [modelOutcome, hallocated, hcreated]

end IotEdgeAgent.Modbus.Requests
