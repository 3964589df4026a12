import IotEdgeAgent.Modbus.Requests
import IotEdgeAgent.Modbus.Response

/-!
# The values of the registers

All registers of a model are read with one request, which starts at register 0. `fix_value_by_model`
takes the words of the response one after the other for the registers of the model; the address
that the model gives a register is parsed and never used.
-/

namespace IotEdgeAgent.Modbus.Values
open Collect Parson Protocol Configuration.DataCreate Master Response Requests
open IotEdgeAgent.Configuration hiding InitOutcome modbusInit modbusStep
open ByteWalk (bind_eq_ok)

def reversebytesUint16 (value : UInt16) : UInt16 :=
  (value &&& 0x00FF) <<< 8 ||| (value &&& 0xFF00) >>> 8

def registerValue (tag : RegisterTag) (word : UInt16) : ℤ :=
  let word := if tag.big ≠ 0 then reversebytesUint16 word else word
  if charArray tag.df = "u16" then word.toNat else Int.bmod word.toNat 65536

/-- The values, times ten. -/
def fixValueByModel (fn : UInt8) : List RegisterTag → List UInt8 → Except Undefined (List ℤ)
  | [], _ => .ok []
  | tag :: group, val =>
    if fn = 3 ∨ fn = 4 then
      match val with
      | low :: high :: val =>
        (fixValueByModel fn group val).map (registerValue tag (readWord low high) :: ·)
      | _ => .error .outsideAccess
    else if fn = 1 ∨ fn = 2 then
      match val with
      | byte :: val => (fixValueByModel fn group val).map ((byte.toNat : ℤ) :: ·)
      | [] => .error .outsideAccess
    else .error .uninitialised

/-- The text of a tenth of a number with two decimals, which has room in `res_temp`. -/
def printTenths (value : ℤ) : String :=
  (if value < 0 then "-" else "") ++ toString (value.natAbs / 10) ++ "." ++
    toString (value.natAbs % 10) ++ "0"

structure ParseMemory where
  data : Bool
  payload : Bool
  values : Bool

section
variable (now : String) (memory : ParseMemory)

def constructPayloadByModel (model : ModbusModelInfo) (data : List UInt8) :
    Except Undefined Document :=
  let group := model.mRegister.take model.regCount.toNat
  if !memory.values && !group.isEmpty then .error .nullDereference
  else
    (fixValueByModel model.fn group data).map fun fixedValue =>
      { timestamp := now
        token := "077de87b3a04"
        dataRaw := none
        body := List.zipWith (fun tag value => ⟨charArray tag.m, printTenths value⟩) group
          fixedValue }

def mosbusResponseParse (modelInfo : Option ModbusModelInfo) (dataInfo : Option ModbusEntry)
    (dataResponse : Option DataResponse) : Except Undefined (Option DataPayload) :=
  match modelInfo, dataInfo, dataResponse with
  | some model, some entry, some response =>
    match entry.info.dataRequest with
    | none => .error .nullDereference
    | some request =>
      match modbusParseResponse memory.data ⟨⟨entry.frame.map Frame.bytes, request.length⟩,
          ⟨some response.data, response.length⟩, noData, ⟨0, 0, 0⟩, .ok⟩ with
      | none => .error .outsideAccess
      | some (error, status) =>
        if error ≠ .ok then .ok none
        -- The pointer `res` is set for these types only.
        else if status.data.type.isNone then .error .uninitialised
        else if !memory.payload then .ok none
        else
          -- Nothing can be read where the parser leaves no memory.
          (constructPayloadByModel now memory model (status.data.memory.getD [])).map
            fun payload => some ⟨payload, charArray (model.dbTopic.take 64)⟩
  | _, _, _ => .ok none

end

/-- Whatever the slave holds, what is published under the name of a register is computed from the
register with its address. -/
def RightNames (model : ModbusModelInfo) (entry : ModbusEntry) : Prop :=
  ∀ registers now memory request response payload,
    entry.info.dataRequest = some request →
    answer registers (request.data.take request.length.toNat) = some response →
    mosbusResponseParse now memory (some model) (some entry)
        (some ⟨response, UInt8.ofNat response.length⟩) = .ok (some payload) →
    ∀ i tag, i < model.regCount.toNat → model.mRegister[i]? = some tag →
      payload.payload.body[i]? = some
        ⟨charArray tag.m, printTenths (registerValue tag (registers tag.address.toUInt16))⟩

/-- The registers that are asked for have the addresses 0, 1, 2 and so on. -/
def AddressesInPlace (jsonObject : Option JsonObject) : Prop :=
  ∀ registers i register, jsonObjectDotgetArray jsonObject "regGrp" = some registers →
    registers[i]? = some register → i < (registerCount jsonObject).toNat →
      (toUint8 (jsonObjectDotgetNumber (elementObject register) "address")).toNat = i

theorem fixValueByModel_words {fn : UInt8} (hfn : fn = 3 ∨ fn = 4) (group : List RegisterTag)
    (words : List UInt16) (hlength : group.length ≤ words.length) :
    fixValueByModel fn group (words.flatMap wordBytes) =
      .ok (List.zipWith registerValue group words) := by
  induction group generalizing words with
  | nil => rfl
  | cons tag group ih =>
    cases words with
    | nil => cases hlength
    | cons word words =>
      have hval : (word :: words).flatMap wordBytes =
          Dlt698.LinkFrame.lowByte word :: Dlt698.LinkFrame.highByte word ::
            words.flatMap wordBytes := rfl
      rw [hval, fixValueByModel, if_pos hfn, ih words (Nat.le_of_succ_le_succ hlength),
        readWord_bytes]
      rfl

def publishedBody (registers : UInt16 → UInt16) (model : ModbusModelInfo) : List NamedValue :=
  let group := model.mRegister.take model.regCount.toNat
  List.zipWith (fun tag value => ⟨charArray tag.m, printTenths value⟩) group
    (List.zipWith registerValue group (registersFrom registers 0 model.regCount))

theorem publishedBody_getElem? (registers : UInt16 → UInt16) {model : ModbusModelInfo} {i : ℕ}
    {tag : RegisterTag} (hi : i < model.regCount.toNat) (htag : model.mRegister[i]? = some tag) :
    (publishedBody registers model)[i]? = some
      ⟨charArray tag.m, printTenths (registerValue tag (registers (UInt16.ofNat i)))⟩ := by
  have hgroup : (model.mRegister.take model.regCount.toNat)[i]? = some tag := by
    rw [List.getElem?_take, if_pos hi, htag]
  have hword : (registersFrom registers 0 model.regCount)[i]? =
      some (registers (UInt16.ofNat i)) := by
    rw [registersFrom, List.getElem?_map, List.getElem?_range hi, Option.map_some,
      UInt16.zero_add]
  rw [publishedBody, List.getElem?_zipWith, List.getElem?_zipWith, hgroup, hword]

section
variable {model : ModbusModelInfo} {entry : ModbusEntry} {k : ℕ}
  (now : String) (memory : ParseMemory) (registers : UInt16 → UInt16)

theorem constructPayloadByModel_registers (hfn : model.fn = 3 ∨ model.fn = 4) :
    constructPayloadByModel now memory model
        ((registersRead registers model.devAddr model.fn 0 model.regCount).memory.getD []) =
      if !memory.values && !(model.mRegister.take model.regCount.toNat).isEmpty then
        .error .nullDereference
      else .ok ⟨now, "077de87b3a04", none, publishedBody registers model⟩ := by
  have hlength : (model.mRegister.take model.regCount.toNat).length ≤
      (registersFrom registers 0 model.regCount).length := by
    rw [registersFrom_length]
    exact List.length_take_le _ _
  have hfixed : fixValueByModel model.fn (model.mRegister.take model.regCount.toNat)
      ((registersRead registers model.devAddr model.fn 0 model.regCount).memory.getD []) = _ :=
    fixValueByModel_words hfn _ _ hlength
  unfold constructPayloadByModel
  dsimp only
  rw [hfixed]
  rfl

theorem mosbusResponseParse_answer (hasked : Requestable model.fn model.devAddr model.regCount)
    (hcreated : Created k model true entry) :
    mosbusResponseParse now memory (some model) (some entry)
        (some ⟨responseBytes registers model.devAddr model.fn 0 model.regCount,
          UInt8.ofNat (5 + 2 * model.regCount.toNat)⟩) =
      if !memory.data || !memory.payload then .ok none
      else
        (constructPayloadByModel now memory model
          ((registersRead registers model.devAddr model.fn 0 model.regCount).memory.getD [])).map fun payload =>
            some ⟨payload, charArray (model.dbTopic.take 64)⟩ := by
  obtain ⟨hframe, hrequest⟩ := hcreated.own ⟨hasked, rfl⟩
  obtain ⟨after, hanswer, hdata⟩ :=
    @modbusParseResponse_answer registers model.devAddr model.fn 0 model.regCount hasked memory.data
  have hread : modbusParseResponse memory.data ⟨⟨some (modelBytes model), 8⟩,
      ⟨some (responseBytes registers model.devAddr model.fn 0 model.regCount),
        UInt8.ofNat (5 + 2 * model.regCount.toNat)⟩, noData, ⟨0, 0, 0⟩, .ok⟩ = _ := hanswer
  unfold mosbusResponseParse
  dsimp only
  rw [hrequest, hframe]
  dsimp only [Option.map_some]
  rw [hread]
  cases hallocated : memory.data with
  | false => rfl
  | true =>
    dsimp only
    rw [hdata hallocated]
    cases memory.payload <;> rfl

theorem published_body (hasked : Requestable model.fn model.devAddr model.regCount)
    (hcreated : Created k model true entry) {payload : DataPayload}
    (h : mosbusResponseParse now memory (some model) (some entry)
      (some ⟨responseBytes registers model.devAddr model.fn 0 model.regCount,
        UInt8.ofNat (5 + 2 * model.regCount.toNat)⟩) = .ok (some payload)) :
    payload.payload.body = publishedBody registers model := by
  rw [mosbusResponseParse_answer now memory registers hasked hcreated] at h
  split_ifs at h
  · cases h
  · obtain ⟨document, hdocument, hpayload⟩ := map_eq_ok h
    rw [constructPayloadByModel_registers now memory registers hasked.function] at hdocument
    split_ifs at hdocument
    cases hdocument
    cases hpayload
    rfl

end

theorem registerValue_one (tag : RegisterTag) :
    registerValue tag 1 = 1 ∨ registerValue tag 1 = 256 := by
  have hswapped : reversebytesUint16 1 = 256 := by decide
  unfold registerValue
  dsimp only
  by_cases hbig : tag.big ≠ 0
  · rw [if_pos hbig, hswapped]
    exact .inr (ite_eq_iff'.mpr ⟨fun _ => by decide, fun _ => by decide⟩)
  · rw [if_neg hbig]
    exact .inl (ite_eq_iff'.mpr ⟨fun _ => by decide, fun _ => by decide⟩)

theorem registerValue_zero (tag : RegisterTag) : registerValue tag 0 = 0 := by
  have hswapped : reversebytesUint16 0 = 0 := by decide
  unfold registerValue
  dsimp only
  rw [hswapped, ite_self]
  exact ite_eq_iff'.mpr ⟨fun _ => by decide, fun _ => by decide⟩

theorem address_of_same {tag : RegisterTag} {i : ℕ} (hi : i < 65536)
    (hsame : ∀ registers : UInt16 → UInt16,
      printTenths (registerValue tag (registers (UInt16.ofNat i))) =
        printTenths (registerValue tag (registers tag.address.toUInt16))) :
    tag.address.toNat = i := by
  by_contra hne
  have hother : tag.address.toUInt16 ≠ UInt16.ofNat i := by
    intro heq
    have hnat := congrArg UInt16.toNat heq
    rw [UInt8.toNat_toUInt16, UInt16.toNat_ofNat_of_lt' hi] at hnat
    exact hne hnat
  have hprinted := hsame fun n => if n = UInt16.ofNat i then 0 else 1
  rw [if_pos rfl, if_neg hother, registerValue_zero] at hprinted
  obtain hone | hswapped := registerValue_one tag
  · rw [hone] at hprinted
    exact absurd hprinted (by decide)
  · rw [hswapped] at hprinted
    exact absurd hprinted (by decide)

section
variable {model : ModbusModelInfo} {entry : ModbusEntry} {k : ℕ}

theorem answer_created (hasked : Requestable model.fn model.devAddr model.regCount)
    (hcreated : Created k model true entry) (registers : UInt16 → UInt16) {request : DataRequest}
    {response : List UInt8} (hrequest : entry.info.dataRequest = some request) :
    answer registers (request.data.take request.length.toNat) = some response ↔
      response = responseBytes registers model.devAddr model.fn 0 model.regCount := by
  obtain ⟨-, hbuilt⟩ := hcreated.own ⟨hasked, rfl⟩
  obtain rfl := Option.some.inj (hbuilt.symm.trans hrequest)
  change answer registers (requestBytes model.devAddr model.fn 0 model.regCount) = _ ↔ _
  rw [answer_request, Option.some.injEq, eq_comm]

theorem rightNames_created (hasked : Requestable model.fn model.devAddr model.regCount)
    (hcreated : Created k model true entry) :
    RightNames model entry ↔ ∀ (registers : UInt16 → UInt16) i tag, i < model.regCount.toNat →
      model.mRegister[i]? = some tag →
        printTenths (registerValue tag (registers (UInt16.ofNat i))) =
          printTenths (registerValue tag (registers tag.address.toUInt16)) := by
  obtain ⟨-, hbuilt⟩ := hcreated.own ⟨hasked, rfl⟩
  constructor
  · intro hright registers i tag hi htag
    have hparse : mosbusResponseParse "" ⟨true, true, true⟩
        (some model) (some entry)
        (some ⟨responseBytes registers model.devAddr model.fn 0 model.regCount,
          UInt8.ofNat (responseBytes registers model.devAddr model.fn 0
            model.regCount).length⟩) =
        .ok (some ⟨⟨"", "077de87b3a04", none, publishedBody registers model⟩,
          charArray (model.dbTopic.take 64)⟩) := by
      rw [responseBytes_length, mosbusResponseParse_answer _ _ registers hasked hcreated,
        constructPayloadByModel_registers _ _ registers hasked.function]
      rfl
    have hanswer := (answer_created hasked hcreated registers hbuilt).mpr rfl
    have hbody := hright registers _ _ _ _ _ hbuilt hanswer hparse i tag hi htag
    rw [publishedBody_getElem? registers hi htag] at hbody
    exact (NamedValue.mk.inj (Option.some.inj hbody)).2
  · intro hsame registers now memory request response payload hrequest hanswer hparse i tag
      hi htag
    obtain rfl := (answer_created hasked hcreated registers hrequest).mp hanswer
    rw [responseBytes_length] at hparse
    rw [published_body now memory registers hasked hcreated hparse,
      publishedBody_getElem? registers hi htag, hsame registers i tag hi htag]

theorem rightNames_of_null (hnull : entry.frame = none) : RightNames model entry := by
  intro registers now memory request response payload hrequest hanswer hparse
  unfold mosbusResponseParse at hparse
  dsimp only at hparse
  rw [hrequest, hnull] at hparse
  cases hparse

theorem rightNames_iff {frameAllocated : Bool} (hcreated : Created k model frameAllocated entry) :
    RightNames model entry ↔
      (Requestable model.fn model.devAddr model.regCount ∧ frameAllocated →
        ∀ i tag, i < model.regCount.toNat → model.mRegister[i]? = some tag →
          tag.address.toNat = i) := by
  by_cases hbuilt : Requestable model.fn model.devAddr model.regCount ∧ frameAllocated
  · obtain ⟨hasked, rfl⟩ := hbuilt
    rw [rightNames_created hasked hcreated]
    constructor
    · intro hsame _ i tag hi htag
      have hlt : i < 65536 := hi.trans model.regCount.toNat_lt
      exact address_of_same hlt fun registers => hsame registers i tag hi htag
    · intro hplace registers i tag hi htag
      have haddress : tag.address.toUInt16 = UInt16.ofNat i := by
        rw [← hplace ⟨hasked, rfl⟩ i tag hi htag]
        exact UInt16.ofNat_toNat.symm
      rw [haddress]
  · exact iff_of_true (rightNames_of_null (hcreated.null hbuilt)) fun h => absurd h hbuilt

end

theorem parseRegister_address {register : Option JsonObject} {tag : RegisterTag}
    (h : parseRegister register = .ok tag) :
    tag.address = toUint8 (jsonObjectDotgetNumber register "address") := by
  obtain ⟨m, -, h⟩ := bind_eq_ok h
  obtain ⟨df, -, h⟩ := bind_eq_ok h
  obtain ⟨math, -, h⟩ := bind_eq_ok h
  cases h
  rfl

theorem addressesInPlace_iff {jsonObject : Option JsonObject} {allocated : Bool}
    {model : ModbusModelInfo}
    (h : parseModbusModelByJson jsonObject allocated = .ok (some model)) :
    AddressesInPlace jsonObject ↔ ∀ i tag, i < model.regCount.toNat →
      model.mRegister[i]? = some tag → tag.address.toNat = i := by
  obtain ⟨-, -, hcount⟩ := parseModbus_request h
  obtain ⟨registers, _, _, _, hregisters, hmap, rfl⟩ := parseModbusModelByJson_ok h
  have hat := mapM_getElem? hmap
  rw [AddressesInPlace, hcount]
  constructor
  · intro hplace i tag hi htag
    obtain ⟨register, hregister, hparse⟩ :=
      Option.map_eq_some_iff.mp ((hat i).trans (congrArg (Option.map Except.ok) htag))
    rw [parseRegister_address hparse]
    exact hplace registers i register hregisters hregister hi
  · intro hplace registers' i register hregisters' hregister hi
    obtain rfl : registers = registers' := Option.some.inj (hregisters.symm.trans hregisters')
    obtain ⟨tag, htag, hparse⟩ :=
      Option.map_eq_some_iff.mp ((hat i).symm.trans (congrArg (Option.map _) hregister))
    rw [← parseRegister_address hparse.symm]
    exact hplace i tag hi htag

/-- Every entry that reads registers publishes under the right names. -/
def EachRight (entries : List ModbusEntry) : Prop :=
  ∀ entry ∈ entries, ∀ model, entry.info.modelInfo = some model →
    model.fn = 3 ∨ model.fn = 4 → RightNames model entry

/-- In a list that `modbus_init` accepts, the names are right if and only if the registers of each
model that can be asked for have their places as addresses. -/
theorem eachRight_iff {status status' : ModbusMaster} {models : JsonArray} {outcome : InitOutcome}
    {entries : List ModbusEntry}
    (h : modbusInit status (some models) outcome = .ok (some entries, status')) :
    EachRight entries ↔ ∀ k element modbusObject, models[k]? = some element →
      elementObject element = some modbusObject → (outcome.element k).added →
        Buildable (some modbusObject) (outcome.element k).frameAllocated →
          AddressesInPlace (some modbusObject) := by
  constructor
  · intro hright k element modbusObject hk hobject hadded hbuildable
    obtain ⟨entry, hentry, model, hparse, hmodel, hcreated⟩ := entry_of_model h hk hobject hadded
    have hbuilt := (buildable_iff hparse _).mp hbuildable
    have hnames := hright entry hentry model hmodel hbuilt.1.function
    exact (addressesInPlace_iff hparse).mpr ((rightNames_iff hcreated).mp hnames hbuilt)
  · intro hplace entry hentry model hmodel hfn
    obtain ⟨k, element, hk, hmade⟩ := (modbusInit_yields h).2.of_mem hentry
    rw [Nat.zero_add] at hmade
    obtain ⟨modbusObject, model', hobject, hparse, hmodel', hcreated⟩ := hmade.model
    obtain rfl : model = model' := Option.some.inj (hmodel.symm.trans hmodel')
    refine (rightNames_iff hcreated).mpr fun hbuilt => (addressesInPlace_iff hparse).mp ?_
    exact hplace k element modbusObject hk hobject hmade.added
      ((buildable_iff hparse _).mpr hbuilt)

def documentAt (address : Rat) : JsonObject :=
  [("acqMode", .string "realtime"), ("DBTopic", .string "rspData/energy"), ("fn", .number 3),
    ("devAddr", .number 1), ("regGrp", .array [.object [("m", .string "Ua"),
      ("df", .string "u16"), ("math", .string "-1"), ("address", .number address)]])]

def documentOfThree : JsonObject :=
  [("acqMode", .string "realtime"), ("DBTopic", .string "rspData/energy"), ("fn", .number 3),
    ("devAddr", .number 1), ("regGrp", .array (["Ua", "Ub", "Uc"].zipWith (fun name address =>
      .object [("m", .string name), ("df", .string "u16"), ("math", .string "-1"),
        ("address", .number address)]) [0, 2, 1]))]

theorem eachRight_iff_documentAt :
    ∃ entries status', modbusInit freshMaster
        (some [.object (documentAt 0), .object documentOfThree]) granted =
        .ok (some entries, status') ∧
      (EachRight entries ↔ ∀ k element modbusObject,
        [JsonValue.object (documentAt 0), .object documentOfThree][k]? = some element →
          elementObject element = some modbusObject → (granted.element k).added →
            Buildable (some modbusObject) (granted.element k).frameAllocated →
              AddressesInPlace (some modbusObject)) :=
  ⟨_, _, rfl, eachRight_iff rfl⟩

def registers5 (n : UInt16) : UInt16 := if n = 5 then 1 else 0

set_option maxRecDepth 2000 in
/-- Register 0 is published under the name of register 5. -/
theorem register5_misnamed :
    ∃ entry model status' request response payload,
      modbusInit freshMaster (some [.object (documentAt 5)]) granted =
        .ok (some [entry], status') ∧
      entry.info.modelInfo = some model ∧ entry.info.dataRequest = some request ∧
      answer registers5 (request.data.take request.length.toNat) = some response ∧
      mosbusResponseParse "" ⟨true, true, true⟩ (some model)
        (some entry) (some ⟨response, UInt8.ofNat response.length⟩) = .ok (some payload) ∧
      payload.payload.body = [⟨"Ua", "0.00"⟩] ∧ ¬ EachRight [entry] := by
  refine ⟨_, _, _, _, _, _, rfl, rfl, rfl, rfl, rfl, rfl, fun hright => ?_⟩
  have hnames := hright _ List.mem_cons_self _ rfl (.inl rfl)
  have hval := hnames registers5 "" ⟨true, true, true⟩ _ _ _
    rfl rfl rfl 0 _ (by decide) rfl
  have htext := congrArg (Option.map NamedValue.val) hval
  have hzero : (some "0.00" : Option String) = some "0.10" := htext
  exact absurd hzero (by decide)

end IotEdgeAgent.Modbus.Values
