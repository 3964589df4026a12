import IotEdgeAgent.Modbus.Calls

/-!
# A request and its response

The master builds the frame of a call, the slave carries it out, and the master parses the response:
all together the request is performed on the memory of the slave, and the master learns the answer.
-/

namespace IotEdgeAgent.Modbus.Exchange
open Dlt698.LinkFrame (lowByte highByte)
open Master (ModbusError ModbusMaster modbusMatchEndian wordBytes readWord modbusCRC)
open Response
open Slave (ModbusSlave ModbusSlaveUserFunction modbusParseRequest ModbusExceptionCode WellFormed
  memoryOf Carries Reacts frameOf wordsBytes field)
open Calls (Call)
open BitArray (bits)
open Device (Memory Request Data readPart)
open Refinement (steps)

def wordsIn : List UInt8 → List UInt16
  | low :: high :: memory => readWord low high :: wordsIn memory
  | _ => []

def dataOf (data : ModbusData) : Data :=
  if data.function = 1 ∨ data.function = 2 then
    .bits (bits (data.memory.getD []) data.count.toNat)
  else if data.function = 3 ∨ data.function = 4 then .words (wordsIn (data.memory.getD []))
  else .done

theorem wordsIn_bytes (words : List UInt16) : wordsIn (words.flatMap wordBytes) = words := by
  induction words with
  | nil => rfl
  | cons word words ih =>
    change readWord (lowByte word) (highByte word) :: wordsIn (words.flatMap wordBytes) = _
    rw [Master.readWord_bytes, ih]

section
variable {memory : Memory} {data : Data} {address : UInt8} {payload : List UInt8}

theorem readPart_count {α : Type} {most index count : ℕ} {xs ys : List α}
    (h : readPart most xs index count = .ok ys) : ys.length = count := by
  rw [readPart] at h
  split_ifs at h with hcount hrange
  rw [← Except.ok.inj h, List.length_take, List.length_drop]
  omega

theorem checkBase_same (haddress : address ≠ 0) (function : UInt8)
    (accepted : Except Failure ModbusData) :
    checkBase address function address function accepted = accepted := by
  rw [checkBase, if_neg haddress, if_neg (not_not_intro rfl), if_neg (not_not_intro rfl)]

theorem readPart_map {α : Type} {most index count : ℕ} {xs : List α} {make : List α → Data}
    (h : (readPart most xs index count).map make = .ok data) :
    ∃ list, data = make list ∧ list.length = count := by
  obtain ⟨list, hlist, rfl⟩ := Collect.map_eq_ok h
  exact ⟨list, rfl, readPart_count hlist⟩

theorem performed_bits {function : UInt8} {index count : UInt16}
    (h : (memory.perform (Call.request0102 function index count).request).1 = .ok data) :
    ∃ list, data = .bits list ∧ list.length = count.toNat := by
  rw [Call.request] at h
  split at h
  · exact readPart_map h
  · exact readPart_map h

theorem performed_words {function : UInt8} {index count : UInt16}
    (h : (memory.perform (Call.request0304 function index count).request).1 = .ok data) :
    ∃ list, data = .words list ∧ list.length = count.toNat := by
  rw [Call.request] at h
  split at h
  · exact readPart_map h
  · exact readPart_map h

theorem answer_bits {function : UInt8} {index count : UInt16} {list : List Bool}
    {request tail : List UInt8}
    (h : (Call.request0102 function index count).Good address) (hlist : list.length = count.toNat)
    (hrequest : ∃ c₁ c₂, request = [address, function, highByte index, lowByte index,
      highByte count, lowByte count, c₁, c₂])
    (hcarries : Carries function request payload (.bits list)) (htail : tail.length = 2) :
    ∃ d, modbusParseResponse0102 true request (address :: function :: (payload ++ tail)) = .ok d ∧
      dataOf d = .bits list := by
  obtain ⟨hfunction, haddress, hcount⟩ := h
  obtain ⟨c₁, c₂, rfl⟩ := hrequest
  obtain ⟨values, rfl, hvalues, hbits⟩ := hcarries
  have hsmall : 0 < count.toNat ∧ count.toNat ≤ 2000 := Calls.count_small hcount
  have hbytes := Slave.modbusBitsToBytes_toNat count
  have hnat : (UInt8.ofNat values.length).toNat = values.length := by
    rw [UInt8.toNat_ofNat', Nat.mod_eq_of_lt (by omega)]
  have hlength : ¬ (UInt8.ofNat values.length = 0 ∨ 250 < UInt8.ofNat values.length ∨
      (UInt8.ofNat values.length).toUInt16 ≠ modbusBitsToBytes count) := by
    rw [← UInt8.toNat_inj, UInt8.lt_iff_toNat_lt, Ne, ← UInt16.toNat_inj, UInt8.toNat_toUInt16,
      hnat]
    change ¬ (values.length = 0 ∨ 250 < values.length ∨ _)
    omega
  have hfield : modbusMatchEndian (readWord (highByte count) (lowByte count)) = count :=
    Calls.field_bytes count
  rw [List.cons_append, modbusParseResponse0102,
    if_neg fun hne => hfunction.elim hne.1 hne.2]
  dsimp only
  rw [if_neg (by rw [List.length_append, htail, hnat]; omega), checkBase_same haddress, hfield,
    if_neg hlength, if_neg (by decide)]
  refine ⟨_, rfl, ?_⟩
  rw [dataOf, if_pos hfunction]
  dsimp only
  rw [Option.getD_some, hnat, List.take_left' rfl, ← hlist, hbits]

theorem answer_words {function : UInt8} {index count : UInt16} {list : List UInt16}
    {request tail : List UInt8}
    (h : (Call.request0304 function index count).Good address) (hlist : list.length = count.toNat)
    (hrequest : ∃ c₁ c₂, request = [address, function, highByte index, lowByte index,
      highByte count, lowByte count, c₁, c₂])
    (hcarries : Carries function request payload (.words list)) (htail : tail.length = 2) :
    ∃ d, modbusParseResponse0304 true request (address :: function :: (payload ++ tail)) = .ok d ∧
      dataOf d = .words list := by
  obtain ⟨hfunction, haddress, hcount⟩ := h
  obtain ⟨c₁, c₂, rfl⟩ := hrequest
  have hpayload : payload = UInt8.ofNat (2 * list.length) :: wordsBytes list := hcarries
  have hsmall : 0 < count.toNat ∧ count.toNat ≤ 125 := Calls.count_small hcount
  have hbytes := Calls.wordsBytes_length list
  have hnat : (UInt8.ofNat (2 * list.length)).toNat = 2 * list.length := by
    rw [UInt8.toNat_ofNat', Nat.mod_eq_of_lt (by omega)]
  have hlength : ¬ (UInt8.ofNat (2 * list.length) = 0 ∨ 2 * list.length ≠ 2 * count.toNat ∨
      250 < UInt8.ofNat (2 * list.length)) := by
    rw [← UInt8.toNat_inj, UInt8.lt_iff_toNat_lt, hnat]
    change ¬ (2 * list.length = 0 ∨ _ ∨ 250 < 2 * list.length)
    omega
  have hfield : modbusMatchEndian (readWord (highByte count) (lowByte count)) = count :=
    Calls.field_bytes count
  have hnot : ¬ (function = 1 ∨ function = 2) := by
    obtain rfl | rfl := hfunction <;> decide
  rw [hpayload, List.cons_append, modbusParseResponse0304,
    if_neg fun hne => hfunction.elim hne.1 hne.2]
  dsimp only
  rw [if_neg (by rw [List.length_append, htail, hnat, hbytes]; omega), checkBase_same haddress,
    hfield, hnat, if_neg hlength, if_neg (by decide)]
  refine ⟨_, rfl, ?_⟩
  rw [dataOf, if_neg hnot, if_pos hfunction]
  dsimp only
  rw [Option.getD_some, List.take_left' hbytes, wordsBytes, Response.copyRegisters_words,
    wordsIn_bytes]

theorem answer_coil {b₁ b₂ b₃ b₄ : UInt8} (haddress : address ≠ 0) (c t : UInt16) :
    ∃ d, modbusParseResponse05 true ([address, 5, b₁, b₂, b₃, b₄] ++ wordBytes c)
      ([address, 5, b₁, b₂, b₃, b₄] ++ wordBytes t) = .ok d ∧ dataOf d = .done := by
  change ∃ d, modbusParseResponse05 true [address, 5, b₁, b₂, b₃, b₄, lowByte c, highByte c]
    [address, 5, b₁, b₂, b₃, b₄, lowByte t, highByte t] = .ok d ∧ dataOf d = .done
  rw [modbusParseResponse05, checkBase_same haddress, if_neg (not_not_intro rfl),
    if_neg (not_not_intro rfl)]
  exact ⟨_, rfl, rfl⟩

theorem answer_register {b₁ b₂ b₃ b₄ : UInt8} (haddress : address ≠ 0) (c t : UInt16) :
    ∃ d, modbusParseResponse06 true ([address, 6, b₁, b₂, b₃, b₄] ++ wordBytes c)
      ([address, 6, b₁, b₂, b₃, b₄] ++ wordBytes t) = .ok d ∧ dataOf d = .done := by
  change ∃ d, modbusParseResponse06 true [address, 6, b₁, b₂, b₃, b₄, lowByte c, highByte c]
    [address, 6, b₁, b₂, b₃, b₄, lowByte t, highByte t] = .ok d ∧ dataOf d = .done
  rw [modbusParseResponse06, checkBase_same haddress, if_neg (not_not_intro rfl),
    if_neg (not_not_intro rfl)]
  exact ⟨_, rfl, rfl⟩

theorem answer_written {number function : UInt8} {type : Response.ModbusDataType}
    {most index count : UInt16} {length : UInt8} {values : List UInt8} (haddress : address ≠ 0)
    (hnumber : number ≠ 1 ∧ number ≠ 2 ∧ number ≠ 3 ∧ number ≠ 4) (hcount : ¬ most < count)
    (hlength : 7 + values.length = 9 + length.toNat) (t : UInt16) :
    ∃ d, parseWritten number type most (address :: function :: highByte index :: lowByte index ::
        highByte count :: lowByte count :: length :: values)
      ([address, function, highByte index, lowByte index, highByte count, lowByte count] ++
        wordBytes t) = .ok d ∧ dataOf d = .done := by
  have hfield : modbusMatchEndian (readWord (highByte count) (lowByte count)) = count :=
    Calls.field_bytes count
  change ∃ d, parseWritten number type most _ [address, function, highByte index, lowByte index,
    highByte count, lowByte count, lowByte t, highByte t] = .ok d ∧ dataOf d = .done
  rw [parseWritten, if_neg (not_not_intro hlength)]
  dsimp only
  rw [checkBase_same haddress, if_neg (not_not_intro rfl), if_neg (not_not_intro rfl), hfield,
    if_neg hcount]
  refine ⟨_, rfl, ?_⟩
  rw [dataOf, if_neg (not_or.mpr ⟨hnumber.1, hnumber.2.1⟩), if_neg (not_or.mpr hnumber.2.2)]

theorem answer_masked {b₁ b₂ b₃ b₄ b₅ b₆ : UInt8} (haddress : address ≠ 0) (c t : UInt16) :
    ∃ d, modbusParseResponse22 ([address, 22, b₁, b₂, b₃, b₄, b₅, b₆] ++ wordBytes c)
      ([address, 22, b₁, b₂, b₃, b₄, b₅, b₆] ++ wordBytes t) = .ok d ∧ dataOf d = .done := by
  change ∃ d, modbusParseResponse22
    [address, 22, b₁, b₂, b₃, b₄, b₅, b₆, lowByte c, highByte c]
    [address, 22, b₁, b₂, b₃, b₄, b₅, b₆, lowByte t, highByte t] = .ok d ∧ dataOf d = .done
  rw [modbusParseResponse22, checkBase_same haddress, if_neg (not_not_intro rfl),
    if_neg (not_or.mpr ⟨not_not_intro rfl, not_not_intro rfl⟩)]
  exact ⟨_, rfl, rfl⟩

theorem builtin_answer {call : Call} (h : call.Good address) (haddress : address ≠ 0)
    (hperform : (memory.perform call.request).1 = .ok data)
    (hcarries : Carries call.function (call.bytes address) payload data) (crc : UInt16) :
    ∃ d, builtin true call.function (call.bytes address)
        (address :: call.function :: (payload ++ wordBytes crc)) = .ok d ∧ dataOf d = data := by
  cases call with
  | request0102 function index count =>
    obtain ⟨list, rfl, hlist⟩ := performed_bits hperform
    rw [builtin, Call.function, if_pos h.1]
    exact answer_bits h hlist ⟨_, _, rfl⟩ hcarries rfl
  | request0304 function index count =>
    obtain ⟨list, rfl, hlist⟩ := performed_words hperform
    have hnot : ¬ (function = 1 ∨ function = 2) := by
      obtain rfl | rfl := h.1 <;> decide
    rw [builtin, Call.function, if_neg hnot, if_pos h.1]
    exact answer_words h hlist ⟨_, _, rfl⟩ hcarries rfl
  | request05 index value =>
    obtain rfl := Device.setCoils_data hperform
    rw [show payload = _ from hcarries]
    exact answer_coil haddress (modbusCRC ((Call.request05 index value).head address)) crc
  | request06 index value =>
    obtain rfl := Device.setRegisters_data hperform
    rw [show payload = _ from hcarries]
    exact answer_register haddress (modbusCRC ((Call.request06 index value).head address)) crc
  | request15 index count values =>
    obtain rfl := Device.setCoils_data hperform
    rw [show payload = _ from hcarries]
    have hcount : _ ∧ count.toNat ≤ 1968 := Calls.count_small h.1
    have hbytes := Slave.modbusBitsToBytes_toNat count
    refine answer_written haddress (by decide) (fun hmore => h.1 (Or.inr hmore)) ?_ crc
    change 7 + (values.take (modbusBitsToBytes count).toNat ++ wordBytes _).length = _
    rw [List.length_append, List.length_take, Nat.min_eq_left h.2, UInt8.toNat_ofNat',
      Nat.mod_eq_of_lt (by omega), Master.wordBytes_length]
    omega
  | request16 index count values =>
    obtain rfl := Device.setRegisters_data hperform
    rw [show payload = _ from hcarries]
    have hcount : _ ∧ count.toNat ≤ 123 := Calls.count_small h.1
    refine answer_written haddress (by decide) (fun hmore => h.1 (Or.inr hmore)) ?_ crc
    change 7 + (wordsBytes (values.take count.toNat) ++ wordBytes _).length = _
    rw [List.length_append, Calls.wordsBytes_length, List.length_take, Nat.min_eq_left h.2,
      UInt8.toNat_ofNat', Nat.mod_eq_of_lt (by omega), Master.wordBytes_length]
    omega
  | request22 index andmask ormask =>
    obtain rfl := Device.setRegisters_data hperform
    rw [show payload = _ from hcarries]
    exact answer_masked haddress
      (modbusCRC ((Call.request22 index andmask ormask).head address)) crc

end

def codeOf (code : UInt8) : ModbusExceptionCode :=
  if code = 1 then .illegalFunction
  else if code = 2 then .illegalAddress
  else if code = 3 then .illegalValue
  else .slaveFailure

theorem codeOf_toByte (code : ModbusExceptionCode) : codeOf code.toByte = code := by
  cases code <;> rfl

/-- What the user of the master learns of the slave, if anything. -/
def learned (result : ModbusError × Reception) : Option (Except ModbusExceptionCode Data) :=
  match result.1 with
  | .ok => some (.ok (dataOf result.2.data))
  | .exception => some (.error (codeOf result.2.exception.code))
  | _ => none

def requestOf (master : ModbusMaster) : Message :=
  ⟨master.frame.map Master.Frame.bytes, master.length⟩

/-- A call over a line that loses nothing; the number is that of the call of `calloc`. -/
def exchange (userFunctions : List ModbusSlaveUserFunction) (address : UInt8)
    (s : ModbusMaster × ModbusSlave) (call : ℕ × Call) :
    Option ((ModbusError × Reception) × ModbusMaster × ModbusSlave) := do
  let (_, master) ← call.2.build s.1 (some call.1) address
  let (_, slave) ← modbusParseRequest userFunctions true { s.2 with request := requestOf master }
  let result ← modbusParseResponse true
    ⟨requestOf master, slave.response, noData, ⟨0, 0, 0⟩, .ok⟩
  return (result, master, slave)

def messageOf (address : UInt8) (call : Call) : Message :=
  ⟨some (call.bytes address), UInt8.ofNat (call.bytes address).length⟩

section
variable {address : UInt8} {call : Call}

theorem message_length (h : call.Good address) :
    (messageOf address call).length.toNat = (call.bytes address).length := by
  have hbody := Calls.body_length h
  have hbytes := Calls.bytes_length address call
  rw [messageOf, UInt8.toNat_ofNat', Nat.mod_eq_of_lt (by omega)]

theorem parse_call (h : call.Good address) {slave : ModbusSlave} (hs : WellFormed slave)
    (haddress : slave.address = address) {userFunctions : List ModbusSlaveUserFunction}
    (hplain : ∀ user ∈ userFunctions, user.function ≠ call.function) :
    ∃ outcome, modbusParseRequest userFunctions true
        { slave with request := messageOf address call } = some outcome ∧
      Reacts (Slave.cleared { slave with request := messageOf address call }) true address
        call.function (call.bytes address) (some call.request) outcome := by
  have hbytes := Calls.bytes_length address call
  have hlength := message_length h
  have hclear : WellFormed (Slave.cleared { slave with request := messageOf address call }) :=
    { hs with }
  have hshort : ¬ (messageOf address call).length < 4 := by
    rw [UInt8.lt_iff_toNat_lt, hlength, hbytes]
    exact Nat.not_lt.mpr (Nat.le_add_left 4 _)
  have hfind : (userFunctions.find? fun user => user.function == call.function) = none :=
    List.find?_eq_none.mpr fun user huser => by simpa using hplain user huser
  have hgiven : Slave.Given (Slave.cleared { slave with request := messageOf address call })
      address call.function (call.body ++ wordBytes (modbusCRC (call.head address))) :=
    ⟨hclear, rfl, hlength⟩
  obtain ⟨outcome, houtcome, hreacts⟩ := Slave.builtin_reacts hgiven true
  rw [← Calls.bytes_cons, Calls.decode_bytes h] at hreacts
  refine ⟨outcome, ?_, hreacts⟩
  have hframe : (messageOf address call).frame = some (call.bytes address) := rfl
  have hcrc : checksumOk (call.bytes address) = true := Response.checksumOk_append _
  unfold modbusParseRequest
  dsimp only
  rw [hframe]
  dsimp only
  rw [if_neg hshort, hlength, if_neg (Nat.lt_irrefl _), List.take_length, hcrc,
    if_neg (by decide), Calls.bytes_cons]
  dsimp only
  rw [if_neg fun hforeign => hforeign.1 haddress.symm, hfind]
  exact houtcome

def received (address : UInt8) (call : Call) (response : Message) : Reception :=
  ⟨messageOf address call, response, noData, ⟨0, 0, 0⟩, .ok⟩

theorem parse_frame (h : call.Good address) (function : UInt8) {payload : List UInt8}
    (hsmall : payload.length ≤ 251) (hsome : payload ≠ []) :
    modbusParseResponse true (received address call (frameOf (address :: function :: payload))) =
      if function &&& 128 ≠ 0 ∧ payload.length + 4 = 5 then
        some (.exception, { received address call (frameOf (address :: function :: payload)) with
          exception := ⟨address, function, payload.headD 0⟩ })
      else
        match builtin true function (call.bytes address) (address :: function :: (payload ++
            wordBytes (modbusCRC (address :: function :: payload)))) with
        | .error (.frame error) => some (.parse,
            { received address call (frameOf (address :: function :: payload)) with
              parseError := error })
        | .error .alloc =>
          some (.alloc, received address call (frameOf (address :: function :: payload)))
        | .ok data => some (.ok,
            { received address call (frameOf (address :: function :: payload)) with
              data := data }) := by
  obtain ⟨code, rest, rfl⟩ := List.exists_cons_of_ne_nil hsome
  rw [List.length_cons] at hsmall
  have hbytes := Calls.bytes_length address call
  have hrequest := message_length h
  have hresponse : (frameOf (address :: function :: code :: rest)).length.toNat =
      rest.length + 5 := by
    rw [frameOf, UInt8.toNat_ofNat', List.length_cons, List.length_cons, List.length_cons,
      Nat.mod_eq_of_lt (by omega)]
  have hwhole : (address :: function :: code :: rest ++
      wordBytes (modbusCRC (address :: function :: code :: rest))).length = rest.length + 5 := by
    rw [List.length_append, Master.wordBytes_length]
    rfl
  have hlong : ¬ ((frameOf (address :: function :: code :: rest)).length < 4 ∨
      (messageOf address call).length < 4) := by
    rw [UInt8.lt_iff_toNat_lt, UInt8.lt_iff_toNat_lt, hresponse, hrequest, hbytes]
    change ¬ (rest.length + 5 < 4 ∨ call.body.length + 4 < 4)
    omega
  have hcrc : checksumOk (call.bytes address) = true := Response.checksumOk_append _
  have hcrc' : checksumOk (address :: function :: code :: rest ++
      wordBytes (modbusCRC (address :: function :: code :: rest))) = true :=
    Response.checksumOk_append _
  have hframe : (messageOf address call).frame = some (call.bytes address) := rfl
  have hframe' : (frameOf (address :: function :: code :: rest)).frame =
      some (address :: function :: code :: rest ++
        wordBytes (modbusCRC (address :: function :: code :: rest))) := rfl
  unfold modbusParseResponse received
  dsimp only
  rw [hframe, hframe']
  dsimp only
  rw [if_neg hlong, hresponse, hrequest, hwhole,
    if_neg (by omega : ¬ (rest.length + 5 < rest.length + 5 ∨
      (call.bytes address).length < (call.bytes address).length)),
    List.take_length, List.take_of_length_le (Nat.le_of_eq hwhole), hcrc, hcrc',
    if_neg (by decide), hwhole]
  rfl

theorem exception_sent {s : ModbusSlave} (haddress : address ≠ 0)
    (hhead : s.request.frame.bind List.head? = some address) (function : UInt8)
    (code : ModbusExceptionCode) (error : Master.ModbusFrameError) :
    (Slave.modbusBuildExceptionErr s true function code error).2.response =
      frameOf [s.address, (1 : UInt8) <<< 7 ||| function, code.toByte] := by
  have hnot : ¬ s.request.frame.bind List.head? = some 0 := fun h =>
    haddress (Option.some.inj (hhead.symm.trans h))
  unfold Slave.modbusBuildExceptionErr Slave.modbusBuildException
  dsimp only
  rw [if_neg hnot, if_neg (by decide)]

theorem exceptionErr_memory {s : ModbusSlave} (allocated : Bool) (function : UInt8)
    (code : ModbusExceptionCode) (error : Master.ModbusFrameError) :
    memoryOf (Slave.modbusBuildExceptionErr s allocated function code error).2 = memoryOf s := by
  unfold Slave.modbusBuildExceptionErr Slave.modbusBuildException
  dsimp only
  split_ifs <;> rfl

theorem flag_supported : ∀ function ∈ Slave.supported,
    function &&& 128 = 0 ∧ ((1 : UInt8) <<< 7 ||| function) &&& 128 ≠ 0 := by
  intro function h
  simp only [Slave.supported, List.mem_cons, List.not_mem_nil, or_false] at h
  obtain rfl | rfl | rfl | rfl | rfl | rfl | rfl | rfl | rfl := h <;>
  exact ⟨by decide, by decide⟩

theorem carries_ne_nil {payload : List UInt8} {data : Data}
    (hcarries : Carries call.function (call.bytes address) payload data) : payload ≠ [] := by
  cases data with
  | bits list =>
    obtain ⟨values, rfl, -⟩ := hcarries
    exact List.cons_ne_nil _ _
  | words list =>
    rw [show payload = _ from hcarries]
    exact List.cons_ne_nil _ _
  | done =>
    rw [show payload = _ from hcarries, ← List.length_pos_iff, List.length_take,
      List.length_drop, Calls.bytes_length]
    split <;> omega

structure Answered (address : UInt8) (call : Call) (before after : ModbusSlave) : Prop where
  follows : Slave.Follows before after
  response : ∃ body, after.response = frameOf body ∧ 2 ≤ body.length ∧ body.length ≤ 253
  learned : ∃ result answer, modbusParseResponse true (received address call after.response) =
      some result ∧ learned result = some answer ∧
    (memoryOf before).perform call.request = (answer, memoryOf after)

theorem call_answered (h : call.Good address) (haddress : address ≠ 0)
    {userFunctions : List ModbusSlaveUserFunction}
    (hplain : ∀ user ∈ userFunctions, user.function ≠ call.function) {before : ModbusSlave}
    (hs : WellFormed before) (hslave : before.address = address) :
    ∃ error after, modbusParseRequest userFunctions true
        { before with request := messageOf address call } = some (error, after) ∧
      Answered address call before after := by
  obtain ⟨⟨error, after⟩, hparse, hreacts⟩ := parse_call h hs hslave hplain
  have hclear : WellFormed (Slave.cleared { before with request := messageOf address call }) :=
    { hs with }
  have hallowed := (Slave.reacts_allowed hclear rfl hreacts).follows
  have hfollows : Slave.Follows before after := ⟨hallowed.wellFormed, hallowed.address⟩
  have hflag := flag_supported call.function (Calls.function_supported h)
  refine ⟨error, after, hparse, ?_⟩
  generalize houtcome : (error, after) = outcome at hreacts
  cases hreacts with
  | silent error' hall hread => exact absurd hall haddress
  | starved hstarved => cases hstarved
  | @refused _ code error' hrefuses =>
    have hperform : (memoryOf before).perform call.request = (.error code, memoryOf before) :=
      hrefuses
    have hmemory := @exceptionErr_memory
      (Slave.cleared { before with request := messageOf address call }) true call.function code
      error'
    have hsent := @exception_sent address
      (Slave.cleared { before with request := messageOf address call }) haddress rfl call.function
      code error'
    have hparsed := @parse_frame address call h ((1 : UInt8) <<< 7 ||| call.function)
      [code.toByte] (Nat.le_of_ble_eq_true rfl) (List.cons_ne_nil _ _)
    rw [← houtcome] at hmemory hsent
    have hresponse : after.response =
        frameOf [address, (1 : UInt8) <<< 7 ||| call.function, code.toByte] :=
      hsent.trans (congrArg
        (fun a => frameOf [a, (1 : UInt8) <<< 7 ||| call.function, code.toByte]) hslave)
    rw [if_pos ⟨hflag.2, rfl⟩, ← hresponse] at hparsed
    refine ⟨hfollows, ⟨_, hresponse, Nat.le_of_ble_eq_true rfl, Nat.le_of_ble_eq_true rfl⟩,
      _, .error code, hparsed, ?_, ?_⟩
    · exact congrArg (fun code => some (Except.error code)) (codeOf_toByte code)
    · rw [hperform, show memoryOf after = memoryOf before from hmemory]
  | @performed _ data after payload hallocated hperform hcarries hfollows' hbroadcast hresponse =>
    cases houtcome
    have hperform' : (memoryOf before).perform call.request = (.ok data, memoryOf after) := hperform
    have hsmall := Slave.carries_small hperform hcarries
    obtain ⟨d, hd, hdata⟩ := builtin_answer h haddress (congrArg Prod.fst hperform') hcarries
      (modbusCRC (address :: call.function :: payload))
    have hparsed := parse_frame h call.function hsmall (carries_ne_nil hcarries)
    rw [if_neg fun hboth => hboth.1 hflag.1, hd] at hparsed
    have hsent : after.response = frameOf (address :: call.function :: payload) :=
      (hresponse haddress).trans
        (congrArg (fun a => frameOf (a :: call.function :: payload)) hslave)
    rw [← hsent] at hparsed
    refine ⟨hfollows, ⟨_, hsent, Nat.le_add_left 2 _, Nat.add_le_add_right hsmall 2⟩, _, .ok data,
      hparsed, ?_, hperform'⟩
    exact congrArg (fun data => some (Except.ok data)) hdata

theorem message_sent (h : call.Good address) (k : ℕ) (master : ModbusMaster) :
    ∃ master', call.build master (some k) address = some (.ok, master') ∧
      requestOf master' = messageOf address call := by
  obtain ⟨master', hbuild, hframe, hlength⟩ := @Calls.build_good master address call h k
  refine ⟨master', hbuild, ?_⟩
  rw [requestOf, hframe, hlength]
  rfl

def told (memory : Memory) (request : Request) :
    Option (Except ModbusExceptionCode Data) × Memory :=
  (some (memory.perform request).1, (memory.perform request).2)

theorem exchange_performs (h : call.Good address) (haddress : address ≠ 0)
    {userFunctions : List ModbusSlaveUserFunction}
    (hplain : ∀ user ∈ userFunctions, user.function ≠ call.function) (k : ℕ)
    {s : ModbusMaster × ModbusSlave} (hs : WellFormed s.2) (hslave : s.2.address = address) :
    ∃ result t, exchange userFunctions address s (k, call) = some (result, t) ∧
      Slave.Follows s.2 t.2 ∧
      told (memoryOf s.2) call.request = (learned result, memoryOf t.2) := by
  obtain ⟨master, hbuild, hmessage⟩ := message_sent h k s.1
  obtain ⟨error, after, hparse, hanswered⟩ := call_answered h haddress hplain hs hslave
  obtain ⟨result, answer, hresult, hlearned, hperform⟩ := hanswered.learned
  refine ⟨result, (master, after), ?_, hanswered.follows, by rw [told, hperform, hlearned]⟩
  rw [exchange, hbuild]
  change (modbusParseRequest userFunctions true
    { s.2 with request := requestOf master }).bind _ = _
  rw [hmessage, hparse, Option.bind_some]
  change (modbusParseResponse true (received address call after.response)).bind _ = _
  rw [hresult]
  rfl

/-- Calls over a line that loses nothing are performed one after the other, and the master learns
all the answers. -/
theorem calls_performed (haddress : address ≠ 0)
    {userFunctions : List ModbusSlaveUserFunction} {s : ModbusMaster × ModbusSlave}
    (hs : WellFormed s.2) (hslave : s.2.address = address) {calls : List (ℕ × Call)}
    (hgood : ∀ call ∈ calls, call.2.Good address)
    (hplain : ∀ call ∈ calls, ∀ user ∈ userFunctions, user.function ≠ call.2.function) :
    ∃ results answers t, steps (exchange userFunctions address) s calls = some (results, t) ∧
      results.map learned = answers.map some ∧
      (memoryOf s.2).run (calls.map fun call => call.2.request) = (answers, memoryOf t.2) := by
  have hstep : ∀ (t : ModbusMaster × ModbusSlave) (call : ℕ × Call),
      (WellFormed t.2 ∧ t.2.address = address) →
      (call.2.Good address ∧ ∀ user ∈ userFunctions, user.function ≠ call.2.function) →
      ∃ result u, exchange userFunctions address t call = some (result, u) ∧
        (WellFormed u.2 ∧ u.2.address = address) ∧
        told (memoryOf t.2) call.2.request = (learned result, memoryOf u.2) := by
    intro t call ht hcall
    obtain ⟨result, u, hexchange, hfollows, hperform⟩ :=
      exchange_performs hcall.1 haddress hcall.2 call.1 ht.1 ht.2
    exact ⟨result, u, hexchange,
      ⟨hfollows.wellFormed, hfollows.address.trans ht.2⟩, hperform⟩
  obtain ⟨results, t, hsteps, -, hanswers⟩ := Refinement.steps_answer hstep ⟨hs, hslave⟩
    fun call hcall => ⟨hgood call hcall, hplain call hcall⟩
  obtain ⟨hlearned, hmemory⟩ := Prod.mk.inj (hanswers.symm.trans (Refinement.answers_map some))
  exact ⟨results, _, t, hsteps, hlearned, Prod.ext rfl hmemory.symm⟩

def onLine : ModbusMaster × ModbusSlave := (⟨none, 0, 0, [], .ok⟩, Slave.twoRegisters)

def writeAndRead : List (ℕ × Call) := [(0, .request06 1 5), (1, .request0304 3 0 2)]

theorem writeAndRead_good : ∀ call ∈ writeAndRead, call.2.Good 1 :=
  List.forall_mem_cons.mpr ⟨trivial, List.forall_mem_cons.mpr
    ⟨⟨Or.inl rfl, by decide, by decide⟩, List.forall_mem_nil _⟩⟩

theorem calls_performed_onLine :
    ∃ results answers t, steps (exchange [] 1) onLine writeAndRead = some (results, t) ∧
      results.map learned = answers.map some ∧
      (memoryOf onLine.2).run (writeAndRead.map fun call => call.2.request) =
        (answers, memoryOf t.2) :=
  @calls_performed 1 (by decide) [] onLine Slave.twoRegisters_wellFormed rfl writeAndRead
    writeAndRead_good fun _ _ _ h => by cases h

end

end IotEdgeAgent.Modbus.Exchange
