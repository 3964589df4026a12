import IotEdgeAgent.Modbus.Master

/-!
# What the master makes of a response

`modbusParseResponse` with the parsers of all functions: a response is taken if it belongs to the
request, and an exception is told apart from it. A slave answers a request with the contents of the
registers that it names; the parser puts them into memory one behind the other, in the order of the
request.
-/

namespace IotEdgeAgent.Modbus.Response
open Dlt698.LinkFrame (lowByte highByte)
open Master

inductive ModbusDataType
  | holdingRegister
  | inputRegister
  | coil
  | discreteInput
  deriving DecidableEq, Repr

structure Message where
  frame : Option (List UInt8)
  length : UInt8

def checksumOk (frame : List UInt8) : Bool :=
  frame.drop (frame.length - 2) == wordBytes (modbusCRC (frame.take (frame.length - 2)))

def copyRegisters : List UInt8 → List UInt8
  | low :: high :: values =>
    wordBytes (modbusMatchEndian (readWord low high)) ++ copyRegisters values
  | _ => []

def modbusBitsToBytes (n : UInt16) : UInt16 := if n ≠ 0 then (1 : UInt16) + (n - 1) >>> 3 else 0

structure ModbusData where
  address : UInt8
  index : UInt16
  count : UInt16
  length : UInt8
  type : Option ModbusDataType
  function : UInt8
  memory : Option (List UInt8)
  deriving DecidableEq, Repr

structure ModbusException where
  address : UInt8
  function : UInt8
  code : UInt8
  deriving DecidableEq, Repr

structure Reception where
  request : Message
  response : Message
  data : ModbusData
  exception : ModbusException
  parseError : ModbusFrameError

inductive Failure
  | frame (error : ModbusFrameError)
  | alloc
  deriving DecidableEq, Repr

def checkBase (address function reqAddress reqFunction : UInt8)
    (accepted : Except Failure ModbusData) : Except Failure ModbusData :=
  if address = 0 then .error (.frame .broadcast)
  else if address ≠ reqAddress then .error (.frame .mismAddr)
  else if function ≠ reqFunction then .error (.frame .mismFun)
  else accepted

section
variable (allocated : Bool)

def modbusParseResponse0102 (request : List UInt8) : List UInt8 → Except Failure ModbusData
  | address :: function :: length :: values =>
    if function ≠ 1 ∧ function ≠ 2 then .error (.frame .badfun)
    else
      match request with
      | [reqAddress, reqFunction, indexHigh, indexLow, countHigh, countLow, _, _] =>
        if 3 + values.length ≠ 5 + length.toNat then .error (.frame .length)
        else
          let count := modbusMatchEndian (readWord countHigh countLow)
          checkBase address function reqAddress reqFunction <|
            if length = 0 ∨ 250 < length ∨ length.toUInt16 ≠ modbusBitsToBytes count then
              .error (.frame .length)
            else if !allocated then .error .alloc
            else .ok {
              function := function
              address := address
              type := some (if function = 1 then .coil else .discreteInput)
              index := modbusMatchEndian (readWord indexHigh indexLow)
              count := count
              length := length
              memory := some (values.take length.toNat) }
      | _ => .error (.frame .length)
  | _ => .error (.frame .length)

def modbusParseResponse0304 (request : List UInt8) : List UInt8 → Except Failure ModbusData
  | address :: function :: length :: values =>
    if function ≠ 3 ∧ function ≠ 4 then .error (.frame .badfun)
    else
      match request with
      | [reqAddress, reqFunction, indexHigh, indexLow, countHigh, countLow, _, _] =>
        if 3 + values.length ≠ 5 + length.toNat then .error (.frame .length)
        else
          let count := modbusMatchEndian (readWord countHigh countLow)
          checkBase address function reqAddress reqFunction <|
            if length = 0 ∨ length.toNat ≠ 2 * count.toNat ∨ 250 < length then
              .error (.frame .length)
            else if !allocated then .error .alloc
            else .ok {
              address := address
              function := function
              type := some (if function = 3 then .holdingRegister else .inputRegister)
              index := modbusMatchEndian (readWord indexHigh indexLow)
              count := count
              length := length
              memory := some (copyRegisters (values.take length.toNat)) }
      | _ => .error (.frame .length)
  | _ => .error (.frame .length)

def modbusParseResponse05 : List UInt8 → List UInt8 → Except Failure ModbusData
  | [reqAddress, reqFunction, reqIndexHigh, reqIndexLow, reqValueHigh, reqValueLow, _, _],
      [address, function, indexHigh, indexLow, valueHigh, valueLow, _, _] =>
    checkBase address function reqAddress reqFunction <|
      if readWord indexHigh indexLow ≠ readWord reqIndexHigh reqIndexLow then
        .error (.frame .mismIndex)
      else if readWord valueHigh valueLow ≠ readWord reqValueHigh reqValueLow then
        .error (.frame .mismValue)
      else if !allocated then .error .alloc
      else .ok {
        function := 5
        address := address
        type := some .coil
        index := modbusMatchEndian (readWord reqIndexHigh reqIndexLow)
        count := 1
        length := 1
        memory := some [if readWord valueHigh valueLow ≠ 0 then 1 else 0] }
  | _, _ => .error (.frame .length)

def modbusParseResponse06 : List UInt8 → List UInt8 → Except Failure ModbusData
  | [reqAddress, reqFunction, reqIndexHigh, reqIndexLow, reqValueHigh, reqValueLow, _, _],
      [address, function, indexHigh, indexLow, valueHigh, valueLow, _, _] =>
    checkBase address function reqAddress reqFunction <|
      if readWord indexHigh indexLow ≠ readWord reqIndexHigh reqIndexLow then
        .error (.frame .mismIndex)
      else if readWord valueHigh valueLow ≠ readWord reqValueHigh reqValueLow then
        .error (.frame .mismValue)
      else if !allocated then .error .alloc
      else .ok {
        function := 6
        address := address
        type := some .holdingRegister
        index := modbusMatchEndian (readWord indexHigh indexLow)
        count := 1
        length := 2
        memory := some (wordBytes (modbusMatchEndian (readWord valueHigh valueLow))) }
  | _, _ => .error (.frame .length)

end

def parseWritten (number : UInt8) (type : ModbusDataType) (most : UInt16) :
    List UInt8 → List UInt8 → Except Failure ModbusData
  | reqAddress :: reqFunction :: reqIndexHigh :: reqIndexLow :: reqCountHigh :: reqCountLow ::
      reqLength :: values,
      [address, function, indexHigh, indexLow, countHigh, countLow, _, _] =>
    if 7 + values.length ≠ 9 + reqLength.toNat then .error (.frame .length)
    else
      let count := modbusMatchEndian (readWord countHigh countLow)
      checkBase address function reqAddress reqFunction <|
        if readWord indexHigh indexLow ≠ readWord reqIndexHigh reqIndexLow then
          .error (.frame .mismIndex)
        else if readWord countHigh countLow ≠ readWord reqCountHigh reqCountLow then
          .error (.frame .mismCount)
        else if most < count then .error (.frame .count)
        else .ok {
          address := address
          function := number
          type := some type
          index := modbusMatchEndian (readWord indexHigh indexLow)
          count := count
          length := 0
          memory := none }
  | _, _ => .error (.frame .length)

def modbusParseResponse15 : List UInt8 → List UInt8 → Except Failure ModbusData :=
  parseWritten 15 .coil 1968

def modbusParseResponse16 : List UInt8 → List UInt8 → Except Failure ModbusData :=
  parseWritten 16 .holdingRegister 123

def modbusParseResponse22 : List UInt8 → List UInt8 → Except Failure ModbusData
  | [reqAddress, reqFunction, reqIndexHigh, reqIndexLow, reqAndHigh, reqAndLow, reqOrHigh,
      reqOrLow, _, _],
      [address, function, indexHigh, indexLow, andHigh, andLow, orHigh, orLow, _, _] =>
    checkBase address function reqAddress reqFunction <|
      if readWord indexHigh indexLow ≠ readWord reqIndexHigh reqIndexLow then
        .error (.frame .mismIndex)
      else if readWord andHigh andLow ≠ readWord reqAndHigh reqAndLow ∨
          readWord orHigh orLow ≠ readWord reqOrHigh reqOrLow then
        .error (.frame .mismMask)
      else .ok {
        address := address
        function := 22
        type := some .holdingRegister
        index := modbusMatchEndian (readWord indexHigh indexLow)
        count := 1
        length := 0
        memory := none }
  | _, _ => .error (.frame .length)

section
variable (allocated : Bool)

def builtin (function : UInt8) (request response : List UInt8) : Except Failure ModbusData :=
  if function = 1 ∨ function = 2 then modbusParseResponse0102 allocated request response
  else if function = 3 ∨ function = 4 then modbusParseResponse0304 allocated request response
  else if function = 5 then modbusParseResponse05 allocated request response
  else if function = 6 then modbusParseResponse06 allocated request response
  else if function = 15 then modbusParseResponse15 request response
  else if function = 16 then modbusParseResponse16 request response
  else if function = 22 then modbusParseResponse22 request response
  else .error (.frame .nofun)

def noData : ModbusData := ⟨0, 0, 0, 0, none, 0, none⟩

def modbusParseResponse (status : Reception) : Option (ModbusError × Reception) :=
  let status := { status with exception := ⟨0, 0, 0⟩, data := noData }
  let refused error := some (ModbusError.parse, { status with parseError := error })
  match status.request.frame, status.response.frame with
  | some requestFrame, some responseFrame =>
    if status.response.length < 4 ∨ status.request.length < 4 then refused .length
    else if responseFrame.length < status.response.length.toNat ∨
        requestFrame.length < status.request.length.toNat then none
    else
      let request := requestFrame.take status.request.length.toNat
      let response := responseFrame.take status.response.length.toNat
      if !checksumOk response || !checksumOk request then refused .crc
      else
        let status := { status with parseError := .ok }
        match response with
        | address :: function :: code :: _ =>
          if function &&& 128 ≠ 0 ∧ response.length = 5 then
            some (.exception, { status with exception := ⟨address, function, code⟩ })
          else
            match builtin allocated function request response with
            | .error (.frame error) => refused error
            | .error .alloc => some (.alloc, status)
            | .ok data => some (.ok, { status with data := data })
        | _ => none
  | _, _ => refused .length

end

def registersFrom (registers : UInt16 → UInt16) (index count : UInt16) : List UInt16 :=
  (List.range count.toNat).map fun i => registers (index + UInt16.ofNat i)

def responseHead (address function : UInt8) (words : List UInt16) : List UInt8 :=
  [address, function, UInt8.ofNat (2 * words.length)] ++
    words.flatMap fun word => [highByte word, lowByte word]

def responseBytes (registers : UInt16 → UInt16) (address function : UInt8) (index count : UInt16) :
    List UInt8 :=
  let head := responseHead address function (registersFrom registers index count)
  head ++ wordBytes (modbusCRC head)

/-- What a slave with these registers answers to a request. -/
def answer (registers : UInt16 → UInt16) : List UInt8 → Option (List UInt8)
  | [address, function, indexHigh, indexLow, countHigh, countLow, _, _] =>
    some (responseBytes registers address function (readWord indexLow indexHigh)
      (readWord countLow countHigh))
  | _ => none

section
variable {registers : UInt16 → UInt16} {address function : UInt8} {index count : UInt16}

theorem checksumOk_append (head : List UInt8) :
    checksumOk (head ++ wordBytes (modbusCRC head)) = true := by
  have hlength : (head ++ wordBytes (modbusCRC head)).length - 2 = head.length := by
    rw [List.length_append]
    exact Nat.add_sub_cancel _ 2
  rw [checksumOk, hlength, List.drop_left, List.take_left, beq_self_eq_true]

theorem copyRegisters_words (words : List UInt16) :
    copyRegisters (words.flatMap fun word => [highByte word, lowByte word]) =
      words.flatMap wordBytes := by
  induction words with
  | nil => rfl
  | cons word words ih =>
    rw [List.flatMap_cons, List.flatMap_cons, ← ih]
    change wordBytes (modbusMatchEndian (readWord (highByte word) (lowByte word))) ++ _ = _
    rw [modbusMatchEndian_read]
    rfl

theorem registersFrom_length : (registersFrom registers index count).length = count.toNat := by
  rw [registersFrom, List.length_map, List.length_range]

theorem values_length (words : List UInt16) :
    (words.flatMap fun word => [highByte word, lowByte word]).length = 2 * words.length := by
  induction words with
  | nil => rfl
  | cons word words ih =>
    rw [List.flatMap_cons, List.length_append, ih, List.length_cons]
    exact (Nat.add_comm 2 _).trans (Nat.mul_succ 2 _).symm

theorem answer_request (registers : UInt16 → UInt16) :
    answer registers (requestBytes address function index count) =
      some (responseBytes registers address function index count) := by
  change some (responseBytes registers address function (readWord (lowByte index) (highByte index))
    (readWord (lowByte count) (highByte count))) = _
  rw [readWord_bytes, readWord_bytes]

theorem responseBytes_length (registers : UInt16 → UInt16) (address function : UInt8)
    (index count : UInt16) :
    (responseBytes registers address function index count).length = 5 + 2 * count.toNat := by
  have hvalues := values_length (registersFrom registers index count)
  rw [registersFrom_length] at hvalues
  rw [responseBytes, responseHead, List.length_append, List.length_append, hvalues]
  change 3 + 2 * count.toNat + 2 = 5 + 2 * count.toNat
  omega

theorem requestable_count (h : Requestable function address count) :
    0 < count.toNat ∧ count.toNat ≤ 125 :=
  ⟨UInt16.lt_iff_toNat_lt.mp h.count.1, UInt16.le_iff_toNat_le.mp h.count.2⟩

def registersRead (registers : UInt16 → UInt16) (address function : UInt8) (index count : UInt16) :
    ModbusData where
  address := address
  index := index
  count := count
  length := UInt8.ofNat (2 * count.toNat)
  type := some (if function = 3 then .holdingRegister else .inputRegister)
  function := function
  memory := some ((registersFrom registers index count).flatMap wordBytes)

theorem modbusParseResponse0304_answer (h : Requestable function address count)
    (allocated : Bool) :
    modbusParseResponse0304 allocated (requestBytes address function index count)
        (responseBytes registers address function index count) =
      if allocated then .ok (registersRead registers address function index count)
      else .error .alloc := by
  obtain ⟨hpos, hmany⟩ := requestable_count h
  have hfunction : ¬ (function ≠ 3 ∧ function ≠ 4) := fun hne => h.function.elim hne.1 hne.2
  have hlength : (UInt8.ofNat (2 * (registersFrom registers index count).length)).toNat =
      2 * count.toNat := by
    rw [registersFrom_length, UInt8.toNat_ofNat', Nat.mod_eq_of_lt (by omega)]
  have hvalues := values_length (registersFrom registers index count)
  rw [registersFrom_length] at hvalues
  have hbounds : ¬ (UInt8.ofNat (2 * (registersFrom registers index count).length) = 0 ∨
      2 * count.toNat ≠ 2 * count.toNat ∨
      250 < UInt8.ofNat (2 * (registersFrom registers index count).length)) := by
    rw [← UInt8.toNat_inj, UInt8.lt_iff_toNat_lt, hlength]
    change ¬ (2 * count.toNat = 0 ∨ _ ∨ 250 < 2 * count.toNat)
    omega
  simp only [modbusParseResponse0304, checkBase, requestBytes, responseBytes, responseHead,
    List.cons_append, List.nil_append, modbusMatchEndian_read, hlength, List.length_append, hvalues,
    wordBytes_length]
  rw [if_neg hfunction, if_neg (by omega), if_neg h.address, if_neg (not_not_intro rfl),
    if_neg (not_not_intro rfl), if_neg hbounds, List.take_left' hvalues, copyRegisters_words,
    registersFrom_length]
  cases allocated <;> rfl

theorem modbusParseResponse_answer (h : Requestable function address count) (allocated : Bool) :
    ∃ after, modbusParseResponse allocated ⟨⟨some (requestBytes address function index count), 8⟩,
        ⟨some (responseBytes registers address function index count),
          UInt8.ofNat (5 + 2 * count.toNat)⟩, noData, ⟨0, 0, 0⟩, .ok⟩ =
        some (if allocated then .ok else .alloc, after) ∧
      (allocated = true → after.data = registersRead registers address function index count) := by
  obtain ⟨hpos, hmany⟩ := requestable_count h
  have hlength := responseBytes_length registers address function index count
  have hnat : (UInt8.ofNat (5 + 2 * count.toNat)).toNat = 5 + 2 * count.toNat := by
    rw [UInt8.toNat_ofNat', Nat.mod_eq_of_lt (by omega)]
  have hlong : ¬ (UInt8.ofNat (5 + 2 * count.toNat) < 4 ∨ (8 : UInt8) < 4) := by
    rw [UInt8.lt_iff_toNat_lt, hnat]
    simp
    omega
  have hfunction : ¬ (function &&& 128 ≠ 0 ∧
      (responseBytes registers address function index count).length = 5) := by
    rw [hlength]
    omega
  have hrequest : checksumOk (requestBytes address function index count) = true :=
    checksumOk_append _
  have hresponse : checksumOk (responseBytes registers address function index count) = true :=
    checksumOk_append _
  have hbuiltin : builtin allocated function (requestBytes address function index count)
      (responseBytes registers address function index count) =
      if allocated then .ok (registersRead registers address function index count)
      else .error .alloc := by
    have hother : ¬ (function = 1 ∨ function = 2) := by
      obtain rfl | rfl := h.function <;> decide
    rw [builtin, if_neg hother, if_pos h.function]
    exact modbusParseResponse0304_answer h allocated
  have htake : (requestBytes address function index count).take (8 : UInt8).toNat =
      requestBytes address function index count := rfl
  obtain ⟨rest, hrest⟩ : ∃ rest, responseBytes registers address function index count =
      address :: function :: UInt8.ofNat (2 * (registersFrom registers index count).length) ::
        rest := ⟨_, rfl⟩
  unfold modbusParseResponse
  dsimp only
  rw [if_neg hlong, hnat, if_neg (by rw [hlength]; simp [requestBytes]),
    List.take_of_length_le (Nat.le_of_eq hlength)]
  rw [htake, hrequest, hresponse, if_neg (by decide)]
  rw [hrest] at hfunction hbuiltin ⊢
  dsimp only
  rw [if_neg hfunction]
  rw [hbuiltin]
  cases allocated with
  | false => exact ⟨_, rfl, fun hfalse => by cases hfalse⟩
  | true => exact ⟨_, rfl, fun _ => rfl⟩

end

end IotEdgeAgent.Modbus.Response
