import IotEdgeAgent.Library.BitArray
import IotEdgeAgent.Modbus.Response

/-!
# The Modbus slave

The slave of lightmodbus: `modbusParseRequest` carries out the request in its input and leaves the
response to it. A read or a write outside of an array is undefined, and `none` stands for it.
-/

namespace IotEdgeAgent.Modbus.Slave
open Master (ModbusError ModbusFrameError modbusMatchEndian wordBytes readWord modbusCRC)
open Response (Message checksumOk modbusBitsToBytes)

inductive ModbusExceptionCode
  | illegalFunction
  | illegalAddress
  | illegalValue
  | slaveFailure
  deriving DecidableEq, Repr

def ModbusExceptionCode.toByte : ModbusExceptionCode → UInt8
  | .illegalFunction => 1
  | .illegalAddress => 2
  | .illegalValue => 3
  | .slaveFailure => 4

structure ModbusSlave where
  address : UInt8
  registers : Option (List UInt16)
  inputRegisters : Option (List UInt16)
  registerMask : Option (List UInt8)
  registerMaskLength : UInt16
  registerCount : UInt16
  inputRegisterCount : UInt16
  coils : Option (List UInt8)
  discreteInputs : Option (List UInt8)
  coilMask : Option (List UInt8)
  coilMaskLength : UInt16
  coilCount : UInt16
  discreteInputCount : UInt16
  lastException : Option ModbusExceptionCode
  parseError : ModbusFrameError
  response : Message
  request : Message

abbrev Outcome := Option (ModbusError × ModbusSlave)

def modbusMaskRead (mask : Option (List UInt8)) (maskLength bit : UInt16) : Option UInt8 :=
  match mask with
  | none => some 255
  | some mask =>
    if maskLength ≤ bit >>> 3 then some 255
    else do
      let byte ← mask[(bit >>> 3).toNat]?
      return (byte &&& 1 <<< (bit % 8).toUInt8) >>> (bit % 8).toUInt8

def modbusMaskWrite (mask : Option (List UInt8)) (maskLength bit : UInt16) (value : UInt8) :
    Option (UInt8 × Option (List UInt8)) :=
  match mask with
  | none => some (255, none)
  | some mask =>
    if maskLength ≤ bit >>> 3 then some (255, some mask)
    else do
      let byte ← mask[(bit >>> 3).toNat]?
      let byte := if value ≠ 0 then byte ||| 1 <<< (bit % 8).toUInt8
        else byte &&& ~~~(1 <<< (bit % 8).toUInt8)
      return (0, some (mask.set (bit >>> 3).toNat byte))

def frameOf (head : List UInt8) : Message :=
  ⟨some (head ++ wordBytes (modbusCRC head)), UInt8.ofNat (head.length + 2)⟩

section
variable (status : ModbusSlave) (allocated : Bool)

def modbusBuildException (function : UInt8) (code : ModbusExceptionCode) :
    ModbusError × ModbusSlave :=
  let status := { status with lastException := some code }
  if (status.request.frame.bind List.head?) = some 0 then
    (.ok, { status with response.length := 0 })
  else if !allocated then (.alloc, { status with response.frame := none })
  else
    (.exception,
      { status with response := frameOf [status.address, (1 : UInt8) <<< 7 ||| function, code.toByte] })

def modbusBuildExceptionErr (function : UInt8) (code : ModbusExceptionCode)
    (parseError : ModbusFrameError) : ModbusError × ModbusSlave :=
  let status := { status with parseError := parseError }
  match modbusBuildException status allocated function code with
  | (.ok, status) => (.parse, status)
  | answer => answer

def sendRegisters (registers : List UInt16) : ℕ → ℕ → Option (List UInt8)
  | _, 0 => some []
  | index, count + 1 => do
    let word ← registers[index]?
    let values ← sendRegisters registers (index + 1) count
    return wordBytes (modbusMatchEndian word) ++ values

def answerRegisters (function : UInt8) (registers : Option (List UInt16))
    (total index count : UInt16) : Outcome :=
  let refused code error := some (modbusBuildExceptionErr status allocated function code error)
  if count = 0 ∨ 125 < count then refused .illegalValue .count
  else
    match registers with
    | none => refused .illegalAddress .nosrc
    | some registers =>
      if total ≤ index ∨ total.toNat < index.toNat + count.toNat then
        refused .illegalAddress .range
      else if !allocated then some (.alloc, { status with response.frame := none })
      else do
        let values ← sendRegisters registers index.toNat count.toNat
        return (.ok, { status with
          response := frameOf ([status.address, function, (count <<< 1).toUInt8] ++ values)
          parseError := .ok })

def modbusParseRequest0304 : List UInt8 → Outcome
  | address :: function :: fields =>
    if function ≠ 3 ∧ function ≠ 4 then some (.parse, { status with parseError := .badfun })
    else if address = 0 then some (.parse, { status with parseError := .broadcast })
    else if status.request.length ≠ 8 then
      some (modbusBuildExceptionErr status allocated function .illegalValue .length)
    else
      match fields with
      | [indexHigh, indexLow, countHigh, countLow, _, _] =>
        answerRegisters status allocated function
          (if function = 3 then status.registers else status.inputRegisters)
          (if function = 3 then status.registerCount else status.inputRegisterCount)
          (modbusMatchEndian (readWord indexHigh indexLow))
          (modbusMatchEndian (readWord countHigh countLow))
      | _ => none
  | _ => none

/-- The bits from `sourceIndex` on are copied to the bits from `targetIndex` on; the answer is
whether all were inside. -/
def copyBits (source : Option (List UInt8)) (sourceLength targetLength : UInt16) :
    UInt16 → UInt16 → ℕ → Option (List UInt8) → Option (Bool × Option (List UInt8))
  | _, _, 0, target => some (true, target)
  | sourceIndex, targetIndex, count + 1, target => do
    let coil ← modbusMaskRead source sourceLength sourceIndex
    if coil = 255 then return (false, target)
    let (result, target) ← modbusMaskWrite target targetLength targetIndex coil
    if result = 255 then return (false, target)
    copyBits source sourceLength targetLength (sourceIndex + 1) (targetIndex + 1) count target

def answerCoils (function : UInt8) (source : Option (List UInt8)) (total index count : UInt16) :
    Outcome :=
  let refused code error := some (modbusBuildExceptionErr status allocated function code error)
  if count = 0 ∨ 2000 < count then refused .illegalValue .count
  else
    match source with
    | none => refused .illegalAddress .nosrc
    | some source =>
      if total ≤ index ∨ total.toNat < index.toNat + count.toNat then
        refused .illegalAddress .range
      else if !allocated then some (.alloc, { status with response.frame := none })
      else do
        let length := modbusBitsToBytes count
        let head := [status.address, function, length.toUInt8]
        let (inside, values) ← copyBits (some source) (modbusBitsToBytes total) length index 0
          count.toNat (some (List.replicate length.toNat 0))
        if inside then
          return (.ok, { status with response := frameOf (head ++ values.getD []) })
        else
          return (.other, { status with
            response.frame := some (head ++ values.getD [] ++ [0, 0]) })

def modbusParseRequest0102 : List UInt8 → Outcome
  | address :: function :: fields =>
    if function ≠ 1 ∧ function ≠ 2 then some (.parse, { status with parseError := .badfun })
    else if address = 0 then some (.parse, { status with parseError := .broadcast })
    else if status.request.length ≠ 8 then
      some (modbusBuildExceptionErr status allocated function .illegalValue .length)
    else
      match fields with
      | [indexHigh, indexLow, countHigh, countLow, _, _] =>
        answerCoils status allocated function
          (if function = 1 then status.coils else status.discreteInputs)
          (if function = 1 then status.coilCount else status.discreteInputCount)
          (modbusMatchEndian (readWord indexHigh indexLow))
          (modbusMatchEndian (readWord countHigh countLow))
      | _ => none
  | _ => none

/-- Every request that writes ends so: there is memory for the response, `write` changes the slave
(or gives up on the way), and the request is repeated unless all slaves were addressed. -/
def acknowledge (address : UInt8) (echo : List UInt8)
    (write : ModbusSlave → Option (Bool × ModbusSlave)) : Outcome :=
  if !allocated then some (.alloc, { status with response.frame := none })
  else do
    let blank := some (List.replicate (echo.length + 3) 0)
    let (written, status) ← write status
    if !written then return (.other, { status with response.frame := blank })
    if address = 0 then
      return (.ok, { status with response.frame := blank, parseError := .ok })
    return (.ok, { status with response := frameOf (status.address :: echo), parseError := .ok })

def writeCoil (address : UInt8) (echo : List UInt8) (index value : UInt16) : Outcome :=
  let refused code error := some (modbusBuildExceptionErr status allocated 5 code error)
  if value ≠ 0x0000 ∧ value ≠ 0xFF00 then refused .illegalValue .value
  else
    match status.coils with
    | none => refused .illegalAddress .nosrc
    | some coils =>
      if status.coilCount ≤ index then refused .illegalAddress .range
      else do
        let locked ← modbusMaskRead status.coilMask status.coilMaskLength index
        if locked = 1 then refused .slaveFailure .nowrite
        else
          acknowledge status allocated address echo fun status => do
            let (result, coils) ← modbusMaskWrite (some coils)
              (modbusBitsToBytes status.coilCount) index (if value = 0xFF00 then 1 else 0)
            return (result ≠ 255, { status with coils := coils })

def modbusParseRequest05 (parser : List UInt8) : Outcome :=
  if status.request.length ≠ 8 then
    some (modbusBuildExceptionErr status allocated 5 .illegalValue .length)
  else
    match parser with
    | [address, function, indexHigh, indexLow, valueHigh, valueLow, _, _] =>
      writeCoil status allocated address [function, indexHigh, indexLow, valueHigh, valueLow]
        (modbusMatchEndian (readWord indexHigh indexLow))
        (modbusMatchEndian (readWord valueHigh valueLow))
    | _ => none

/-- The requests that change a single register: `absent` is the error without registers. -/
def writeRegister (address function : UInt8) (echo : List UInt8) (absent : ModbusFrameError)
    (index : UInt16) (update : UInt16 → UInt16) : Outcome :=
  let refused code error := some (modbusBuildExceptionErr status allocated function code error)
  match status.registers with
  | none => refused .illegalAddress absent
  | some registers =>
    if status.registerCount ≤ index then refused .illegalAddress .range
    else do
      let locked ← modbusMaskRead status.registerMask status.registerMaskLength index
      if locked = 1 then refused .slaveFailure .nowrite
      else
        acknowledge status allocated address echo fun status => do
          let value ← registers[index.toNat]?
          return (true, { status with
            registers := some (registers.set index.toNat (update value)) })

def modbusParseRequest06 (parser : List UInt8) : Outcome :=
  if status.request.length ≠ 8 then
    some (modbusBuildExceptionErr status allocated 6 .illegalValue .length)
  else
    match parser with
    | [address, function, indexHigh, indexLow, valueHigh, valueLow, _, _] =>
      let index := modbusMatchEndian (readWord indexHigh indexLow)
      let value := modbusMatchEndian (readWord valueHigh valueLow)
      writeRegister status allocated address 6
        [function, indexHigh, indexLow, valueHigh, valueLow] .range index fun _ => value
    | _ => none

def modbusParseRequest22 (parser : List UInt8) : Outcome :=
  if status.request.length ≠ 10 then
    some (modbusBuildExceptionErr status allocated 22 .illegalValue .length)
  else
    match parser with
    | [address, function, indexHigh, indexLow, andHigh, andLow, orHigh, orLow, _, _] =>
      let index := modbusMatchEndian (readWord indexHigh indexLow)
      let andmask := modbusMatchEndian (readWord andHigh andLow)
      let ormask := modbusMatchEndian (readWord orHigh orLow)
      writeRegister status allocated address 22
        [function, indexHigh, indexLow, andHigh, andLow, orHigh, orLow] .nosrc index fun value =>
          value &&& andmask ||| ormask &&& ~~~andmask
    | _ => none

/-- Whether one of the bits is set that stand for `count` registers or coils from `index` on. -/
def protectedFrom (mask : Option (List UInt8)) (maskLength : UInt16) : UInt16 → ℕ → Option Bool
  | _, 0 => some false
  | index, count + 1 => do
    let locked ← modbusMaskRead mask maskLength index
    if locked = 1 then return true
    protectedFrom mask maskLength (index + 1) count

def writeCoils (address : UInt8) (echo : List UInt8) (index count : UInt16) (length : UInt8)
    (values : List UInt8) : Outcome :=
  let refused code error := some (modbusBuildExceptionErr status allocated 15 code error)
  if length = 0 ∨ count = 0 ∨ modbusBitsToBytes count ≠ length.toUInt16 ∨ 1968 < count then
    refused .illegalValue .count
  else
    match status.coils with
    | none => refused .illegalAddress .nosrc
    | some coils =>
      if status.coilCount ≤ index ∨ status.coilCount.toNat < index.toNat + count.toNat then
        refused .illegalAddress .range
      else do
        let locked ← protectedFrom status.coilMask status.coilMaskLength index count.toNat
        if locked then refused .slaveFailure .nowrite
        else
          acknowledge status allocated address echo fun status => do
            let (inside, coils) ← copyBits (some values) length.toUInt16
              (modbusBitsToBytes status.coilCount) 0 index count.toNat (some coils)
            return (inside, { status with coils := coils })

def modbusParseRequest15 (parser : List UInt8) : Outcome :=
  let refused := some (modbusBuildExceptionErr status allocated 15 .illegalValue .length)
  if status.request.length < 7 then refused
  else
    match parser with
    | address :: function :: indexHigh :: indexLow :: countHigh :: countLow :: length :: values =>
      if status.request.length ≠ 9 + length then refused
      else
        writeCoils status allocated address [function, indexHigh, indexLow, countHigh, countLow]
          (modbusMatchEndian (readWord indexHigh indexLow))
          (modbusMatchEndian (readWord countHigh countLow)) length values
    | _ => none

def storeRegisters : List UInt16 → ℕ → ℕ → List UInt8 → Option (List UInt16)
  | registers, _, 0, _ => some registers
  | registers, index, count + 1, high :: low :: values =>
    if index < registers.length then
      storeRegisters (registers.set index (modbusMatchEndian (readWord high low))) (index + 1)
        count values
    else none
  | _, _, _, _ => none

def writeRegisters (address : UInt8) (echo : List UInt8) (index count : UInt16) (length : UInt8)
    (values : List UInt8) : Outcome :=
  let refused code error := some (modbusBuildExceptionErr status allocated 16 code error)
  if length = 0 ∨ count = 0 ∨ count ≠ (length >>> 1).toUInt16 ∨ 123 < count then
    refused .illegalValue .count
  else
    match status.registers with
    | none => refused .illegalAddress .nosrc
    | some registers =>
      if status.registerCount ≤ index ∨
          status.registerCount.toNat < index.toNat + count.toNat then
        refused .illegalAddress .range
      else do
        let locked ← protectedFrom status.registerMask status.registerMaskLength index
          count.toNat
        if locked then refused .slaveFailure .nowrite
        else
          acknowledge status allocated address echo fun status => do
            let registers ← storeRegisters registers index.toNat count.toNat values
            return (true, { status with registers := some registers })

def modbusParseRequest16 (parser : List UInt8) : Outcome :=
  let refused := some (modbusBuildExceptionErr status allocated 16 .illegalValue .length)
  if status.request.length < 7 then refused
  else
    match parser with
    | address :: function :: indexHigh :: indexLow :: countHigh :: countLow :: length :: values =>
      if status.request.length ≠ 9 + length then refused
      else
        writeRegisters status allocated address
          [function, indexHigh, indexLow, countHigh, countLow]
          (modbusMatchEndian (readWord indexHigh indexLow))
          (modbusMatchEndian (readWord countHigh countLow)) length values
    | _ => none

end

structure ModbusSlaveUserFunction where
  function : UInt8
  handler : Option (ModbusSlave → List UInt8 → Outcome)

def builtin (status : ModbusSlave) (allocated : Bool) (function : UInt8) (parser : List UInt8) :
    Outcome :=
  if function = 1 ∨ function = 2 then modbusParseRequest0102 status allocated parser
  else if function = 3 ∨ function = 4 then modbusParseRequest0304 status allocated parser
  else if function = 5 then modbusParseRequest05 status allocated parser
  else if function = 6 then modbusParseRequest06 status allocated parser
  else if function = 15 then modbusParseRequest15 status allocated parser
  else if function = 16 then modbusParseRequest16 status allocated parser
  else if function = 22 then modbusParseRequest22 status allocated parser
  else some (modbusBuildExceptionErr status allocated function .illegalFunction .nofun)

section
variable (userFunctions : List ModbusSlaveUserFunction)

def modbusParseRequest (allocated : Bool) (status : ModbusSlave) : Outcome :=
  let status := { status with response := ⟨none, 0⟩, parseError := .ok }
  match status.request.frame with
  | none => some (.parse, { status with parseError := .length })
  | some frame =>
    if status.request.length < 4 then some (.parse, { status with parseError := .length })
    else if frame.length < status.request.length.toNat then none
    else
      let parser := frame.take status.request.length.toNat
      if !checksumOk parser then some (.parse, { status with parseError := .crc })
      else
        match parser with
        | address :: function :: _ =>
          if address ≠ status.address ∧ address ≠ 0 then some (.ok, status)
          else
            match userFunctions.find? fun user => user.function == function with
            | some ⟨_, some handler⟩ => handler status parser
            | some ⟨_, none⟩ =>
              some (modbusBuildExceptionErr status allocated function .illegalFunction .nullfun)
            | none => builtin status allocated function parser
        | _ => none

end

/-- An array without elements is no array. -/
def sourceOf {α : Type} (array : Option (List α)) (count : UInt16) : Option (List α) × UInt16 :=
  if count = 0 ∨ array = none then (none, 0) else (array, count)

def modbusSlaveInit (status : ModbusSlave) : ModbusError × ModbusSlave :=
  let status := { status with request := ⟨none, 0⟩, response := ⟨none, 0⟩ }
  if status.address = 0 then (.other, status)
  else
    let (registers, registerCount) := sourceOf status.registers status.registerCount
    let (inputRegisters, inputRegisterCount) :=
      sourceOf status.inputRegisters status.inputRegisterCount
    let (coils, coilCount) := sourceOf status.coils status.coilCount
    let (discreteInputs, discreteInputCount) :=
      sourceOf status.discreteInputs status.discreteInputCount
    (.ok, { status with
      registers, registerCount, inputRegisters, inputRegisterCount
      coils, coilCount, discreteInputs, discreteInputCount })

end IotEdgeAgent.Modbus.Slave
