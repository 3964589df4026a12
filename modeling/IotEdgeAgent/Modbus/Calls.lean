import IotEdgeAgent.Modbus.SlaveRuns

/-!
# The calls of the master

Beside the registers, the master of lightmodbus reads coils and writes both. Each call puts a frame
into the one request of the master; the length of the response is predicted with it.
-/

namespace IotEdgeAgent.Modbus.Calls
open Dlt698.LinkFrame (lowByte highByte)
open Master (ModbusError ModbusMaster modbusMatchEndian wordBytes modbusCRC requestHead
  modbusBuildRequest0304)
open Response (modbusBitsToBytes)
open Slave (field wordsOf wordsBytes decode decodeRead decode05 decode06 decode15
  decode16 decode22 frameOf)
open BitArray (bits)
open Device (Request)

def sendFrame (status : ModbusMaster) (calloc : Option ℕ) (head : List UInt8) (predicted : UInt8) :
    ModbusError × ModbusMaster :=
  let status := { status with released := status.released ++ status.frame.toList }
  match calloc with
  | none => (.alloc, { status with frame := none })
  | some call =>
    (.ok, { status with
      frame := some ⟨call, head ++ wordBytes (modbusCRC head)⟩
      length := UInt8.ofNat (head.length + 2)
      predictedResponseLength := predicted
      buildError := .ok })

section
variable (status : ModbusMaster) (calloc : Option ℕ)

def modbusBuildRequest0102 (function address : UInt8) (index count : UInt16) :
    ModbusError × ModbusMaster :=
  if function ≠ 1 ∧ function ≠ 2 then (.build, { status with buildError := .badfun })
  else if address = 0 then (.build, { status with buildError := .broadcast })
  else
    let status := { status with length := 0, predictedResponseLength := 0 }
    if count = 0 ∨ 2000 < count then (.build, { status with buildError := .count })
    else
      sendFrame status calloc (requestHead address function index count)
        ((4 + 1 : UInt16) + modbusBitsToBytes count).toUInt8

def modbusBuildRequest05 (address : UInt8) (index value : UInt16) : ModbusError × ModbusMaster :=
  let status := { status with length := 0, predictedResponseLength := 0 }
  let value := if value ≠ 0 then 0xFF00 else 0x0000
  sendFrame status calloc (requestHead address 5 index value) (if address ≠ 0 then 8 else 0)

def modbusBuildRequest06 (address : UInt8) (index value : UInt16) : ModbusError × ModbusMaster :=
  let status := { status with length := 0, predictedResponseLength := 0 }
  sendFrame status calloc (requestHead address 6 index value) (if address ≠ 0 then 8 else 0)

/-- `values` are read as far as they are needed; reading behind them is undefined. -/
def modbusBuildRequest15 (address : UInt8) (index count : UInt16) (values : List UInt8) :
    Option (ModbusError × ModbusMaster) :=
  let status := { status with length := 0, predictedResponseLength := 0 }
  if count = 0 ∨ 1968 < count then some (.build, { status with buildError := .count })
  else
    let length := (modbusBitsToBytes count).toNat
    if calloc.isSome ∧ values.length < length then none
    else
      some (sendFrame status calloc
        (requestHead address 15 index count ++ UInt8.ofNat length :: values.take length)
        (if address ≠ 0 then 4 + 4 else 0))

def modbusBuildRequest16 (address : UInt8) (index count : UInt16) (values : List UInt16) :
    Option (ModbusError × ModbusMaster) :=
  let status := { status with length := 0, predictedResponseLength := 0 }
  if count = 0 ∨ 123 < count then some (.build, { status with buildError := .count })
  else if calloc.isSome ∧ values.length < count.toNat then none
  else
    some (sendFrame status calloc
      (requestHead address 16 index count ++ (count <<< 1).toUInt8 ::
        (values.take count.toNat).flatMap fun word => wordBytes (modbusMatchEndian word))
      (if address ≠ 0 then 4 + 4 else 0))

def modbusBuildRequest22 (address : UInt8) (index andmask ormask : UInt16) :
    ModbusError × ModbusMaster :=
  let status := { status with length := 0, predictedResponseLength := 0 }
  sendFrame status calloc
    (requestHead address 22 index andmask ++ wordBytes (modbusMatchEndian ormask))
    (if address ≠ 0 then 10 else 0)

end

theorem modbusBuildRequest0304_eq (status : ModbusMaster) (calloc : Option ℕ)
    (function address : UInt8) (index count : UInt16) :
    modbusBuildRequest0304 status calloc function address index count =
      if function ≠ 3 ∧ function ≠ 4 then (.build, { status with buildError := .badfun })
      else if address = 0 then (.build, { status with buildError := .broadcast })
      else if count = 0 ∨ 125 < count then
        (.build, { status with
          length := 0
          predictedResponseLength := 0
          buildError := .count })
      else
        sendFrame { status with length := 0, predictedResponseLength := 0 } calloc
          (requestHead address function index count)
          ((4 + 1 : UInt16) + count <<< 1).toUInt8 := by
  unfold modbusBuildRequest0304 sendFrame
  cases calloc <;> rfl

inductive Call
  | request0102 (function : UInt8) (index count : UInt16)
  | request0304 (function : UInt8) (index count : UInt16)
  | request05 (index value : UInt16)
  | request06 (index value : UInt16)
  | request15 (index count : UInt16) (values : List UInt8)
  | request16 (index count : UInt16) (values : List UInt16)
  | request22 (index andmask ormask : UInt16)
  deriving DecidableEq, Repr

namespace Call

def build (status : ModbusMaster) (calloc : Option ℕ) (address : UInt8) :
    Call → Option (ModbusError × ModbusMaster)
  | request0102 function index count =>
    some (modbusBuildRequest0102 status calloc function address index count)
  | request0304 function index count =>
    some (modbusBuildRequest0304 status calloc function address index count)
  | request05 index value => some (modbusBuildRequest05 status calloc address index value)
  | request06 index value => some (modbusBuildRequest06 status calloc address index value)
  | request15 index count values => modbusBuildRequest15 status calloc address index count values
  | request16 index count values => modbusBuildRequest16 status calloc address index count values
  | request22 index andmask ormask =>
    some (modbusBuildRequest22 status calloc address index andmask ormask)

def function : Call → UInt8
  | request0102 function _ _ => function
  | request0304 function _ _ => function
  | request05 _ _ => 5
  | request06 _ _ => 6
  | request15 _ _ _ => 15
  | request16 _ _ _ => 16
  | request22 _ _ _ => 22

def request : Call → Request
  | request0102 function index count =>
    if function = 1 then .readCoils index.toNat count.toNat
    else .readDiscreteInputs index.toNat count.toNat
  | request0304 function index count =>
    if function = 3 then .readRegisters index.toNat count.toNat
    else .readInputRegisters index.toNat count.toNat
  | request05 index value => .writeCoils index.toNat [decide (value ≠ 0)]
  | request06 index value => .writeRegisters index.toNat [value]
  | request15 index count values => .writeCoils index.toNat (bits values count.toNat)
  | request16 index count values => .writeRegisters index.toNat (values.take count.toNat)
  | request22 index andmask ormask => .maskRegister index.toNat andmask ormask

/-- What the master sends: the functions fit, the counts are allowed, the values are there, and
only writing goes to all slaves. -/
def Good (address : UInt8) : Call → Prop
  | request0102 function _ count =>
    (function = 1 ∨ function = 2) ∧ address ≠ 0 ∧ ¬ (count = 0 ∨ 2000 < count)
  | request0304 function _ count =>
    (function = 3 ∨ function = 4) ∧ address ≠ 0 ∧ ¬ (count = 0 ∨ 125 < count)
  | request05 _ _ => True
  | request06 _ _ => True
  | request15 _ count values =>
    ¬ (count = 0 ∨ 1968 < count) ∧ (modbusBitsToBytes count).toNat ≤ values.length
  | request16 _ count values => ¬ (count = 0 ∨ 123 < count) ∧ count.toNat ≤ values.length
  | request22 _ _ _ => True

def body : Call → List UInt8
  | request0102 _ index count => [highByte index, lowByte index, highByte count, lowByte count]
  | request0304 _ index count => [highByte index, lowByte index, highByte count, lowByte count]
  | request05 index value =>
    [highByte index, lowByte index, if value ≠ 0 then 0xFF else 0, 0]
  | request06 index value => [highByte index, lowByte index, highByte value, lowByte value]
  | request15 index count values =>
    [highByte index, lowByte index, highByte count, lowByte count,
      UInt8.ofNat (modbusBitsToBytes count).toNat] ++ values.take (modbusBitsToBytes count).toNat
  | request16 index count values =>
    [highByte index, lowByte index, highByte count, lowByte count,
      UInt8.ofNat (2 * count.toNat)] ++ wordsBytes (values.take count.toNat)
  | request22 index andmask ormask =>
    [highByte index, lowByte index, highByte andmask, lowByte andmask, highByte ormask,
      lowByte ormask]

def head (address : UInt8) (call : Call) : List UInt8 := address :: call.function :: call.body

def bytes (address : UInt8) (call : Call) : List UInt8 :=
  call.head address ++ wordBytes (modbusCRC (call.head address))

end Call

section
variable {status : ModbusMaster} {address : UInt8}

theorem field_bytes (w : UInt16) : field (highByte w) (lowByte w) = w :=
  Master.modbusMatchEndian_read w

theorem sent {call : Call} {head : List UInt8} (h : head = call.head address) (k : ℕ)
    (predicted : UInt8) :
    ∃ master, some (sendFrame status (some k) head predicted) = some (.ok, master) ∧
      master.frame = some ⟨k, call.bytes address⟩ ∧
      master.length = UInt8.ofNat (call.bytes address).length := by
  subst h
  refine ⟨_, rfl, rfl, ?_⟩
  rw [Call.bytes, List.length_append, Master.wordBytes_length]

theorem head_of_words (function : UInt8) (index value : UInt16) (rest : List UInt8) :
    requestHead address function index value ++ rest =
      address :: function ::
        ([highByte index, lowByte index, highByte value, lowByte value] ++ rest) := by
  rw [Master.requestHead_eq]
  rfl

theorem build_good {call : Call} (h : call.Good address) (k : ℕ) :
    ∃ master, call.build status (some k) address = some (.ok, master) ∧
      master.frame = some ⟨k, call.bytes address⟩ ∧
      master.length = UInt8.ofNat (call.bytes address).length := by
  cases call with
  | request0102 function index count =>
    obtain ⟨hfunction, haddress, hcount⟩ := h
    rw [Call.build, modbusBuildRequest0102, if_neg fun hne => hfunction.elim hne.1 hne.2,
      if_neg haddress]
    dsimp only
    rw [if_neg hcount]
    exact sent (Master.requestHead_eq ..) k _
  | request0304 function index count =>
    obtain ⟨hfunction, haddress, hcount⟩ := h
    rw [Call.build, modbusBuildRequest0304_eq, if_neg fun hne => hfunction.elim hne.1 hne.2,
      if_neg haddress, if_neg hcount]
    exact sent (Master.requestHead_eq ..) k _
  | request05 index value =>
    refine sent ?_ k _
    rw [Master.requestHead_eq, Call.head, Call.body]
    by_cases hvalue : value ≠ 0
    · rw [if_pos hvalue, if_pos hvalue]
      rfl
    · rw [if_neg hvalue, if_neg hvalue]
      rfl
  | request06 index value => exact sent (Master.requestHead_eq ..) k _
  | request15 index count values =>
    obtain ⟨hcount, hvalues⟩ := h
    rw [Call.build, modbusBuildRequest15]
    dsimp only
    rw [if_neg hcount, if_neg fun hfew => absurd hfew.2 (Nat.not_lt.mpr hvalues)]
    exact sent (head_of_words 15 index count _) k _
  | request16 index count values =>
    obtain ⟨hcount, hvalues⟩ := h
    rw [Call.build, modbusBuildRequest16, if_neg hcount,
      if_neg fun hfew => absurd hfew.2 (Nat.not_lt.mpr hvalues)]
    refine sent ?_ k _
    have htwice : (count <<< 1).toUInt8 = UInt8.ofNat (2 * count.toNat) :=
      Slave.twice_toUInt8 count
    have hwords : (values.take count.toNat).flatMap (fun word => wordBytes (modbusMatchEndian word))
        = wordsBytes (values.take count.toNat) :=
      congrArg (fun f => (values.take count.toNat).flatMap f) (funext Slave.wordBytes_match)
    rw [htwice, hwords]
    exact head_of_words 16 index count _
  | request22 index andmask ormask =>
    refine sent ?_ k _
    rw [Slave.wordBytes_match]
    exact head_of_words 22 index andmask _

theorem wordsOf_bytes (words : List UInt16) (rest : List UInt8) :
    wordsOf words.length (wordsBytes words ++ rest) = words := by
  induction words with
  | nil => cases rest <;> rfl
  | cons word words ih =>
    change field (highByte word) (lowByte word) :: wordsOf words.length _ = _
    rw [field_bytes]
    exact congrArg (word :: ·) ih

theorem wordsBytes_length (words : List UInt16) : (wordsBytes words).length = 2 * words.length :=
  Response.values_length words

theorem bytes_cons (address : UInt8) (call : Call) :
    call.bytes address = address :: call.function ::
      (call.body ++ wordBytes (modbusCRC (call.head address))) := rfl

theorem bytes_length (address : UInt8) (call : Call) :
    (call.bytes address).length = call.body.length + 4 := by
  rw [Call.bytes, List.length_append, Master.wordBytes_length]
  rfl

theorem count_small {count most : UInt16} (h : ¬ (count = 0 ∨ most < count)) :
    0 < count.toNat ∧ count.toNat ≤ most.toNat := by
  have hbad := Slave.badCount_iff count most
  have hcount := fun hbad' => h (hbad.mpr hbad')
  exact ⟨Nat.pos_of_ne_zero fun h => hcount (Or.inl h),
    Nat.le_of_not_lt fun h => hcount (Or.inr h)⟩

theorem body_length {call : Call} (h : call.Good address) : call.body.length ≤ 251 := by
  cases call with
  | request0102 function index count => exact Nat.le_of_ble_eq_true rfl
  | request0304 function index count => exact Nat.le_of_ble_eq_true rfl
  | request05 index value => exact Nat.le_of_ble_eq_true rfl
  | request06 index value => exact Nat.le_of_ble_eq_true rfl
  | request15 index count values =>
    have hcount : _ ∧ count.toNat ≤ 1968 := count_small h.1
    have hbytes := Slave.modbusBitsToBytes_toNat count
    rw [Call.body, List.length_append, List.length_take]
    change 5 + _ ≤ 251
    omega
  | request16 index count values =>
    have hcount : _ ∧ count.toNat ≤ 123 := count_small h.1
    rw [Call.body, List.length_append, wordsBytes_length, List.length_take]
    change 5 + _ ≤ 251
    omega
  | request22 index andmask ormask => exact Nat.le_of_ble_eq_true rfl

theorem function_supported {call : Call} (h : call.Good address) :
    call.function ∈ Slave.supported := by
  cases call with
  | request0102 function index count =>
    obtain ⟨rfl | rfl, -⟩ := h <;> simp [Call.function, Slave.supported]
  | request0304 function index count =>
    obtain ⟨rfl | rfl, -⟩ := h <;> simp [Call.function, Slave.supported]
  | request05 index value => simp [Call.function, Slave.supported]
  | request06 index value => simp [Call.function, Slave.supported]
  | request15 index count values => simp [Call.function, Slave.supported]
  | request16 index count values => simp [Call.function, Slave.supported]
  | request22 index andmask ormask => simp [Call.function, Slave.supported]

theorem decode_bytes {call : Call} (h : call.Good address) :
    decode call.function (call.bytes address) = some call.request := by
  cases call with
  | request0102 function index count =>
    obtain ⟨rfl | rfl, -⟩ := h
    · exact congrArg some (congrArg₂ Request.readCoils (congrArg UInt16.toNat (field_bytes index))
        (congrArg UInt16.toNat (field_bytes count)))
    · exact congrArg some (congrArg₂ Request.readDiscreteInputs
        (congrArg UInt16.toNat (field_bytes index)) (congrArg UInt16.toNat (field_bytes count)))
  | request0304 function index count =>
    obtain ⟨rfl | rfl, -⟩ := h
    · exact congrArg some (congrArg₂ Request.readRegisters
        (congrArg UInt16.toNat (field_bytes index)) (congrArg UInt16.toNat (field_bytes count)))
    · exact congrArg some (congrArg₂ Request.readInputRegisters
        (congrArg UInt16.toNat (field_bytes index)) (congrArg UInt16.toNat (field_bytes count)))
  | request05 index value =>
    change decode05 (address :: 5 :: highByte index :: lowByte index ::
      (if value ≠ 0 then 0xFF else 0) :: 0 ::
        wordBytes (modbusCRC ((Call.request05 index value).head address))) = _
    by_cases hvalue : value = 0
    · rw [hvalue]
      exact congrArg (fun i => some (Request.writeCoils i [false]))
        (congrArg UInt16.toNat (field_bytes index))
    · rw [if_pos hvalue]
      refine (congrArg (fun i => some (Request.writeCoils i [true]))
        (congrArg UInt16.toNat (field_bytes index))).trans ?_
      rw [Call.request, decide_eq_true hvalue]
  | request06 index value =>
    exact congrArg some (congrArg₂ Request.writeRegisters
      (congrArg UInt16.toNat (field_bytes index)) (congrArg (fun w => [w]) (field_bytes value)))
  | request15 index count values =>
    obtain ⟨hbad, hvalues⟩ := h
    have hcount : _ ∧ count.toNat ≤ 1968 := count_small hbad
    have hbytes := Slave.modbusBitsToBytes_toNat count
    change decode15 (address :: 15 :: highByte index :: lowByte index :: highByte count ::
      lowByte count :: UInt8.ofNat (modbusBitsToBytes count).toNat ::
        (values.take (modbusBitsToBytes count).toNat ++
          wordBytes (modbusCRC ((Call.request15 index count values).head address)))) = _
    have hlength : (UInt8.ofNat (modbusBitsToBytes count).toNat).toNat =
        (modbusBitsToBytes count).toNat := by
      rw [UInt8.toNat_ofNat', Nat.mod_eq_of_lt (by omega)]
    rw [decode15, field_bytes, field_bytes, hlength, if_pos (by
      rw [List.length_append, List.length_take, Master.wordBytes_length]; omega)]
    refine congrArg (fun bs => some (Request.writeCoils index.toNat bs))
      (BitArray.bits_congr fun k hk => ?_)
    rw [List.getElem?_append_left (by rw [List.length_take]; omega),
      List.getElem?_take_of_lt (by omega)]
  | request16 index count values =>
    obtain ⟨hbad, hvalues⟩ := h
    have hcount : _ ∧ count.toNat ≤ 123 := count_small hbad
    change decode16 (address :: 16 :: highByte index :: lowByte index :: highByte count ::
      lowByte count :: UInt8.ofNat (2 * count.toNat) ::
        (wordsBytes (values.take count.toNat) ++
          wordBytes (modbusCRC ((Call.request16 index count values).head address)))) = _
    have hlength : (UInt8.ofNat (2 * count.toNat)).toNat = 2 * count.toNat := by
      rw [UInt8.toNat_ofNat', Nat.mod_eq_of_lt (by omega)]
    have htaken : (values.take count.toNat).length = count.toNat := by
      rw [List.length_take, Nat.min_eq_left hvalues]
    have hwords := wordsOf_bytes (values.take count.toNat) (wordBytes (modbusCRC
      ((Call.request16 index count values).head address)))
    rw [htaken] at hwords
    rw [decode16, field_bytes, field_bytes, hlength, if_pos (by
      rw [List.length_append, wordsBytes_length, htaken, Master.wordBytes_length]; omega)]
    exact congrArg (fun ws => some (Request.writeRegisters index.toNat ws)) hwords
  | request22 index andmask ormask =>
    refine congrArg some ?_
    rw [field_bytes, field_bytes, field_bytes]
    rfl

end

end IotEdgeAgent.Modbus.Calls
