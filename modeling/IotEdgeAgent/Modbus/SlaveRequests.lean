import IotEdgeAgent.Modbus.SlaveArrays

/-!
# What the slave does with a frame

A frame whose fields are as the protocol has them asks for a request. The slave performs it on its
memory and leaves the answer, or it leaves an exception and its memory as it was.
-/

namespace IotEdgeAgent.Modbus.Slave
open Dlt698.LinkFrame (lowByte highByte)
open Master (ModbusError ModbusFrameError modbusMatchEndian wordBytes readWord modbusCRC)
open Response (Message checksumOk modbusBitsToBytes)
open BitArray (overlay bits)
open Device (Memory Request Data readPart writePart)

structure WellFormed (status : ModbusSlave) : Prop where
  registers : ∀ r, status.registers = some r → r.length = status.registerCount.toNat
  inputRegisters : ∀ r, status.inputRegisters = some r → r.length = status.inputRegisterCount.toNat
  registerMask : ∀ m, status.registerMask = some m → m.length = status.registerMaskLength.toNat
  coils : ∀ c, status.coils = some c → c.length = (modbusBitsToBytes status.coilCount).toNat
  discreteInputs : ∀ c, status.discreteInputs = some c →
    c.length = (modbusBitsToBytes status.discreteInputCount).toNat
  coilMask : ∀ m, status.coilMask = some m → m.length = status.coilMaskLength.toNat

def coilsOf (coils : Option (List UInt8)) (count : UInt16) : List Bool :=
  match coils with
  | none => []
  | some coils => bits coils count.toNat

def memoryOf (status : ModbusSlave) : Memory where
  coils := coilsOf status.coils status.coilCount
  discreteInputs := coilsOf status.discreteInputs status.discreteInputCount
  registers := status.registers.getD []
  inputRegisters := status.inputRegisters.getD []
  coilLocked := lockedBy status.coilMask
  registerLocked := lockedBy status.registerMask

def field (high low : UInt8) : UInt16 := modbusMatchEndian (readWord high low)

def decodeRead (ask : ℕ → ℕ → Request) : List UInt8 → Option Request
  | [_, _, indexHigh, indexLow, countHigh, countLow, _, _] =>
    some (ask (field indexHigh indexLow).toNat (field countHigh countLow).toNat)
  | _ => none

def decode05 : List UInt8 → Option Request
  | [_, _, indexHigh, indexLow, valueHigh, valueLow, _, _] =>
    let index := (field indexHigh indexLow).toNat
    let value := field valueHigh valueLow
    if value = 0x0000 then some (.writeCoils index [false])
    else if value = 0xFF00 then some (.writeCoils index [true])
    else none
  | _ => none

def decode06 : List UInt8 → Option Request
  | [_, _, indexHigh, indexLow, valueHigh, valueLow, _, _] =>
    some (.writeRegisters (field indexHigh indexLow).toNat [field valueHigh valueLow])
  | _ => none

def decode15 : List UInt8 → Option Request
  | _ :: _ :: indexHigh :: indexLow :: countHigh :: countLow :: length :: values =>
    let count := (field countHigh countLow).toNat
    if values.length = length.toNat + 2 ∧ length.toNat = (count + 7) / 8 then
      some (.writeCoils (field indexHigh indexLow).toNat (bits values count))
    else none
  | _ => none

def decode16 : List UInt8 → Option Request
  | _ :: _ :: indexHigh :: indexLow :: countHigh :: countLow :: length :: values =>
    let count := (field countHigh countLow).toNat
    if values.length = length.toNat + 2 ∧ count = length.toNat / 2 then
      some (.writeRegisters (field indexHigh indexLow).toNat (wordsOf count values))
    else none
  | _ => none

def decode22 : List UInt8 → Option Request
  | [_, _, indexHigh, indexLow, andHigh, andLow, orHigh, orLow, _, _] =>
    some (.maskRegister (field indexHigh indexLow).toNat (field andHigh andLow)
      (field orHigh orLow))
  | _ => none

def decode (function : UInt8) (parser : List UInt8) : Option Request :=
  if function = 1 then decodeRead .readCoils parser
  else if function = 2 then decodeRead .readDiscreteInputs parser
  else if function = 3 then decodeRead .readRegisters parser
  else if function = 4 then decodeRead .readInputRegisters parser
  else if function = 5 then decode05 parser
  else if function = 6 then decode06 parser
  else if function = 15 then decode15 parser
  else if function = 16 then decode16 parser
  else if function = 22 then decode22 parser
  else none

def Carries (function : UInt8) (parser payload : List UInt8) : Data → Prop
  | .bits list => ∃ values, payload = UInt8.ofNat values.length :: values ∧
      values.length = (list.length + 7) / 8 ∧ bits values list.length = list
  | .words list => payload = UInt8.ofNat (2 * list.length) :: wordsBytes list
  | .done => payload = (parser.drop 2).take (if function = 22 then 6 else 4)

def supported : List UInt8 := [1, 2, 3, 4, 5, 6, 15, 16, 22]

def Refuses (memory : Memory) (function : UInt8) (request : Option Request)
    (code : ModbusExceptionCode) : Prop :=
  match request with
  | none => code = if function ∈ supported then .illegalValue else .illegalFunction
  | some request => memory.perform request = (.error code, memory)

structure Follows (before after : ModbusSlave) : Prop where
  wellFormed : WellFormed after
  address : after.address = before.address

inductive Reacts (s : ModbusSlave) (allocated : Bool) (address function : UInt8)
    (parser : List UInt8) : Option Request → ModbusError × ModbusSlave → Prop
  | silent {request : Option Request} (error : ModbusFrameError) (hall : address = 0)
      (hread : ∀ r memory, request = some r → (Memory.perform memory r).2 = memory) :
      Reacts s allocated address function parser request (.parse, { s with parseError := error })
  | refused {request : Option Request} {code : ModbusExceptionCode} (error : ModbusFrameError)
      (hrefuses : Refuses (memoryOf s) function request code) :
      Reacts s allocated address function parser request
        (modbusBuildExceptionErr s allocated function code error)
  | starved {request : Option Request} (hstarved : allocated = false) :
      Reacts s allocated address function parser request
        (.alloc, { s with response.frame := none })
  | performed {request : Request} {data : Data} {after : ModbusSlave} {payload : List UInt8}
      (hallocated : allocated = true)
      (hperform : (memoryOf s).perform request = (.ok data, memoryOf after))
      (hcarries : Carries function parser payload data) (hfollows : Follows s after)
      (hbroadcast : address = 0 → after.response.length = 0)
      (hresponse : address ≠ 0 → after.response = frameOf (s.address :: function :: payload)) :
      Reacts s allocated address function parser (some request) (.ok, after)

theorem badCount_iff (count most : UInt16) :
    (count = 0 ∨ most < count) ↔ (count.toNat = 0 ∨ most.toNat < count.toNat) := by
  rw [← UInt16.toNat_inj, UInt16.lt_iff_toNat_lt]
  rfl

theorem readPart_illegalValue {α : Type} {most : ℕ} {xs : List α} {index count : ℕ}
    (h : count = 0 ∨ most < count) : readPart most xs index count = .error .illegalValue := by
  rw [readPart, if_pos h]

theorem readPart_illegalAddress {α : Type} {most : ℕ} {xs : List α} {index count : ℕ}
    (hcount : ¬ (count = 0 ∨ most < count)) (h : xs.length < index + count) :
    readPart most xs index count = .error .illegalAddress := by
  rw [readPart, if_neg hcount, if_pos h]

theorem readPart_ok {α : Type} {most : ℕ} {xs : List α} {index count : ℕ}
    (hcount : ¬ (count = 0 ∨ most < count)) (h : index + count ≤ xs.length) :
    readPart most xs index count = .ok ((xs.drop index).take count) := by
  rw [readPart, if_neg hcount, if_neg (Nat.not_lt.mpr h)]

theorem outside_iff {total index count : UInt16} (hcount : count.toNat ≠ 0) :
    (total ≤ index ∨ total.toNat < index.toNat + count.toNat) ↔
      total.toNat < index.toNat + count.toNat := by
  rw [UInt16.le_iff_toNat_le]
  omega

theorem twice_toUInt8 (count : UInt16) :
    (count <<< 1).toUInt8 = UInt8.ofNat (2 * count.toNat) := by
  apply UInt8.toNat_inj.mp
  rw [UInt16.toNat_toUInt8, UInt16.toNat_shiftLeft, UInt8.toNat_ofNat']
  change count.toNat <<< 1 % 65536 % 256 = _
  rw [Nat.shiftLeft_eq]
  omega

section
variable {s : ModbusSlave} {allocated : Bool} {address function : UInt8} {parser : List UInt8}

theorem answerRegisters_reacts (hs : WellFormed s) {registers : Option (List UInt16)}
    {total index count : UInt16} {ask : ℕ → ℕ → Request} (haddress : address ≠ 0)
    (hlength : ∀ r, registers = some r → r.length = total.toNat)
    (hperform : ∀ i c, (memoryOf s).perform (ask i c) =
      ((readPart 125 (registers.getD []) i c).map .words, memoryOf s)) :
    ∃ outcome, answerRegisters s allocated function registers total index count = some outcome ∧
      Reacts s allocated address function parser (some (ask index.toNat count.toNat)) outcome := by
  have hbad : (count = 0 ∨ 125 < count) ↔ (count.toNat = 0 ∨ 125 < count.toNat) :=
    badCount_iff count 125
  unfold answerRegisters
  dsimp only
  by_cases hcount : count = 0 ∨ 125 < count
  · rw [if_pos hcount]
    refine ⟨_, rfl, .refused _ ?_⟩
    rw [Refuses, hperform, readPart_illegalValue (hbad.mp hcount)]
    rfl
  rw [if_neg hcount]
  have hcount' : ¬ (count.toNat = 0 ∨ 125 < count.toNat) := fun h => hcount (hbad.mpr h)
  cases registers with
  | none =>
    refine ⟨_, rfl, .refused _ ?_⟩
    rw [Refuses, hperform, readPart_illegalAddress hcount' (by
      rw [Option.getD_none, List.length_nil]; omega)]
    rfl
  | some registers =>
    have hregisters := hlength registers rfl
    dsimp only
    by_cases hrange : total.toNat < index.toNat + count.toNat
    · rw [if_pos (Or.inr hrange)]
      refine ⟨_, rfl, .refused _ ?_⟩
      rw [Refuses, hperform, Option.getD_some, readPart_illegalAddress hcount' (by omega)]
      rfl
    rw [if_neg fun h => hrange ((outside_iff (by omega)).mp h)]
    cases allocated with
    | false => exact ⟨_, rfl, .starved rfl⟩
    | true =>
      have hinside : index.toNat + count.toNat ≤ registers.length := by omega
      have hlist : ((registers.drop index.toNat).take count.toNat).length = count.toNat := by
        rw [List.length_take, List.length_drop]
        omega
      have hdata : (memoryOf s).perform (ask index.toNat count.toNat) =
          (.ok (.words ((registers.drop index.toNat).take count.toNat)), memoryOf s) := by
        rw [hperform, Option.getD_some, readPart_ok hcount' hinside]
        rfl
      have hcarries : Carries function parser (UInt8.ofNat (2 * count.toNat) ::
          wordsBytes ((registers.drop index.toNat).take count.toNat))
          (.words ((registers.drop index.toNat).take count.toNat)) := by
        rw [Carries, hlist]
      rw [sendRegisters_inside hinside]
      refine ⟨_, rfl, .performed rfl hdata hcarries ⟨{ hs with }, rfl⟩
        (fun h => absurd h haddress) fun _ => ?_⟩
      rw [← twice_toUInt8]
      rfl

theorem answerCoils_reacts (hs : WellFormed s) {source : Option (List UInt8)}
    {total index count : UInt16} {ask : ℕ → ℕ → Request} (haddress : address ≠ 0)
    (hlength : ∀ c, source = some c → c.length = (modbusBitsToBytes total).toNat)
    (hperform : ∀ i c, (memoryOf s).perform (ask i c) =
      ((readPart 2000 (coilsOf source total) i c).map .bits, memoryOf s)) :
    ∃ outcome, answerCoils s allocated function source total index count = some outcome ∧
      Reacts s allocated address function parser (some (ask index.toNat count.toNat)) outcome := by
  have hbad : (count = 0 ∨ 2000 < count) ↔ (count.toNat = 0 ∨ 2000 < count.toNat) :=
    badCount_iff count 2000
  unfold answerCoils
  dsimp only
  by_cases hcount : count = 0 ∨ 2000 < count
  · rw [if_pos hcount]
    refine ⟨_, rfl, .refused _ ?_⟩
    rw [Refuses, hperform, readPart_illegalValue (hbad.mp hcount)]
    rfl
  rw [if_neg hcount]
  have hcount' : ¬ (count.toNat = 0 ∨ 2000 < count.toNat) := fun h => hcount (hbad.mpr h)
  cases source with
  | none =>
    refine ⟨_, rfl, .refused _ ?_⟩
    rw [Refuses, hperform, readPart_illegalAddress hcount' (by
      rw [coilsOf, List.length_nil]; omega)]
    rfl
  | some source =>
    have hsource := hlength source rfl
    have htotal : (coilsOf (some source) total).length = total.toNat := BitArray.length_bits ..
    dsimp only
    by_cases hrange : total.toNat < index.toNat + count.toNat
    · rw [if_pos (Or.inr hrange)]
      refine ⟨_, rfl, .refused _ ?_⟩
      rw [Refuses, hperform, readPart_illegalAddress hcount' (by omega)]
      rfl
    rw [if_neg fun h => hrange ((outside_iff (by omega)).mp h)]
    cases allocated with
    | false => exact ⟨_, rfl, .starved rfl⟩
    | true =>
      have hmost := total.toNat_lt
      have hbytes := modbusBitsToBytes_toNat count
      have hall := modbusBitsToBytes_toNat total
      have hlist : (((coilsOf (some source) total).drop index.toNat).take count.toNat).length =
          count.toNat := by
        rw [List.length_take, List.length_drop, htotal]
        omega
      obtain ⟨values, hcopy, hvalues, hbits⟩ := copyBits_inside (i := index) (j := 0)
        (n := total.toNat) (Nat.le_of_eq hsource.symm)
        (Nat.le_of_eq (List.length_replicate (a := (0 : UInt8))).symm)
        (by omega) (by rw [UInt16.toNat_zero]; omega) (by omega)
        (by rw [hbytes, UInt16.toNat_zero]; omega) (Nat.le_of_not_lt hrange)
      rw [List.length_replicate, hbytes] at hvalues
      have hsame : bits values count.toNat =
          ((coilsOf (some source) total).drop index.toNat).take count.toNat := by
        rw [hbits, UInt16.toNat_zero]
        exact BitArray.overlay_whole (by rw [BitArray.length_bits]; exact hlist.symm)
      have hdata : (memoryOf s).perform (ask index.toNat count.toNat) =
          (.ok (.bits (((coilsOf (some source) total).drop index.toNat).take count.toNat)),
            memoryOf s) := by
        rw [hperform, readPart_ok hcount' (by omega)]
        rfl
      have hcarries : Carries function parser (UInt8.ofNat values.length :: values)
          (.bits (((coilsOf (some source) total).drop index.toNat).take count.toNat)) :=
        ⟨values, rfl, by rw [hvalues, hlist], by rw [hlist, hsame]⟩
      have hbyte : (modbusBitsToBytes count).toUInt8 = UInt8.ofNat values.length := by
        apply UInt8.toNat_inj.mp
        rw [UInt16.toNat_toUInt8, hbytes, UInt8.toNat_ofNat', hvalues]
      rw [hcopy]
      refine ⟨_, rfl, .performed rfl hdata hcarries ⟨{ hs with }, rfl⟩
        (fun h => absurd h haddress) fun _ => ?_⟩
      rw [← hbyte]
      rfl

theorem acknowledge_reacts {request : Request} {echo : List UInt8}
    {write : ModbusSlave → Option (Bool × ModbusSlave)} {after : ModbusSlave}
    (hperform : (memoryOf s).perform request = (.ok .done, memoryOf after))
    (hidle : after.response.length = 0)
    (hwrite : write s = some (true, after)) (hfollows : Follows s after)
    (hecho : echo = (parser.drop 2).take (if function = 22 then 6 else 4)) :
    ∃ outcome, acknowledge s allocated address (function :: echo) write = some outcome ∧
      Reacts s allocated address function parser (some request) outcome := by
  rw [acknowledge]
  cases allocated with
  | false => exact ⟨_, rfl, .starved rfl⟩
  | true =>
    rw [if_neg (by decide), hwrite, Option.bind_eq_bind, Option.bind_some]
    dsimp only
    rw [if_neg (by decide)]
    by_cases haddress : address = 0
    · rw [if_pos haddress]
      exact ⟨_, rfl, .performed rfl hperform hecho ⟨{ hfollows.wellFormed with }, hfollows.address⟩
        (fun _ => hidle) fun h => absurd haddress h⟩
    · rw [if_neg haddress]
      refine ⟨_, rfl, .performed rfl hperform hecho
        ⟨{ hfollows.wellFormed with }, hfollows.address⟩ (fun h => absurd h haddress) fun _ => ?_⟩
      rw [← hfollows.address]

theorem writePart_single {α : Type} {most : ℕ} (hmost : 0 < most) (locked : ℕ → Bool)
    (xs : List α) (i : ℕ) (x : α) :
    writePart most locked xs i [x] =
      if xs.length ≤ i then .error .illegalAddress
      else if locked i then .error .slaveFailure
      else .ok (xs.set i x) := by
  rw [writePart, List.length_singleton, if_neg (by omega), List.range_one, List.any_cons,
    List.any_nil, Bool.or_false, Nat.add_zero]
  by_cases h : xs.length ≤ i
  · rw [if_pos h, if_pos (by omega)]
  · rw [if_neg h, if_neg (by omega)]
    rfl

theorem writeRegister_reacts (hs : WellFormed s) (hidle : s.response.length = 0) {echo : List UInt8}
    {index : UInt16} {update : UInt16 → UInt16} {request : Request} (absent : ModbusFrameError)
    (hperform : (memoryOf s).perform request = (memoryOf s).setRegisters (writePart 123
      (lockedBy s.registerMask) (s.registers.getD []) index.toNat
      [update ((s.registers.getD []).getD index.toNat 0)]))
    (hecho : echo = (parser.drop 2).take (if function = 22 then 6 else 4)) :
    ∃ outcome, writeRegister s allocated address function (function :: echo) absent index update =
        some outcome ∧ Reacts s allocated address function parser (some request) outcome := by
  unfold writeRegister
  dsimp only
  rw [writePart_single (by decide)] at hperform
  cases hregisters : s.registers with
  | none =>
    refine ⟨_, rfl, .refused _ ?_⟩
    rw [Refuses, hperform, hregisters, Option.getD_none, List.length_nil, if_pos (Nat.zero_le _)]
    rfl
  | some registers =>
    have hcount := hs.registers registers hregisters
    rw [hregisters, Option.getD_some] at hperform
    dsimp only
    by_cases hrange : s.registerCount ≤ index
    · rw [if_pos hrange]
      rw [UInt16.le_iff_toNat_le, ← hcount] at hrange
      refine ⟨_, rfl, .refused _ ?_⟩
      rw [Refuses, hperform, if_pos hrange]
      rfl
    obtain ⟨value, hvalue, hlocked⟩ := modbusMaskRead_locked hs.registerMask index
    rw [if_neg hrange, hvalue, Option.bind_eq_bind, Option.bind_some]
    rw [UInt16.le_iff_toNat_le, ← hcount] at hrange
    rw [if_neg hrange] at hperform
    by_cases hone : value = 1
    · rw [if_pos hone]
      refine ⟨_, rfl, .refused _ ?_⟩
      rw [Refuses, hperform, if_pos (hlocked.mp hone)]
      rfl
    · rw [if_neg hone]
      rw [if_neg fun h => hone (hlocked.mpr h)] at hperform
      have hget : registers[index.toNat]? = some (registers.getD index.toNat 0) := by
        rw [List.getD_eq_getElem?_getD, List.getElem?_eq_getElem (Nat.lt_of_not_le hrange)]
        rfl
      have hdone : (memoryOf s).perform request = (.ok .done, memoryOf { s with
          registers := some (registers.set index.toNat (update (registers.getD index.toNat 0))) }) :=
        hperform
      refine acknowledge_reacts hdone hidle ?_ ⟨{ hs with registers := fun r hr => ?_ }, rfl⟩ hecho
      · rw [hget]
        rfl
      · rw [← Option.some.inj hr, List.length_set]
        exact hcount

theorem writeCoil_reacts (hs : WellFormed s) (hidle : s.response.length = 0) {echo : List UInt8}
    {index value : UInt16}
    (hecho : echo = (parser.drop 2).take (if (5 : UInt8) = 22 then 6 else 4)) :
    ∃ outcome, writeCoil s allocated address (5 :: echo) index value = some outcome ∧
      Reacts s allocated address 5 parser (if value = 0x0000 then
          some (.writeCoils index.toNat [false])
        else if value = 0xFF00 then some (.writeCoils index.toNat [true]) else none) outcome := by
  unfold writeCoil
  dsimp only
  by_cases hvalue : value ≠ 0x0000 ∧ value ≠ 0xFF00
  · rw [if_pos hvalue, if_neg hvalue.1, if_neg hvalue.2]
    exact ⟨_, rfl, .refused _ rfl⟩
  rw [if_neg hvalue]
  have hrequest : (if value = 0x0000 then some (Request.writeCoils index.toNat [false])
      else if value = 0xFF00 then some (.writeCoils index.toNat [true]) else none) =
      some (.writeCoils index.toNat [decide (value = 0xFF00)]) := by
    by_cases hzero : value = 0x0000
    · rw [if_pos hzero, hzero]
      rfl
    · have hone : value = 0xFF00 := not_not.mp fun hne => hvalue ⟨hzero, hne⟩
      rw [if_neg hzero, if_pos hone, hone]
      rfl
  have hperform : (memoryOf s).perform (.writeCoils index.toNat [decide (value = 0xFF00)]) =
      (memoryOf s).setCoils (writePart 1968 (lockedBy s.coilMask) (coilsOf s.coils s.coilCount)
        index.toNat [decide (value = 0xFF00)]) := rfl
  rw [writePart_single (by decide)] at hperform
  rw [hrequest]
  cases hcoils : s.coils with
  | none =>
    refine ⟨_, rfl, .refused _ ?_⟩
    rw [Refuses, hperform, hcoils, coilsOf, List.length_nil, if_pos (Nat.zero_le _)]
    rfl
  | some coils =>
    have hlength := hs.coils coils hcoils
    have hbytes := modbusBitsToBytes_toNat s.coilCount
    rw [hcoils, coilsOf, BitArray.length_bits] at hperform
    dsimp only
    by_cases hrange : s.coilCount ≤ index
    · rw [if_pos hrange]
      rw [UInt16.le_iff_toNat_le] at hrange
      refine ⟨_, rfl, .refused _ ?_⟩
      rw [Refuses, hperform, if_pos hrange]
      rfl
    obtain ⟨locked, hread, hlocked⟩ := modbusMaskRead_locked hs.coilMask index
    rw [if_neg hrange, hread, Option.bind_eq_bind, Option.bind_some]
    rw [UInt16.le_iff_toNat_le] at hrange
    rw [if_neg hrange] at hperform
    by_cases hone : locked = 1
    · rw [if_pos hone]
      refine ⟨_, rfl, .refused _ ?_⟩
      rw [Refuses, hperform, if_pos (hlocked.mp hone)]
      rfl
    · rw [if_neg hone]
      rw [if_neg fun h => hone (hlocked.mpr h), ← BitArray.bits_write (by omega)] at hperform
      have hdone : (memoryOf s).perform (.writeCoils index.toNat [decide (value = 0xFF00)]) =
          (.ok .done, memoryOf { s with
            coils := some (BitArray.write coils index.toNat (decide (value = 0xFF00))) }) :=
        hperform
      have hbit : decide ((if value = 0xFF00 then (1 : UInt8) else 0) ≠ 0) =
          decide (value = 0xFF00) := by by_cases h : value = 0xFF00 <;> simp [h]
      refine acknowledge_reacts hdone hidle ?_ ⟨{ hs with coils := fun c hc => ?_ }, rfl⟩ hecho
      · rw [modbusMaskWrite_inside (Nat.le_of_eq hlength.symm) (by omega), hbit]
        rfl
      · rw [← Option.some.inj hc, BitArray.length_write]
        exact hlength

section
variable {α : Type} {most : ℕ} {locked : ℕ → Bool} {xs values : List α} {i : ℕ}

theorem writePart_illegalValue (h : values.length = 0 ∨ most < values.length) :
    writePart most locked xs i values = .error .illegalValue := by
  rw [writePart, if_pos h]

theorem writePart_illegalAddress (hcount : ¬ (values.length = 0 ∨ most < values.length))
    (h : xs.length < i + values.length) :
    writePart most locked xs i values = .error .illegalAddress := by
  rw [writePart, if_neg hcount, if_pos h]

theorem writePart_inside (hcount : ¬ (values.length = 0 ∨ most < values.length))
    (h : i + values.length ≤ xs.length) :
    writePart most locked xs i values =
      if (List.range values.length).any fun k => locked (i + k) then .error .slaveFailure
      else .ok (overlay xs i values) := by
  rw [writePart, if_neg hcount, if_neg (Nat.not_lt.mpr h)]

end

/-- The frame is as long as the byte with the length says, up to a carry. -/
def Counted (length : UInt8) (values : List UInt8) : Prop :=
  7 + values.length < 256 ∧ (9 + length.toNat) % 256 = 7 + values.length

theorem writeCoils_reacts (hs : WellFormed s) (hidle : s.response.length = 0) {echo : List UInt8}
    {index count : UInt16} {length : UInt8} {values : List UInt8} (hcounted : Counted length values)
    (hecho : echo = (parser.drop 2).take (if (15 : UInt8) = 22 then 6 else 4)) :
    ∃ outcome,
      writeCoils s allocated address (15 :: echo) index count length values = some outcome ∧
      Reacts s allocated address 15 parser
        (if values.length = length.toNat + 2 ∧ length.toNat = (count.toNat + 7) / 8 then
          some (.writeCoils index.toNat (bits values count.toNat)) else none) outcome := by
  obtain ⟨hshort, hlength⟩ := hcounted
  have hbytes := modbusBitsToBytes_toNat count
  have hall := modbusBitsToBytes_toNat s.coilCount
  have hmany := s.coilCount.toNat_lt
  have hvalues : (bits values count.toNat).length = count.toNat := BitArray.length_bits ..
  have hperform : (memoryOf s).perform (.writeCoils index.toNat (bits values count.toNat)) =
      (memoryOf s).setCoils (writePart 1968 (lockedBy s.coilMask) (coilsOf s.coils s.coilCount)
        index.toNat (bits values count.toNat)) := rfl
  have hbad : (length = 0 ∨ count = 0 ∨ modbusBitsToBytes count ≠ length.toUInt16 ∨
      1968 < count) ↔ (length.toNat = 0 ∨ count.toNat = 0 ∨
        (count.toNat + 7) / 8 ≠ length.toNat ∨ 1968 < count.toNat) := by
    rw [← UInt8.toNat_inj, ← UInt16.toNat_inj, ← hbytes, ← UInt8.toNat_toUInt16, Ne, Ne,
      ← UInt16.toNat_inj (a := modbusBitsToBytes count), UInt16.lt_iff_toNat_lt]
    rfl
  unfold writeCoils
  dsimp only
  by_cases hdata : length = 0 ∨ count = 0 ∨ modbusBitsToBytes count ≠ length.toUInt16 ∨
      1968 < count
  · rw [if_pos hdata]
    have hdata' := hbad.mp hdata
    refine ⟨_, rfl, .refused _ ?_⟩
    split
    · rw [Refuses, hperform, writePart_illegalValue (by omega)]
      rfl
    · rfl
  rw [if_neg hdata]
  have hdata' : ¬ (length.toNat = 0 ∨ count.toNat = 0 ∨ (count.toNat + 7) / 8 ≠ length.toNat ∨
    1968 < count.toNat) := fun h => hdata (hbad.mpr h)
  rw [if_pos (by omega)]
  cases hcoils : s.coils with
  | none =>
    refine ⟨_, rfl, .refused _ ?_⟩
    rw [Refuses, hperform, hcoils, coilsOf, writePart_illegalAddress (by omega) (by
      rw [List.length_nil]; omega)]
    rfl
  | some coils =>
    have hcount := hs.coils coils hcoils
    rw [hcoils, coilsOf] at hperform
    have htotal : (bits coils s.coilCount.toNat).length = s.coilCount.toNat :=
      BitArray.length_bits ..
    dsimp only
    by_cases hrange : s.coilCount.toNat < index.toNat + count.toNat
    · rw [if_pos (Or.inr hrange)]
      refine ⟨_, rfl, .refused _ ?_⟩
      rw [Refuses, hperform, writePart_illegalAddress (by omega) (by omega)]
      rfl
    rw [if_neg fun h => hrange ((outside_iff (by omega)).mp h),
      protectedFrom_eq hs.coilMask (by omega), Option.bind_eq_bind, Option.bind_some]
    rw [writePart_inside (by omega) (by omega), hvalues] at hperform
    by_cases hlocked : ((List.range count.toNat).any fun k =>
        lockedBy s.coilMask (index.toNat + k)) = true
    · rw [if_pos hlocked]
      refine ⟨_, rfl, .refused _ ?_⟩
      rw [Refuses, hperform, if_pos hlocked]
      rfl
    · rw [if_neg hlocked]
      rw [if_neg hlocked] at hperform
      obtain ⟨coils', hcopy, hsame, hbits⟩ := @copyBits_inside values coils length.toUInt16
        (modbusBitsToBytes s.coilCount) 0 index count.toNat count.toNat
        (by rw [UInt8.toNat_toUInt16]; omega) (Nat.le_of_eq hcount.symm)
        (by rw [UInt16.toNat_zero]; omega) (by omega)
        (by rw [UInt16.toNat_zero, UInt8.toNat_toUInt16]; omega) (by omega)
        (by rw [UInt16.toNat_zero]; omega)
      rw [UInt16.toNat_zero, List.drop_zero, List.take_of_length_le (Nat.le_of_eq hvalues)] at hbits
      rw [← hbits] at hperform
      have hdone : (memoryOf s).perform (.writeCoils index.toNat (bits values count.toNat)) =
          (.ok .done, memoryOf { s with coils := some coils' }) := hperform
      refine acknowledge_reacts hdone hidle ?_ ⟨{ hs with coils := fun c hc => ?_ }, rfl⟩ hecho
      · rw [hcopy]
        rfl
      · rw [← Option.some.inj hc, hsame]
        exact hcount

theorem writeRegisters_reacts (hs : WellFormed s) (hidle : s.response.length = 0)
    {echo : List UInt8} {index count : UInt16} {length : UInt8} {values : List UInt8}
    (hcounted : Counted length values)
    (hecho : echo = (parser.drop 2).take (if (16 : UInt8) = 22 then 6 else 4)) :
    ∃ outcome,
      writeRegisters s allocated address (16 :: echo) index count length values = some outcome ∧
      Reacts s allocated address 16 parser
        (if values.length = length.toNat + 2 ∧ count.toNat = length.toNat / 2 then
          some (.writeRegisters index.toNat (wordsOf count.toNat values)) else none) outcome := by
  obtain ⟨hshort, hlength⟩ := hcounted
  have hmany := s.registerCount.toNat_lt
  have hlong := length.toNat_lt
  have hperform : (memoryOf s).perform (.writeRegisters index.toNat (wordsOf count.toNat values)) =
      (memoryOf s).setRegisters (writePart 123 (lockedBy s.registerMask) (s.registers.getD [])
        index.toNat (wordsOf count.toNat values)) := rfl
  have hhalf : (length >>> 1).toUInt16.toNat = length.toNat / 2 := by
    rw [UInt8.toNat_toUInt16, UInt8.toNat_shiftRight]
    exact Nat.shiftRight_eq_div_pow length.toNat 1
  have hbad : (length = 0 ∨ count = 0 ∨ count ≠ (length >>> 1).toUInt16 ∨ 123 < count) ↔
      (length.toNat = 0 ∨ count.toNat = 0 ∨ count.toNat ≠ length.toNat / 2 ∨
        123 < count.toNat) := by
    rw [← UInt8.toNat_inj, ← UInt16.toNat_inj, ← hhalf, Ne, Ne,
      ← UInt16.toNat_inj (a := count) (b := (length >>> 1).toUInt16), UInt16.lt_iff_toNat_lt]
    rfl
  unfold writeRegisters
  dsimp only
  by_cases hdata : length = 0 ∨ count = 0 ∨ count ≠ (length >>> 1).toUInt16 ∨ 123 < count
  · rw [if_pos hdata]
    have hdata' := hbad.mp hdata
    refine ⟨_, rfl, .refused _ ?_⟩
    split
    · have hvalues : (wordsOf count.toNat values).length = count.toNat :=
        wordsOf_length (by omega)
      rw [Refuses, hperform, writePart_illegalValue (by omega)]
      rfl
    · rfl
  rw [if_neg hdata]
  have hdata' : ¬ (length.toNat = 0 ∨ count.toNat = 0 ∨ count.toNat ≠ length.toNat / 2 ∨
    123 < count.toNat) := fun h => hdata (hbad.mpr h)
  rw [if_pos (by omega)]
  have hvalues : (wordsOf count.toNat values).length = count.toNat := wordsOf_length (by omega)
  cases hregisters : s.registers with
  | none =>
    refine ⟨_, rfl, .refused _ ?_⟩
    rw [Refuses, hperform, hregisters, Option.getD_none, writePart_illegalAddress (by omega) (by
      rw [List.length_nil]; omega)]
    rfl
  | some registers =>
    have hcount := hs.registers registers hregisters
    rw [hregisters, Option.getD_some] at hperform
    dsimp only
    by_cases hrange : s.registerCount.toNat < index.toNat + count.toNat
    · rw [if_pos (Or.inr hrange)]
      refine ⟨_, rfl, .refused _ ?_⟩
      rw [Refuses, hperform, writePart_illegalAddress (by omega) (by omega)]
      rfl
    rw [if_neg fun h => hrange ((outside_iff (by omega)).mp h),
      protectedFrom_eq hs.registerMask (by omega), Option.bind_eq_bind, Option.bind_some]
    rw [writePart_inside (by omega) (by omega), hvalues] at hperform
    by_cases hlocked : ((List.range count.toNat).any fun k =>
        lockedBy s.registerMask (index.toNat + k)) = true
    · rw [if_pos hlocked]
      refine ⟨_, rfl, .refused _ ?_⟩
      rw [Refuses, hperform, if_pos hlocked]
      rfl
    · rw [if_neg hlocked]
      rw [if_neg hlocked] at hperform
      have hdone : (memoryOf s).perform (.writeRegisters index.toNat
          (wordsOf count.toNat values)) = (.ok .done, memoryOf { s with
            registers := some (overlay registers index.toNat (wordsOf count.toNat values)) }) :=
        hperform
      refine acknowledge_reacts hdone hidle ?_ ⟨{ hs with registers := fun r hr => ?_ }, rfl⟩
        hecho
      · rw [storeRegisters_inside (by omega) (by omega)]
        rfl
      · rw [← Option.some.inj hr, BitArray.length_overlay]
        exact hcount

end

section
variable {s : ModbusSlave} {parser : List UInt8}

theorem eight_fields (h : parser.length = 8) :
    ∃ a f b₁ b₂ b₃ b₄ c₁ c₂, parser = [a, f, b₁, b₂, b₃, b₄, c₁, c₂] := by
  match parser, h with
  | [a, f, b₁, b₂, b₃, b₄, c₁, c₂], _ => exact ⟨a, f, b₁, b₂, b₃, b₄, c₁, c₂, rfl⟩

theorem ten_fields (h : parser.length = 10) :
    ∃ a f b₁ b₂ b₃ b₄ b₅ b₆ c₁ c₂, parser = [a, f, b₁, b₂, b₃, b₄, b₅, b₆, c₁, c₂] := by
  match parser, h with
  | [a, f, b₁, b₂, b₃, b₄, b₅, b₆, c₁, c₂], _ =>
    exact ⟨a, f, b₁, b₂, b₃, b₄, b₅, b₆, c₁, c₂, rfl⟩

theorem request_length {n : UInt8} (hlength : s.request.length.toNat = parser.length) :
    s.request.length = n ↔ parser.length = n.toNat := by
  rw [← UInt8.toNat_inj, hlength]

end

structure Given (s : ModbusSlave) (address function : UInt8) (fields : List UInt8) : Prop where
  wellFormed : WellFormed s
  idle : s.response.length = 0
  length : s.request.length.toNat = (address :: function :: fields).length

section
variable {s : ModbusSlave} {address function : UInt8} {fields : List UInt8}

theorem Given.length_ne (h : Given s address function fields) {n : UInt8}
    (hn : s.request.length ≠ n) : (address :: function :: fields).length ≠ n.toNat :=
  fun heq => hn ((request_length h.length).mpr heq)

theorem Given.length_lt (h : Given s address function fields) {n : UInt8}
    (hn : s.request.length < n) : (address :: function :: fields).length < n.toNat := by
  rw [← h.length]
  exact UInt8.lt_iff_toNat_lt.mp hn

theorem modbusParseRequest06_reacts (h : Given s address 6 fields) (allocated : Bool) :
    ∃ outcome, modbusParseRequest06 s allocated (address :: 6 :: fields) = some outcome ∧
      Reacts s allocated address 6 (address :: 6 :: fields) (decode06 (address :: 6 :: fields))
        outcome := by
  unfold modbusParseRequest06
  by_cases height : s.request.length ≠ 8
  · rw [if_pos height]
    have hnone : decode06 (address :: 6 :: fields) = none := by
      unfold decode06
      split
      · next heq => exact absurd (congrArg List.length heq) (h.length_ne height)
      · rfl
    rw [hnone]
    exact ⟨_, rfl, .refused _ rfl⟩
  · rw [if_neg height]
    obtain ⟨a, f, b₁, b₂, b₃, b₄, c₁, c₂, heq⟩ :=
      eight_fields ((request_length h.length).mp (not_not.mp height))
    cases heq
    exact writeRegister_reacts h.wellFormed h.idle _ rfl rfl

theorem modbusParseRequest22_reacts (h : Given s address 22 fields) (allocated : Bool) :
    ∃ outcome, modbusParseRequest22 s allocated (address :: 22 :: fields) = some outcome ∧
      Reacts s allocated address 22 (address :: 22 :: fields) (decode22 (address :: 22 :: fields))
        outcome := by
  unfold modbusParseRequest22
  by_cases hten : s.request.length ≠ 10
  · rw [if_pos hten]
    have hnone : decode22 (address :: 22 :: fields) = none := by
      unfold decode22
      split
      · next heq => exact absurd (congrArg List.length heq) (h.length_ne hten)
      · rfl
    rw [hnone]
    exact ⟨_, rfl, .refused _ rfl⟩
  · rw [if_neg hten]
    obtain ⟨a, f, b₁, b₂, b₃, b₄, b₅, b₆, c₁, c₂, heq⟩ :=
      ten_fields ((request_length h.length).mp (not_not.mp hten))
    cases heq
    exact writeRegister_reacts h.wellFormed h.idle _ rfl rfl

theorem decodeRead_none (h : Given s address function fields) (height : s.request.length ≠ 8)
    (ask : ℕ → ℕ → Request) : decodeRead ask (address :: function :: fields) = none := by
  unfold decodeRead
  split
  · next heq => exact absurd (congrArg List.length heq) (h.length_ne height)
  · rfl

theorem decodeRead_some {ask : ℕ → ℕ → Request} {frame : List UInt8} {request : Request}
    (h : decodeRead ask frame = some request) : ∃ i n, request = ask i n := by
  unfold decodeRead at h
  split at h
  · exact ⟨_, _, (Option.some.inj h).symm⟩
  · cases h

theorem read_reacts (h : Given s address function fields) (hsupported : function ∈ supported)
    {ask : ℕ → ℕ → Request} (hask : ∀ i n memory, (Memory.perform memory (ask i n)).2 = memory)
    {answer : UInt16 → UInt16 → Outcome}
    (hanswer : address ≠ 0 → ∀ i n, ∃ outcome, answer i n = some outcome ∧
      Reacts s allocated address function (address :: function :: fields)
        (some (ask i.toNat n.toNat)) outcome) :
    ∃ outcome,
      (if address = 0 then some (.parse, { s with parseError := .broadcast })
      else if s.request.length ≠ 8 then
        some (modbusBuildExceptionErr s allocated function .illegalValue .length)
      else
        match fields with
        | [indexHigh, indexLow, countHigh, countLow, _, _] =>
          answer (field indexHigh indexLow) (field countHigh countLow)
        | _ => none) = some outcome ∧
      Reacts s allocated address function (address :: function :: fields)
        (decodeRead ask (address :: function :: fields)) outcome := by
  by_cases hall : address = 0
  · rw [if_pos hall]
    refine ⟨_, rfl, .silent _ hall fun r memory hr => ?_⟩
    obtain ⟨i, n, rfl⟩ := decodeRead_some hr
    exact hask i n memory
  rw [if_neg hall]
  by_cases height : s.request.length ≠ 8
  · rw [if_pos height, decodeRead_none h height]
    exact ⟨_, rfl, .refused _ (if_pos hsupported).symm⟩
  · rw [if_neg height]
    obtain ⟨a, f, b₁, b₂, b₃, b₄, c₁, c₂, heq⟩ :=
      eight_fields ((request_length h.length).mp (not_not.mp height))
    cases heq
    exact hanswer hall _ _

theorem modbusParseRequest0304_reacts (h : Given s address function fields)
    (hfunction : function = 3 ∨ function = 4) (allocated : Bool) :
    ∃ outcome, modbusParseRequest0304 s allocated (address :: function :: fields) = some outcome ∧
      Reacts s allocated address function (address :: function :: fields)
        (decodeRead (if function = 3 then .readRegisters else .readInputRegisters)
          (address :: function :: fields)) outcome := by
  unfold modbusParseRequest0304
  dsimp only
  rw [if_neg fun hnot => hfunction.elim hnot.1 hnot.2]
  obtain rfl | rfl := hfunction
  · exact @read_reacts s address 3 fields allocated h (by simp [supported]) .readRegisters
      (fun _ _ _ => rfl) (answerRegisters s allocated 3 s.registers s.registerCount)
      fun hall _ _ => answerRegisters_reacts h.wellFormed hall h.wellFormed.registers fun _ _ => rfl
  · exact @read_reacts s address 4 fields allocated h (by simp [supported]) .readInputRegisters
      (fun _ _ _ => rfl) (answerRegisters s allocated 4 s.inputRegisters s.inputRegisterCount)
      fun hall _ _ =>
        answerRegisters_reacts h.wellFormed hall h.wellFormed.inputRegisters fun _ _ => rfl

theorem modbusParseRequest0102_reacts (h : Given s address function fields)
    (hfunction : function = 1 ∨ function = 2) (allocated : Bool) :
    ∃ outcome, modbusParseRequest0102 s allocated (address :: function :: fields) = some outcome ∧
      Reacts s allocated address function (address :: function :: fields)
        (decodeRead (if function = 1 then .readCoils else .readDiscreteInputs)
          (address :: function :: fields)) outcome := by
  unfold modbusParseRequest0102
  dsimp only
  rw [if_neg fun hnot => hfunction.elim hnot.1 hnot.2]
  obtain rfl | rfl := hfunction
  · exact @read_reacts s address 1 fields allocated h (by simp [supported]) .readCoils
      (fun _ _ _ => rfl) (answerCoils s allocated 1 s.coils s.coilCount)
      fun hall _ _ => answerCoils_reacts h.wellFormed hall h.wellFormed.coils fun _ _ => rfl
  · exact @read_reacts s address 2 fields allocated h (by simp [supported]) .readDiscreteInputs
      (fun _ _ _ => rfl) (answerCoils s allocated 2 s.discreteInputs s.discreteInputCount)
      fun hall _ _ =>
        answerCoils_reacts h.wellFormed hall h.wellFormed.discreteInputs fun _ _ => rfl

theorem modbusParseRequest05_reacts (h : Given s address 5 fields) (allocated : Bool) :
    ∃ outcome, modbusParseRequest05 s allocated (address :: 5 :: fields) = some outcome ∧
      Reacts s allocated address 5 (address :: 5 :: fields) (decode05 (address :: 5 :: fields))
        outcome := by
  unfold modbusParseRequest05
  by_cases height : s.request.length ≠ 8
  · rw [if_pos height]
    have hnone : decode05 (address :: 5 :: fields) = none := by
      unfold decode05
      split
      · next heq => exact absurd (congrArg List.length heq) (h.length_ne height)
      · rfl
    rw [hnone]
    exact ⟨_, rfl, .refused _ rfl⟩
  · rw [if_neg height]
    obtain ⟨a, f, b₁, b₂, b₃, b₄, c₁, c₂, heq⟩ :=
      eight_fields ((request_length h.length).mp (not_not.mp height))
    cases heq
    exact writeCoil_reacts h.wellFormed h.idle rfl

theorem seven_fields (h : Given s address function fields) (hlong : ¬ s.request.length < 7) :
    ∃ b₁ b₂ b₃ b₄ length values, fields = b₁ :: b₂ :: b₃ :: b₄ :: length :: values := by
  have hmany := h.length
  rw [UInt8.lt_iff_toNat_lt, hmany] at hlong
  match fields, hlong with
  | b₁ :: b₂ :: b₃ :: b₄ :: length :: values, _ => exact ⟨b₁, b₂, b₃, b₄, length, values, rfl⟩
  | [], hlong => exact absurd (Nat.lt_of_sub_pos (Nat.succ_pos 4)) hlong
  | [_], hlong => exact absurd (Nat.lt_of_sub_pos (Nat.succ_pos 3)) hlong
  | [_, _], hlong => exact absurd (Nat.lt_of_sub_pos (Nat.succ_pos 2)) hlong
  | [_, _, _], hlong => exact absurd (Nat.lt_of_sub_pos (Nat.succ_pos 1)) hlong
  | [_, _, _, _], hlong => exact absurd (Nat.lt_of_sub_pos (Nat.succ_pos 0)) hlong

theorem Given.counted {b₁ b₂ b₃ b₄ length : UInt8} {values : List UInt8}
    (h : Given s address function (b₁ :: b₂ :: b₃ :: b₄ :: length :: values)) :
    (s.request.length = 9 + length ↔ (9 + length.toNat) % 256 = 7 + values.length) ∧
      7 + values.length < 256 := by
  have hmany : s.request.length.toNat = 7 + values.length :=
    h.length.trans (Nat.add_comm values.length 7)
  have hnine : (9 + length).toNat = (9 + length.toNat) % 256 := UInt8.toNat_add 9 length
  have hbyte := s.request.length.toNat_lt
  rw [← UInt8.toNat_inj, hnine, hmany]
  exact ⟨eq_comm, by omega⟩

theorem modbusParseRequest15_reacts (h : Given s address 15 fields) (allocated : Bool) :
    ∃ outcome, modbusParseRequest15 s allocated (address :: 15 :: fields) = some outcome ∧
      Reacts s allocated address 15 (address :: 15 :: fields) (decode15 (address :: 15 :: fields))
        outcome := by
  unfold modbusParseRequest15
  dsimp only
  by_cases hshort : s.request.length < 7
  · rw [if_pos hshort]
    have hnone : decode15 (address :: 15 :: fields) = none := by
      unfold decode15
      split
      · next heq =>
        exact absurd ((congrArg List.length heq).symm.trans_lt (h.length_lt hshort))
          (Nat.not_lt.mpr (Nat.le_add_left 7 _))
      · rfl
    rw [hnone]
    exact ⟨_, rfl, .refused _ rfl⟩
  rw [if_neg hshort]
  obtain ⟨b₁, b₂, b₃, b₄, length, values, rfl⟩ := seven_fields h hshort
  obtain ⟨hcounted, hbyte⟩ := h.counted
  dsimp only
  by_cases hlength : s.request.length ≠ 9 + length
  · rw [if_pos hlength]
    have hnone : decode15 (address :: 15 :: b₁ :: b₂ :: b₃ :: b₄ :: length :: values) = none := by
      rw [decode15, if_neg fun hdata => hlength (hcounted.mpr (by omega))]
    rw [hnone]
    exact ⟨_, rfl, .refused _ rfl⟩
  · rw [if_neg hlength]
    exact writeCoils_reacts h.wellFormed h.idle ⟨hbyte, hcounted.mp (not_not.mp hlength)⟩ rfl

theorem modbusParseRequest16_reacts (h : Given s address 16 fields) (allocated : Bool) :
    ∃ outcome, modbusParseRequest16 s allocated (address :: 16 :: fields) = some outcome ∧
      Reacts s allocated address 16 (address :: 16 :: fields) (decode16 (address :: 16 :: fields))
        outcome := by
  unfold modbusParseRequest16
  dsimp only
  by_cases hshort : s.request.length < 7
  · rw [if_pos hshort]
    have hnone : decode16 (address :: 16 :: fields) = none := by
      unfold decode16
      split
      · next heq =>
        exact absurd ((congrArg List.length heq).symm.trans_lt (h.length_lt hshort))
          (Nat.not_lt.mpr (Nat.le_add_left 7 _))
      · rfl
    rw [hnone]
    exact ⟨_, rfl, .refused _ rfl⟩
  rw [if_neg hshort]
  obtain ⟨b₁, b₂, b₃, b₄, length, values, rfl⟩ := seven_fields h hshort
  obtain ⟨hcounted, hbyte⟩ := h.counted
  dsimp only
  by_cases hlength : s.request.length ≠ 9 + length
  · rw [if_pos hlength]
    have hnone : decode16 (address :: 16 :: b₁ :: b₂ :: b₃ :: b₄ :: length :: values) = none := by
      rw [decode16, if_neg fun hdata => hlength (hcounted.mpr (by omega))]
    rw [hnone]
    exact ⟨_, rfl, .refused _ rfl⟩
  · rw [if_neg hlength]
    exact writeRegisters_reacts h.wellFormed h.idle ⟨hbyte, hcounted.mp (not_not.mp hlength)⟩ rfl

theorem builtin_reacts (h : Given s address function fields) (allocated : Bool) :
    ∃ outcome, builtin s allocated function (address :: function :: fields) = some outcome ∧
      Reacts s allocated address function (address :: function :: fields)
        (decode function (address :: function :: fields)) outcome := by
  by_cases h1 : function = 1
  · subst h1
    exact modbusParseRequest0102_reacts h (Or.inl rfl) allocated
  by_cases h2 : function = 2
  · subst h2
    exact modbusParseRequest0102_reacts h (Or.inr rfl) allocated
  by_cases h3 : function = 3
  · subst h3
    exact modbusParseRequest0304_reacts h (Or.inl rfl) allocated
  by_cases h4 : function = 4
  · subst h4
    exact modbusParseRequest0304_reacts h (Or.inr rfl) allocated
  by_cases h5 : function = 5
  · subst h5
    exact modbusParseRequest05_reacts h allocated
  by_cases h6 : function = 6
  · subst h6
    exact modbusParseRequest06_reacts h allocated
  by_cases h15 : function = 15
  · subst h15
    exact modbusParseRequest15_reacts h allocated
  by_cases h16 : function = 16
  · subst h16
    exact modbusParseRequest16_reacts h allocated
  by_cases h22 : function = 22
  · subst h22
    exact modbusParseRequest22_reacts h allocated
  rw [builtin, if_neg (not_or.mpr ⟨h1, h2⟩), if_neg (not_or.mpr ⟨h3, h4⟩), if_neg h5, if_neg h6,
    if_neg h15, if_neg h16, if_neg h22, decode, if_neg h1, if_neg h2, if_neg h3, if_neg h4,
    if_neg h5, if_neg h6, if_neg h15, if_neg h16, if_neg h22]
  refine ⟨_, rfl, .refused _ ?_⟩
  rw [Refuses, if_neg (by simp [supported, h1, h2, h3, h4, h5, h6, h15, h16, h22])]

end

end IotEdgeAgent.Modbus.Slave
