import IotEdgeAgent.Dlt698.LinkFrame
import Mathlib.Tactic.SplitIfs
import Mathlib.Tactic.Tauto

/-!
# The Modbus master

The part of lightmodbus that asks for registers: `modbusBuildRequest0304` puts a frame into the one
request of the master. The machine is little-endian. A frame is told by the call of `calloc` that returned its memory, and `released`
lists the frames that `free` was called for.
-/

namespace IotEdgeAgent.Modbus.Master
open Dlt698.LinkFrame (lowByte highByte makeWord makeWord_split lowByte_toNat highByte_toNat)

inductive ModbusError
  | ok
  | exception
  | alloc
  | other
  | parse
  | build
  deriving DecidableEq, Repr

inductive ModbusFrameError
  | ok
  | crc
  | length
  | count
  | value
  | range
  | nosrc
  | nowrite
  | nofun
  | badfun
  | nullfun
  | mismFun
  | mismAddr
  | mismIndex
  | mismCount
  | mismValue
  | mismMask
  | broadcast
  deriving DecidableEq, Repr

def modbusSwapEndian (data : UInt16) : UInt16 := data <<< 8 ||| data >>> 8

def modbusMatchEndian (data : UInt16) : UInt16 := modbusSwapEndian data

def wordBytes (w : UInt16) : List UInt8 := [lowByte w, highByte w]

def readWord (low high : UInt8) : UInt16 := UInt16.ofNat (makeWord high low)

def crcBit (crc : UInt16) : UInt16 :=
  if crc &&& 0x0001 ≠ 0 then crc >>> 1 ^^^ 0xA001 else crc >>> 1

def crcByte (crc : UInt16) (data : UInt8) : UInt16 := crcBit^[8] (crc ^^^ data.toUInt16)

def modbusCRC (data : List UInt8) : UInt16 := data.foldl crcByte 0xFFFF

structure Frame where
  call : ℕ
  bytes : List UInt8
  deriving DecidableEq, Repr

structure ModbusMaster where
  frame : Option Frame
  length : UInt8
  predictedResponseLength : UInt8
  released : List Frame
  buildError : ModbusFrameError

/-- The frame of an earlier use is dropped and not released. -/
def modbusMasterInit (status : ModbusMaster) : ModbusMaster :=
  { status with frame := none, length := 0 }

def modbusMasterEnd (status : ModbusMaster) : ModbusMaster :=
  { status with frame := none, released := status.released ++ status.frame.toList }

def requestHead (address function : UInt8) (index count : UInt16) : List UInt8 :=
  [address, function] ++ wordBytes (modbusMatchEndian index) ++ wordBytes (modbusMatchEndian count)

/-- `calloc` is the number of the call if there is memory. -/
def modbusBuildRequest0304 (status : ModbusMaster) (calloc : Option ℕ) (function address : UInt8)
    (index count : UInt16) : ModbusError × ModbusMaster :=
  if function ≠ 3 ∧ function ≠ 4 then (.build, { status with buildError := .badfun })
  else if address = 0 then (.build, { status with buildError := .broadcast })
  else
    let status := { status with length := 0, predictedResponseLength := 0 }
    if count = 0 ∨ 125 < count then (.build, { status with buildError := .count })
    else
      let status := { status with released := status.released ++ status.frame.toList }
      match calloc with
      | none => (.alloc, { status with frame := none })
      | some call =>
        let head := requestHead address function index count
        (.ok, { status with
          frame := some ⟨call, head ++ wordBytes (modbusCRC head)⟩
          length := 8
          predictedResponseLength := ((4 + 1 : UInt16) + count <<< 1).toUInt8
          buildError := .ok })

/-- A frame as the protocol has it: words with the high byte first, the checksum with the low
byte first. -/
def requestBytes (address function : UInt8) (index count : UInt16) : List UInt8 :=
  let head := [address, function, highByte index, lowByte index, highByte count, lowByte count]
  head ++ [lowByte (modbusCRC head), highByte (modbusCRC head)]

structure Requestable (function address : UInt8) (count : UInt16) : Prop where
  function : function = 3 ∨ function = 4
  address : address ≠ 0
  count : 0 < count ∧ count ≤ 125

theorem modbusSwapEndian_toNat (w : UInt16) :
    (modbusSwapEndian w).toNat = w.toNat % 256 * 256 + w.toNat / 256 := by
  have hlt := w.toNat_lt
  have hlow : w.toNat <<< 8 % 65536 = (w.toNat % 256) <<< 8 := by
    rw [Nat.shiftLeft_eq, Nat.shiftLeft_eq]
    omega
  have hhigh : w.toNat / 256 < 2 ^ 8 := by omega
  rw [modbusSwapEndian, UInt16.toNat_or, UInt16.toNat_shiftLeft, UInt16.toNat_shiftRight]
  change w.toNat <<< 8 % 65536 ||| w.toNat >>> 8 = _
  rw [hlow, Nat.shiftRight_eq_div_pow, ← Nat.shiftLeft_add_eq_or_of_lt hhigh, Nat.shiftLeft_eq]

theorem lowByte_swap (w : UInt16) : lowByte (modbusSwapEndian w) = highByte w := by
  have hlt := w.toNat_lt
  apply UInt8.toNat_inj.mp
  rw [lowByte_toNat, highByte_toNat, modbusSwapEndian_toNat]
  omega

theorem highByte_swap (w : UInt16) : highByte (modbusSwapEndian w) = lowByte w := by
  have hlt := w.toNat_lt
  apply UInt8.toNat_inj.mp
  rw [lowByte_toNat, highByte_toNat, modbusSwapEndian_toNat]
  omega

theorem wordBytes_length (w : UInt16) : (wordBytes w).length = 2 := rfl

theorem readWord_bytes (w : UInt16) : readWord (lowByte w) (highByte w) = w := by
  rw [readWord, makeWord_split, UInt16.ofNat_toNat]

theorem modbusSwapEndian_swap (w : UInt16) : modbusSwapEndian (modbusSwapEndian w) = w := by
  rw [← readWord_bytes (modbusSwapEndian (modbusSwapEndian w)), lowByte_swap, highByte_swap,
    highByte_swap, lowByte_swap, readWord_bytes]

theorem modbusMatchEndian_read (w : UInt16) :
    modbusMatchEndian (readWord (highByte w) (lowByte w)) = w := by
  rw [← lowByte_swap, ← highByte_swap w, readWord_bytes]
  exact modbusSwapEndian_swap w

theorem requestHead_eq (address function : UInt8) (index count : UInt16) :
    requestHead address function index count =
      [address, function, highByte index, lowByte index, highByte count, lowByte count] := by
  simp only [requestHead, wordBytes, modbusMatchEndian, lowByte_swap, highByte_swap,
    List.cons_append, List.nil_append]

section
variable {status : ModbusMaster} {function address : UInt8} {index count : UInt16}

theorem modbusBuildRequest0304_ok (h : Requestable function address count) (call : ℕ)
    (hidle : status.frame = none) :
    modbusBuildRequest0304 status (some call) function address index count =
      (.ok, { status with
        frame := some ⟨call, requestBytes address function index count⟩
        length := 8
        predictedResponseLength := ((4 + 1 : UInt16) + count <<< 1).toUInt8
        buildError := .ok }) := by
  have hfunction : ¬ (function ≠ 3 ∧ function ≠ 4) := fun hne => h.function.elim hne.1 hne.2
  have hcount : ¬ (count = 0 ∨ 125 < count) := fun hne =>
    hne.elim (UInt16.pos_iff_ne_zero.mp h.count.1) (UInt16.not_lt.mpr h.count.2)
  rw [modbusBuildRequest0304, if_neg hfunction, if_neg h.address]
  dsimp only
  rw [if_neg hcount, hidle, Option.toList_none, List.append_nil]
  simp only [requestHead_eq]
  rfl

theorem modbusBuildRequest0304_failed {calloc : Option ℕ}
    (h : ¬ (Requestable function address count ∧ calloc.isSome)) (hidle : status.frame = none) :
    (modbusBuildRequest0304 status calloc function address index count).2.frame = none ∧
      (modbusBuildRequest0304 status calloc function address index count).2.released =
        status.released := by
  unfold modbusBuildRequest0304
  split_ifs with hfunction haddress hcount
  · exact ⟨hidle, rfl⟩
  · exact ⟨hidle, rfl⟩
  · exact ⟨hidle, rfl⟩
  · cases calloc with
    | none =>
      rw [hidle]
      exact ⟨rfl, List.append_nil _⟩
    | some call =>
      obtain ⟨hzero, hmany⟩ := not_or.mp hcount
      refine absurd ⟨⟨?_, haddress, ?_⟩, rfl⟩ h
      · tauto
      · exact ⟨UInt16.pos_iff_ne_zero.mpr hzero, UInt16.not_lt.mp hmany⟩

end

end IotEdgeAgent.Modbus.Master
