import IotEdgeAgent.Library.Collect
import IotEdgeAgent.Library.Refinement
import IotEdgeAgent.Modbus.Slave

/-!
# What a Modbus device is for

A device holds coils, discrete inputs, registers and input registers. A request reads a part of one
of them or writes over a part of the coils or the registers; parts that are protected are never
written.
-/

namespace IotEdgeAgent.Modbus.Device
open BitArray (overlay length_overlay overlay_other overlay_written slice_overlay)
open Collect (map_eq_ok)
open Refinement (answers answers_related)
open Slave (ModbusExceptionCode)

structure Memory where
  coils : List Bool
  discreteInputs : List Bool
  registers : List UInt16
  inputRegisters : List UInt16
  coilLocked : ℕ → Bool
  registerLocked : ℕ → Bool

inductive Request
  | readCoils (index count : ℕ)
  | readDiscreteInputs (index count : ℕ)
  | readRegisters (index count : ℕ)
  | readInputRegisters (index count : ℕ)
  | writeCoils (index : ℕ) (values : List Bool)
  | writeRegisters (index : ℕ) (values : List UInt16)
  | maskRegister (index : ℕ) (andMask orMask : UInt16)
  deriving DecidableEq, Repr

inductive Data
  | bits (values : List Bool)
  | words (values : List UInt16)
  | done
  deriving DecidableEq, Repr

section
variable {α : Type}

def readPart (most : ℕ) (xs : List α) (index count : ℕ) : Except ModbusExceptionCode (List α) :=
  if count = 0 ∨ most < count then .error .illegalValue
  else if xs.length < index + count then .error .illegalAddress
  else .ok ((xs.drop index).take count)

def writePart (most : ℕ) (locked : ℕ → Bool) (xs : List α) (index : ℕ) (values : List α) :
    Except ModbusExceptionCode (List α) :=
  if values.length = 0 ∨ most < values.length then .error .illegalValue
  else if xs.length < index + values.length then .error .illegalAddress
  else if (List.range values.length).any fun k => locked (index + k) then .error .slaveFailure
  else .ok (overlay xs index values)

end

namespace Memory
variable (memory : Memory)

def setCoils : Except ModbusExceptionCode (List Bool) → Except ModbusExceptionCode Data × Memory
  | .ok coils => (.ok .done, { memory with coils := coils })
  | .error code => (.error code, memory)

def setRegisters :
    Except ModbusExceptionCode (List UInt16) → Except ModbusExceptionCode Data × Memory
  | .ok registers => (.ok .done, { memory with registers := registers })
  | .error code => (.error code, memory)

def masked (index : ℕ) (andMask orMask : UInt16) : UInt16 :=
  memory.registers.getD index 0 &&& andMask ||| orMask &&& ~~~andMask

def perform : Request → Except ModbusExceptionCode Data × Memory
  | .readCoils index count => ((readPart 2000 memory.coils index count).map .bits, memory)
  | .readDiscreteInputs index count =>
    ((readPart 2000 memory.discreteInputs index count).map .bits, memory)
  | .readRegisters index count => ((readPart 125 memory.registers index count).map .words, memory)
  | .readInputRegisters index count =>
    ((readPart 125 memory.inputRegisters index count).map .words, memory)
  | .writeCoils index values =>
    memory.setCoils (writePart 1968 memory.coilLocked memory.coils index values)
  | .writeRegisters index values =>
    memory.setRegisters (writePart 123 memory.registerLocked memory.registers index values)
  | .maskRegister index andMask orMask =>
    memory.setRegisters (writePart 123 memory.registerLocked memory.registers index
      [memory.masked index andMask orMask])

def run (requests : List Request) : List (Except ModbusExceptionCode Data) × Memory :=
  answers perform memory requests

end Memory

section
variable {α : Type} {most index : ℕ} {locked : ℕ → Bool} {xs ys values : List α}

theorem writePart_ok (h : writePart most locked xs index values = .ok ys) :
    index + values.length ≤ xs.length ∧ (∀ k < values.length, locked (index + k) = false) ∧
      ys = overlay xs index values := by
  rw [writePart] at h
  split_ifs at h with hcount hrange hlocked
  refine ⟨Nat.le_of_not_lt hrange, fun k hk => ?_, (Except.ok.inj h).symm⟩
  rw [Bool.not_eq_true, List.any_eq_false] at hlocked
  exact Bool.eq_false_of_not_eq_true (hlocked k (List.mem_range.mpr hk))

theorem writePart_length (h : writePart most locked xs index values = .ok ys) :
    ys.length = xs.length := by
  rw [(writePart_ok h).2.2, length_overlay]

theorem writePart_locked (h : writePart most locked xs index values = .ok ys) {i : ℕ}
    (hi : locked i = true) : ys[i]? = xs[i]? := by
  obtain ⟨-, hfree, rfl⟩ := writePart_ok h
  apply overlay_other
  by_contra hinside
  have hfree' := hfree (i - index) (by omega)
  rw [Nat.add_sub_cancel' (by omega), hi] at hfree'
  exact Bool.noConfusion hfree'

end

structure Kept (before after : Memory) : Prop where
  discreteInputs : after.discreteInputs = before.discreteInputs
  inputRegisters : after.inputRegisters = before.inputRegisters
  coilLocked : after.coilLocked = before.coilLocked
  registerLocked : after.registerLocked = before.registerLocked
  coilCount : after.coils.length = before.coils.length
  registerCount : after.registers.length = before.registers.length
  coils : ∀ i, before.coilLocked i = true → after.coils[i]? = before.coils[i]?
  registers : ∀ i, before.registerLocked i = true → after.registers[i]? = before.registers[i]?

namespace Kept
variable {memory before between after : Memory}

theorem refl (memory : Memory) : Kept memory memory :=
  ⟨rfl, rfl, rfl, rfl, rfl, rfl, fun _ _ => rfl, fun _ _ => rfl⟩

theorem trans (h₁ : Kept before between) (h₂ : Kept between after) : Kept before after where
  discreteInputs := h₂.discreteInputs.trans h₁.discreteInputs
  inputRegisters := h₂.inputRegisters.trans h₁.inputRegisters
  coilLocked := h₂.coilLocked.trans h₁.coilLocked
  registerLocked := h₂.registerLocked.trans h₁.registerLocked
  coilCount := h₂.coilCount.trans h₁.coilCount
  registerCount := h₂.registerCount.trans h₁.registerCount
  coils := fun i hi =>
    (h₂.coils i ((congrFun h₁.coilLocked i).trans hi)).trans (h₁.coils i hi)
  registers := fun i hi =>
    (h₂.registers i ((congrFun h₁.registerLocked i).trans hi)).trans (h₁.registers i hi)

theorem setCoils {most index : ℕ} {values : List Bool} :
    Kept memory
      (memory.setCoils (writePart most memory.coilLocked memory.coils index values)).2 := by
  cases h : writePart most memory.coilLocked memory.coils index values with
  | error code => exact .refl memory
  | ok coils =>
    exact ⟨rfl, rfl, rfl, rfl, writePart_length h, rfl, fun i hi => writePart_locked h hi,
      fun _ _ => rfl⟩

theorem setRegisters {most index : ℕ} {values : List UInt16} :
    Kept memory (memory.setRegisters
      (writePart most memory.registerLocked memory.registers index values)).2 := by
  cases h : writePart most memory.registerLocked memory.registers index values with
  | error code => exact .refl memory
  | ok registers =>
    exact ⟨rfl, rfl, rfl, rfl, rfl, writePart_length h, fun _ _ => rfl,
      fun i hi => writePart_locked h hi⟩

theorem perform (memory : Memory) (request : Request) : Kept memory (memory.perform request).2 := by
  cases request with
  | readCoils index count => exact .refl memory
  | readDiscreteInputs index count => exact .refl memory
  | readRegisters index count => exact .refl memory
  | readInputRegisters index count => exact .refl memory
  | writeCoils index values => exact .setCoils
  | writeRegisters index values => exact .setRegisters
  | maskRegister index andMask orMask => exact .setRegisters

theorem run (memory : Memory) (requests : List Request) : Kept memory (memory.run requests).2 :=
  answers_related refl (fun _ _ _ => trans) perform memory requests

end Kept

def Small : Data → Prop
  | .bits list => list.length ≤ 2000
  | .words list => list.length ≤ 125
  | .done => True

section
variable {memory memory' : Memory} {data : Data}

theorem readPart_length {α : Type} {most index count : ℕ} {xs ys : List α}
    (h : readPart most xs index count = .ok ys) : ys.length ≤ most := by
  rw [readPart] at h
  split_ifs at h with hcount hrange
  rw [← Except.ok.inj h, List.length_take]
  omega

theorem setCoils_data {written : Except ModbusExceptionCode (List Bool)}
    (h : (memory.setCoils written).1 = .ok data) : data = .done := by
  cases written with
  | error code => cases h
  | ok coils => exact (Except.ok.inj h).symm

theorem setRegisters_data {written : Except ModbusExceptionCode (List UInt16)}
    (h : (memory.setRegisters written).1 = .ok data) : data = .done := by
  cases written with
  | error code => cases h
  | ok registers => exact (Except.ok.inj h).symm

theorem perform_small {request : Request} (h : memory.perform request = (.ok data, memory')) :
    Small data := by
  have hdata := congrArg Prod.fst h
  cases request with
  | readCoils index count =>
    obtain ⟨list, hlist, rfl⟩ := map_eq_ok hdata
    exact readPart_length hlist
  | readDiscreteInputs index count =>
    obtain ⟨list, hlist, rfl⟩ := map_eq_ok hdata
    exact readPart_length hlist
  | readRegisters index count =>
    obtain ⟨list, hlist, rfl⟩ := map_eq_ok hdata
    exact readPart_length hlist
  | readInputRegisters index count =>
    obtain ⟨list, hlist, rfl⟩ := map_eq_ok hdata
    exact readPart_length hlist
  | writeCoils index values =>
    rw [setCoils_data hdata]
    trivial
  | writeRegisters index values =>
    rw [setRegisters_data hdata]
    trivial
  | maskRegister index andMask orMask =>
    rw [setRegisters_data hdata]
    trivial

end

end IotEdgeAgent.Modbus.Device
