import IotEdgeAgent.Library.ByteWalk
import IotEdgeAgent.Agent.ModelParsers
import IotEdgeAgent.Protocol.Manager

/-!
# Creating the data entry of a model

`dlt698_data_create` and `modbus_data_info_create` allocate an entry and mark the months, days,
hours and minutes of its schedule in tables of bytes. `Allocations` says what the calls of `malloc`
return, with what the memory holds, since nothing clears it. An index that is not in its table and
a null pointer that is followed are a `Fault`.
-/

namespace IotEdgeAgent.Configuration.DataCreate
open ByteWalk (bind_eq_ok)
open Parson Protocol

inductive Fault
  | nullDereference
  | outsideTable (index : ℤ) (size : ℕ)

def writeEntry {n : ℕ} (table : Vector UInt8 n) (inv : ℤ) : Except Fault (Vector UInt8 n) :=
  if h : 0 ≤ inv ∧ inv < n then .ok (table.set inv.toNat 1 (by omega))
  else .error (.outsideTable inv n)

def fillTable {n : ℕ} (table : Vector UInt8 n) (inv : ℤ) : Except Fault (Vector UInt8 n) :=
  if inv = -1 then .ok (Vector.replicate n 1) else writeEntry table inv

def fillSchedule (schedule : Schedule) (time : InvTime) : Except Fault Schedule := do
  let mons ← fillTable schedule.mons time.invMons
  let days ← fillTable schedule.days time.invDays
  let hous ← fillTable schedule.hous time.invHous
  let mins ← writeEntry schedule.mins time.invMins
  return ⟨mons, days, hous, mins⟩

def charArray (bytes : List UInt8) : String :=
  String.ofList ((bytes.takeWhile (· ≠ 0)).map fun b => Char.ofNat b.toNat)

structure ModelTimes where
  startTime : InvTime
  endTime : InvTime
  acqMode : List UInt8
  acqInt : ℤ

/-- `isLastOne` stays what the memory held. -/
def fillTimeToSend (memory : TimeToSend) (model : ModelTimes) : Except Fault TimeToSend := do
  let startTime ← fillSchedule memory.startTime model.startTime
  let endTime ← fillSchedule memory.endTime model.endTime
  return { memory with
    freezing := false
    acqInt := model.acqInt
    acqMode := charArray model.acqMode
    startTime := startTime
    endTime := endTime
    packetSendTime := 0 }

structure Allocations (μ : Type) where
  result : Option (PmDataInfo μ)
  timeToSend : Option TimeToSend
  dataRequest : Bool

section
variable {μ : Type}

/-- When there is no memory for the schedule the entry is freed, and written to all the same. The
pointer to the model is set by the caller. -/
def dataCreate (times : μ → ModelTimes) (modelInfo : Option μ) (allocations : Allocations μ)
    (request : Except Fault DataRequest) : Except Fault (Option (PmDataInfo μ)) :=
  match modelInfo, allocations.result with
  | some model, some result =>
    match allocations.timeToSend with
    | none => .error .nullDereference
    | some memory => do
      let timeToSend ← fillTimeToSend memory (times model)
      if !allocations.dataRequest then return none else
        let request ← request
        return some { result with timeToSend := some timeToSend, dataRequest := some request }
  | _, _ => .ok none

end

def dlt698Times (model : Dlt698ModelInfo) : ModelTimes :=
  ⟨model.startTime, model.endTime, model.acqMode, model.acqInt⟩

/-- `packet` is what `dlt698_packet_build` returns. -/
def dlt698DataCreate (packet : Option DataRequest) (modelInfo : Option Dlt698ModelInfo)
    (allocations : Allocations Dlt698ModelInfo) :
    Except Fault (Option (PmDataInfo Dlt698ModelInfo)) :=
  dataCreate dlt698Times modelInfo allocations
    (match packet with
    | none => .error .nullDereference
    | some packet => .ok packet)

def modbusTimes (model : ModbusModelInfo) : ModelTimes :=
  ⟨model.startTime, model.endTime, model.acqMode, model.acqInt⟩

/-- `request` is what `g_modbus_master` holds behind the call that builds it. -/
def modbusDataInfoCreate (request : DataRequest) (modelInfo : Option ModbusModelInfo)
    (allocations : Allocations ModbusModelInfo) :
    Except Fault (Option (PmDataInfo ModbusModelInfo)) :=
  dataCreate modbusTimes modelInfo allocations (.ok request)

def EntryInside (inv : ℤ) (size : ℕ) : Prop := 0 ≤ inv ∧ inv < size

def FieldInside (inv : ℤ) (size : ℕ) : Prop := inv = -1 ∨ EntryInside inv size

structure TimeInside (time : InvTime) : Prop where
  mons : FieldInside time.invMons 12
  days : FieldInside time.invDays 32
  hous : FieldInside time.invHous 24
  mins : EntryInside time.invMins 60

section
variable {n : ℕ} (table : Vector UInt8 n) {inv : ℤ}

theorem writeEntry_inside (h : EntryInside inv n) : ∃ table', writeEntry table inv = .ok table' :=
  ⟨_, dif_pos h⟩

theorem writeEntry_outside (h : ¬ EntryInside inv n) :
    writeEntry table inv = .error (.outsideTable inv n) := dif_neg h

theorem fillTable_inside (h : FieldInside inv n) : ∃ table', fillTable table inv = .ok table' := by
  by_cases hall : inv = -1
  · exact ⟨_, if_pos hall⟩
  · obtain ⟨table', htable'⟩ := writeEntry_inside table (h.resolve_left hall)
    exact ⟨table', by rw [fillTable, if_neg hall, htable']⟩

theorem fillTable_outside (h : ¬ FieldInside inv n) :
    fillTable table inv = .error (.outsideTable inv n) := by
  obtain ⟨hall, hentry⟩ := not_or.mp h
  rw [fillTable, if_neg hall, writeEntry_outside table hentry]

end

theorem fillSchedule_inside (schedule : Schedule) {time : InvTime} (h : TimeInside time) :
    ∃ schedule', fillSchedule schedule time = .ok schedule' := by
  obtain ⟨mons, hmons⟩ := fillTable_inside schedule.mons h.mons
  obtain ⟨days, hdays⟩ := fillTable_inside schedule.days h.days
  obtain ⟨hous, hhous⟩ := fillTable_inside schedule.hous h.hous
  obtain ⟨mins, hmins⟩ := writeEntry_inside schedule.mins h.mins
  exact ⟨⟨mons, days, hous, mins⟩, by rw [fillSchedule, hmons, hdays, hhous, hmins]; rfl⟩

theorem fillSchedule_outside (schedule : Schedule) {time : InvTime} (h : ¬ TimeInside time) :
    ∃ index size, fillSchedule schedule time = .error (.outsideTable index size) := by
  by_cases hmons : FieldInside time.invMons 12
  · obtain ⟨mons, hmons'⟩ := fillTable_inside schedule.mons hmons
    by_cases hdays : FieldInside time.invDays 32
    · obtain ⟨days, hdays'⟩ := fillTable_inside schedule.days hdays
      by_cases hhous : FieldInside time.invHous 24
      · obtain ⟨hous, hhous'⟩ := fillTable_inside schedule.hous hhous
        have hmins : ¬ EntryInside time.invMins 60 := fun hmins => h ⟨hmons, hdays, hhous, hmins⟩
        exact ⟨_, _, by
          rw [fillSchedule, hmons', hdays', hhous', writeEntry_outside schedule.mins hmins]; rfl⟩
      · exact ⟨_, _, by
          rw [fillSchedule, hmons', hdays', fillTable_outside schedule.hous hhous]; rfl⟩
    · exact ⟨_, _, by rw [fillSchedule, hmons', fillTable_outside schedule.days hdays]; rfl⟩
  · exact ⟨_, _, by rw [fillSchedule, fillTable_outside schedule.mons hmons]; rfl⟩

section
variable {memory : TimeToSend} {model : ModelTimes}

theorem fillTimeToSend_ok {timeToSend : TimeToSend}
    (h : fillTimeToSend memory model = .ok timeToSend) :
    fillSchedule memory.startTime model.startTime = .ok timeToSend.startTime ∧
      fillSchedule memory.endTime model.endTime = .ok timeToSend.endTime ∧
      timeToSend.freezing = false ∧ timeToSend.packetSendTime = 0 := by
  obtain ⟨startTime, hstart, h⟩ := bind_eq_ok h
  obtain ⟨endTime, hend, h⟩ := bind_eq_ok h
  cases h
  exact ⟨hstart, hend, rfl, rfl⟩

theorem fillTimeToSend_inside (memory : TimeToSend) (hstart : TimeInside model.startTime)
    (hend : TimeInside model.endTime) :
    ∃ timeToSend, fillTimeToSend memory model = .ok timeToSend := by
  obtain ⟨startTime, hstart'⟩ := fillSchedule_inside memory.startTime hstart
  obtain ⟨endTime, hend'⟩ := fillSchedule_inside memory.endTime hend
  exact ⟨_, by rw [fillTimeToSend, hstart', hend']; rfl⟩

theorem fillTimeToSend_outside (memory : TimeToSend)
    (h : ¬ (TimeInside model.startTime ∧ TimeInside model.endTime)) :
    ∃ index size, fillTimeToSend memory model = .error (.outsideTable index size) := by
  by_cases hstart : TimeInside model.startTime
  · obtain ⟨startTime, hstart'⟩ := fillSchedule_inside memory.startTime hstart
    obtain ⟨index, size, hend⟩ :=
      fillSchedule_outside memory.endTime fun hend => h ⟨hstart, hend⟩
    exact ⟨index, size, by rw [fillTimeToSend, hstart', hend]; rfl⟩
  · obtain ⟨index, size, hstart'⟩ := fillSchedule_outside memory.startTime hstart
    exact ⟨index, size, by rw [fillTimeToSend, hstart']; rfl⟩

end

section
variable {μ : Type} {times : μ → ModelTimes} {model : μ} {request : Except Fault DataRequest}

theorem dataCreate_allocated (result : PmDataInfo μ) (memory : TimeToSend) (allocated : Bool) :
    dataCreate times (some model) ⟨some result, some memory, allocated⟩ request =
      (fillTimeToSend memory (times model)).bind fun timeToSend =>
        if allocated then request.map fun request =>
          some { result with timeToSend := some timeToSend, dataRequest := some request }
        else .ok none := by
  cases allocated with
  | false => rfl
  | true => cases request <;> rfl

theorem dataCreate_created {allocations : Allocations μ} {info : PmDataInfo μ}
    (h : dataCreate times (some model) allocations request = .ok (some info)) :
    ∃ (result : PmDataInfo μ) (memory timeToSend : TimeToSend) (built : DataRequest),
      allocations.timeToSend = some memory ∧
      fillTimeToSend memory (times model) = .ok timeToSend ∧ request = .ok built ∧
      info = { result with timeToSend := some timeToSend, dataRequest := some built } := by
  obtain ⟨_ | result, _ | memory, allocated⟩ := allocations
  · cases h
  · cases h
  · cases h
  · rw [dataCreate_allocated] at h
    obtain ⟨timeToSend, hfill, h⟩ := bind_eq_ok h
    cases allocated with
    | false => cases h
    | true =>
      cases request with
      | error fault => cases h
      | ok built =>
        cases h
        exact ⟨result, memory, timeToSend, built, rfl, hfill, rfl, rfl⟩

theorem dataCreate_some {allocations : Allocations μ} {info : PmDataInfo μ}
    (h : dataCreate times (some model) allocations request = .ok (some info)) :
    ∃ memory timeToSend, allocations.timeToSend = some memory ∧
      fillTimeToSend memory (times model) = .ok timeToSend ∧ info.timeToSend = some timeToSend := by
  obtain ⟨result, memory, timeToSend, built, hmemory, hfill, -, rfl⟩ := dataCreate_created h
  exact ⟨memory, timeToSend, hmemory, hfill, rfl⟩

theorem dataCreate_request {allocations : Allocations μ} {info : PmDataInfo μ}
    (h : dataCreate times (some model) allocations request = .ok (some info)) :
    ∃ built, request = .ok built ∧ info.dataRequest = some built := by
  obtain ⟨result, memory, timeToSend, built, -, -, hbuilt, rfl⟩ := dataCreate_created h
  exact ⟨built, hbuilt, rfl⟩

theorem dataCreate_isSome {allocations : Allocations μ} {answer : Option (PmDataInfo μ)}
    (h : dataCreate times (some model) allocations request = .ok answer) :
    answer.isSome = (allocations.result.isSome && allocations.dataRequest) := by
  obtain ⟨_ | result, _ | memory, allocated⟩ := allocations
  · cases h
    rfl
  · cases h
    rfl
  · cases h
  · rw [dataCreate_allocated] at h
    obtain ⟨timeToSend, -, h⟩ := bind_eq_ok h
    cases allocated with
    | false =>
      cases h
      rfl
    | true =>
      cases request with
      | error fault => cases h
      | ok built =>
        cases h
        rfl

def IndicesInside (create : Allocations μ → Except Fault (Option (PmDataInfo μ))) : Prop :=
  ∀ allocations index size, create allocations ≠ .error (.outsideTable index size)

def zeroSchedule : Schedule :=
  ⟨Vector.replicate 12 0, Vector.replicate 32 0, Vector.replicate 24 0, Vector.replicate 60 0⟩

def zeroTimeToSend : TimeToSend := ⟨"", 0, 0, zeroSchedule, zeroSchedule, false, false⟩

theorem dataCreate_indicesInside_iff (times : μ → ModelTimes) (model : μ)
    (hrequest : ∀ index size, request ≠ .error (.outsideTable index size)) :
    IndicesInside (fun allocations => dataCreate times (some model) allocations request) ↔
      TimeInside (times model).startTime ∧ TimeInside (times model).endTime := by
  constructor
  · intro h
    by_contra houtside
    obtain ⟨index, size, hfill⟩ := fillTimeToSend_outside zeroTimeToSend houtside
    refine h ⟨some ⟨none, none, none⟩, some zeroTimeToSend, true⟩ index size ?_
    beta_reduce
    rw [dataCreate_allocated, hfill]
    rfl
  · rintro ⟨hstart, hend⟩ ⟨_ | result, _ | memory, allocated⟩ index size h
    · cases h
    · cases h
    · cases h
    · obtain ⟨timeToSend, hfill⟩ := fillTimeToSend_inside memory hstart hend
      beta_reduce at h
      rw [dataCreate_allocated, hfill, Except.bind] at h
      cases allocated with
      | false => cases h
      | true =>
        cases hreq : request with
        | error fault =>
          rw [hreq] at h
          cases h
          exact hrequest index size hreq
        | ok request =>
          rw [hreq] at h
          cases h

end

end IotEdgeAgent.Configuration.DataCreate
