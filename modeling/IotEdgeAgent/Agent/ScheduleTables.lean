import IotEdgeAgent.Agent.DataCreate

/-!
# Which entries of the schedule are set

The scheduler takes an entry of a table for set when it is not zero. Both functions write the
entries that are configured and leave the others as `malloc` returned them.
-/

namespace IotEdgeAgent.Configuration.ScheduleTables
open ByteWalk (bind_eq_ok)
open Protocol DataCreate

section
variable {n : ℕ} (table : Vector UInt8 n) (inv : ℤ)

/-- The entries that are not zero are the configured one, or all for -1. -/
def Marks : Prop := ∀ (j : ℕ) (h : j < n), table[j] ≠ 0 ↔ inv = -1 ∨ (j : ℤ) = inv

def ClearElsewhere : Prop := ∀ (j : ℕ) (h : j < n), (j : ℤ) ≠ inv → table[j] = 0

variable {table inv} {table' : Vector UInt8 n}

theorem writeEntry_getElem (hwrite : writeEntry table inv = .ok table') (j : ℕ) (h : j < n) :
    table'[j] = if (j : ℤ) = inv then 1 else table[j] := by
  rw [writeEntry] at hwrite
  split_ifs at hwrite with hinside
  cases hwrite
  rw [Vector.getElem_set]
  have hiff : inv.toNat = j ↔ (j : ℤ) = inv := by omega
  simp only [hiff]

theorem writeEntry_marks_iff (hwrite : writeEntry table inv = .ok table') (hall : inv ≠ -1) :
    Marks table' inv ↔ ClearElsewhere table inv := by
  have hone : (1 : UInt8) ≠ 0 := by decide
  constructor
  · intro hmarks j h hother
    have hzero := (hmarks j h).not.mpr (not_or.mpr ⟨hall, hother⟩)
    rw [writeEntry_getElem hwrite j h, if_neg hother] at hzero
    exact not_not.mp hzero
  · intro hclear j h
    rw [writeEntry_getElem hwrite j h]
    by_cases hentry : (j : ℤ) = inv
    · rw [if_pos hentry]
      exact ⟨fun _ => Or.inr hentry, fun _ => hone⟩
    · rw [if_neg hentry, hclear j h hentry]
      exact ⟨fun hzero => absurd rfl hzero, fun hset => absurd (hset.resolve_left hall) hentry⟩

theorem fillTable_marks_iff (hfill : fillTable table inv = .ok table') :
    Marks table' inv ↔ (inv ≠ -1 → ClearElsewhere table inv) := by
  rw [fillTable] at hfill
  split_ifs at hfill with hall
  · cases hfill
    refine ⟨fun _ hne => absurd hall hne, fun _ j h => ?_⟩
    rw [Vector.getElem_replicate]
    exact ⟨fun _ => Or.inl hall, fun _ => by decide⟩
  · rw [writeEntry_marks_iff hfill hall]
    exact ⟨fun hclear _ => hclear, fun hclear => hclear hall⟩

end

structure Exact (schedule : Schedule) (time : InvTime) : Prop where
  mons : Marks schedule.mons time.invMons
  days : Marks schedule.days time.invDays
  hous : Marks schedule.hous time.invHous
  mins : Marks schedule.mins time.invMins

/-- Zero at every entry that is not configured, in the tables that are not set as a whole. -/
structure Clear (schedule : Schedule) (time : InvTime) : Prop where
  mons : time.invMons ≠ -1 → ClearElsewhere schedule.mons time.invMons
  days : time.invDays ≠ -1 → ClearElsewhere schedule.days time.invDays
  hous : time.invHous ≠ -1 → ClearElsewhere schedule.hous time.invHous
  mins : ClearElsewhere schedule.mins time.invMins

theorem zeroSchedule_clear (time : InvTime) : Clear zeroSchedule time where
  mons _ _ h _ := Vector.getElem_replicate h
  days _ _ h _ := Vector.getElem_replicate h
  hous _ _ h _ := Vector.getElem_replicate h
  mins _ h _ := Vector.getElem_replicate h

structure InRange (time : InvTime) : Prop where
  mons : time.invMons = -1 ∨ 0 ≤ time.invMons ∧ time.invMons ≤ 11
  days : time.invDays = -1 ∨ 1 ≤ time.invDays ∧ time.invDays ≤ 31
  hous : time.invHous = -1 ∨ 0 ≤ time.invHous ∧ time.invHous ≤ 23
  mins : 0 ≤ time.invMins ∧ time.invMins ≤ 59

theorem InRange.inside {time : InvTime} (h : InRange time) : TimeInside time where
  mons := h.mons.imp_right fun h => ⟨h.1, by omega⟩
  days := h.days.imp_right fun h => ⟨by omega, by omega⟩
  hous := h.hous.imp_right fun h => ⟨h.1, by omega⟩
  mins := ⟨h.mins.1, by have hle := h.mins.2; omega⟩

theorem fillSchedule_ok {schedule schedule' : Schedule} {time : InvTime}
    (h : fillSchedule schedule time = .ok schedule') :
    fillTable schedule.mons time.invMons = .ok schedule'.mons ∧
      fillTable schedule.days time.invDays = .ok schedule'.days ∧
      fillTable schedule.hous time.invHous = .ok schedule'.hous ∧
      writeEntry schedule.mins time.invMins = .ok schedule'.mins := by
  obtain ⟨mons, hmons, h⟩ := bind_eq_ok h
  obtain ⟨days, hdays, h⟩ := bind_eq_ok h
  obtain ⟨hous, hhous, h⟩ := bind_eq_ok h
  obtain ⟨mins, hmins, h⟩ := bind_eq_ok h
  cases h
  exact ⟨hmons, hdays, hhous, hmins⟩

theorem fillSchedule_exact_iff {schedule schedule' : Schedule} {time : InvTime}
    (hrange : InRange time) (h : fillSchedule schedule time = .ok schedule') :
    Exact schedule' time ↔ Clear schedule time := by
  obtain ⟨hmons, hdays, hhous, hmins⟩ := fillSchedule_ok h
  have hall : time.invMins ≠ -1 := by
    have hle := hrange.mins.1
    omega
  have hmons := fillTable_marks_iff hmons
  have hdays := fillTable_marks_iff hdays
  have hhous := fillTable_marks_iff hhous
  have hmins := writeEntry_marks_iff hmins hall
  exact ⟨fun h => ⟨hmons.mp h.mons, hdays.mp h.days, hhous.mp h.hous, hmins.mp h.mins⟩,
    fun h => ⟨hmons.mpr h.mons, hdays.mpr h.days, hhous.mpr h.hous, hmins.mpr h.mins⟩⟩

section
variable {μ : Type}

def ExactAfter (create : Allocations μ → Except Fault (Option (PmDataInfo μ))) (model : ModelTimes)
    (memory : TimeToSend) : Prop :=
  ∀ allocations info, allocations.timeToSend = some memory →
    create allocations = .ok (some info) →
      ∃ timeToSend, info.timeToSend = some timeToSend ∧
        Exact timeToSend.startTime model.startTime ∧ Exact timeToSend.endTime model.endTime

theorem dataCreate_exactAfter_iff (times : μ → ModelTimes) (model : μ) (request : DataRequest)
    (memory : TimeToSend) (hstart : InRange (times model).startTime)
    (hend : InRange (times model).endTime) :
    ExactAfter (fun allocations => dataCreate times (some model) allocations (.ok request))
        (times model) memory ↔
      Clear memory.startTime (times model).startTime ∧
        Clear memory.endTime (times model).endTime := by
  obtain ⟨timeToSend, hfill⟩ := fillTimeToSend_inside memory hstart.inside hend.inside
  obtain ⟨hstart', hend', -⟩ := fillTimeToSend_ok hfill
  rw [← fillSchedule_exact_iff hstart hstart', ← fillSchedule_exact_iff hend hend']
  constructor
  · intro h
    have hcreate :=
      @dataCreate_allocated μ times model (.ok request) ⟨none, none, none⟩ memory true
    rw [hfill] at hcreate
    obtain ⟨timeToSend', hsome, hexact⟩ := h _ _ rfl hcreate
    cases hsome
    exact hexact
  · rintro hexact allocations info hmemory hcreate
    obtain ⟨memory', timeToSend', hmemory', hfill', hinfo⟩ := dataCreate_some hcreate
    obtain rfl := Option.some.inj (hmemory.symm.trans hmemory')
    obtain rfl := Except.ok.inj (hfill.symm.trans hfill')
    exact ⟨timeToSend, hinfo, hexact⟩

end

/-- For models in range, and memory with any content: both functions leave exact tables if and only
if the memory was zero at every entry that is not configured, in each table whose field is not
-1. -/
theorem tables_exact_iff (packet request : DataRequest) (dlt698 : Dlt698ModelInfo)
    (modbus : ModbusModelInfo) (memory : TimeToSend)
    (hdlt698 : InRange dlt698.startTime ∧ InRange dlt698.endTime)
    (hmodbus : InRange modbus.startTime ∧ InRange modbus.endTime) :
    (ExactAfter (dlt698DataCreate (some packet) (some dlt698)) (dlt698Times dlt698) memory ↔
      Clear memory.startTime dlt698.startTime ∧ Clear memory.endTime dlt698.endTime) ∧
    (ExactAfter (modbusDataInfoCreate request (some modbus)) (modbusTimes modbus) memory ↔
      Clear memory.startTime modbus.startTime ∧ Clear memory.endTime modbus.endTime) :=
  ⟨dataCreate_exactAfter_iff dlt698Times dlt698 packet memory hdlt698.1 hdlt698.2,
    dataCreate_exactAfter_iff modbusTimes modbus request memory hmodbus.1 hmodbus.2⟩

def hourlyDlt698 : Dlt698ModelInfo where
  startTime := ⟨-1, -1, -1, 0⟩
  endTime := ⟨-1, -1, -1, 30⟩
  acqMode := []
  dbTopic := []
  acqInt := 60
  acqFile := ⟨0, 0, "00000200", "001911270001", [], []⟩

def hourlyModbus : ModbusModelInfo where
  startTime := ⟨-1, -1, -1, 0⟩
  endTime := ⟨-1, -1, -1, 30⟩
  acqMode := []
  dbTopic := []
  acqInt := 60
  fn := 3
  devAddr := 1
  regCount := 0
  mRegister := []

theorem hourly_inRange (minute : ℤ) (h : 0 ≤ minute ∧ minute ≤ 59) :
    InRange ⟨-1, -1, -1, minute⟩ := ⟨Or.inl rfl, Or.inl rfl, Or.inl rfl, h⟩

theorem tables_exact_iff_hourly :
    (ExactAfter (dlt698DataCreate (some ⟨[], 0⟩) (some hourlyDlt698)) (dlt698Times hourlyDlt698)
        zeroTimeToSend ↔
      Clear zeroTimeToSend.startTime hourlyDlt698.startTime ∧
        Clear zeroTimeToSend.endTime hourlyDlt698.endTime) ∧
    (ExactAfter (modbusDataInfoCreate ⟨[], 0⟩ (some hourlyModbus)) (modbusTimes hourlyModbus)
        zeroTimeToSend ↔
      Clear zeroTimeToSend.startTime hourlyModbus.startTime ∧
        Clear zeroTimeToSend.endTime hourlyModbus.endTime) := by
  have hstart := hourly_inRange 0 (by decide)
  have hend := hourly_inRange 30 (by decide)
  exact tables_exact_iff ⟨[], 0⟩ ⟨[], 0⟩ hourlyDlt698 hourlyModbus zeroTimeToSend ⟨hstart, hend⟩
    ⟨hstart, hend⟩

def usedTimeToSend : TimeToSend :=
  { zeroTimeToSend with startTime := { zeroSchedule with mins := Vector.replicate 60 1 } }

/-- The entry is polled in every minute then. -/
theorem usedMemory_marks :
    ¬ ∀ (packet : DataRequest) (model : Dlt698ModelInfo) (memory : TimeToSend),
      InRange model.startTime → InRange model.endTime →
        ExactAfter (dlt698DataCreate (some packet) (some model)) (dlt698Times model) memory := by
  intro hall
  have hstart := hourly_inRange 0 (by decide)
  have hend := hourly_inRange 30 (by decide)
  have hexact := hall ⟨[], 0⟩ hourlyDlt698 usedTimeToSend hstart hend
  have hclear := ((dataCreate_exactAfter_iff dlt698Times hourlyDlt698 ⟨[], 0⟩ usedTimeToSend hstart
    hend).mp hexact).1.mins 1 (by decide) (by decide)
  revert hclear
  decide

end IotEdgeAgent.Configuration.ScheduleTables
