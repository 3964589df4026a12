import IotEdgeAgent.Agent.DataCreate

/-!
# The indices of the schedule come from the document

Both parsers turn the numbers of `startTime` and `endTime` into `int` and store them, whatever they
are; a number that is missing is 0. Both functions that create an entry use them as indices.
-/

namespace IotEdgeAgent.Configuration.ScheduleIndices
open Parson Protocol DataCreate

theorem toInt_of_nonneg {value : Rat} (h : 0 ≤ value.num) : toInt value = value.num / value.den :=
  Int.tdiv_eq_ediv_of_nonneg h

theorem toInt_of_neg {value : Rat} (h : value.num < 0) :
    toInt value = -(-value.num / value.den) := by
  rw [toInt, ← Int.tdiv_eq_ediv_of_nonneg (by omega), Int.neg_tdiv, neg_neg]

theorem den_pos (value : Rat) : (0 : ℤ) < value.den := Int.natCast_pos.mpr value.den_pos

theorem toInt_lt_iff (value : Rat) {n : ℤ} (hn : 0 < n) : toInt value < n ↔ value < n := by
  have hden := den_pos value
  have hpos := Int.mul_pos hn hden
  rw [Rat.lt_iff, Rat.num_intCast, Rat.den_intCast, Int.natCast_one, Int.mul_one]
  by_cases hsign : 0 ≤ value.num
  · rw [toInt_of_nonneg hsign, Int.ediv_lt_iff_lt_mul hden]
  · have hneg := Int.not_le.mp hsign
    have hquot := Int.ediv_nonneg (show 0 ≤ -value.num by omega) hden.le
    rw [toInt_of_neg hneg]
    omega

theorem neg_le_toInt_iff (value : Rat) {n : ℤ} (hn : 0 ≤ n) :
    -n ≤ toInt value ↔ ((-(n + 1) : ℤ) : Rat) < value := by
  have hden := den_pos value
  have hpos := Int.mul_pos (show 0 < n + 1 by omega) hden
  rw [Rat.lt_iff, Rat.num_intCast, Rat.den_intCast, Int.natCast_one, Int.mul_one, Int.neg_mul]
  by_cases hsign : 0 ≤ value.num
  · have hquot := Int.ediv_nonneg hsign hden.le
    rw [toInt_of_nonneg hsign]
    omega
  · have hquot : -value.num / value.den < n + 1 ↔ -value.num < (n + 1) * value.den :=
      Int.ediv_lt_iff_lt_mul hden
    rw [toInt_of_neg (Int.not_le.mp hsign)]
    omega

theorem entryInside_iff (value : Rat) {size : ℕ} (hsize : 0 < size) :
    EntryInside (toInt value) size ↔ -1 < value ∧ value < size := by
  have hlow := neg_le_toInt_iff value (Int.le_refl 0)
  have hhigh := toInt_lt_iff value (Int.natCast_pos.mpr hsize)
  rw [EntryInside, hhigh]
  exact and_congr_left fun _ => hlow

theorem fieldInside_iff (value : Rat) {size : ℕ} (hsize : 0 < size) :
    FieldInside (toInt value) size ↔ -2 < value ∧ value < size := by
  have hlow := neg_le_toInt_iff value (show 0 ≤ (1 : ℤ) by decide)
  have hhigh := toInt_lt_iff value (Int.natCast_pos.mpr hsize)
  have hcast : ((-(1 + 1) : ℤ) : Rat) = -2 := rfl
  rw [hcast] at hlow
  change toInt value < size ↔ value < size at hhigh
  rw [FieldInside, EntryInside, ← hlow, ← hhigh]
  omega

/-- The numbers that stay in the tables when they are truncated. -/
structure NumbersInside (time : Option JsonObject) : Prop where
  mons : -2 < jsonObjectDotgetNumber time "InvMons" ∧ jsonObjectDotgetNumber time "InvMons" < 12
  days : -2 < jsonObjectDotgetNumber time "InvDays" ∧ jsonObjectDotgetNumber time "InvDays" < 32
  hous : -2 < jsonObjectDotgetNumber time "InvHous" ∧ jsonObjectDotgetNumber time "InvHous" < 24
  mins : -1 < jsonObjectDotgetNumber time "InvMins" ∧ jsonObjectDotgetNumber time "InvMins" < 60

theorem timeInside_iff (time : Option JsonObject) :
    TimeInside (parseInvTime time) ↔ NumbersInside time := by
  have hmons := fieldInside_iff (jsonObjectDotgetNumber time "InvMons") (show 0 < 12 by decide)
  have hdays := fieldInside_iff (jsonObjectDotgetNumber time "InvDays") (show 0 < 32 by decide)
  have hhous := fieldInside_iff (jsonObjectDotgetNumber time "InvHous") (show 0 < 24 by decide)
  have hmins := entryInside_iff (jsonObjectDotgetNumber time "InvMins") (show 0 < 60 by decide)
  exact ⟨fun h => ⟨hmons.mp h.mons, hdays.mp h.days, hhous.mp h.hous, hmins.mp h.mins⟩,
    fun h => ⟨hmons.mpr h.mons, hdays.mpr h.days, hhous.mpr h.hous, hmins.mpr h.mins⟩⟩

section
variable {jsonObject : Option JsonObject} {allocated : Bool}

theorem parseDlt698_times {model : Dlt698ModelInfo}
    (h : parseDlt698ModelByJson jsonObject allocated = .ok (some model)) :
    model.startTime = parseInvTime (jsonObjectDotgetObject jsonObject "startTime") ∧
      model.endTime = parseInvTime (jsonObjectDotgetObject jsonObject "endTime") := by
  obtain ⟨_, _, _, _, _, _, hstart, hend, -, rfl⟩ := parseDlt698ModelByJson_ok h
  rw [hstart, hend]
  exact ⟨rfl, rfl⟩

theorem parseModbus_times {model : ModbusModelInfo}
    (h : parseModbusModelByJson jsonObject allocated = .ok (some model)) :
    model.startTime = parseInvTime (jsonObjectDotgetObject jsonObject "startTime") ∧
      model.endTime = parseInvTime (jsonObjectDotgetObject jsonObject "endTime") := by
  obtain ⟨_, _, _, _, -, -, rfl⟩ := parseModbusModelByJson_ok h
  exact ⟨rfl, rfl⟩

end

def DocumentInside (jsonObject : Option JsonObject) : Prop :=
  NumbersInside (jsonObjectDotgetObject jsonObject "startTime") ∧
    NumbersInside (jsonObjectDotgetObject jsonObject "endTime")

section
variable {jsonObject : Option JsonObject} {allocated : Bool}

theorem dlt698_indicesInside_iff (packet : Option DataRequest) {model : Dlt698ModelInfo}
    (h : parseDlt698ModelByJson jsonObject allocated = .ok (some model)) :
    IndicesInside (dlt698DataCreate packet (some model)) ↔ DocumentInside jsonObject := by
  obtain ⟨hstart, hend⟩ := parseDlt698_times h
  rw [DocumentInside, ← timeInside_iff, ← timeInside_iff, ← hstart, ← hend]
  refine dataCreate_indicesInside_iff dlt698Times model fun index size => ?_
  cases packet <;> exact fun hfault => by cases hfault

theorem modbus_indicesInside_iff (request : DataRequest) {model : ModbusModelInfo}
    (h : parseModbusModelByJson jsonObject allocated = .ok (some model)) :
    IndicesInside (modbusDataInfoCreate request (some model)) ↔ DocumentInside jsonObject := by
  obtain ⟨hstart, hend⟩ := parseModbus_times h
  rw [DocumentInside, ← timeInside_iff, ← timeInside_iff, ← hstart, ← hend]
  exact dataCreate_indicesInside_iff modbusTimes model fun index size hfault => by cases hfault

end

/-- For every document that a parser accepts, the indices are in the tables if and only if its
numbers are. -/
theorem indices_inside_iff (jsonObject : Option JsonObject) (allocated : Bool)
    (packet : Option DataRequest) (request : DataRequest) :
    (∀ model, parseDlt698ModelByJson jsonObject allocated = .ok (some model) →
      (IndicesInside (dlt698DataCreate packet (some model)) ↔ DocumentInside jsonObject)) ∧
    ∀ model, parseModbusModelByJson jsonObject allocated = .ok (some model) →
      (IndicesInside (modbusDataInfoCreate request (some model)) ↔ DocumentInside jsonObject) :=
  ⟨fun _ => dlt698_indicesInside_iff packet, fun _ => modbus_indicesInside_iff request⟩

def hourlyDocument (minute : Rat) : JsonObject :=
  [("acqMode", .string "schfrz"), ("DBTopic", .string "rspData/energy"), ("acqInt", .number 60),
    ("startTime", .object [("InvMons", .number (-1)), ("InvDays", .number (-1)),
      ("InvHous", .number (-1)), ("InvMins", .number minute)]),
    ("endTime", .object [("InvMons", .number (-1)), ("InvDays", .number (-1)),
      ("InvHous", .number (-1)), ("InvMins", .number 30)]),
    ("AcqFile", .object [("oad", .string "00000200"), ("addr", .string "001911270001"),
      ("m", .string "PapE"), ("math", .string "-2")]),
    ("regGrp", .array [.object [("m", .string "Ua"), ("df", .string "u16"),
      ("math", .string "-1")]])]

theorem hourlyDocument_accepted (minute : Rat) :
    (∃ model, parseDlt698ModelByJson (some (hourlyDocument minute)) true = .ok (some model)) ∧
      ∃ model, parseModbusModelByJson (some (hourlyDocument minute)) true = .ok (some model) :=
  ⟨⟨_, rfl⟩, ⟨_, rfl⟩⟩

theorem indices_inside_iff_hourlyDocument :
    (∃ model, parseDlt698ModelByJson (some (hourlyDocument 0)) true = .ok (some model) ∧
      (IndicesInside (dlt698DataCreate none (some model)) ↔
        DocumentInside (some (hourlyDocument 0)))) ∧
    ∃ model, parseModbusModelByJson (some (hourlyDocument 0)) true = .ok (some model) ∧
      (IndicesInside (modbusDataInfoCreate ⟨[], 0⟩ (some model)) ↔
        DocumentInside (some (hourlyDocument 0))) := by
  obtain ⟨⟨dlt698, hdlt698⟩, ⟨modbus, hmodbus⟩⟩ := hourlyDocument_accepted 0
  obtain ⟨hiff, hiff'⟩ := indices_inside_iff (some (hourlyDocument 0)) true none ⟨[], 0⟩
  exact ⟨⟨dlt698, hdlt698, hiff dlt698 hdlt698⟩, ⟨modbus, hmodbus, hiff' modbus hmodbus⟩⟩

/-- Every minute, in the way that every hour and every day are written. -/
theorem everyMinute_outside :
    ¬ ∀ (jsonObject : Option JsonObject) (packet : Option DataRequest) (model : Dlt698ModelInfo),
      parseDlt698ModelByJson jsonObject true = .ok (some model) →
        IndicesInside (dlt698DataCreate packet (some model)) := by
  intro hall
  obtain ⟨⟨model, hmodel⟩, -⟩ := hourlyDocument_accepted (-1)
  have hinside := (dlt698_indicesInside_iff none hmodel).mp (hall _ none model hmodel)
  have hmins := hinside.1.mins.1
  revert hmins
  decide

end IotEdgeAgent.Configuration.ScheduleIndices
