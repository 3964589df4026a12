import IotEdgeAgent.Dlt698.Payload
import IotEdgeAgent.Library.Logged

/-!
# What the conversion of a value does

`convert_to_string_float` with a record of what it reads, which elements it enters and what it
prints where. It takes the byte behind the type for the count of the elements, and reads elements
of five bytes from the byte behind that on. `converted` lists the numbers it finds there.
-/

namespace IotEdgeAgent.Dlt698.Conversion
open ByteWalk DataLen DataFormat Response Payload

inductive Act
  | read (offset count : ℕ)
  | visit (offset : ℕ)
  | print (temp : ℤ) (index : ℕ) (text : String)

namespace Act

def visit? : Act → Option ℕ
  | .visit offset => some offset
  | _ => none

def temp? : Act → Option ℤ
  | .print temp _ _ => some temp
  | _ => none

def written : Act → ℕ
  | .print _ index text => index + text.length + 1
  | _ => 0

end Act

section
variable (sprintf : ℤ → ℤ → String) (math : ℤ) (mem : List UInt8)

def readByte (offset : ℕ) : Logged Act UInt8 := .doing (.read offset 1) mem[offset]?

def copyTemp (offset : ℕ) : Logged Act ℤ := .doing (.read offset 4) (readInt32 (mem.drop offset))

def elementText (left : ℕ) (temp : ℤ) : String :=
  if left = 0 then sprintf temp math else sprintf temp math ++ ","

def convertElementsActs : ℕ → ℕ → ℕ → String → Logged Act String
  | 0, _, _, res => pure res
  | n + 1, offset, index, res => do
    let dataType ← readByte mem offset
    if IsNumber dataType then
      Logged.doing (.visit offset) (some ())
      let temp ← copyTemp mem (offset + 1)
      let text := elementText sprintf math n temp
      Logged.doing (.print temp index text) (some ())
      convertElementsActs n (offset + 5) (index + text.length) (writeAt res index text)
    else return res

def convertActs (res : String) : Logged Act String := do
  let dataType ← readByte mem 0
  if dataType = DltData.array.code then
    let arrLen ← readByte mem 1
    convertElementsActs sprintf math mem arrLen.toNat 2 0 res
  else return res

theorem drop_of_getElem? {offset : ℕ} {b : UInt8} (h : mem[offset]? = some b) :
    mem.drop offset = b :: mem.drop (offset + 1) := by
  obtain ⟨hlt, rfl⟩ := List.getElem?_eq_some_iff.mp h
  exact List.drop_eq_getElem_cons hlt

theorem drop_of_getElem?_none {offset : ℕ} (h : mem[offset]? = none) : mem.drop offset = [] :=
  List.drop_eq_nil_of_le (List.getElem?_eq_none_iff.mp h)

theorem convertElementsActs_succ {offset : ℕ} {dataType : UInt8} (n index : ℕ) (res : String)
    (h : mem[offset]? = some dataType) :
    (convertElementsActs sprintf math mem (n + 1) offset index res).value =
      if IsNumber dataType then
        (readInt32 (mem.drop (offset + 1))).bind fun temp =>
          (convertElementsActs sprintf math mem n (offset + 5)
            (index + (elementText sprintf math n temp).length)
            (writeAt res index (elementText sprintf math n temp))).value
      else some res := by
  rw [convertElementsActs, Logged.bind_value]
  simp only [readByte, Logged.doing_value, h, Option.bind_some]
  by_cases hnumber : IsNumber dataType
  · rw [if_pos hnumber, if_pos hnumber]
    simp only [Logged.bind_value, Logged.doing_value, Option.bind_some, copyTemp]
  · rw [if_neg hnumber, if_neg hnumber]
    rfl

theorem convertElementsActs_value (n offset index : ℕ) (res : String) :
    (convertElementsActs sprintf math mem n offset index res).value =
      convertElements sprintf math n (mem.drop offset) index res := by
  induction n generalizing offset index res with
  | zero => rfl
  | succ n ih =>
    cases hbyte : mem[offset]? with
    | none =>
      rw [drop_of_getElem?_none mem hbyte, convertElementsActs, Logged.bind_value, readByte, hbyte]
      rfl
    | some dataType =>
      rw [convertElementsActs_succ sprintf math mem n index res hbyte,
        drop_of_getElem? mem hbyte, convertElements]
      by_cases hnumber : IsNumber dataType
      · rw [if_pos hnumber, if_pos hnumber]
        cases readInt32 (mem.drop (offset + 1)) with
        | none => rfl
        | some temp =>
          rw [Option.bind_some, ih, List.drop_drop]
          rfl
      · rw [if_neg hnumber, if_neg hnumber]

theorem convertActs_value (res : String) : (convertActs sprintf math mem res).value =
    convertToStringFloat sprintf mem res math := by
  match mem with
  | [] => rfl
  | dataType :: ptr =>
    rw [convertActs, Logged.bind_value, readByte]
    simp only [Logged.doing_value, List.getElem?_cons_zero, Option.bind_some,
      convertToStringFloat]
    by_cases harray : dataType = DltData.array.code
    · rw [if_pos harray, if_pos harray, Logged.bind_value, readByte]
      cases ptr with
      | nil => rfl
      | cons arrLen data =>
        simp only [Logged.doing_value, List.getElem?_cons_succ, List.getElem?_cons_zero,
          Option.bind_some, convertElementsActs_value]
        rfl
    · rw [if_neg harray, if_neg harray]
      rfl

def numberAt (offset : ℕ) : Option ℤ :=
  mem[offset]?.bind fun dataType =>
    if IsNumber dataType then readInt32 (mem.drop (offset + 1)) else none

variable {mem} in
theorem numberAt_of_isNumber {offset : ℕ} {dataType : UInt8} (hbyte : mem[offset]? = some dataType)
    (htype : IsNumber dataType) : numberAt mem offset = readInt32 (mem.drop (offset + 1)) := by
  rw [numberAt, hbyte, Option.bind_some, if_pos htype]

variable {mem} in
theorem numberAt_none {offset : ℕ} (h : numberAt mem offset = none) :
    (∃ dataType, mem[offset]? = some dataType ∧ IsNumber dataType ∧
        readInt32 (mem.drop (offset + 1)) = none) ∨
      ∀ dataType, mem[offset]? = some dataType → ¬ IsNumber dataType := by
  by_cases htype : ∃ dataType, mem[offset]? = some dataType ∧ IsNumber dataType
  · obtain ⟨dataType, hbyte, hnumber⟩ := htype
    exact Or.inl ⟨dataType, hbyte, hnumber, (numberAt_of_isNumber hbyte hnumber).symm.trans h⟩
  · exact Or.inr fun dataType hbyte hnumber => htype ⟨dataType, hbyte, hnumber⟩

theorem convertElementsActs_print {offset : ℕ} {temp : ℤ} (n index : ℕ) (res : String)
    (h : numberAt mem offset = some temp) :
    (convertElementsActs sprintf math mem (n + 1) offset index res).log =
      .read offset 1 :: .visit offset :: .read (offset + 1) 4 ::
        .print temp index (elementText sprintf math n temp) ::
          (convertElementsActs sprintf math mem n (offset + 5)
            (index + (elementText sprintf math n temp).length)
            (writeAt res index (elementText sprintf math n temp))).log := by
  obtain ⟨dataType, hbyte, hnumber⟩ := Option.bind_eq_some_iff.mp h
  split_ifs at hnumber with htype
  rw [convertElementsActs, Logged.bind_log, readByte, Logged.doing_value, hbyte, Option.map_some,
    Option.getD_some, if_pos htype]
  simp only [Logged.bind_log, copyTemp, Logged.doing_log, Logged.doing_value, hnumber,
    Option.map_some, Option.getD_some]
  rfl

theorem convertElementsActs_unreadable {offset : ℕ} {dataType : UInt8} (n index : ℕ)
    (res : String) (hbyte : mem[offset]? = some dataType) (htype : IsNumber dataType)
    (htemp : readInt32 (mem.drop (offset + 1)) = none) :
    (convertElementsActs sprintf math mem (n + 1) offset index res).log =
      [.read offset 1, .visit offset, .read (offset + 1) 4] := by
  rw [convertElementsActs, Logged.bind_log, readByte, Logged.doing_value, hbyte, Option.map_some,
    Option.getD_some, if_pos htype]
  simp only [Logged.bind_log, copyTemp, Logged.doing_log, Logged.doing_value, htemp,
    Option.map_some, Option.map_none, Option.getD_some, Option.getD_none]
  rfl

theorem convertElementsActs_other {offset : ℕ} (n index : ℕ) (res : String)
    (h : ∀ dataType, mem[offset]? = some dataType → ¬ IsNumber dataType) :
    (convertElementsActs sprintf math mem (n + 1) offset index res).log = [.read offset 1] := by
  rw [convertElementsActs, Logged.bind_log, readByte, Logged.doing_value]
  cases hbyte : mem[offset]? with
  | none => rfl
  | some dataType =>
    rw [Option.map_some, Option.getD_some, if_neg (h dataType hbyte)]
    rfl

theorem convertElementsActs_silent {offset : ℕ} (n index : ℕ) (res : String)
    (h : numberAt mem offset = none) :
    Logged.Every (fun act => act.temp? = none)
      (convertElementsActs sprintf math mem (n + 1) offset index res) := by
  intro act hact
  obtain ⟨dataType, hbyte, hnumber, htemp⟩ | hother := numberAt_none h
  · rw [convertElementsActs_unreadable sprintf math mem n index res hbyte hnumber htemp] at hact
    simp only [List.mem_cons, List.not_mem_nil, or_false] at hact
    rcases hact with rfl | rfl | rfl <;> rfl
  · rw [convertElementsActs_other sprintf math mem n index res hother] at hact
    rw [List.mem_singleton.mp hact]
    rfl

/-- The numbers that `n` rounds find from an offset on, up to the first round that finds none. -/
def temps : ℕ → ℕ → List ℤ
  | 0, _ => []
  | n + 1, offset =>
    match numberAt mem offset with
    | none => []
    | some temp => temp :: temps n (offset + 5)

theorem temps_of_number {offset : ℕ} {temp : ℤ} (n : ℕ) (h : numberAt mem offset = some temp) :
    temps mem (n + 1) offset = temp :: temps mem n (offset + 5) := by
  rw [temps, h]

theorem temps_of_none {offset : ℕ} (n : ℕ) (h : numberAt mem offset = none) :
    temps mem n offset = [] := by
  cases n with
  | zero => rfl
  | succ n => rw [temps, h]

theorem temps_length_le (n offset : ℕ) : (temps mem n offset).length ≤ n := by
  induction n generalizing offset with
  | zero => exact Nat.le_refl 0
  | succ n ih =>
    cases hnumber : numberAt mem offset with
    | none =>
      rw [temps_of_none mem _ hnumber]
      exact Nat.zero_le _
    | some temp =>
      rw [temps_of_number mem n hnumber]
      exact Nat.succ_le_succ (ih (offset + 5))

theorem numberAt_of_getElem?_temps {n offset i : ℕ} {temp : ℤ}
    (h : (temps mem n offset)[i]? = some temp) : numberAt mem (offset + 5 * i) = some temp := by
  induction n generalizing offset i with
  | zero => cases h
  | succ n ih =>
    cases hnumber : numberAt mem offset with
    | none =>
      rw [temps_of_none mem _ hnumber] at h
      cases h
    | some first =>
      rw [temps_of_number mem n hnumber] at h
      cases i with
      | zero =>
        rw [← h]
        exact hnumber
      | succ i =>
        have hat : offset + 5 * (i + 1) = offset + 5 + 5 * i := by omega
        rw [hat]
        exact ih h

theorem temps_stop {n offset : ℕ} (hinside : elementsInside n (mem.drop offset))
    (hshort : (temps mem n offset).length < n) :
    ∃ dataType, mem[offset + 5 * (temps mem n offset).length]? = some dataType ∧
      ¬ IsNumber dataType := by
  induction n generalizing offset with
  | zero => cases hshort
  | succ n ih =>
    cases hbyte : mem[offset]? with
    | none =>
      rw [drop_of_getElem?_none mem hbyte] at hinside
      exact hinside.elim
    | some dataType =>
      rw [drop_of_getElem? mem hbyte, elementsInside] at hinside
      by_cases htype : IsNumber dataType
      · obtain ⟨hlength, hrest⟩ := hinside htype
        obtain ⟨temp, htemp⟩ := Option.isSome_iff_exists.mp ((readInt32_isSome _).mpr hlength)
        have hnumber : numberAt mem offset = some temp :=
          (numberAt_of_isNumber hbyte htype).trans htemp
        rw [List.drop_drop] at hrest
        rw [temps_of_number mem n hnumber, List.length_cons] at hshort ⊢
        obtain ⟨last, hlast, hother⟩ := ih hrest (Nat.lt_of_succ_lt_succ hshort)
        have hat : offset + 5 * ((temps mem n (offset + 5)).length + 1) =
            offset + 5 + 5 * (temps mem n (offset + 5)).length := by omega
        exact ⟨last, by rw [hat]; exact hlast, hother⟩
      · have hnumber : numberAt mem offset = none := by
          rw [numberAt, hbyte, Option.bind_some, if_neg htype]
        rw [temps_of_none mem _ hnumber]
        exact ⟨dataType, hbyte, htype⟩

theorem convertElementsActs_temps (n offset index : ℕ) (res : String) :
    (convertElementsActs sprintf math mem n offset index res).log.filterMap Act.temp? =
      temps mem n offset := by
  induction n generalizing offset index res with
  | zero => rfl
  | succ n ih =>
    cases hnumber : numberAt mem offset with
    | none =>
      rw [temps_of_none mem _ hnumber, List.filterMap_eq_nil_iff]
      exact convertElementsActs_silent sprintf math mem n index res hnumber
    | some temp =>
      rw [temps_of_number mem n hnumber, convertElementsActs_print sprintf math mem n index res
        hnumber, ← ih (offset + 5)]
      rfl

def arrayRounds : Option ℕ :=
  mem[0]?.bind fun dataType =>
    if dataType = DltData.array.code then mem[1]?.map UInt8.toNat else none

/-- The numbers that the conversion prints. -/
def converted : List ℤ :=
  match arrayRounds mem with
  | none => []
  | some rounds => temps mem rounds 2

theorem convertActs_array {rounds : ℕ} (h : arrayRounds mem = some rounds) (res : String) :
    (convertActs sprintf math mem res).log =
      .read 0 1 :: .read 1 1 :: (convertElementsActs sprintf math mem rounds 2 0 res).log := by
  obtain ⟨dataType, hbyte, hrounds⟩ := Option.bind_eq_some_iff.mp h
  split_ifs at hrounds with harray
  obtain ⟨arrLen, hcount, rfl⟩ := Option.map_eq_some_iff.mp hrounds
  rw [convertActs, Logged.bind_log, readByte, Logged.doing_value, hbyte, Option.map_some,
    Option.getD_some, if_pos harray, Logged.bind_log, readByte, Logged.doing_value, hcount]
  rfl

theorem convertActs_reads (h : arrayRounds mem = none) (res : String) :
    Logged.Every (fun act => ∃ offset, act = .read offset 1)
      (convertActs sprintf math mem res) := by
  have hread (offset : ℕ) : Logged.Every (fun act => ∃ offset, act = .read offset 1)
      (readByte mem offset) := by
    intro act hact
    exact ⟨offset, List.mem_singleton.mp hact⟩
  refine Logged.Every.bind (hread 0) fun dataType hbyte => ?_
  split_ifs with harray
  · rw [readByte, Logged.doing_value] at hbyte
    rw [arrayRounds, hbyte, Option.bind_some, if_pos harray, Option.map_eq_none_iff] at h
    refine Logged.Every.bind (hread 1) fun arrLen hcount => ?_
    rw [readByte, Logged.doing_value, h] at hcount
    cases hcount
  · exact Logged.Every.pure _ _

theorem convertActs_temps (res : String) :
    (convertActs sprintf math mem res).log.filterMap Act.temp? = converted mem := by
  rw [converted]
  cases hrounds : arrayRounds mem with
  | none =>
    refine List.filterMap_eq_nil_iff.mpr fun act hact => ?_
    obtain ⟨offset, rfl⟩ := convertActs_reads sprintf math mem hrounds res act hact
    rfl
  | some rounds =>
    rw [convertActs_array sprintf math mem hrounds]
    exact convertElementsActs_temps sprintf math mem rounds 2 0 res

end

end IotEdgeAgent.Dlt698.Conversion
