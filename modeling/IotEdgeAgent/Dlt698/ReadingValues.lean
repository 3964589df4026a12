import IotEdgeAgent.Dlt698.Conversion
import IotEdgeAgent.Dlt698.DataFormat

/-!
# The values of an array of readings

A reading is a double-long, in two's complement, or an unsigned double-long, with four bytes, high
byte first. `convert_to_string_float` copies both into one `int32_t`.
-/

namespace IotEdgeAgent.Dlt698.ReadingValues
open DataLen DataFormat Payload Conversion

theorem bmod_of_lt {n : ℕ} (h : n < 4294967296) :
    Int.bmod n 4294967296 = if n < 2147483648 then (n : ℤ) else n - 4294967296 := by
  rw [Int.bmod_def]
  split_ifs <;> omega

inductive NumberType
  | dLong
  | dLongUns
  deriving DecidableEq, Repr

def NumberType.code : NumberType → DltData
  | .dLong => DltData.dLong
  | .dLongUns => DltData.dLongUns

theorem NumberType.fixedWidth_code (type : NumberType) : fixedWidth type.code = some 4 := by
  cases type <;> rfl

structure Reading where
  type : NumberType
  b0 : UInt8
  b1 : UInt8
  b2 : UInt8
  b3 : UInt8

namespace Reading

def data (r : Reading) : Data :=
  .fixed r.type.code 4 r.type.fixedWidth_code ⟨#[r.b0, r.b1, r.b2, r.b3], rfl⟩

def bytes (r : Reading) : List UInt8 := [r.type.code.code, r.b0, r.b1, r.b2, r.b3]

def bigEndian (r : Reading) : ℕ :=
  ((r.b0.toNat * 256 + r.b1.toNat) * 256 + r.b2.toNat) * 256 + r.b3.toNat

def value (r : Reading) : ℤ :=
  match r.type with
  | .dLong => if r.bigEndian < 2147483648 then r.bigEndian else r.bigEndian - 4294967296
  | .dLongUns => r.bigEndian

def temp (r : Reading) : ℤ := Int.bmod r.bigEndian 4294967296

theorem encode_data (r : Reading) : r.data.encode = r.bytes := rfl

theorem isNumber (r : Reading) : IsNumber r.type.code.code := by
  cases r.type with
  | dLong => exact Or.inl rfl
  | dLongUns => exact Or.inr rfl

theorem bigEndian_lt (r : Reading) : r.bigEndian < 4294967296 := by
  have h0 := r.b0.toNat_lt
  have h1 := r.b1.toNat_lt
  have h2 := r.b2.toNat_lt
  have h3 := r.b3.toNat_lt
  rw [bigEndian]
  omega

theorem temp_eq (r : Reading) : r.temp =
    if r.bigEndian < 2147483648 then (r.bigEndian : ℤ) else r.bigEndian - 4294967296 :=
  bmod_of_lt r.bigEndian_lt

theorem temp_eq_value_iff (r : Reading) :
    r.temp = r.value ↔ (r.type = .dLongUns → r.bigEndian < 2147483648) := by
  rw [temp_eq]
  unfold value
  cases r.type with
  | dLong => exact ⟨fun _ h => (by cases h), fun _ => rfl⟩
  | dLongUns =>
    by_cases hlt : r.bigEndian < 2147483648
    · rw [if_pos hlt]
      exact ⟨fun _ _ => hlt, fun _ => rfl⟩
    · rw [if_neg hlt]
      refine ⟨fun h => ?_, fun h => absurd (h rfl) hlt⟩
      change (r.bigEndian : ℤ) - 4294967296 = r.bigEndian at h
      omega

theorem value_cases (r : Reading) :
    r.value = r.bigEndian ∨ r.value = r.bigEndian - 4294967296 := by
  unfold value
  cases r.type with
  | dLong =>
    dsimp only
    split_ifs
    · exact Or.inl rfl
    · exact Or.inr rfl
  | dLongUns => exact Or.inl rfl

theorem bigEndian_of_temp {s r : Reading} (h : s.temp = r.value) : s.bigEndian = r.bigEndian := by
  have hs := s.bigEndian_lt
  have hr := r.bigEndian_lt
  have hcases := r.value_cases
  rw [temp_eq] at h
  split_ifs at h <;> omega

theorem bytes_of_bigEndian {s r : Reading} (h : s.bigEndian = r.bigEndian) :
    s.b0 = r.b0 ∧ s.b1 = r.b1 ∧ s.b2 = r.b2 ∧ s.b3 = r.b3 := by
  have hs0 := s.b0.toNat_lt
  have hs1 := s.b1.toNat_lt
  have hs2 := s.b2.toNat_lt
  have hs3 := s.b3.toNat_lt
  have hr0 := r.b0.toNat_lt
  have hr1 := r.b1.toNat_lt
  have hr2 := r.b2.toNat_lt
  have hr3 := r.b3.toNat_lt
  simp only [bigEndian] at h
  simp only [← UInt8.toNat_inj]
  omega

end Reading

def readingArray (count : LenField) (readings : Fin count.value → Reading) : Data :=
  .array count fun i => (readings i).data

theorem encode_readingArray (count : LenField) (readings : Fin count.value → Reading) :
    (readingArray count readings).encode =
      DltData.array.code :: (count.encode ++ (List.ofFn readings).flatMap Reading.bytes) := by
  have hitems : (fun i => (readings i).data.encode) = Reading.bytes ∘ readings :=
    funext fun i => (readings i).encode_data
  rw [readingArray, Term.encode, hitems, ← List.map_ofFn, List.flatMap]

section
variable {mem : List UInt8}

theorem numberAt_reading {offset : ℕ} {r : Reading} {rest : List UInt8}
    (h : mem.drop offset = r.bytes ++ rest) : numberAt mem offset = some r.temp := by
  have hbyte : mem[offset]? = some r.type.code.code := by
    rw [← Nat.add_zero offset, ← List.getElem?_drop, h]
    rfl
  have hcontent : mem.drop (offset + 1) = r.b0 :: r.b1 :: r.b2 :: r.b3 :: rest := by
    rw [← List.drop_drop, h]
    rfl
  rw [numberAt_of_isNumber hbyte r.isNumber, hcontent]
  rfl

theorem temps_readings {offset : ℕ} {rs : List Reading} {rest : List UInt8}
    (h : mem.drop offset = rs.flatMap Reading.bytes ++ rest) :
    temps mem rs.length offset = rs.map Reading.temp := by
  induction rs generalizing offset with
  | nil => rfl
  | cons r rs ih =>
    rw [List.flatMap_cons, List.append_assoc] at h
    have hrest : mem.drop (offset + 5) = rs.flatMap Reading.bytes ++ rest := by
      rw [← List.drop_drop, h]
      rfl
    rw [List.length_cons, temps_of_number mem _ (numberAt_reading h), ih hrest, List.map_cons]

theorem elementsInside_readings {rs : List Reading} {rest : List UInt8} :
    elementsInside rs.length (rs.flatMap Reading.bytes ++ rest) := by
  induction rs with
  | nil => trivial
  | cons r rs ih =>
    rw [List.flatMap_cons, List.append_assoc]
    intro _
    exact ⟨Nat.le_add_left 4 _, ih⟩

theorem length_bytes (rs : List Reading) : (rs.flatMap Reading.bytes).length = 5 * rs.length := by
  induction rs with
  | nil => rfl
  | cons r rs ih =>
    rw [List.flatMap_cons, List.length_append, ih, List.length_cons]
    change 5 + 5 * rs.length = _
    omega

end

theorem shifted_eq_value {r : Reading}
    (h : (Reading.mk r.type r.type.code.code r.b0 r.b1 r.b2).temp = r.value) :
    r.b3 = r.type.code.code := by
  obtain ⟨h0, h1, h2, h3⟩ := Reading.bytes_of_bigEndian (Reading.bigEndian_of_temp h)
  dsimp only at h0 h1 h2 h3
  rw [← h3, ← h2, ← h1, ← h0]

section
variable {mem : List UInt8} {rs : List Reading} {rest : List UInt8}

theorem numberAt_shifted {init : List Reading} {r : Reading} {count : UInt8}
    (hmem : mem.drop 2 = count :: ((init ++ [r]).flatMap Reading.bytes ++ rest))
    {before : UInt8} (hbefore : mem[2 + 5 * init.length]? = some before)
    (htype : IsNumber before) :
    numberAt mem (2 + 5 * init.length) =
      some (Reading.mk r.type r.type.code.code r.b0 r.b1 r.b2).temp ∧
    mem[2 + 5 * (init.length + 1)]? = some r.b3 := by
  have hlast : mem.drop (2 + (5 * init.length + 1)) = r.bytes ++ rest := by
    rw [← List.drop_drop, hmem, List.drop_succ_cons, List.flatMap_append, List.append_assoc,
      ← length_bytes init, List.drop_left, List.flatMap_singleton]
  constructor
  · have hbytes : mem.drop (2 + 5 * init.length + 1) = r.bytes ++ rest := hlast
    rw [numberAt_of_isNumber hbefore htype, hbytes]
    rfl
  · have hat : 2 + 5 * (init.length + 1) = 2 + (5 * init.length + 1) + 4 := by omega
    rw [hat, ← List.getElem?_drop, hlast]
    rfl

theorem shifted_temps_ne {n : ℕ} {count : UInt8} (hmem : mem.drop 2 = count ::
    (rs.flatMap Reading.bytes ++ rest)) (hcount : count.toNat = rs.length) (hn : 7 ≤ n)
    (hne : rs ≠ []) (hinside : elementsInside n (mem.drop 2)) :
    temps mem n 2 ≠ rs.map Reading.value := by
  intro htemps
  have hlength : (temps mem n 2).length = rs.length := by rw [htemps, List.length_map]
  have hcountAt : mem[2]? = some count := by
    rw [← Nat.add_zero 2, ← List.getElem?_drop, hmem]
    rfl
  have hnumbers (i : ℕ) (r : Reading) (h : rs[i]? = some r) :
      numberAt mem (2 + 5 * i) = some r.value := by
    apply numberAt_of_getElem?_temps
    rw [htemps, List.getElem?_map, h, Option.map_some]
  -- the count is taken for the first type, so there are five or six readings
  have hfew : rs.length < 7 := by
    obtain ⟨first, others, rfl⟩ := List.exists_cons_of_ne_nil hne
    have hfirst := hnumbers 0 first rfl
    rw [Nat.mul_zero, Nat.add_zero, numberAt, hcountAt, Option.bind_some] at hfirst
    split_ifs at hfirst with htype
    rw [← hcount]
    rcases htype with rfl | rfl <;> decide
  obtain ⟨init, r, rfl⟩ := (List.eq_nil_or_concat' rs).resolve_left hne
  have hr := hnumbers init.length r (by simp)
  obtain ⟨before, hbefore, hbytes⟩ := Option.bind_eq_some_iff.mp hr
  split_ifs at hbytes with htype
  obtain ⟨hshifted, hlast⟩ := numberAt_shifted hmem hbefore htype
  have hb3 := shifted_eq_value (Option.some.inj (hshifted.symm.trans hr))
  -- behind the last reading the loop finds its last byte, which is a type once more
  obtain ⟨dataType, hnext, hother⟩ := temps_stop mem hinside (by omega)
  rw [hlength, List.length_append, List.length_singleton, hlast] at hnext
  obtain rfl := Option.some.inj hnext
  exact hother (hb3 ▸ r.isNumber)

end

theorem converted_cons {arrLen : UInt8} {data : List UInt8} :
    converted (DltData.array.code :: arrLen :: data) =
      temps (DltData.array.code :: arrLen :: data) arrLen.toNat 2 := rfl

theorem arrayInside_cons {arrLen : UInt8} {data : List UInt8} :
    arrayInside (DltData.array.code :: arrLen :: data) ↔ elementsInside arrLen.toNat data := by
  constructor
  · intro h
    obtain ⟨arrLen', data', heq, hinside⟩ := h rfl
    obtain ⟨rfl, rfl⟩ := List.cons.inj heq
    exact hinside
  · intro h _
    exact ⟨arrLen, data, rfl, h⟩

theorem prints_nothing {arrLen dataType : UInt8} (data : List UInt8) (h : ¬ IsNumber dataType) :
    arrayInside (DltData.array.code :: arrLen :: dataType :: data) ∧
      converted (DltData.array.code :: arrLen :: dataType :: data) = [] := by
  constructor
  · rw [arrayInside_cons]
    cases arrLen.toNat with
    | zero => trivial
    | succ n => exact fun hnumber => absurd hnumber h
  · rw [converted_cons]
    exact temps_of_none _ _ (if_neg h)

theorem isNumber_of_converted {arrLen dataType : UInt8} {data : List UInt8}
    (h : converted (DltData.array.code :: arrLen :: dataType :: data) ≠ []) :
    IsNumber dataType := by
  by_contra hother
  exact h (prints_nothing data hother).2

section
variable {rs : List Reading} {rest : List UInt8}

theorem converted_short {count : UInt8} (hcount : count.toNat = rs.length) :
    arrayInside (DltData.array.code :: count :: (rs.flatMap Reading.bytes ++ rest)) ∧
      converted (DltData.array.code :: count :: (rs.flatMap Reading.bytes ++ rest)) =
        rs.map Reading.temp := by
  rw [arrayInside_cons, converted_cons, hcount]
  exact ⟨elementsInside_readings, temps_readings rfl⟩

theorem converted_one {count : UInt8} (hcount : count.toNat = rs.length) (hne : rs ≠ []) :
    ¬ (arrayInside (DltData.array.code :: 0x81 :: count :: (rs.flatMap Reading.bytes ++ rest)) ∧
      converted (DltData.array.code :: 0x81 :: count :: (rs.flatMap Reading.bytes ++ rest)) =
        rs.map Reading.value) := by
  rintro ⟨hinside, hprinted⟩
  rw [arrayInside_cons] at hinside
  rw [converted_cons] at hprinted
  exact shifted_temps_ne rfl hcount (by decide) hne hinside hprinted

theorem converted_two {high low : UInt8} (hcount : 256 * high.toNat + low.toNat = rs.length)
    (hne : rs ≠ []) :
    converted (DltData.array.code :: 0x82 :: high :: low :: (rs.flatMap Reading.bytes ++ rest)) ≠
      rs.map Reading.value := by
  intro hprinted
  have hnumber : IsNumber high := by
    apply isNumber_of_converted
    rw [hprinted]
    exact fun h => hne (List.map_eq_nil_iff.mp h)
  have hmany : 256 * 5 ≤ rs.length := by
    rcases hnumber with rfl | rfl
    · change 256 * 5 + low.toNat = rs.length at hcount
      omega
    · change 256 * 6 + low.toNat = rs.length at hcount
      omega
  have hfew : rs.length ≤ 130 := by
    rw [← List.length_map Reading.value, ← hprinted]
    exact temps_length_le _ _ _
  omega

theorem temps_eq_values_iff (rs : List Reading) :
    rs.map Reading.temp = rs.map Reading.value ↔
      ∀ r ∈ rs, r.type = .dLongUns → r.bigEndian < 2147483648 := by
  rw [List.map_inj_left]
  exact forall₂_congr fun r _ => r.temp_eq_value_iff

theorem longForm_iff {P : Prop} {count : LenField} (hform : count.form ≠ .short)
    (hlength : rs.length = count.value) (hempty : rs = [] → P) (hne : rs ≠ [] → ¬ P) :
    P ↔ (count.form = .short ∨ count.value = 0) ∧
      ∀ r ∈ rs, r.type = .dLongUns → r.bigEndian < 2147483648 := by
  constructor
  · intro h
    have hnil : rs = [] := by
      by_contra hsome
      exact hne hsome h
    subst hnil
    exact ⟨Or.inr hlength.symm, fun r hr => by cases hr⟩
  · rintro ⟨hcase, -⟩
    apply hempty
    rw [← List.length_eq_zero_iff, hlength]
    exact hcase.resolve_left hform

theorem converted_iff (count : LenField) (hlength : rs.length = count.value) :
    (arrayInside (DltData.array.code :: (count.encode ++ (rs.flatMap Reading.bytes ++ rest))) ∧
      converted (DltData.array.code :: (count.encode ++ (rs.flatMap Reading.bytes ++ rest))) =
        rs.map Reading.value) ↔
      (count.form = .short ∨ count.value = 0) ∧
        ∀ r ∈ rs, r.type = .dLongUns → r.bigEndian < 2147483648 := by
  have hzero : ¬ IsNumber 0 := by decide
  obtain ⟨form, value, fits⟩ := count
  have hvalues : rs.length = value := hlength
  cases form with
  | short =>
    have hsmall : value < 128 := fits
    have hcount : (UInt8.ofNat value).toNat = rs.length := by
      rw [UInt8.toNat_ofNat', Nat.mod_eq_of_lt (by omega), hvalues]
    have hencode : LenField.encode ⟨.short, value, fits⟩ = [UInt8.ofNat value] := rfl
    obtain ⟨hinside, hprinted⟩ := @converted_short rs rest _ hcount
    rw [hencode, List.singleton_append, hprinted, temps_eq_values_iff]
    exact ⟨fun h => ⟨Or.inl rfl, h.2⟩, fun h => ⟨hinside, h.2⟩⟩
  | one =>
    have hsmall : value < 256 := fits
    have hcount : (UInt8.ofNat value).toNat = rs.length := by
      rw [UInt8.toNat_ofNat', Nat.mod_eq_of_lt hsmall, hvalues]
    refine longForm_iff (by simp) hlength (fun hnil => ?_) (converted_one hcount)
    subst hnil
    obtain rfl : 0 = value := hvalues
    exact prints_nothing rest hzero
  | two =>
    have hsmall : value < 65536 := fits
    have hcount : 256 * (UInt8.ofNat (value / 256)).toNat + (UInt8.ofNat (value % 256)).toNat =
        rs.length := by
      rw [UInt8.toNat_ofNat', UInt8.toNat_ofNat', Nat.mod_eq_of_lt (by omega),
        Nat.mod_eq_of_lt (by omega), hvalues]
      omega
    refine longForm_iff (by simp) hlength (fun hnil => ?_) fun hne h => converted_two hcount hne h.2
    subst hnil
    obtain rfl : 0 = value := hvalues
    have hencode : LenField.encode ⟨.two, 0, fits⟩ = [0x82, 0, 0] := by
      rw [LenField.encode, Nat.zero_div, Nat.zero_mod]
      rfl
    rw [hencode]
    exact prints_nothing (0 :: rest) hzero

end

section
variable (sprintf : ℤ → ℤ → String) (math : ℤ) (count : LenField)
  (readings : Fin count.value → Reading) (rest : List UInt8) (res : String)

/-- The conversion returns, and has printed the values of the readings. -/
structure PrintsValues : Prop where
  returns : (convertActs sprintf math ((readingArray count readings).encode ++ rest)
    res).value.isSome
  temps : (convertActs sprintf math ((readingArray count readings).encode ++ rest)
    res).log.filterMap Act.temp? = List.ofFn fun i => (readings i).value

theorem printsValues_iff_converted : PrintsValues sprintf math count readings rest res ↔
    arrayInside ((readingArray count readings).encode ++ rest) ∧
      converted ((readingArray count readings).encode ++ rest) =
        (List.ofFn readings).map Reading.value := by
  have hvalues : (List.ofFn fun i => (readings i).value) =
      (List.ofFn readings).map Reading.value := by
    rw [List.map_ofFn]
    rfl
  rw [← convertToStringFloat_isSome sprintf _ res math, ← convertActs_value,
    ← convertActs_temps sprintf math _ res, ← hvalues]
  exact ⟨fun h => ⟨h.returns, h.temps⟩, fun h => ⟨h.1, h.2⟩⟩

/-- For every array of readings in every form of the count, whatever stands behind it: the values
that are printed are those of the readings exactly if the count is in the short form or zero, and
no unsigned value needs its highest bit. -/
theorem printsValues_iff : PrintsValues sprintf math count readings rest res ↔
    (count.form = .short ∨ count.value = 0) ∧
      ∀ i, (readings i).type = .dLongUns → (readings i).bigEndian < 2147483648 := by
  rw [printsValues_iff_converted, encode_readingArray, List.cons_append, List.append_assoc,
    converted_iff count List.length_ofFn, List.forall_mem_ofFn_iff]

end

/-- An unsigned 80 00 00 00 is printed as -21474836.48 for the exponent -2. -/
theorem upperHalf_negative :
    ¬ ∀ (count : LenField) (readings : Fin count.value → Reading) (rest : List UInt8),
      PrintsValues printFixed (-2) count readings rest "" := by
  intro hall
  have hprinted := (hall ⟨.short, 1, by decide⟩ (fun _ => ⟨.dLongUns, 0x80, 0, 0, 0⟩) []).temps
  revert hprinted
  decide +kernel

end IotEdgeAgent.Dlt698.ReadingValues
