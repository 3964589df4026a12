import IotEdgeAgent.Dlt698.DataFormat

/-!
# The length functions against the Data format

The three functions are the walks over the layouts of the format, with a 16-bit counter
(`dwDlt698DataLen_eq_dataLenWith`). So what they return is what the tags, the counts and the length
fields say in that counter, and they read outside the memory where one of these does not fit.
Below the modulus of the counter that is what the format prescribes: an item is accepted exactly
when its prescribed size is within the limit. Completeness over the syntax of values is one
instance. Above the modulus the counter wraps and an oversized item can pass the only bound test.
-/

namespace IotEdgeAgent.Dlt698.DataLenExact
open ByteWalk DataLen DataFormat LengthField

inductive LengthRead (b : List UInt8) : Prop
  | value (r : ℕ × ℕ) : dwDlt698Len b = .ok r → shortLengthValue b = some r →
      LengthFits lengthWidth b → LengthRead b
  | refused : dwDlt698Len b = .error .reject → shortLengthValue b = none →
      LengthFits lengthWidth b → LengthRead b
  | cut : dwDlt698Len b = .error .fault → shortLengthValue b = none →
      ¬ LengthFits lengthWidth b → LengthRead b

section
variable {b0 : UInt8} {rest : List UInt8}

theorem lengthFits_cons :
    LengthFits lengthWidth (b0 :: rest) ↔ lengthWidth b0 ≤ rest.length + 1 := by
  constructor
  · rintro ⟨x, tail, heq, hle⟩
    cases heq
    exact hle
  · exact fun hle => ⟨b0, rest, rfl, hle⟩

theorem lengthRead_one (rest : List UInt8) : LengthRead (0x81 :: rest) := by
  match rest with
  | [] => exact .cut rfl rfl (by simp [lengthFits_cons, lengthWidth])
  | b1 :: rest =>
    exact .value _ (dwDlt698Len_one rest b1) rfl (by simp [lengthFits_cons, lengthWidth])

theorem lengthRead_two (rest : List UInt8) : LengthRead (0x82 :: rest) := by
  match rest with
  | [] => exact .cut rfl rfl (by simp [lengthFits_cons, lengthWidth])
  | [b1] => exact .cut rfl rfl (by simp [lengthFits_cons, lengthWidth])
  | b1 :: b2 :: rest =>
    have hor : b1.toNat <<< 8 ||| b2.toNat = 256 * b1.toNat + b2.toNat := by
      rw [← Nat.shiftLeft_add_eq_or_of_lt b2.toNat_lt, Nat.shiftLeft_eq, Nat.mul_comm]
    refine .value _ (dwDlt698Len_two rest b1 b2) ?_ (by simp [lengthFits_cons, lengthWidth])
    rw [hor]
    rfl

theorem lengthRead_three (rest : List UInt8) : LengthRead (0x83 :: rest) := by
  match rest with
  | [] => exact .cut rfl rfl (by simp [lengthFits_cons, lengthWidth])
  | [b1] => exact .cut rfl rfl (by simp [lengthFits_cons, lengthWidth])
  | [b1, b2] => exact .cut rfl rfl (by simp [lengthFits_cons, lengthWidth])
  | b1 :: b2 :: b3 :: rest =>
    exact .value _ (dwDlt698Len_three rest b1 b2 b3) rfl (by simp [lengthFits_cons, lengthWidth])

theorem lengthRead_four (rest : List UInt8) : LengthRead (0x84 :: rest) := by
  match rest with
  | [] => exact .cut rfl rfl (by simp [lengthFits_cons, lengthWidth])
  | [b1] => exact .cut rfl rfl (by simp [lengthFits_cons, lengthWidth])
  | [b1, b2] => exact .cut rfl rfl (by simp [lengthFits_cons, lengthWidth])
  | [b1, b2, b3] => exact .cut rfl rfl (by simp [lengthFits_cons, lengthWidth])
  | b1 :: b2 :: b3 :: b4 :: rest =>
    exact .value _ (dwDlt698Len_four rest b1 b2 b3 b4) rfl
      (by simp [lengthFits_cons, lengthWidth])

theorem lengthRead_other (hlong : 128 ≤ b0.toNat)
    (hother : ∀ k, 1 ≤ k → k ≤ 4 → b0.toNat ≠ 0x80 + k) : LengthRead (b0 :: rest) := by
  have h1 : b0.toNat ≠ 129 := hother 1 (by omega) (by omega)
  have h2 : b0.toNat ≠ 130 := hother 2 (by omega) (by omega)
  have h3 : b0.toNat ≠ 131 := hother 3 (by omega) (by omega)
  have h4 : b0.toNat ≠ 132 := hother 4 (by omega) (by omega)
  have hnone : lengthValue (b0 :: rest) = none := by
    simp only [lengthValue]
    rw [if_neg (by omega)]
    split <;> first | rfl | contradiction
  have hwidth : lengthWidth b0 = 1 := by
    simp only [lengthWidth]
  refine .refused (dwDlt698Len_refuses rest hlong hother) ?_ ?_
  · rw [shortLengthValue, hnone]
    rfl
  · rw [lengthFits_cons, hwidth]
    omega

theorem shortLengthValue_short (hshort : b0.toNat < 128) (rest : List UInt8) :
    shortLengthValue (b0 :: rest) = some (b0.toNat, 1) := by
  simp [shortLengthValue, lengthValue, hshort]

theorem lengthRead_short (hshort : b0.toNat < 128) : LengthRead (b0 :: rest) := by
  have hwidth : lengthWidth b0 = 1 := by
    simp only [lengthWidth]
    split <;> first | rfl | omega
  refine .value _ (dwDlt698Len_short hshort rest) (shortLengthValue_short hshort rest) ?_
  rw [lengthFits_cons, hwidth]
  omega

end

theorem lengthRead (b : List UInt8) : LengthRead b := by
  match b with
  | [] => exact .cut rfl rfl fun h => by obtain ⟨x, rest, heq, -⟩ := h; cases heq
  | b0 :: rest =>
    by_cases hshort : b0.toNat < 128
    · exact lengthRead_short hshort
    · by_cases hother : ∀ k, 1 ≤ k → k ≤ 4 → b0.toNat ≠ 0x80 + k
      · exact lengthRead_other (by omega) hother
      · simp only [not_forall, not_not] at hother
        obtain ⟨k, hk, hk4, hb⟩ := hother
        obtain rfl : b0 = UInt8.ofNat (0x80 + k) := by
          rw [← hb, UInt8.ofNat_toNat]
        obtain rfl | rfl | rfl | rfl : k = 1 ∨ k = 2 ∨ k = 3 ∨ k = 4 := by omega
        · exact lengthRead_one rest
        · exact lengthRead_two rest
        · exact lengthRead_three rest
        · exact lengthRead_four rest

theorem dwDlt698Len_decodes : Decodes dwDlt698Len shortLengthValue lengthWidth where
  ok b r := by
    cases lengthRead b with
    | value r' hread hvalue _ => rw [hread, hvalue, Except.ok.injEq, Option.some.injEq]
    | refused hread hvalue _ | cut hread hvalue _ => simp [hread, hvalue]
  fault b := by
    cases lengthRead b with
    | value r' hread _ hfits => simp [hread, hfits]
    | refused hread _ hfits => simp [hread, hfits]
    | cut hread _ hfits => simp [hread, hfits]

theorem dwDlt698Len_reads (b : List UInt8) (r : ℕ × ℕ) (h : lengthField b = some r) :
    dwDlt698Len b = .ok r := by
  rw [dwDlt698Len_decodes.ok, shortLengthValue_of_lengthField h]

section
variable (dataLen : Measure UInt8) (dwRcvLen : ℤ)

abbrev layoutWalk (p : Shape UInt8) : Walk UInt8 :=
  p.walk lenModulus dwDlt698Len dataLen dwRcvLen

theorem msChoice_eq (choice : UInt8) :
    msChoice dataLen dwRcvLen choice = layoutWalk dataLen dwRcvLen (msTable choice) := by
  unfold msChoice msTable
  generalize choice.toNat = n
  match n with
  | 0 | 1 | 2 | 3 | 4 | 5 | 6 | 7 => rfl
  | n + 8 => rfl

theorem meterSet_eq : meterSet dataLen dwRcvLen = layoutWalk dataLen dwRcvLen msShape := by
  simp only [meterSet, layoutWalk, msShape, Shape.walk]
  congr 1
  funext b limit
  simp only [dwDlt698MsLen, msChoice_eq]
  rfl

theorem rsdChoice_eq (choice : UInt8) :
    rsdChoice dataLen dwRcvLen choice = layoutWalk dataLen dwRcvLen (rsdTable choice) := by
  unfold rsdChoice rsdTable
  rw [meterSet_eq]
  generalize choice.toNat = n
  match n with
  | 0 | 1 | 2 | 3 | 4 | 5 | 6 | 7 | 8 | 9 | 10 => rfl
  | n + 11 => rfl

theorem csdChoice_eq (choice : UInt8) :
    csdChoice dwRcvLen choice = layoutWalk dataLen dwRcvLen (csdTable choice) := by
  unfold csdChoice csdTable
  generalize choice.toNat = n
  match n with
  | 0 | 1 => rfl
  | n + 2 => rfl

theorem columnSelection_eq :
    columnSelection dwRcvLen = layoutWalk dataLen dwRcvLen csdShape := by
  simp only [columnSelection, csdChoice_eq dataLen]
  rfl

theorem step_step (j k : ℕ) : andThen (step j) (step k) = step (j + k) := by
  funext c
  simp only [andThen, step, skip, Except.bind, Cursor.advance, List.drop_drop, Nat.mod_add_mod,
    Nat.add_assoc]

theorem dataContents_eq (t : DltData) :
    dataContents dataLen dwRcvLen t = layoutWalk dataLen dwRcvLen (dataShape t) := by
  cases t with
  | bitStr =>
    have hround : (fun bits => if bits % 8 = 0 then step (bits / 8) else step (bits / 8 + 1)) =
        fun bits : ℕ => step ((bits + 7) / 8) := by
      funext bits
      split_ifs
      · congr 1
        omega
      · congr 1
        omega
    simp only [dataContents, hround]
    rfl
  | rsd =>
    simp only [dataContents, dataShape, rsdShape, layoutWalk, Shape.walk]
    congr 1
    funext b limit
    simp only [dwDlt698RSDLen, rsdChoice_eq]
    rfl
  | csd => exact columnSelection_eq dataLen dwRcvLen
  | ms => exact meterSet_eq dataLen dwRcvLen
  | rcsd =>
    simp only [dataContents, columnSelection_eq dataLen]
    rfl
  | scalerUnit => exact step_step 1 1
  | _ => rfl

theorem typeContents_eq (b : UInt8) :
    typeContents dataLen dwRcvLen b = layoutWalk dataLen dwRcvLen (dataTable b) := by
  unfold typeContents dataTable
  cases DltData.ofByte b with
  | none => rfl
  | some t => exact dataContents_eq dataLen dwRcvLen t

theorem dataLenBody_eq :
    dataLenBody dataLen = measureBody lenModulus dwDlt698Len dataTable dataLen := by
  funext b limit
  simp only [dataLenBody, typeContents_eq]
  rfl

end

/-- The measure of the format with a counter of another width; at modulus 0 nothing is reduced. -/
def dataLenWith (modulus : ℕ) : Measure UInt8 := measureOf modulus dwDlt698Len dataTable

theorem dwDlt698DataLen_eq_dataLenWith : dwDlt698DataLen = dataLenWith lenModulus := by
  have hfuel : ∀ fuel, dataLenFuel fuel = measureFuel lenModulus dwDlt698Len dataTable fuel := by
    intro fuel
    induction fuel with
    | zero => rfl
    | succ fuel ih => rw [dataLenFuel, measureFuel, ih, dataLenBody_eq]
  funext b limit
  rw [dwDlt698DataLen, hfuel]
  rfl

theorem dwDlt698DataLen_eq (buf : List UInt8) (dwRcvLen : ℤ) :
    dwDlt698DataLen buf dwRcvLen = dataLenBody dwDlt698DataLen buf dwRcvLen := by
  rw [dwDlt698DataLen_eq_dataLenWith, dataLenBody_eq]
  exact measureOf_eq buf dwRcvLen

/-- What the function returns on a memory, it returns on every longer one. -/
theorem dwDlt698DataLen_persists : MeasurePersists dwDlt698DataLen dwDlt698DataLen := by
  rw [dwDlt698DataLen_eq_dataLenWith]
  exact measureOf_persists dwDlt698Len_persists

theorem dataLenBody_cons (dataLen : Measure UInt8) (type : UInt8) (b : List UInt8)
    (dwRcvLen : ℤ) :
    dataLenBody dataLen (type :: b) dwRcvLen = (typeContents dataLen dwRcvLen type ⟨b, 1⟩).bind
      fun c => if dwRcvLen < c.len then .error .reject else .ok c.len := rfl

/-- The size that the fields of an item say in the 16-bit counter, under the limit. -/
abbrev SizeCounted (dwRcvLen : ℤ) (buf : List UInt8) (k : ℕ) : Prop :=
  Measured lenModulus shortLengthValue dataTable dwRcvLen buf k

/-- For an item at the front of the memory, a tag, a length field or a further item is come to at
position `i`, inside of `n` items. -/
abbrev FieldAt (dwRcvLen : ℤ) (buf : List UInt8) (n i : ℕ) (mark : Mark) : Prop :=
  Meets lenModulus shortLengthValue dataTable dwRcvLen (.choice dataTable) buf 0 n i mark

theorem dwDlt698DataLen_ok_iff (buf : List UInt8) (dwRcvLen : ℤ) (k : ℕ) :
    dwDlt698DataLen buf dwRcvLen = .ok k ↔ SizeCounted dwRcvLen buf k := by
  rw [dwDlt698DataLen_eq_dataLenWith]
  exact measureOf_ok_iff dwDlt698Len_decodes buf dwRcvLen k

theorem dwDlt698DataLen_fault_iff (buf : List UInt8) (dwRcvLen : ℤ) :
    dwDlt698DataLen buf dwRcvLen = .error .fault ↔
      ∃ n i mark, FieldAt dwRcvLen buf n i mark ∧ ¬ mark.Fits lengthWidth (buf.drop i) := by
  rw [dwDlt698DataLen_eq_dataLenWith]
  exact measureOf_fault_iff dwDlt698Len_decodes buf dwRcvLen

/-- The size that the fields prescribe if the lengths of the two long forms are taken as 0. -/
def PrescribesShort (buf : List UInt8) (size : ℕ) : Prop :=
  Spans shortLengthValue dataTable (.choice dataTable) buf size

theorem dataLenWith_prescribed {modulus : ℕ} {buf : List UInt8} {s : ℕ}
    (hs : PrescribesShort buf s) (hm : ∀ i ≤ s, i % modulus = i) (dwRcvLen : ℤ) (k : ℕ) :
    dataLenWith modulus buf dwRcvLen = .ok k ↔ k = s ∧ (s : ℤ) ≤ dwRcvLen :=
  measureOf_spans_iff dwDlt698Len_decodes hs hm dwRcvLen k

theorem dwDlt698DataLen_prescribed {buf : List UInt8} {s : ℕ} (hs : PrescribesShort buf s)
    (hm : s < lenModulus) (dwRcvLen : ℤ) (k : ℕ) :
    dwDlt698DataLen buf dwRcvLen = .ok k ↔ k = s ∧ (s : ℤ) ≤ dwRcvLen := by
  rw [dwDlt698DataLen_eq_dataLenWith]
  exact dataLenWith_prescribed hs (fun i hi => Nat.mod_eq_of_lt (by omega)) dwRcvLen k

theorem prescribesShort_of_unbounded {buf : List UInt8} {dwRcvLen : ℤ} {k : ℕ}
    (h : dataLenWith 0 buf dwRcvLen = .ok k) : PrescribesShort buf k := by
  obtain ⟨s, hs, hk, -⟩ := (measureOf_ok_iff dwDlt698Len_decodes buf dwRcvLen k).mp h
  rw [Nat.mod_zero] at hk
  exact hk ▸ hs.spans Nat.mod_zero

theorem dwDlt698DataLen_le {buf : List UInt8} {dwRcvLen : ℤ} {k : ℕ}
    (h : dwDlt698DataLen buf dwRcvLen = .ok k) : (k : ℤ) ≤ dwRcvLen := by
  obtain ⟨_, _, _, hle⟩ := (dwDlt698DataLen_ok_iff buf dwRcvLen k).mp h
  exact hle

theorem dwDlt698DataLen_complete (v : Data) (rest : List UInt8) (n : ℕ)
    (hsize : v.size ≤ n) (hn : n ≤ 65535) :
    dwDlt698DataLen (v.encode ++ rest) n = .ok v.size := by
  have hs : PrescribesShort (v.encode ++ rest) v.size :=
    v.spells_encode shortLengthValue_readsForms rest
  have hm : v.size < lenModulus := by
    change v.size < 65536
    omega
  rw [dwDlt698DataLen_prescribed hs hm]
  exact ⟨rfl, by exact_mod_cast hsize⟩

def selectionSample : Data :=
  .struct ⟨.one, 2, by decide⟩ fun i =>
    if i.val = 0 then .fixed .dLongUns 4 rfl ⟨#[0, 0, 1, 0], rfl⟩
    else .rsd (.selector45 5 (Or.inr rfl) ⟨#[7, 228, 1, 2, 3, 4, 5], rfl⟩
      (.addresses ⟨.two, 2, by decide⟩ (fun _ => ⟨.short, 1, by decide⟩)
        fun _ => ⟨#[0x11], rfl⟩))

theorem dwDlt698DataLen_complete_sample :
    selectionSample.size = 25 ∧
      dwDlt698DataLen (selectionSample.encode ++ [0xAA]) 256 = .ok selectionSample.size :=
  ⟨by decide, dwDlt698DataLen_complete selectionSample [0xAA] 256 (by decide) (by decide)⟩

/-- An accepted item has its prescribed size, and the counter never wrapped on it, exactly if its
fields prescribe a size that fits the 16-bit counter and would prescribe the same with the lengths
of the two long forms taken as 0. -/
theorem dwDlt698DataLen_sound_iff (buf : List UInt8) (n : ℤ) (k : ℕ) (hn : n ≤ 65535)
    (h : dwDlt698DataLen buf n = .ok k) :
    (Prescribes buf k ∧ (k : ℤ) ≤ n ∧ dataLenWith 0 buf n = .ok k) ↔
      ∃ s, Prescribes buf s ∧ PrescribesShort buf s ∧ s ≤ 65535 := by
  have hk := dwDlt698DataLen_le h
  constructor
  · rintro ⟨hs, -, hunbounded⟩
    exact ⟨k, hs, prescribesShort_of_unbounded hunbounded, by omega⟩
  · rintro ⟨s, hs, hshort, hle⟩
    have hm : s < lenModulus := by
      change s < 65536
      omega
    obtain ⟨rfl, -⟩ := (dwDlt698DataLen_prescribed hshort hm n k).mp h
    refine ⟨hs, hk, ?_⟩
    rw [dataLenWith_prescribed hshort (fun i _ => Nat.mod_zero i)]
    exact ⟨rfl, hk⟩

/-- An octet string of no bytes, with its length in three bytes. -/
theorem dwDlt698DataLen_sound_iff_longForm :
    (Prescribes [9, 0x83, 0, 0, 0] 5 ∧ ((5 : ℕ) : ℤ) ≤ 256 ∧
        dataLenWith 0 [9, 0x83, 0, 0, 0] 256 = .ok 5) ↔
      ∃ s, Prescribes [9, 0x83, 0, 0, 0] s ∧ PrescribesShort [9, 0x83, 0, 0, 0] s ∧ s ≤ 65535 :=
  dwDlt698DataLen_sound_iff [9, 0x83, 0, 0, 0] 256 5 (by decide) (by decide)

theorem prescribes_longString {s : ℕ} (h : Prescribes [9, 0x82, 0xFF, 0xFF] s) : s = 65539 := by
  cases h with
  | choice hs =>
    have hoctets : dataTable 9 = octetString := rfl
    rw [hoctets] at hs
    cases hs with
    | sized hv =>
      cases hv
      rfl

/-- An octet string that declares 65535 bytes is accepted with a length of 3. -/
theorem dwDlt698DataLen_wraps :
    ¬ ∀ (buf : List UInt8) (n : ℤ) (k : ℕ), n ≤ 65535 → dwDlt698DataLen buf n = .ok k →
      Prescribes buf k ∧ (k : ℤ) ≤ n := by
  intro hall
  have h := hall [9, 0x82, 0xFF, 0xFF] 256 3 (by decide) (by decide)
  have hs := prescribes_longString h.1
  omega

end IotEdgeAgent.Dlt698.DataLenExact
