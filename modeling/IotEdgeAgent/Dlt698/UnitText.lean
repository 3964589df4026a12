import IotEdgeAgent.Dlt698.Extraction
import IotEdgeAgent.Dlt698.TwoWalks

/-!
# The text of one unit

What the conversion of a unit depends on. It is not told how long the unit is: if it stays inside,
it does not look at the bytes behind, and the first number overwrites what the buffer held. In the
short form of the count it stays inside; in a longer form, where it takes the form for the count,
it can leave the unit.
-/

namespace IotEdgeAgent.Dlt698.UnitText
open ByteWalk DataLen Extraction Payload Conversion

theorem writeAt_end (res text : String) : writeAt res res.length text = res ++ text := by
  rw [writeAt, ← String.length_toList, List.take_length, String.ofList_append,
    String.ofList_toList, String.ofList_toList]

section
variable (sprintf : ℤ → ℤ → String) (math : ℤ)

theorem exists_four {data : List UInt8} (h : 4 ≤ data.length) :
    ∃ b0 b1 b2 b3 rest, data = b0 :: b1 :: b2 :: b3 :: rest := by
  obtain ⟨b0, data, rfl⟩ := List.exists_cons_of_length_pos (show 0 < data.length by omega)
  rw [List.length_cons] at h
  obtain ⟨b1, data, rfl⟩ := List.exists_cons_of_length_pos (show 0 < data.length by omega)
  rw [List.length_cons] at h
  obtain ⟨b2, data, rfl⟩ := List.exists_cons_of_length_pos (show 0 < data.length by omega)
  rw [List.length_cons] at h
  obtain ⟨b3, data, rfl⟩ := List.exists_cons_of_length_pos (show 0 < data.length by omega)
  exact ⟨b0, b1, b2, b3, data, rfl⟩

theorem readInt32_append {data : List UInt8} (h : 4 ≤ data.length) (tail : List UInt8) :
    readInt32 (data ++ tail) = readInt32 data := by
  obtain ⟨b0, b1, b2, b3, rest, rfl⟩ := exists_four h
  rfl

theorem convertElements_append {n : ℕ} {data : List UInt8} (h : elementsInside n data)
    (tail : List UInt8) (index : ℕ) (res : String) :
    convertElements sprintf math n (data ++ tail) index res =
      convertElements sprintf math n data index res := by
  induction n generalizing data index res with
  | zero => rfl
  | succ n ih =>
    cases data with
    | nil => exact h.elim
    | cons dataType data =>
      rw [List.cons_append, convertElements, convertElements]
      by_cases htype : IsNumber dataType
      · obtain ⟨hlength, hrest⟩ := h htype
        rw [if_pos htype, if_pos htype, readInt32_append hlength,
          List.drop_append_of_le_length hlength]
        cases readInt32 data with
        | none => rfl
        | some temp => exact ih hrest _ _
      · rw [if_neg htype, if_neg htype]

theorem convertToStringFloat_append {u : List UInt8} (h : arrayInside u) (tail : List UInt8)
    (res : String) : convertToStringFloat sprintf (u ++ tail) res math =
      convertToStringFloat sprintf u res math := by
  cases u with
  | nil => exact h.elim
  | cons dataType ptr =>
    simp only [List.cons_append, convertToStringFloat]
    by_cases harray : dataType = DltData.array.code
    · obtain ⟨arrLen, data, rfl, hinside⟩ := h harray
      simp only [if_pos harray, List.cons_append]
      exact convertElements_append sprintf math hinside tail 0 res
    · rw [if_neg harray, if_neg harray]

theorem arrayInside_append {u : List UInt8} (h : arrayInside u) (tail : List UInt8) :
    arrayInside (u ++ tail) := by
  rw [← convertToStringFloat_isSome (fun _ _ => "") _ "" 0,
    convertToStringFloat_append _ _ h, convertToStringFloat_isSome]
  exact h

theorem textFits_append {u : List UInt8} (h : arrayInside u) (tail : List UInt8) :
    TextFits sprintf math (u ++ tail) ↔ TextFits sprintf math u := by
  rw [TextFits, TextFits, convertToStringFloat_append sprintf math h]

theorem convertElements_zero (n : ℕ) (rest : List UInt8) (index : ℕ) (res : String) :
    convertElements sprintf math n (0 :: rest) index res = some res := by
  cases n with
  | zero => rfl
  | succ n =>
    have hother : ¬ IsNumber 0 := by decide
    rw [convertElements, if_neg hother]

theorem convertElements_number {dataType : UInt8} (htype : IsNumber dataType) (b0 b1 b2 b3 : UInt8)
    (n : ℕ) (res : String) : ∃ temp, ∀ rest,
      convertElements sprintf math (n + 1) (dataType :: b0 :: b1 :: b2 :: b3 :: rest) res.length
        res = convertElements sprintf math n rest (res ++ elementText sprintf math n temp).length
          (res ++ elementText sprintf math n temp) := by
  refine ⟨Int.bmod (((b0.toNat * 256 + b1.toNat) * 256 + b2.toNat) * 256 + b3.toNat) 4294967296,
    fun rest => ?_⟩
  rw [convertElements, if_pos htype, String.length_append, ← writeAt_end]
  rfl

/-- A loop that leaves its data, with rounds left, comes to the bytes behind it: after at most four
bytes of an element that is cut off, a type is read there. -/
theorem convertElements_leaves {n : ℕ} {data : List UInt8} (h : ¬ elementsInside n data)
    (hrounds : data.length + 5 < 5 * n) : ∃ pad n', pad.length ≤ 4 ∧ ∀ res, ∃ res', ∀ rest,
      convertElements sprintf math n (data ++ (pad ++ rest)) res.length res =
        convertElements sprintf math (n' + 1) rest res'.length res' := by
  induction n generalizing data with
  | zero => exact absurd trivial h
  | succ n ih =>
    cases data with
    | nil => exact ⟨[], n, Nat.zero_le 4, fun res => ⟨res, fun rest => rfl⟩⟩
    | cons dataType data =>
      rw [List.length_cons] at hrounds
      rw [elementsInside] at h
      obtain ⟨htype, hleaves⟩ := Classical.not_imp.mp h
      by_cases hlength : 4 ≤ data.length
      · -- the element is inside, and the loop leaves the data behind it
        have hrest : ¬ elementsInside n (data.drop 4) := fun h => hleaves ⟨hlength, h⟩
        obtain ⟨pad, n', hpad, hall⟩ := ih hrest (by rw [List.length_drop]; omega)
        refine ⟨pad, n', hpad, fun res => ?_⟩
        obtain ⟨b0, b1, b2, b3, data, rfl⟩ := exists_four hlength
        obtain ⟨temp, hnumber⟩ := convertElements_number sprintf math htype b0 b1 b2 b3 n res
        obtain ⟨res', hres'⟩ := hall (res ++ elementText sprintf math n temp)
        exact ⟨res', fun rest => (hnumber _).trans (hres' rest)⟩
      · obtain ⟨n', rfl⟩ := Nat.exists_eq_succ_of_ne_zero (show n ≠ 0 by omega)
        refine ⟨List.replicate (4 - data.length) 0, n', by rw [List.length_replicate]; omega,
          fun res => ?_⟩
        obtain ⟨b0, b1, b2, b3, hbytes⟩ : ∃ b0 b1 b2 b3,
            data ++ List.replicate (4 - data.length) 0 = [b0, b1, b2, b3] := by
          obtain ⟨b0, b1, b2, b3, others, hsplit⟩ := exists_four
            (show 4 ≤ (data ++ List.replicate (4 - data.length) 0).length by
              rw [List.length_append, List.length_replicate]
              omega)
          have hlength := congrArg List.length hsplit
          simp only [List.length_append, List.length_replicate, List.length_cons] at hlength
          obtain rfl : others = [] := List.eq_nil_of_length_eq_zero (by omega)
          exact ⟨b0, b1, b2, b3, hsplit⟩
        obtain ⟨temp, hnumber⟩ :=
          convertElements_number sprintf math htype b0 b1 b2 b3 (n' + 1) res
        refine ⟨res ++ elementText sprintf math (n' + 1) temp, fun rest => ?_⟩
        rw [List.cons_append, ← List.append_assoc, hbytes]
        exact hnumber rest

end

section
variable {u : List UInt8}

theorem countElements_step {n offset k : ℕ}
    (h : (TwoWalks.countElements u 256 (n + 1) offset offset).value = some k) :
    ∃ res, dwDlt698DataLen (u.drop offset) (256 - offset) = .ok res ∧
      (TwoWalks.countElements u 256 n (offset + res) (offset + res)).value = some k := by
  rw [TwoWalks.countElements, Logged.bind_value, Logged.doing_value] at h
  cases hres : dwDlt698DataLen (u.drop offset) (256 - offset) with
  | error stop =>
    rw [hres] at h
    cases h
  | ok res =>
    have hle := DataLenExact.dwDlt698DataLen_le hres
    have hmod : (offset + res) % lenModulus = offset + res :=
      Nat.mod_eq_of_lt (by change offset + res < 65536; omega)
    rw [hres, Except.toOption, Option.bind_some, hmod] at h
    split_ifs at h
    · cases h
    · exact ⟨res, rfl, h⟩

theorem countElements_le {n offset k : ℕ}
    (h : (TwoWalks.countElements u 256 n offset offset).value = some k) : offset ≤ k := by
  induction n generalizing offset with
  | zero =>
    cases h
    exact Nat.le_refl _
  | succ n ih =>
    obtain ⟨res, -, hrest⟩ := countElements_step h
    exact Nat.le_of_add_right_le (ih hrest)

theorem countElements_inside {n offset : ℕ}
    (h : (TwoWalks.countElements u 256 n offset offset).value = some u.length) :
    elementsInside n (u.drop offset) := by
  induction n generalizing offset with
  | zero => trivial
  | succ n ih =>
    obtain ⟨res, hres, hrest⟩ := countElements_step h
    cases hbytes : u.drop offset with
    | nil =>
      rw [hbytes] at hres
      cases hres
    | cons dataType data =>
      intro htype
      rw [hbytes, TwoWalks.dwDlt698DataLen_number htype] at hres
      split_ifs at hres
      cases hres
      have hle := countElements_le hrest
      have hdata : data = u.drop (offset + 1) := by
        rw [← List.drop_drop, hbytes]
        rfl
      rw [hdata, List.length_drop, List.drop_drop]
      exact ⟨by omega, ih hrest⟩

theorem longCount_of_leaves (value : DataValue) (h : ¬ arrayInside value.bytes) :
    ∃ arrLen data, value.bytes = DltData.array.code :: arrLen :: data ∧ 128 ≤ arrLen.toNat ∧
      ¬ elementsInside arrLen.toNat data := by
  obtain ⟨u, hmeasured⟩ := value
  dsimp only at h ⊢
  match u with
  | [] => cases hmeasured
  | dataType :: ptr =>
    obtain ⟨harray, hleaves⟩ := Classical.not_imp.mp h
    have hvalue := TwoWalks.countArray_value (dataType :: ptr) 256 (congrArg some harray)
    rw [hmeasured] at hvalue
    match ptr with
    | [] => cases hvalue
    | arrLen :: data =>
      have hdata : ¬ elementsInside arrLen.toNat data := fun hin => hleaves ⟨arrLen, data, rfl, hin⟩
      refine ⟨arrLen, data, by rw [harray], ?_, hdata⟩
      by_contra hshort
      apply hdata
      have hlen := dwDlt698Len_short (Nat.lt_of_not_le hshort) data
      rw [TwoWalks.countArray, List.drop_one, List.tail_cons, hlen] at hvalue
      simp only [Except.toOption, Logged.bind_value, Logged.holding_value,
        Option.bind_some] at hvalue
      obtain ⟨len, hcounted, hend⟩ := Option.bind_eq_some_iff.mp hvalue
      split_ifs at hend
      · cases hend
      · cases hend
        have hinside : elementsInside arrLen.toNat ((dataType :: arrLen :: data).drop 2) :=
          countElements_inside hcounted
        exact hinside

end

section
variable (sprintf : ℤ → ℤ → String) (math : ℤ)

theorem writeAt_end_ne (res : String) {text : String} (h : text ≠ "") :
    writeAt res res.length text ≠ res := by
  intro heq
  have hlength := congrArg String.length heq
  rw [writeAt_end, String.length_append] at hlength
  exact h (String.length_eq_zero_iff.mp (by omega))

theorem elementText_ne (h : ∀ temp, sprintf temp math ≠ "") (left : ℕ) (temp : ℤ) :
    elementText sprintf math left temp ≠ "" := by
  rw [elementText]
  split_ifs
  · exact h temp
  · intro heq
    have hlength := congrArg String.length heq
    rw [String.length_append] at hlength
    exact Nat.succ_ne_zero _ hlength

theorem convertToStringFloat_leaves (hsprintf : ∀ temp, sprintf temp math ≠ "")
    (value : DataValue) (h : ¬ arrayInside value.bytes) :
    ∃ pad text text', pad.length ≤ 4 ∧ text ≠ text' ∧ ∀ rest,
      convertToStringFloat sprintf (value.bytes ++ (pad ++ 0 :: rest)) "" math = some text ∧
      convertToStringFloat sprintf (value.bytes ++ (pad ++ 5 :: 0 :: 0 :: 0 :: 0 :: 0 :: rest)) ""
        math = some text' := by
  obtain ⟨arrLen, data, hbytes, hcount, hleaves⟩ := longCount_of_leaves value h
  have hsize : data.length + 2 ≤ 256 := by
    have hle := DataLenExact.dwDlt698DataLen_le value.measured
    rw [hbytes, List.length_cons, List.length_cons] at hle
    omega
  obtain ⟨pad, n, hpad, hall⟩ :=
    convertElements_leaves sprintf math hleaves (by omega)
  obtain ⟨res, hres⟩ := hall ""
  have hconvert (rest : List UInt8) :
      convertToStringFloat sprintf (value.bytes ++ (pad ++ rest)) "" math =
        convertElements sprintf math (n + 1) rest res.length res := by
    rw [hbytes, ← hres rest]
    rfl
  obtain ⟨temp, hnumber⟩ :=
    convertElements_number sprintf math (show IsNumber 5 from Or.inl rfl) 0 0 0 0 n res
  refine ⟨pad, res, res ++ elementText sprintf math n temp, hpad, ?_, fun rest => ?_⟩
  · rw [← writeAt_end]
    exact (writeAt_end_ne res (elementText_ne sprintf math hsprintf n temp)).symm
  · rw [hconvert, hconvert, hnumber, convertElements_zero, convertElements_zero]
    exact ⟨rfl, rfl⟩

end

end IotEdgeAgent.Dlt698.UnitText
