import IotEdgeAgent.Dlt698.Conversion
import IotEdgeAgent.Dlt698.DataLenExact

/-!
# The two walks over an array

`dwDlt698DataLen` measures an array with the general decoder of length fields and measures every
element; `convert_to_string_float` takes the byte behind the type for the count and five bytes
for every element. `countArray` is the first walk with a log of the elements it measures.
-/

namespace IotEdgeAgent.Dlt698.TwoWalks
open ByteWalk DataLen DataFormat DataLenExact Payload Conversion

section
variable (mem : List UInt8) (dwRcvLen : ℤ)

def countElements : ℕ → ℕ → ℕ → Logged ℕ ℕ
  | 0, _, len => pure len
  | n + 1, offset, len => do
    let res ← Logged.doing offset (dwDlt698DataLen (mem.drop offset) (dwRcvLen - len)).toOption
    if res < 1 then Logged.holding none
    else countElements n (offset + res) ((len + res) % lenModulus)

def countArray : Logged ℕ ℕ := do
  let count ← Logged.holding (dwDlt698Len (mem.drop 1)).toOption
  let len ← countElements mem dwRcvLen count.1 (1 + count.2) ((1 + count.2) % lenModulus)
  if dwRcvLen < len then Logged.holding none else return len

theorem countElements_value (n offset len : ℕ) :
    (countElements mem dwRcvLen n offset len).value =
      ((loop (element dwDlt698DataLen dwRcvLen) n ⟨mem.drop offset, len⟩).map
        Cursor.len).toOption := by
  induction n generalizing offset len with
  | zero => rfl
  | succ n ih =>
    rw [countElements, Logged.bind_value, Logged.doing_value, loop, andThen, element, nested]
    cases dwDlt698DataLen (mem.drop offset) (dwRcvLen - len) with
    | error stop => rfl
    | ok res =>
      by_cases hres : res < 1
      · obtain rfl : res = 0 := by omega
        rfl
      · simp only [Except.toOption, Except.bind, Option.bind_some, if_neg hres, ih,
          Cursor.advance, List.drop_drop]
        rfl

theorem countArray_value (h : mem[0]? = some DltData.array.code) :
    (countArray mem dwRcvLen).value = (dwDlt698DataLen mem dwRcvLen).toOption := by
  have hmem : mem = DltData.array.code :: mem.drop 1 := drop_of_getElem? mem h
  have htype : typeContents dwDlt698DataLen dwRcvLen DltData.array.code =
      field lenModulus dwDlt698Len (loop (element dwDlt698DataLen dwRcvLen)) := rfl
  rw [dwDlt698DataLen_eq, hmem, dataLenBody_cons, ← hmem, htype, countArray, Logged.bind_value,
    Logged.holding_value, field]
  cases dwDlt698Len (mem.drop 1) with
  | error stop => rfl
  | ok count =>
    simp only [Except.toOption, Option.bind_some, Logged.bind_value, countElements_value,
      Except.bind, Cursor.advance, List.drop_drop]
    cases loop (element dwDlt698DataLen dwRcvLen) count.1
      ⟨mem.drop (1 + count.2), (1 + count.2) % lenModulus⟩ with
    | error stop => rfl
    | ok c =>
      simp only [Except.map, Option.bind_some]
      split_ifs <;> rfl

theorem dwDlt698DataLen_number {dataType : UInt8} (h : IsNumber dataType) (b : List UInt8)
    (limit : ℤ) :
    dwDlt698DataLen (dataType :: b) limit = if limit < 5 then .error .reject else .ok 5 := by
  rw [dwDlt698DataLen_eq, dataLenBody_cons]
  rcases h with rfl | rfl <;> rfl

def AllNumbers (offsets : List ℕ) : Prop :=
  ∀ offset ∈ offsets, ∃ dataType, mem[offset]? = some dataType ∧ IsNumber dataType

theorem countElements_numbers {n offset len k : ℕ}
    (hvalue : (countElements mem dwRcvLen n offset len).value = some k)
    (hnumbers : AllNumbers mem (countElements mem dwRcvLen n offset len).log) :
    (countElements mem dwRcvLen n offset len).log = List.range' offset n 5 ∧
      (len + 5 * n < lenModulus → k = len + 5 * n) := by
  induction n generalizing offset len with
  | zero =>
    cases hvalue
    exact ⟨rfl, fun _ => rfl⟩
  | succ n ih =>
    have hhead : offset ∈ (countElements mem dwRcvLen (n + 1) offset len).log :=
      Logged.mem_bind_left (List.mem_singleton.mpr rfl)
    obtain ⟨dataType, hbyte, hnumber⟩ := hnumbers offset hhead
    rw [countElements, drop_of_getElem? mem hbyte, dwDlt698DataLen_number hnumber]
      at hvalue hnumbers ⊢
    by_cases hlimit : dwRcvLen - len < 5
    · rw [if_pos hlimit, Logged.bind_value] at hvalue
      cases hvalue
    · rw [if_neg hlimit, Logged.bind_value, Logged.doing_value] at hvalue
      rw [if_neg hlimit, Logged.bind_log, Logged.doing_value] at hnumbers
      rw [if_neg hlimit, Logged.bind_log, Logged.doing_value, List.range'_succ]
      have hrest := ih hvalue fun o ho => hnumbers o (List.mem_append_right _ ho)
      refine ⟨congrArg (offset :: ·) hrest.1, fun hfits => ?_⟩
      have hmod : (len + 5) % lenModulus = len + 5 := Nat.mod_eq_of_lt (by omega)
      rw [hrest.2 (by rw [hmod]; omega), hmod]
      omega

end

section
variable (sprintf : ℤ → ℤ → String) (math : ℤ) (mem : List UInt8)

def visits (acts : List Act) : List ℕ := acts.filterMap Act.visit?

def ReadsBelow (k : ℕ) (acts : List Act) : Prop :=
  ∀ offset count, .read offset count ∈ acts → offset + count ≤ k

theorem convertElementsActs_visits {n offset : ℕ} (index : ℕ) (res : String)
    (h : AllNumbers mem (List.range' offset n 5)) :
    visits (convertElementsActs sprintf math mem n offset index res).log =
        List.range' offset n 5 ∧
      ReadsBelow (offset + 5 * n)
        (convertElementsActs sprintf math mem n offset index res).log := by
  induction n generalizing offset index res with
  | zero => exact ⟨rfl, fun _ _ h => by cases h⟩
  | succ n ih =>
    rw [List.range'_succ] at h ⊢
    obtain ⟨dataType, hbyte, hnumber⟩ := h offset List.mem_cons_self
    have hrest : AllNumbers mem (List.range' (offset + 5) n 5) :=
      fun o ho => h o (List.mem_cons_of_mem _ ho)
    cases htemp : readInt32 (mem.drop (offset + 1)) with
    | none =>
      -- the bytes of the element are cut off, so no element stands behind it
      have hshort : mem.length < offset + 5 := by
        have hread := (readInt32_isSome (mem.drop (offset + 1))).not.mp (by simp [htemp])
        rw [List.length_drop] at hread
        omega
      have hn : n = 0 := by
        by_contra hn
        obtain ⟨m, rfl⟩ := Nat.exists_eq_succ_of_ne_zero hn
        obtain ⟨next, hnext, -⟩ := hrest (offset + 5) (by simp [List.range'_succ])
        have hlt := (List.getElem?_eq_some_iff.mp hnext).1
        omega
      subst hn
      rw [convertElementsActs_unreadable sprintf math mem 0 index res hbyte hnumber htemp]
      refine ⟨rfl, fun o c hmem => ?_⟩
      simp only [List.mem_cons, Act.read.injEq, List.not_mem_nil, or_false, reduceCtorEq,
        false_or] at hmem
      omega
    | some temp =>
      have hat : numberAt mem offset = some temp :=
        (numberAt_of_isNumber hbyte hnumber).trans htemp
      rw [convertElementsActs_print sprintf math mem n index res hat]
      obtain ⟨hvisits, hreads⟩ := ih (index + (elementText sprintf math n temp).length)
        (writeAt res index (elementText sprintf math n temp)) hrest
      refine ⟨congrArg (offset :: ·) hvisits, fun o c hmem => ?_⟩
      simp only [List.mem_cons, Act.read.injEq, reduceCtorEq, false_or] at hmem
      rcases hmem with h | h | h
      · omega
      · omega
      · have hle := hreads o c h
        omega

theorem convertElementsActs_first_visit (n offset index : ℕ) (res : String) :
    visits (convertElementsActs sprintf math mem n offset index res).log = [] ∨
      (visits (convertElementsActs sprintf math mem n offset index res).log).head? =
        some offset := by
  cases n with
  | zero => exact Or.inl rfl
  | succ n =>
    cases hnumber : numberAt mem offset with
    | some temp =>
      rw [convertElementsActs_print sprintf math mem n index res hnumber]
      exact Or.inr rfl
    | none =>
      obtain ⟨dataType, hbyte, htype, htemp⟩ | hother := numberAt_none hnumber
      · rw [convertElementsActs_unreadable sprintf math mem n index res hbyte htype htemp]
        exact Or.inr rfl
      · rw [convertElementsActs_other sprintf math mem n index res hother]
        exact Or.inl rfl

theorem convertActs_first_visit (res : String) :
    visits (convertActs sprintf math mem res).log = [] ∨
      (visits (convertActs sprintf math mem res).log).head? = some 2 := by
  cases hrounds : arrayRounds mem with
  | none =>
    refine Or.inl (List.filterMap_eq_nil_iff.mpr fun act hact => ?_)
    obtain ⟨offset, rfl⟩ := convertActs_reads sprintf math mem hrounds res act hact
    rfl
  | some rounds =>
    rw [convertActs_array sprintf math mem hrounds]
    exact convertElementsActs_first_visit sprintf math mem rounds 2 0 res

end

theorem lengthField_cases {b : List UInt8} {n h : ℕ} (hfield : lengthField b = some (n, h)) :
    (h = 1 ∧ ∃ b0, b[0]? = some b0 ∧ b0.toNat = n ∧ n < 128) ∨
      (h = 2 ∧ b[0]? = some 0x81 ∧ ∃ b1, b[1]? = some b1 ∧ b1.toNat = n) ∨
      (h = 3 ∧ b[0]? = some 0x82 ∧
        ∃ b1 b2 : UInt8, b[1]? = some b1 ∧ 256 * b1.toNat + b2.toNat = n) := by
  match b with
  | [] => cases hfield
  | b0 :: rest =>
    simp only [lengthField] at hfield
    split_ifs at hfield with hshort
    · cases hfield
      exact Or.inl ⟨rfl, b0, rfl, rfl, hshort⟩
    · split at hfield
      · next b1 tl hbyte =>
        cases hfield
        exact Or.inr (Or.inl ⟨rfl, congrArg some (UInt8.toNat_inj.mp hbyte), b1, rfl, rfl⟩)
      · next b1 b2 tl hbyte =>
        cases hfield
        exact Or.inr (Or.inr ⟨rfl, congrArg some (UInt8.toNat_inj.mp hbyte), b1, b2, rfl, rfl⟩)
      · cases hfield

section
variable (sprintf : ℤ → ℤ → String) (math : ℤ) (mem : List UInt8)

/-- The conversion enters the elements that were counted, where they were counted, and reads
nothing behind the length that was returned. -/
structure WalksAgree (dwRcvLen : ℤ) (k : ℕ) (res : String) : Prop where
  visits : visits (convertActs sprintf math mem res).log = (countArray mem dwRcvLen).log
  reads : ReadsBelow k (convertActs sprintf math mem res).log

variable {mem}

theorem countArray_numbers {dwRcvLen : ℤ} {n h k : ℕ}
    (harray : mem[0]? = some DltData.array.code)
    (hcount : lengthField (mem.drop 1) = some (n, h))
    (hnumbers : AllNumbers mem (countArray mem dwRcvLen).log)
    (haccepted : dwDlt698DataLen mem dwRcvLen = .ok k) :
    (countArray mem dwRcvLen).log = List.range' (1 + h) n 5 ∧
      (1 + h + 5 * n < lenModulus → k = 1 + h + 5 * n) := by
  have hvalue : (countArray mem dwRcvLen).value = some k := by
    rw [countArray_value mem dwRcvLen harray, haccepted]
    rfl
  have hsmall : (1 + h) % lenModulus = 1 + h := by
    have hforms := lengthField_cases hcount
    exact Nat.mod_eq_of_lt (by change 1 + h < 65536; omega)
  rw [countArray, DataLenExact.dwDlt698Len_reads _ _ hcount] at hvalue hnumbers ⊢
  simp only [Except.toOption, Logged.bind_value, Logged.holding_value, Option.bind_some,
    Logged.bind_log, Logged.holding_log, Option.map_some, Option.getD_some, List.nil_append,
    hsmall] at hvalue hnumbers ⊢
  obtain ⟨len, hlen, hend⟩ := Option.bind_eq_some_iff.mp hvalue
  by_cases hlimit : dwRcvLen < len
  · rw [if_pos hlimit] at hend
    cases hend
  · rw [if_neg hlimit] at hend
    cases hend
    simp only [hlen, Option.map_some, Option.getD_some, if_neg hlimit, Logged.pure_log,
      List.append_nil] at hnumbers ⊢
    exact countElements_numbers mem dwRcvLen hlen hnumbers

theorem arrayRounds_of_short {n : ℕ} (harray : mem[0]? = some DltData.array.code)
    {b0 : UInt8} (hbyte : (mem.drop 1)[0]? = some b0) (hn : b0.toNat = n) :
    arrayRounds mem = some n := by
  rw [List.getElem?_drop] at hbyte
  rw [arrayRounds, harray, Option.bind_some, if_pos rfl, hbyte, Option.map_some, hn]

theorem walksAgree_short {dwRcvLen : ℤ} {n k : ℕ} (res : String)
    (harray : mem[0]? = some DltData.array.code)
    (hcount : lengthField (mem.drop 1) = some (n, 1))
    (hnumbers : AllNumbers mem (countArray mem dwRcvLen).log)
    (haccepted : dwDlt698DataLen mem dwRcvLen = .ok k) :
    WalksAgree sprintf math mem dwRcvLen k res := by
  obtain ⟨hlog, hlen⟩ := countArray_numbers harray hcount hnumbers haccepted
  obtain ⟨-, b0, hbyte, hn, hlt⟩ | ⟨hform, -⟩ | ⟨hform, -⟩ := lengthField_cases hcount
  · have hk : k = 1 + 1 + 5 * n := hlen (by change 1 + 1 + 5 * n < 65536; omega)
    rw [hlog] at hnumbers
    obtain ⟨hvisits, hreads⟩ := convertElementsActs_visits sprintf math mem 0 res hnumbers
    have hacts := convertActs_array sprintf math mem (arrayRounds_of_short harray hbyte hn) res
    refine ⟨?_, ?_⟩
    · rw [hacts, hlog]
      exact hvisits
    · rw [hacts]
      intro o c hmem
      simp only [List.mem_cons, Act.read.injEq] at hmem
      rcases hmem with h | h | h
      · omega
      · omega
      · exact (hreads o c h).trans (by omega)
  · cases hform
  · cases hform

theorem walksAgree_empty {dwRcvLen : ℤ} {h k : ℕ} (res : String)
    (harray : mem[0]? = some DltData.array.code)
    (hcount : lengthField (mem.drop 1) = some (0, h)) (hlong : h ≠ 1)
    (hnumbers : AllNumbers mem (countArray mem dwRcvLen).log)
    (haccepted : dwDlt698DataLen mem dwRcvLen = .ok k) :
    WalksAgree sprintf math mem dwRcvLen k res := by
  obtain ⟨hlog, hlen⟩ := countArray_numbers harray hcount hnumbers haccepted
  have hforms := lengthField_cases hcount
  have hk : k = 1 + h := hlen (by change 1 + h + 5 * 0 < 65536; omega)
  have hbytes : (∃ b0 : UInt8, (mem.drop 1)[0]? = some b0 ∧ 0 < b0.toNat) ∧
      (mem.drop 1)[1]? = some 0 := by
    obtain ⟨rfl, -⟩ | ⟨-, hbyte, b1, hnext, hzero⟩ | ⟨-, hbyte, b1, b2, hnext, hzero⟩ := hforms
    · exact absurd rfl hlong
    · obtain rfl : b1 = 0 := UInt8.toNat_inj.mp hzero
      exact ⟨⟨_, hbyte, by decide⟩, hnext⟩
    · obtain rfl : b1 = 0 := UInt8.toNat_inj.mp (by change b1.toNat = 0; omega)
      exact ⟨⟨_, hbyte, by decide⟩, hnext⟩
  obtain ⟨⟨b0, hbyte, hpos⟩, hnext⟩ := hbytes
  obtain ⟨m, hm⟩ := Nat.exists_eq_succ_of_ne_zero (Nat.ne_of_gt hpos)
  have hother : ∀ dataType, mem[2]? = some dataType → ¬ IsNumber dataType := by
    intro dataType hdata
    rw [List.getElem?_drop] at hnext
    obtain rfl := Option.some.inj (hnext.symm.trans hdata)
    decide
  have hacts := convertActs_array sprintf math mem (arrayRounds_of_short harray hbyte hm) res
  rw [convertElementsActs_other sprintf math mem m 0 res hother] at hacts
  refine ⟨?_, ?_⟩
  · rw [hacts, hlog]
    rfl
  · rw [hacts]
    intro o c hmem
    simp only [List.mem_cons, Act.read.injEq, List.not_mem_nil, or_false] at hmem
    omega

/-- For every array of numbers that is accepted, the two walks agree exactly if its count is in
the short form or zero. -/
theorem walksAgree_iff (dwRcvLen : ℤ) (n h k : ℕ) (res : String)
    (harray : mem[0]? = some DltData.array.code)
    (hcount : lengthField (mem.drop 1) = some (n, h))
    (hnumbers : AllNumbers mem (countArray mem dwRcvLen).log)
    (haccepted : dwDlt698DataLen mem dwRcvLen = .ok k) :
    WalksAgree sprintf math mem dwRcvLen k res ↔ h = 1 ∨ n = 0 := by
  constructor
  · intro hagree
    by_contra hlong
    obtain ⟨hform, hn⟩ := not_or.mp hlong
    obtain ⟨m, rfl⟩ := Nat.exists_eq_succ_of_ne_zero hn
    have hvisits := hagree.visits
    rw [(countArray_numbers harray hcount hnumbers haccepted).1, List.range'_succ] at hvisits
    rcases convertActs_first_visit sprintf math mem res with hnone | hfirst
    · rw [hnone] at hvisits
      cases hvisits
    · rw [hvisits, List.head?_cons] at hfirst
      have hone := Option.some.inj hfirst
      omega
  · rintro hcase
    by_cases hform : h = 1
    · subst hform
      exact walksAgree_short sprintf math res harray hcount hnumbers haccepted
    · obtain rfl := hcase.resolve_left hform
      exact walksAgree_empty sprintf math res harray hcount hform hnumbers haccepted

end

theorem walksAgree_iff_reading :
    WalksAgree printFixed (-2) [1, 1, 5, 0, 0, 0, 1] 256 7 "" ↔ 1 = 1 ∨ 1 = 0 := by
  have hlog : (countArray [1, 1, 5, 0, 0, 0, 1] 256).log = [2] := by decide
  refine walksAgree_iff printFixed (-2) 256 1 1 7 "" rfl rfl ?_ (by decide)
  intro offset hoffset
  rw [hlog] at hoffset
  obtain rfl := List.mem_singleton.mp hoffset
  exact ⟨5, rfl, Or.inl rfl⟩

/-- One number behind the count 81 01: it is measured, and the conversion does not enter it. -/
theorem longCount_skipped :
    ¬ ∀ (mem : List UInt8) (n h k : ℕ), mem[0]? = some DltData.array.code →
      lengthField (mem.drop 1) = some (n, h) → AllNumbers mem (countArray mem 256).log →
      dwDlt698DataLen mem 256 = .ok k → WalksAgree printFixed (-2) mem 256 k "" := by
  intro hall
  have hlog : (countArray [1, 0x81, 1, 5, 0, 0, 0, 1] 256).log = [3] := by decide
  have hnumbers : AllNumbers [1, 0x81, 1, 5, 0, 0, 0, 1]
      (countArray [1, 0x81, 1, 5, 0, 0, 0, 1] 256).log := by
    intro offset hoffset
    rw [hlog] at hoffset
    obtain rfl := List.mem_singleton.mp hoffset
    exact ⟨5, rfl, Or.inl rfl⟩
  have hvisits := (hall _ 1 2 8 rfl rfl hnumbers (by decide)).visits
  rw [hlog] at hvisits
  revert hvisits
  decide

end IotEdgeAgent.Dlt698.TwoWalks
