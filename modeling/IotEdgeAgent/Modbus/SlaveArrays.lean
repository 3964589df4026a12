import IotEdgeAgent.Modbus.Device

/-!
# The arrays of the slave

Inside of its arrays the slave reads and writes what the indices say.
-/

namespace IotEdgeAgent.Modbus.Slave
open Dlt698.LinkFrame (lowByte highByte makeWord)
open Master (modbusMatchEndian wordBytes readWord modbusSwapEndian)
open Response (modbusBitsToBytes)
open BitArray (overlay bit bits put write testBit_single)

theorem byteIndex_toNat (index : UInt16) : (index >>> 3).toNat = index.toNat / 8 := by
  rw [UInt16.toNat_shiftRight]
  exact Nat.shiftRight_eq_div_pow index.toNat 3

theorem bitIndex_eq (index : UInt16) : (index % 8).toUInt8 = UInt8.ofNat (index.toNat % 8) := by
  apply UInt8.toNat_inj.mp
  rw [UInt16.toNat_toUInt8, UInt16.toNat_mod, UInt8.toNat_ofNat']
  rfl

theorem read_single (byte : UInt8) {k : ℕ} (hk : k < 8) :
    (byte &&& 1 <<< UInt8.ofNat k) >>> UInt8.ofNat k =
      if byte.toNat.testBit k then 1 else 0 := by
  have hsmall : (UInt8.ofNat k).toNat % 8 = k := by
    rw [UInt8.toNat_ofNat', Nat.mod_eq_of_lt (by omega : k < 2 ^ 8), Nat.mod_eq_of_lt hk]
  apply UInt8.toNat_inj.mp
  apply Nat.eq_of_testBit_eq
  intro j
  rw [UInt8.toNat_shiftRight, hsmall, Nat.testBit_shiftRight, UInt8.toNat_and, Nat.testBit_and,
    testBit_single hk]
  cases j with
  | zero => by_cases h : byte.toNat.testBit k <;> simp [h]
  | succ j =>
    rw [decide_eq_false (by omega), Bool.and_false]
    split
    · exact (Nat.testBit_lt_two_pow (Nat.one_lt_two_pow (Nat.succ_ne_zero j))).symm
    · exact (Nat.zero_testBit (j + 1)).symm

section
variable {mask : List UInt8} {maskLength index : UInt16}

theorem modbusMaskRead_inside (hlength : maskLength.toNat ≤ mask.length)
    (h : index.toNat < 8 * maskLength.toNat) :
    modbusMaskRead (some mask) maskLength index =
      some (if bit mask index.toNat then 1 else 0) := by
  have hlt : index.toNat / 8 < mask.length := by omega
  have hinside : ¬ maskLength ≤ index >>> 3 := by
    rw [UInt16.le_iff_toNat_le, byteIndex_toNat]
    omega
  rw [modbusMaskRead, if_neg hinside, byteIndex_toNat, List.getElem?_eq_getElem hlt, bitIndex_eq,
    bit, List.getD_eq_getElem?_getD, List.getElem?_eq_getElem hlt]
  exact congrArg some (read_single _ (Nat.mod_lt _ (by decide)))

theorem modbusMaskRead_outside (h : 8 * maskLength.toNat ≤ index.toNat)
    (mask : Option (List UInt8)) : modbusMaskRead mask maskLength index = some 255 := by
  cases mask with
  | none => rfl
  | some mask =>
    rw [modbusMaskRead, if_pos]
    rw [UInt16.le_iff_toNat_le, byteIndex_toNat]
    omega

theorem modbusMaskWrite_inside (hlength : maskLength.toNat ≤ mask.length)
    (h : index.toNat < 8 * maskLength.toNat) (value : UInt8) :
    modbusMaskWrite (some mask) maskLength index value =
      some (0, some (write mask index.toNat (decide (value ≠ 0)))) := by
  have hlt : index.toNat / 8 < mask.length := by omega
  have hinside : ¬ maskLength ≤ index >>> 3 := by
    rw [UInt16.le_iff_toNat_le, byteIndex_toNat]
    omega
  rw [modbusMaskWrite, if_neg hinside, byteIndex_toNat, List.getElem?_eq_getElem hlt, bitIndex_eq,
    write, List.modify_eq_set_getElem?, List.getElem?_eq_getElem hlt]
  by_cases hvalue : value = 0 <;> simp [put, hvalue]

end

def lockedBy (mask : Option (List UInt8)) (i : ℕ) : Bool :=
  match mask with
  | none => false
  | some mask => bit mask i

theorem modbusMaskRead_locked {mask : Option (List UInt8)} {maskLength : UInt16}
    (hlength : ∀ m, mask = some m → m.length = maskLength.toNat) (index : UInt16) :
    ∃ value, modbusMaskRead mask maskLength index = some value ∧
      (value = 1 ↔ lockedBy mask index.toNat = true) := by
  by_cases h : index.toNat < 8 * maskLength.toNat
  · cases mask with
    | none => exact ⟨255, rfl, fun h => (by cases h), fun h => (by cases h)⟩
    | some m =>
      refine ⟨_, modbusMaskRead_inside (Nat.le_of_eq (hlength m rfl).symm) h, ?_⟩
      cases hbit : bit m index.toNat <;> simp [lockedBy, hbit]
  · refine ⟨255, modbusMaskRead_outside (Nat.le_of_not_lt h) mask, fun h => (by cases h),
      fun hlocked => ?_⟩
    cases mask with
    | none => cases hlocked
    | some m =>
      have hm := hlength m rfl
      rw [lockedBy, bit, List.getD_eq_getElem?_getD, List.getElem?_eq_none (by omega),
        Option.getD_none, UInt8.toNat_zero, Nat.zero_testBit] at hlocked
      cases hlocked

theorem modbusBitsToBytes_toNat (n : UInt16) : (modbusBitsToBytes n).toNat = (n.toNat + 7) / 8 := by
  have hlt := n.toNat_lt
  rw [modbusBitsToBytes]
  by_cases hn : n = 0
  · rw [if_neg (not_not_intro hn), hn]
    rfl
  · have hpos : 0 < n.toNat := Nat.pos_of_ne_zero fun h => hn (UInt16.toNat_inj.mp h)
    have hsub : (n - 1).toNat = n.toNat - 1 :=
      UInt16.toNat_sub_of_le n 1 (UInt16.le_iff_toNat_le.mpr hpos)
    rw [if_pos hn, UInt16.toNat_add, byteIndex_toNat, hsub]
    change (1 + (n.toNat - 1) / 8) % 65536 = _
    omega

theorem succ_toNat {index : UInt16} (h : index.toNat + 1 < 65536) :
    (index + 1).toNat = index.toNat + 1 := by
  rw [UInt16.toNat_add]
  exact Nat.mod_eq_of_lt h

theorem slice_succ {α : Type} {xs : List α} {i : ℕ} (h : i < xs.length) (count : ℕ) :
    (xs.drop i).take (count + 1) = xs[i] :: (xs.drop (i + 1)).take count := by
  rw [List.drop_eq_getElem_cons h, List.take_succ_cons]

theorem copyBits_inside {source target : List UInt8} {sourceLength targetLength i j : UInt16}
    {count n : ℕ} (hsource : sourceLength.toNat ≤ source.length)
    (htarget : targetLength.toNat ≤ target.length) (hi : i.toNat + count < 65536)
    (hj : j.toNat + count < 65536) (hread : i.toNat + count ≤ 8 * sourceLength.toNat)
    (hwrite : j.toNat + count ≤ 8 * targetLength.toNat) (hn : i.toNat + count ≤ n) :
    ∃ target', copyBits (some source) sourceLength targetLength i j count (some target) =
        some (true, some target') ∧ target'.length = target.length ∧
      ∀ m, bits target' m = overlay (bits target m) j.toNat
        (((bits source n).drop i.toNat).take count) := by
  induction count generalizing i j target with
  | zero => exact ⟨target, rfl, rfl, fun m => by rw [List.take_zero, overlay]⟩
  | succ count ih =>
    have hone : decide ((if bit source i.toNat then (1 : UInt8) else 0) ≠ 0) =
        bit source i.toNat := by cases bit source i.toNat <;> rfl
    have hcoil : ¬ (if bit source i.toNat then (1 : UInt8) else 0) = 255 := by
      cases bit source i.toNat <;> decide
    have hrest := @ih (write target j.toNat (bit source i.toNat)) (i + 1) (j + 1)
    rw [succ_toNat (by omega), succ_toNat (by omega), BitArray.length_write] at hrest
    obtain ⟨target', hcopy, hlength, hbits⟩ := hrest htarget (by omega) (by omega) (by omega)
      (by omega) (by omega)
    refine ⟨target', ?_, hlength, fun m => ?_⟩
    · rw [copyBits, modbusMaskRead_inside hsource (by omega), Option.bind_eq_bind,
        Option.bind_some, if_neg hcoil, modbusMaskWrite_inside htarget (by omega),
        Option.bind_eq_bind, Option.bind_some, hone]
      exact hcopy
    · have hlt : i.toNat < (bits source n).length := by
        rw [BitArray.length_bits]
        omega
      have hget : (bits source n)[i.toNat] = bit source i.toNat := by
        have hsome := BitArray.getElem?_bits source n i.toNat
        rw [if_pos (by omega), List.getElem?_eq_getElem hlt] at hsome
        exact Option.some.inj hsome
      rw [hbits, slice_succ hlt, hget, overlay, BitArray.bits_write (by omega)]

theorem protectedFrom_eq {mask : Option (List UInt8)} {maskLength : UInt16}
    (hlength : ∀ m, mask = some m → m.length = maskLength.toNat) {index : UInt16} {count : ℕ}
    (h : index.toNat + count < 65536) :
    protectedFrom mask maskLength index count =
      some ((List.range count).any fun k => lockedBy mask (index.toNat + k)) := by
  induction count generalizing index with
  | zero => rfl
  | succ count ih =>
    obtain ⟨value, hvalue, hone⟩ := modbusMaskRead_locked hlength index
    have hrest := @ih (index + 1) (by rw [succ_toNat (by omega)]; omega)
    rw [succ_toNat (by omega)] at hrest
    rw [protectedFrom, hvalue, Option.bind_eq_bind, Option.bind_some, List.range_succ_eq_map,
      List.any_cons, List.any_map, Nat.add_zero]
    by_cases hlocked : lockedBy mask index.toNat = true
    · rw [if_pos (hone.mpr hlocked), hlocked, Bool.true_or]
      rfl
    · rw [if_neg fun h => hlocked (hone.mp h), Bool.eq_false_of_not_eq_true hlocked,
        Bool.false_or, hrest]
      refine congrArg some (congrArg (List.any (List.range count)) (funext fun k => ?_))
      rw [Function.comp_apply, Nat.add_right_comm]
      rfl

def wordsOf : ℕ → List UInt8 → List UInt16
  | count + 1, high :: low :: values =>
    modbusMatchEndian (readWord high low) :: wordsOf count values
  | _, _ => []

def wordsBytes (words : List UInt16) : List UInt8 :=
  words.flatMap fun word => [highByte word, lowByte word]

theorem wordBytes_match (word : UInt16) :
    wordBytes (modbusMatchEndian word) = [highByte word, lowByte word] := by
  rw [wordBytes, modbusMatchEndian, Master.lowByte_swap, Master.highByte_swap]

theorem sendRegisters_inside {registers : List UInt16} {index count : ℕ}
    (h : index + count ≤ registers.length) :
    sendRegisters registers index count =
      some (wordsBytes ((registers.drop index).take count)) := by
  induction count generalizing index with
  | zero => rfl
  | succ count ih =>
    rw [sendRegisters, List.getElem?_eq_getElem (by omega), Option.bind_eq_bind, Option.bind_some,
      ih (by omega), Option.bind_eq_bind, Option.bind_some, slice_succ (by omega),
      wordBytes_match]
    rfl

theorem wordsOf_length {count : ℕ} {values : List UInt8} (h : 2 * count ≤ values.length) :
    (wordsOf count values).length = count := by
  induction count generalizing values with
  | zero => cases values <;> rfl
  | succ count ih =>
    match values with
    | high :: low :: values =>
      rw [List.length_cons, List.length_cons] at h
      rw [wordsOf, List.length_cons, ih (by omega)]
    | [] => cases h
    | [high] => exact absurd h (by rw [List.length_singleton]; omega)

theorem storeRegisters_inside {registers : List UInt16} {index count : ℕ} {values : List UInt8}
    (h : index + count ≤ registers.length) (hvalues : 2 * count ≤ values.length) :
    storeRegisters registers index count values =
      some (overlay registers index (wordsOf count values)) := by
  induction count generalizing registers index values with
  | zero => cases values <;> rfl
  | succ count ih =>
    match values with
    | high :: low :: values =>
      rw [List.length_cons, List.length_cons] at hvalues
      rw [storeRegisters, if_pos (by omega), ih (by rw [List.length_set]; omega) (by omega)]
      rfl
    | [] => cases hvalues
    | [high] => exact absurd hvalues (by rw [List.length_singleton]; omega)

end IotEdgeAgent.Modbus.Slave
