import Mathlib.Data.Nat.Bitwise
import Mathlib.Data.List.Basic

/-!
# Arrays that are written in parts, and bits packed into bytes

`overlay xs i ys` is `xs` with `ys` written over it from the index `i` on. Bits that are packed into
bytes, the lowest bit first, are written in the same way.
-/

namespace BitArray

section
variable {α : Type}

def overlay : List α → ℕ → List α → List α
  | xs, _, [] => xs
  | xs, i, y :: ys => overlay (xs.set i y) (i + 1) ys

@[simp]
theorem length_overlay (xs : List α) (i : ℕ) (ys : List α) :
    (overlay xs i ys).length = xs.length := by
  induction ys generalizing xs i with
  | nil => rfl
  | cons y ys ih => rw [overlay, ih, List.length_set]

theorem overlay_other {i j : ℕ} {ys : List α} (h : j < i ∨ i + ys.length ≤ j) (xs : List α) :
    (overlay xs i ys)[j]? = xs[j]? := by
  induction ys generalizing xs i with
  | nil => rfl
  | cons y ys ih =>
    rw [List.length_cons] at h
    rw [overlay, ih (by omega), List.getElem?_set_ne (by omega)]

theorem overlay_written {i k : ℕ} {xs ys : List α} (h : i + ys.length ≤ xs.length)
    (hk : k < ys.length) : (overlay xs i ys)[i + k]? = ys[k]? := by
  induction ys generalizing xs i k with
  | nil => exact absurd hk (Nat.not_lt_zero k)
  | cons y ys ih =>
    rw [List.length_cons] at h hk
    rw [overlay]
    cases k with
    | zero =>
      rw [overlay_other (by omega), Nat.add_zero, List.getElem?_set_self (by omega)]
      rfl
    | succ k =>
      rw [← Nat.add_assoc, Nat.add_right_comm, ih (by rw [List.length_set]; omega) (by omega),
        List.getElem?_cons_succ]

theorem slice_overlay {i : ℕ} {xs ys : List α} (h : i + ys.length ≤ xs.length) :
    ((overlay xs i ys).drop i).take ys.length = ys := by
  apply List.ext_getElem?
  intro k
  by_cases hk : k < ys.length
  · rw [List.getElem?_take_of_lt hk, List.getElem?_drop, overlay_written h hk]
  · rw [List.getElem?_eq_none (by rw [List.length_take]; omega),
      List.getElem?_eq_none (Nat.le_of_not_lt hk)]

theorem overlay_whole {xs ys : List α} (h : xs.length = ys.length) : overlay xs 0 ys = ys := by
  have hslice := slice_overlay (i := 0) (by rw [Nat.zero_add, h] : 0 + ys.length ≤ xs.length)
  rwa [List.drop_zero, ← h, ← length_overlay xs 0 ys, List.take_length] at hslice

end

def put (byte : UInt8) (k : ℕ) (b : Bool) : UInt8 :=
  if b then byte ||| 1 <<< UInt8.ofNat k else byte &&& ~~~(1 <<< UInt8.ofNat k)

def bit (bytes : List UInt8) (i : ℕ) : Bool := (bytes.getD (i / 8) 0).toNat.testBit (i % 8)

def write (bytes : List UInt8) (i : ℕ) (b : Bool) : List UInt8 :=
  bytes.modify (i / 8) fun byte => put byte (i % 8) b

def bits (bytes : List UInt8) (n : ℕ) : List Bool := (List.range n).map (bit bytes)

theorem testBit_single {k : ℕ} (hk : k < 8) (j : ℕ) :
    (1 <<< UInt8.ofNat k : UInt8).toNat.testBit j = decide (j = k) := by
  have hsingle : (1 <<< UInt8.ofNat k : UInt8).toNat = 2 ^ k := by
    have hlt : 2 ^ k < 2 ^ 8 := Nat.pow_lt_pow_right (by decide) hk
    rw [UInt8.toNat_shiftLeft, UInt8.toNat_ofNat', Nat.mod_eq_of_lt (by omega : k < 2 ^ 8),
      Nat.mod_eq_of_lt hk, Nat.shiftLeft_eq, UInt8.toNat_one, Nat.one_mul, Nat.mod_eq_of_lt hlt]
  rw [hsingle, Nat.testBit_two_pow]
  exact decide_eq_decide.mpr eq_comm

theorem testBit_not (byte : UInt8) {j : ℕ} (hj : j < 8) :
    (~~~byte).toNat.testBit j = !byte.toNat.testBit j := by
  have hnot := BitVec.getLsbD_not (x := byte.toBitVec) (i := j)
  rw [decide_eq_true hj, Bool.true_and] at hnot
  exact hnot

theorem testBit_put (byte : UInt8) {k j : ℕ} (hk : k < 8) (hj : j < 8) (b : Bool) :
    (put byte k b).toNat.testBit j = if j = k then b else byte.toNat.testBit j := by
  cases b with
  | true =>
    rw [put, if_pos rfl, UInt8.toNat_or, Nat.testBit_or, testBit_single hk]
    split <;> simp [*]
  | false =>
    rw [put, if_neg Bool.false_ne_true, UInt8.toNat_and, Nat.testBit_and, testBit_not _ hj,
      testBit_single hk]
    split <;> simp [*]

@[simp]
theorem length_write (bytes : List UInt8) (i : ℕ) (b : Bool) :
    (write bytes i b).length = bytes.length := List.length_modify ..

@[simp]
theorem length_bits (bytes : List UInt8) (n : ℕ) : (bits bytes n).length = n := by
  rw [bits, List.length_map, List.length_range]

theorem bit_write {bytes : List UInt8} {i : ℕ} (h : i < 8 * bytes.length) (j : ℕ) (b : Bool) :
    bit (write bytes i b) j = if j = i then b else bit bytes j := by
  have hj : j % 8 < 8 := Nat.mod_lt j (by decide)
  rw [bit, bit, write, List.getD_eq_getElem?_getD, List.getElem?_modify, List.getD_eq_getElem?_getD]
  by_cases hbyte : i / 8 = j / 8
  · have hlt : j / 8 < bytes.length := by omega
    rw [List.getElem?_eq_getElem hlt]
    simp only [hbyte, if_true, Option.map_eq_map, Option.map_some, Option.getD_some]
    rw [testBit_put _ (Nat.mod_lt i (by decide)) hj]
    by_cases hji : j = i
    · rw [if_pos hji, if_pos (congrArg (· % 8) hji)]
    · rw [if_neg hji, if_neg (by omega)]
  · simp only [hbyte, if_false]
    rw [if_neg fun hji => hbyte (congrArg (· / 8) hji.symm)]
    cases bytes[j / 8]? with
    | none => rfl
    | some byte => rfl

theorem getElem?_bits (bytes : List UInt8) (n j : ℕ) :
    (bits bytes n)[j]? = if j < n then some (bit bytes j) else none := by
  by_cases hj : j < n
  · rw [if_pos hj, bits, List.getElem?_map, List.getElem?_range hj, Option.map_some]
  · rw [if_neg hj, List.getElem?_eq_none (by rw [length_bits]; omega)]

theorem bits_congr {bytes bytes' : List UInt8} {n : ℕ}
    (h : ∀ k, 8 * k < n → bytes[k]? = bytes'[k]?) : bits bytes n = bits bytes' n := by
  apply List.ext_getElem?
  intro j
  rw [getElem?_bits, getElem?_bits]
  by_cases hj : j < n
  · rw [if_pos hj, if_pos hj, bit, bit, List.getD_eq_getElem?_getD, List.getD_eq_getElem?_getD,
      h (j / 8) (by omega)]
  · rw [if_neg hj, if_neg hj]

theorem bits_write {bytes : List UInt8} {i n : ℕ} (h : i < 8 * bytes.length) (b : Bool) :
    bits (write bytes i b) n = (bits bytes n).set i b := by
  apply List.ext_getElem?
  intro j
  rw [getElem?_bits, List.getElem?_set, length_bits, getElem?_bits, bit_write h]
  by_cases hij : i = j
  · simp [hij]
  · rw [if_neg hij, if_neg (Ne.symm hij)]

end BitArray
