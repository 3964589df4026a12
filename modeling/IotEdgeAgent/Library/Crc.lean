import Mathlib.Data.List.GetD
import Mathlib.Data.Nat.Notation

/-!
# Cyclic redundancy checks bit by bit

A register of `w` bits that is shifted towards its low bit and takes the bits of a message at
that end. The shift is additive, and it loses nothing when the polynomial has the top bit. A
message of no more than `w` bits is therefore told from the register that it leaves, and a burst
of errors of that length is never hidden by what comes behind it. `feedTop` is the same check with
register and polynomial in the other bit order.
-/

namespace Crc

variable {w : ℕ}

def bit (w : ℕ) (b : Bool) : BitVec w := (BitVec.ofBool b).setWidth w

section
variable (poly : BitVec w)

def step (s : BitVec w) : BitVec w := if s.getLsbD 0 then (s >>> 1) ^^^ poly else s >>> 1

def steps : ℕ → BitVec w → BitVec w
  | 0, s => s
  | n + 1, s => steps n (step poly s)

def feed (s : BitVec w) (bits : List Bool) : BitVec w :=
  bits.foldl (fun s b => step poly (s ^^^ bit w b)) s

def word (w : ℕ) (bits : List Bool) : BitVec w := (BitVec.ofBoolListLE bits).setWidth w

theorem step_xor (s t : BitVec w) : step poly (s ^^^ t) = step poly s ^^^ step poly t := by
  simp only [step, BitVec.getLsbD_xor, BitVec.ushiftRight_xor_distrib]
  cases s.getLsbD 0 <;> cases t.getLsbD 0 <;> simp only [Bool.xor_false, Bool.xor_true,
    Bool.not_false, Bool.not_true, if_true, Bool.false_eq_true, if_false]
  · rw [BitVec.xor_assoc]
  · rw [BitVec.xor_assoc, BitVec.xor_assoc, BitVec.xor_comm poly]
  · rw [BitVec.xor_assoc, BitVec.xor_comm _ poly, ← BitVec.xor_assoc poly, BitVec.xor_self,
      BitVec.zero_xor]

theorem steps_xor (n : ℕ) (s t : BitVec w) :
    steps poly n (s ^^^ t) = steps poly n s ^^^ steps poly n t := by
  induction n generalizing s t with
  | zero => rfl
  | succ n ih => rw [steps, step_xor, ih, steps, steps]

theorem steps_of_low {n : ℕ} {s : BitVec w} (h : ∀ i < n, s.getLsbD i = false) :
    steps poly n s = s >>> n := by
  induction n generalizing s with
  | zero => exact (BitVec.ushiftRight_zero s).symm
  | succ n ih =>
    have hstep : step poly s = s >>> 1 := by
      rw [step, h 0 (Nat.succ_pos n), if_neg Bool.false_ne_true]
    have hlow : ∀ i < n, (s >>> 1).getLsbD i = false := by
      intro i hi
      rw [BitVec.getLsbD_ushiftRight]
      exact h (1 + i) (by omega)
    rw [steps, hstep, ih hlow, ← BitVec.shiftRight_add, Nat.add_comm]

theorem steps_eq_table (n : ℕ) (s : BitVec w) :
    steps poly n s = (s >>> n) ^^^ steps poly n ((s.setWidth n).setWidth w) := by
  have hlow : ∀ i < n, (s ^^^ (s.setWidth n).setWidth w).getLsbD i = false := by
    intro i hi
    rw [BitVec.getLsbD_xor, BitVec.getLsbD_setWidth, BitVec.getLsbD_setWidth, decide_eq_true hi,
      Bool.true_and]
    by_cases hw : i < w
    · rw [decide_eq_true hw, Bool.true_and, Bool.xor_self]
    · rw [BitVec.getLsbD_of_ge s i (Nat.not_lt.mp hw), Bool.and_false, Bool.xor_self]
  have hhigh : ((s.setWidth n).setWidth w) >>> n = 0#w := by
    apply BitVec.eq_of_getLsbD_eq
    intro i _
    rw [BitVec.getLsbD_ushiftRight, BitVec.getLsbD_setWidth, BitVec.getLsbD_setWidth,
      decide_eq_false (Nat.not_lt.mpr (Nat.le_add_right n i)), Bool.false_and, Bool.and_false,
      BitVec.getLsbD_zero]
  have hmoved := steps_of_low poly hlow
  rw [steps_xor, BitVec.ushiftRight_xor_distrib, hhigh, BitVec.xor_zero] at hmoved
  rw [← hmoved, BitVec.xor_assoc, BitVec.xor_self, BitVec.xor_zero]

end

theorem getLsbD_bit (b : Bool) (i : ℕ) :
    (bit w b).getLsbD i = (decide (i < w) && decide (i = 0) && b) := by
  rw [bit, BitVec.getLsbD_setWidth, BitVec.getLsbD_ofBool, Bool.and_assoc]

theorem getLsbD_word (bits : List Bool) (i : ℕ) :
    (word w bits).getLsbD i = (decide (i < w) && bits.getD i false) := by
  rw [word, BitVec.getLsbD_setWidth, BitVec.getLsbD_ofBoolListLE]

theorem word_cons (b : Bool) (bits : List Bool) :
    word w (b :: bits) = bit w b ^^^ (word w bits <<< 1) := by
  apply BitVec.eq_of_getLsbD_eq
  intro i hi
  simp only [BitVec.getLsbD_xor, BitVec.getLsbD_shiftLeft, getLsbD_bit, getLsbD_word]
  cases i with
  | zero => simp [hi]
  | succ i => simp [hi, Nat.lt_of_succ_lt hi]

theorem step_word_shiftLeft (poly : BitVec w) {bits : List Bool} (h : bits.length < w) :
    step poly (word w bits <<< 1) = word w bits := by
  have hlow : (word w bits <<< 1).getLsbD 0 = false := by
    rw [BitVec.getLsbD_shiftLeft]
    simp
  rw [step, hlow, if_neg Bool.false_ne_true]
  apply BitVec.eq_of_getLsbD_eq
  intro i hi
  rw [BitVec.getLsbD_ushiftRight, BitVec.getLsbD_shiftLeft, Nat.add_sub_cancel_left,
    getLsbD_word]
  by_cases hnext : 1 + i < w
  · simp [hnext]
  · have hbehind : bits.getD i false = false := by
      exact List.getD_eq_default _ _ (by omega)
    rw [hbehind, Bool.and_false, Bool.and_false]

theorem feed_eq_steps (poly : BitVec w) {bits : List Bool} (h : bits.length ≤ w) (s : BitVec w) :
    feed poly s bits = steps poly bits.length (s ^^^ word w bits) := by
  induction bits generalizing s with
  | nil =>
    have hempty : word w [] = 0#w := by
      apply BitVec.eq_of_getLsbD_eq
      intro i _
      rw [getLsbD_word, BitVec.getLsbD_zero]
      simp
    rw [hempty, BitVec.xor_zero]
    rfl
  | cons b bits ih =>
    have hshort : bits.length < w := h
    calc feed poly s (b :: bits)
        = feed poly (step poly (s ^^^ bit w b)) bits := rfl
      _ = steps poly bits.length (step poly (s ^^^ bit w b) ^^^ word w bits) := by
        exact ih (Nat.le_of_lt hshort) _
      _ = steps poly bits.length (step poly ((s ^^^ bit w b) ^^^ (word w bits <<< 1))) := by
        rw [step_xor poly (s ^^^ bit w b), step_word_shiftLeft poly hshort]
      _ = steps poly (b :: bits).length (s ^^^ word w (b :: bits)) := by
        rw [word_cons, ← BitVec.xor_assoc]
        rfl

theorem word_injective {xs ys : List Bool} (hlength : xs.length = ys.length)
    (hfits : xs.length ≤ w) (h : word w xs = word w ys) : xs = ys := by
  apply List.ext_getElem hlength
  intro i hx hy
  have hbits : (word w xs).getLsbD i = (word w ys).getLsbD i := by rw [h]
  rw [getLsbD_word, getLsbD_word, decide_eq_true (Nat.lt_of_lt_of_le hx hfits), Bool.true_and,
    Bool.true_and, List.getD_eq_getElem _ _ hx, List.getD_eq_getElem _ _ hy] at hbits
  exact hbits

/-- Two messages of one length that differ, and only within `n` consecutive positions. -/
structure Burst {α : Type*} (n : ℕ) (xs ys : List α) : Prop where
  length : xs.length = ys.length
  differ : xs ≠ ys
  within : ∃ start, ∀ i, xs[i]? ≠ ys[i]? → start ≤ i ∧ i < start + n

theorem Burst.of_short {α : Type*} {n : ℕ} {xs ys : List α} (hlength : xs.length = ys.length)
    (hdiffer : xs ≠ ys) (hshort : xs.length ≤ n) : Burst n xs ys := by
  refine ⟨hlength, hdiffer, 0, fun i hi => ⟨Nat.zero_le i, ?_⟩⟩
  apply Classical.byContradiction
  intro hout
  rw [List.getElem?_eq_none (by omega), List.getElem?_eq_none (by omega)] at hi
  exact hi rfl

theorem Burst.split {α : Type*} {n : ℕ} {xs ys : List α} (h : Burst n xs ys) :
    ∃ front middle middle' back, xs = front ++ (middle ++ back) ∧
      ys = front ++ (middle' ++ back) ∧ middle.length = middle'.length ∧ middle.length ≤ n ∧
      middle ≠ middle' := by
  obtain ⟨start, hwithin⟩ := h.within
  have hsame : ∀ i, ¬ (start ≤ i ∧ i < start + n) → xs[i]? = ys[i]? := by
    intro i hi
    exact Classical.byContradiction fun hne => hi (hwithin i hne)
  have hfront : xs.take start = ys.take start := by
    apply List.ext_getElem?
    intro i
    by_cases hi : i < start
    · rw [List.getElem?_take_of_lt hi, List.getElem?_take_of_lt hi]
      exact hsame i fun hin => absurd hi (Nat.not_lt.mpr hin.1)
    · rw [List.getElem?_take_eq_none (Nat.not_lt.mp hi),
        List.getElem?_take_eq_none (Nat.not_lt.mp hi)]
  have hback : (xs.drop start).drop n = (ys.drop start).drop n := by
    apply List.ext_getElem?
    intro i
    rw [List.drop_drop, List.drop_drop, List.getElem?_drop, List.getElem?_drop]
    exact hsame _ (by omega)
  have hxs : xs = xs.take start ++ ((xs.drop start).take n ++ (xs.drop start).drop n) := by
    rw [List.take_append_drop, List.take_append_drop]
  have hys : ys = xs.take start ++ ((ys.drop start).take n ++ (xs.drop start).drop n) := by
    rw [hfront, hback, List.take_append_drop, List.take_append_drop]
  refine ⟨_, _, _, _, hxs, hys, ?_, List.length_take_le _ _, fun hmiddle => h.differ ?_⟩
  · simp only [List.length_take, List.length_drop, h.length]
  · rw [hxs, hmiddle, ← hys]

section
variable {poly : BitVec w}

theorem eq_zero_of_step (hpoly : poly.msb = true) {s : BitVec w} (h : step poly s = 0#w) :
    s = 0#w := by
  rw [step] at h
  cases hlow : s.getLsbD 0 with
  | true =>
    -- The polynomial alone has the top bit.
    rw [hlow, if_pos rfl, BitVec.xor_eq_zero_iff] at h
    rw [← h, BitVec.msb_ushiftRight] at hpoly
    simp at hpoly
  | false =>
    rw [hlow, if_neg Bool.false_ne_true] at h
    apply BitVec.eq_of_getLsbD_eq
    intro i hi
    cases i with
    | zero => rw [hlow, BitVec.getLsbD_zero]
    | succ i =>
      have hbit : (s >>> 1).getLsbD i = (0#w).getLsbD i := by rw [h]
      rw [BitVec.getLsbD_ushiftRight, Nat.add_comm] at hbit
      rw [hbit, BitVec.getLsbD_zero, BitVec.getLsbD_zero]

theorem step_injective (hpoly : poly.msb = true) : Function.Injective (step poly) := by
  intro s t h
  apply BitVec.xor_eq_zero_iff.mp
  apply eq_zero_of_step hpoly
  rw [step_xor, h, BitVec.xor_self]

theorem steps_injective (hpoly : poly.msb = true) (n : ℕ) : Function.Injective (steps poly n) := by
  induction n with
  | zero => exact Function.injective_id
  | succ n ih => exact ih.comp (step_injective hpoly)

theorem feed_injective (hpoly : poly.msb = true) (bits : List Bool) :
    Function.Injective fun s => feed poly s bits := by
  induction bits with
  | nil => exact Function.injective_id
  | cons b bits ih =>
    intro s t h
    have hstep := step_injective hpoly (ih h)
    exact (BitVec.xor_left_inj _).mp hstep

theorem feed_append (poly s : BitVec w) (xs ys : List Bool) :
    feed poly s (xs ++ ys) = feed poly (feed poly s xs) ys := List.foldl_append

theorem feed_ne_of_burst (hpoly : poly.msb = true) {xs ys : List Bool} (h : Burst w xs ys)
    (s : BitVec w) : feed poly s xs ≠ feed poly s ys := by
  obtain ⟨front, middle, middle', back, rfl, rfl, hlength, hshort, hdiffer⟩ := h.split
  intro hsame
  rw [feed_append, feed_append, feed_append, feed_append] at hsame
  have hmiddle : feed poly (feed poly s front) middle = feed poly (feed poly s front) middle' :=
    feed_injective hpoly back hsame
  generalize feed poly s front = t at hmiddle
  rw [feed_eq_steps poly hshort, feed_eq_steps poly (hlength ▸ hshort), ← hlength] at hmiddle
  have hword := (BitVec.xor_right_inj _).mp (steps_injective hpoly _ hmiddle)
  exact hdiffer (word_injective hlength hshort hword)

end

section
variable (poly : BitVec w)

def stepTop (s : BitVec w) (b : Bool) : BitVec w :=
  if s.msb ^^ b then (s <<< 1) ^^^ poly else s <<< 1

def feedTop (s : BitVec w) (bits : List Bool) : BitVec w := bits.foldl (stepTop poly) s

theorem reverse_stepTop (s : BitVec w) (b : Bool) :
    (stepTop poly s b).reverse = step poly.reverse (s.reverse ^^^ bit w b) := by
  apply BitVec.eq_of_getLsbD_eq
  intro i hi
  have hlow : (s.reverse ^^^ bit w b).getLsbD 0 = (s.msb ^^ b) := by
    rw [BitVec.getLsbD_xor, BitVec.getLsbD_reverse, getLsbD_bit,
      decide_eq_true (Nat.zero_lt_of_lt hi), decide_eq_true rfl, Bool.true_and, Bool.true_and,
      BitVec.msb]
  have hshift : ((s.reverse ^^^ bit w b) >>> 1).getLsbD i = (s <<< 1).getMsbD i := by
    have hbit : decide (1 + i = 0) = false := decide_eq_false (by omega)
    rw [BitVec.getLsbD_ushiftRight, BitVec.getLsbD_xor, BitVec.getLsbD_reverse, getLsbD_bit,
      BitVec.getMsbD_shiftLeft, hbit, Bool.and_false, Bool.false_and, Bool.xor_false, Nat.add_comm]
  rw [BitVec.getLsbD_reverse, stepTop, step, hlow]
  cases s.msb ^^ b with
  | true =>
    rw [if_pos rfl, if_pos rfl, BitVec.getMsbD_xor, BitVec.getLsbD_xor, hshift,
      BitVec.getLsbD_reverse]
  | false => rw [if_neg Bool.false_ne_true, if_neg Bool.false_ne_true, hshift]

theorem reverse_feedTop (s : BitVec w) (bits : List Bool) :
    (feedTop poly s bits).reverse = feed poly.reverse s.reverse bits := by
  induction bits generalizing s with
  | nil => rfl
  | cons b bits ih =>
    have hstep := reverse_stepTop poly s b
    calc (feedTop poly s (b :: bits)).reverse
        = (feedTop poly (stepTop poly s b) bits).reverse := rfl
      _ = feed poly.reverse (stepTop poly s b).reverse bits := ih _
      _ = feed poly.reverse s.reverse (b :: bits) := by rw [hstep]; rfl

end

end Crc
