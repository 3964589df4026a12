import Mathlib.Data.Int.Notation
import Mathlib.Data.List.TakeWhile
import Mathlib.Data.Nat.Notation

/-!
# Strings of C

A string as the bytes in front of its terminator, and what `strncpy`, `strcmp` and `atoi` make of
memory that was not cleared. A copy fills the first bytes of an array, and what the memory held
before stays behind them. A read that leaves the memory it is given has no result.
-/

namespace Strings

structure CText where
  bytes : List UInt8
  noNul : 0 ∉ bytes
  deriving DecidableEq

def cString (bytes : List UInt8) : CText :=
  ⟨bytes.takeWhile (· ≠ 0), fun h => by simpa using List.mem_takeWhile_imp h⟩

/-- The bytes in front of the first zero byte. Without one, the read leaves the memory. -/
def readString (memory : List UInt8) : Option (List UInt8) :=
  if 0 ∈ memory then some (memory.takeWhile (· ≠ 0)) else none

def store (bytes prior : List UInt8) : List UInt8 := bytes ++ prior.drop bytes.length

def strncpy : List UInt8 → ℕ → Option (List UInt8)
  | _, 0 => some []
  | [], _ + 1 => none
  | b :: memory, count + 1 =>
    if b = 0 then some (List.replicate (count + 1) 0) else (strncpy memory count).map (b :: ·)

/-- Whether `strcmp` returns 0. -/
def strcmp : List UInt8 → List UInt8 → Option Bool
  | a :: s, b :: t => if a ≠ b then some false else if a = 0 then some true else strcmp s t
  | _, _ => none

def isspace (c : Char) : Bool := c = ' ' ∨ '\t' ≤ c ∧ c ≤ '\r'

/-- White space, an optional sign, and the digits up to the first other character. -/
def atoi (text : String) : ℤ :=
  let digits (cs : List Char) : ℤ :=
    (cs.takeWhile Char.isDigit).foldl (fun n c => 10 * n + (c.toNat - 48 : ℕ)) 0
  match text.toList.dropWhile isspace with
  | '-' :: cs => - digits cs
  | '+' :: cs => digits cs
  | cs => digits cs

theorem cString_bytes (text : CText) : cString text.bytes = text := by
  have hbytes : text.bytes.takeWhile (· ≠ 0) = text.bytes := by
    rw [List.takeWhile_eq_self_iff]
    intro b hb
    rw [decide_eq_true_eq]
    rintro rfl
    exact text.noNul hb
  simp only [cString, hbytes]

theorem forall_byte {P : UInt8 → Prop} {bound : ℕ} (h : ∀ n < bound, P (UInt8.ofNat n)) (c : UInt8)
    (hc : c.toNat < bound) : P c := by
  have hbyte := h c.toNat hc
  rwa [UInt8.ofNat_toNat] at hbyte

section
variable {text : List UInt8} {count : ℕ}

theorem readString_append_iff (hnul : 0 ∉ text) (behind : List UInt8) :
    readString (text ++ behind) = some text ↔ behind.head? = some 0 := by
  have htext : ∀ b ∈ text, decide (b ≠ 0) = true := by
    intro b hb
    exact decide_eq_true fun hzero => hnul (hzero ▸ hb)
  rw [readString, List.takeWhile_append_of_pos htext]
  cases behind with
  | nil =>
    rw [List.append_nil, if_neg hnul]
    simp
  | cons b behind =>
    rw [List.head?_cons, Option.some.injEq]
    by_cases hb : b = 0
    · rw [hb, if_pos (List.mem_append_right _ List.mem_cons_self), List.takeWhile_cons,
        if_neg (by decide), List.append_nil]
      exact iff_of_true rfl rfl
    · refine iff_of_false (fun h => ?_) hb
      obtain ⟨-, h⟩ := Option.ite_none_right_eq_some.mp h
      rw [List.takeWhile_cons, if_pos (decide_eq_true hb)] at h
      simp at h

theorem ne_zero_of_cons {b : UInt8} (h : 0 ∉ b :: text) : b ≠ 0 := by
  intro hb
  exact h (hb ▸ List.mem_cons_self ..)

theorem noNul_of_cons {b : UInt8} (h : 0 ∉ b :: text) : 0 ∉ text :=
  fun hin => h (List.mem_cons_of_mem b hin)

theorem strncpy_short (hnul : 0 ∉ text) (h : text.length < count) (behind : List UInt8) :
    strncpy (text ++ 0 :: behind) count =
      some (text ++ List.replicate (count - text.length) 0) := by
  induction text generalizing count with
  | nil =>
    obtain ⟨n, rfl⟩ := Nat.exists_eq_succ_of_ne_zero (Nat.ne_of_gt h)
    rfl
  | cons b text ih =>
    obtain ⟨n, rfl⟩ := Nat.exists_eq_succ_of_ne_zero (Nat.ne_of_gt (Nat.zero_lt_of_lt h))
    have hrest := ih (noNul_of_cons hnul) (Nat.lt_of_succ_lt_succ h)
    rw [List.cons_append, strncpy, if_neg (ne_zero_of_cons hnul), hrest, List.length_cons,
      Nat.succ_sub_succ]
    rfl

theorem strncpy_long (hnul : 0 ∉ text) (behind : List UInt8) :
    strncpy (text ++ behind) text.length = some text := by
  induction text with
  | nil =>
    cases behind with
    | nil => rfl
    | cons b behind => rfl
  | cons b text ih =>
    rw [List.cons_append, List.length_cons, strncpy, if_neg (ne_zero_of_cons hnul),
      ih (noNul_of_cons hnul)]
    rfl

theorem strncpy_store (hnul : 0 ∉ text) (h : text.length < count)
    (behind prior behind' : List UInt8) :
    ∃ copy rest, strncpy (text ++ 0 :: behind) count = some copy ∧
      store copy prior ++ behind' = text ++ 0 :: rest := by
  have hcopy := strncpy_short hnul h behind
  obtain ⟨n, rfl⟩ := Nat.exists_eq_add_of_lt h
  rw [Nat.add_assoc, Nat.add_sub_cancel_left, List.replicate_succ] at hcopy
  have hstore : ∀ zeros, store (text ++ 0 :: zeros) prior ++ behind' = text ++ 0 ::
      (zeros ++ (prior.drop (text ++ 0 :: zeros).length ++ behind')) := by
    intro zeros
    rw [store, List.append_assoc, List.append_assoc, List.cons_append]
  rw [Nat.add_assoc]
  exact ⟨_, _, hcopy, hstore _⟩

theorem strcmp_ended {s t : List UInt8} (hs : 0 ∉ s) (ht : 0 ∉ t) (x y : List UInt8) :
    strcmp (s ++ 0 :: x) (t ++ 0 :: y) = some (decide (s = t)) := by
  induction s generalizing t with
  | nil =>
    cases t with
    | nil => rfl
    | cons b t =>
      have hb := (ne_zero_of_cons ht).symm
      rw [List.nil_append, List.cons_append, strcmp, if_pos hb]
      rfl
  | cons a s ih =>
    have ha := ne_zero_of_cons hs
    cases t with
    | nil =>
      rw [List.nil_append, List.cons_append, strcmp, if_pos ha]
      rfl
    | cons b t =>
      rw [List.cons_append, List.cons_append, strcmp]
      by_cases hab : a = b
      · have hrest := ih (noNul_of_cons hs) (noNul_of_cons ht)
        rw [if_neg (not_not.mpr hab), if_neg ha, hrest, hab]
        simp only [List.cons.injEq, true_and]
      · rw [if_pos hab]
        simp only [List.cons.injEq, hab, false_and, decide_false]

theorem strcmp_longer {s t : List UInt8} (hs : 0 ∉ s) (ht : 0 ∉ t) (h : s.length < t.length)
    (x y : List UInt8) : strcmp (s ++ 0 :: x) (t ++ y) = some false := by
  induction s generalizing t with
  | nil =>
    cases t with
    | nil => exact absurd h (Nat.lt_irrefl 0)
    | cons b t =>
      have hb := (ne_zero_of_cons ht).symm
      rw [List.nil_append, List.cons_append, strcmp, if_pos hb]
  | cons a s ih =>
    cases t with
    | nil => exact absurd h (Nat.not_lt_zero _)
    | cons b t =>
      rw [List.cons_append, List.cons_append, strcmp]
      by_cases hab : a = b
      · rw [if_neg (not_not.mpr hab), if_neg (ne_zero_of_cons hs)]
        exact ih (noNul_of_cons hs) (noNul_of_cons ht) (Nat.lt_of_succ_lt_succ h)
      · rw [if_pos hab]

theorem readString_ended (hnul : 0 ∉ text) (behind : List UInt8) :
    readString (text ++ 0 :: behind) = some text := (readString_append_iff hnul _).mpr rfl

theorem readString_cons (b : UInt8) (memory : List UInt8) :
    readString (b :: memory) = if b = 0 then some [] else (readString memory).map (b :: ·) := by
  by_cases hb : b = 0
  · rw [if_pos hb, hb]
    exact readString_ended List.not_mem_nil memory
  · have hmem : 0 ∈ b :: memory ↔ 0 ∈ memory := by
      rw [List.mem_cons]
      exact or_iff_right fun hzero => hb hzero.symm
    rw [if_neg hb, readString, readString, List.takeWhile_cons, if_pos (decide_eq_true hb)]
    by_cases hin : 0 ∈ memory
    · rw [if_pos hin, if_pos (hmem.mpr hin)]
      rfl
    · rw [if_neg hin, if_neg (mt hmem.mp hin)]
      rfl

theorem strcmp_eq_true_iff {constant : List UInt8} (hnul : 0 ∉ constant) (memory y : List UInt8) :
    strcmp memory (constant ++ 0 :: y) = some true ↔ readString memory = some constant := by
  induction constant generalizing memory with
  | nil =>
    cases memory with
    | nil => exact iff_of_false nofun nofun
    | cons a memory =>
      rw [List.nil_append, strcmp, readString_cons]
      by_cases ha : a = 0
      · simp [ha]
      · simp [ha]
  | cons b constant ih =>
    have hb := ne_zero_of_cons hnul
    cases memory with
    | nil => exact iff_of_false nofun nofun
    | cons a memory =>
      have hrest := ih (noNul_of_cons hnul) memory
      rw [List.cons_append, strcmp, readString_cons]
      by_cases hab : a = b
      · rw [if_neg (not_not.mpr hab), hab, if_neg hb, if_neg hb, hrest]
        simp
      · rw [if_pos hab]
        by_cases ha : a = 0
        · simp [ha]
        · simp [ha, hab]

end

end Strings
