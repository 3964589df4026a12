import Mathlib.Data.Nat.Notation
import Mathlib.Tactic.Linarith
import Mathlib.Tactic.Ring

/-!
# Double precision

The magnitude of a finite double is a whole number of units of 2^-1074. A fraction of units is
rounded to the nearest double; from 2^1024 on it is none.
-/

namespace Binary64

def roundHalfEven (n d : ℕ) : ℕ :=
  if 2 * (n % d) < d ∨ 2 * (n % d) = d ∧ n / d % 2 = 0 then n / d else n / d + 1

def spacing (units : ℕ) : ℕ := 2 ^ (Nat.log2 units - 52)

def nearest (n d : ℕ) : ℕ := spacing (n / d) * roundHalfEven n (d * spacing (n / d))

def one : ℕ := 2 ^ 1074

def overflow : ℕ := 2 ^ 1024 * one

/-- A magnitude with at most 53 significant bits. -/
def Representable (units : ℕ) : Prop := ∃ m j, m < 2 ^ 53 ∧ units = m * 2 ^ j

section
variable {n d r : ℕ}

theorem le_roundHalfEven (hd : 0 < d) (h : r * d ≤ n) : r ≤ roundHalfEven n d := by
  have hle : r ≤ n / d := (Nat.le_div_iff_mul_le hd).mpr h
  unfold roundHalfEven
  split_ifs
  · exact hle
  · exact Nat.le_succ_of_le hle

theorem roundHalfEven_mul_le (n d : ℕ) : 2 * (roundHalfEven n d * d) ≤ 2 * n + d := by
  have hdiv := Nat.div_add_mod' n d
  unfold roundHalfEven
  split_ifs with hdown
  · omega
  · have hup : d ≤ 2 * (n % d) := by omega
    rw [Nat.add_mul]
    omega

theorem le_roundHalfEven_mul (hd : 0 < d) : 2 * n ≤ 2 * (roundHalfEven n d * d) + d := by
  have hdiv := Nat.div_add_mod' n d
  have hmod := Nat.mod_lt n hd
  unfold roundHalfEven
  split_ifs with hdown
  · omega
  · rw [Nat.add_mul]
    omega

theorem roundHalfEven_eq (h : 2 * (r * d) < 2 * n + d) (h' : 2 * n < 2 * (r * d) + d) :
    roundHalfEven n d = r := by
  have hd : 0 < d := by
    rcases Nat.eq_zero_or_pos d with rfl | hd
    · omega
    · exact hd
  have hupper := roundHalfEven_mul_le n d
  have hlower := le_roundHalfEven_mul (n := n) hd
  rcases Nat.lt_trichotomy (roundHalfEven n d) r with hlt | heq | hgt
  · have hmul := Nat.mul_le_mul_right d (Nat.succ_le_of_lt hlt)
    rw [Nat.succ_mul] at hmul
    omega
  · exact heq
  · have hmul := Nat.mul_le_mul_right d (Nat.succ_le_of_lt hgt)
    rw [Nat.succ_mul] at hmul
    omega

theorem spacing_pos (units : ℕ) : 0 < spacing units := Nat.two_pow_pos _

theorem two_pow_mul_spacing_le (h : 52 < Nat.log2 r) : 2 ^ 52 * spacing r ≤ r := by
  have hne : r ≠ 0 := by
    rintro rfl
    rw [Nat.log2_zero] at h
    omega
  rw [spacing, ← Nat.pow_add, Nat.add_sub_cancel' (Nat.le_of_lt h)]
  exact Nat.log2_self_le hne

theorem spacing_le (r : ℕ) : spacing r = 1 ∨ 2 ^ 52 * spacing r ≤ r := by
  rcases Nat.lt_or_ge 52 (Nat.log2 r) with hlarge | hsmall
  · exact Or.inr (two_pow_mul_spacing_le hlarge)
  · rw [spacing, Nat.sub_eq_zero_of_le hsmall]
    exact Or.inl (Nat.pow_zero 2)

theorem le_nearest_of_dvd (hd : 0 < d) (hdvd : spacing (n / d) ∣ r) (h : r * d ≤ n) :
    r ≤ nearest n d := by
  obtain ⟨q, rfl⟩ := hdvd
  refine Nat.mul_le_mul_left _ (le_roundHalfEven (Nat.mul_pos hd (spacing_pos _)) ?_)
  calc q * (d * spacing (n / d)) = spacing (n / d) * q * d := by ring
    _ ≤ n := h

theorem le_nearest (hd : 0 < d) (hr : Representable r) (h : r * d ≤ n) : r ≤ nearest n d := by
  obtain ⟨m, j, hm, rfl⟩ := hr
  rcases Nat.lt_or_ge j (Nat.log2 (n / d) - 52) with hcoarse | hfine
  · -- the double is below the least magnitude of this distance
    have hleast := two_pow_mul_spacing_le (r := n / d) (by omega)
    refine Nat.le_trans ?_ (le_nearest_of_dvd hd (Nat.dvd_mul_left _ _)
      ((Nat.le_div_iff_mul_le hd).mp hleast))
    have hpow : 2 ^ j * 2 ≤ spacing (n / d) := by
      rw [← Nat.pow_succ]
      exact Nat.pow_le_pow_right (by decide) hcoarse
    calc m * 2 ^ j ≤ 2 ^ 53 * 2 ^ j := Nat.mul_le_mul_right _ (Nat.le_of_lt hm)
      _ = 2 ^ 52 * (2 ^ j * 2) := by ring
      _ ≤ 2 ^ 52 * spacing (n / d) := Nat.mul_le_mul_left _ hpow
  · exact le_nearest_of_dvd hd (Dvd.dvd.mul_left (Nat.pow_dvd_pow 2 hfine) m) h

theorem roundHalfEven_multiple (hd : 0 < d) (q : ℕ) : roundHalfEven (q * d) d = q :=
  roundHalfEven_eq (by omega) (by omega)

theorem nearest_self (hr : Representable r) : nearest r 1 = r := by
  obtain ⟨m, j, hm, rfl⟩ := hr
  have hlog : Nat.log2 (m * 2 ^ j) - 52 ≤ j := by
    rcases Nat.eq_zero_or_pos m with rfl | hpos
    · rw [Nat.zero_mul, Nat.log2_zero]
      exact Nat.zero_le j
    · have hlt : Nat.log2 (m * 2 ^ j) < 53 + j := by
        rw [Nat.log2_lt (Nat.mul_ne_zero hpos.ne' (Nat.two_pow_pos j).ne'), Nat.pow_add]
        exact Nat.mul_lt_mul_of_pos_right hm (Nat.two_pow_pos j)
      omega
  obtain ⟨q, hq⟩ : spacing (m * 2 ^ j) ∣ m * 2 ^ j :=
    Dvd.dvd.mul_left (Nat.pow_dvd_pow 2 hlog) m
  rw [nearest, Nat.div_one, Nat.one_mul, Nat.mul_comm (spacing _)]
  nth_rewrite 1 [hq]
  rw [Nat.mul_comm (spacing _) q, roundHalfEven_multiple (spacing_pos _), Nat.mul_comm]
  exact hq.symm

theorem nearest_mul_le (n d : ℕ) : 2 * (nearest n d * d) ≤ 2 * n + d * spacing (n / d) := by
  have hround := roundHalfEven_mul_le n (d * spacing (n / d))
  calc 2 * (nearest n d * d) =
      2 * (roundHalfEven n (d * spacing (n / d)) * (d * spacing (n / d))) := by
        rw [nearest]
        ring
    _ ≤ 2 * n + d * spacing (n / d) := hround

theorem le_nearest_mul (hd : 0 < d) : 2 * n ≤ 2 * (nearest n d * d) + d * spacing (n / d) := by
  have hround := le_roundHalfEven_mul (n := n) (Nat.mul_pos hd (spacing_pos (n / d)))
  calc 2 * n ≤ 2 * (roundHalfEven n (d * spacing (n / d)) * (d * spacing (n / d))) +
      d * spacing (n / d) := hround
    _ = 2 * (nearest n d * d) + d * spacing (n / d) := by
        rw [nearest]
        ring

end

end Binary64
