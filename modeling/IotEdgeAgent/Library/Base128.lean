import Mathlib.Algebra.Order.Ring.Nat
import Mathlib.Data.Nat.Notation
import Mathlib.Tactic.Ring

/-!
# Lengths in base 128

A number as bytes of seven bits each, the lowest first; every byte but the last one has its top
bit set.
-/

namespace Base128

/-- There is room for so many bytes. -/
def encode : ℕ → ℕ → Option (List UInt8)
  | 0, _ => none
  | room + 1, n =>
    if n / 128 = 0 then some [UInt8.ofNat (n % 128)]
    else (encode room (n / 128)).map ((UInt8.ofNat (n % 128) ||| 0x80) :: ·)

def value : List UInt8 → ℕ
  | [] => 0
  | b :: bs => (b &&& 127).toNat + 128 * value bs

def Delimited (bytes : List UInt8) : Prop :=
  ∃ continued last, bytes = continued ++ [last] ∧ (∀ b ∈ continued, 0x7f < b) ∧ last ≤ 0x7f

variable {room n : ℕ} {bytes : List UInt8}

theorem toNat_low (n : ℕ) : (UInt8.ofNat (n % 128)).toNat = n % 128 := by
  rw [UInt8.toNat_ofNat']
  omega

theorem continued_low (b : UInt8) : ((b ||| 0x80) &&& 127).toNat = b.toNat % 128 := by
  rw [UInt8.toNat_and, UInt8.toNat_or]
  have hmask : (127 : UInt8).toNat = 2 ^ 7 - 1 := rfl
  have hbit : (0x80 : UInt8).toNat % 2 ^ 7 = 0 := rfl
  rw [hmask, Nat.and_two_pow_sub_one_eq_mod, Nat.or_mod_two_pow, hbit, Nat.or_zero]

theorem last_low (b : UInt8) : (b &&& 127).toNat = b.toNat % 128 := by
  rw [UInt8.toNat_and]
  exact Nat.and_two_pow_sub_one_eq_mod _ 7

theorem lt_continued (b : UInt8) : 0x7f < b ||| 0x80 := by
  rw [UInt8.lt_iff_toNat_lt, UInt8.toNat_or]
  have hbit : (0x80 : UInt8).toNat ≤ b.toNat ||| (0x80 : UInt8).toNat := Nat.right_le_or
  exact Nat.lt_of_lt_of_le (by decide) hbit

theorem topBit_eq_zero (b : UInt8) : b &&& 0x80 = 0 ↔ b ≤ 0x7f := by
  have hbyte : ∀ n < 256, (n &&& 128 = 0 ↔ n ≤ 127) := by decide +kernel
  rw [UInt8.le_iff_toNat_le, ← UInt8.toNat_inj, UInt8.toNat_and]
  exact hbyte b.toNat b.toNat_lt

theorem delimited_cons {b : UInt8} :
    Delimited (b :: bytes) ↔ bytes = [] ∧ b ≤ 0x7f ∨ 0x7f < b ∧ Delimited bytes := by
  constructor
  · rintro ⟨_ | ⟨c, continued⟩, last, h, hcontinued, hlast⟩
    · cases h
      exact .inl ⟨rfl, hlast⟩
    · cases h
      exact .inr ⟨hcontinued b List.mem_cons_self, continued, last, rfl,
        fun c hc => hcontinued c (List.mem_cons_of_mem _ hc), hlast⟩
  · rintro (⟨rfl, hlast⟩ | ⟨hb, continued, last, rfl, hcontinued, hlast⟩)
    · exact ⟨[], b, rfl, nofun, hlast⟩
    · refine ⟨b :: continued, last, rfl, ?_, hlast⟩
      rintro c (_ | ⟨_, hc⟩)
      · exact hb
      · exact hcontinued c hc

theorem not_delimited_nil : ¬ Delimited [] := by
  rintro ⟨_, _, h, -⟩
  exact List.append_ne_nil_of_right_ne_nil _ (List.cons_ne_nil _ _) h.symm

theorem encode_isSome : (encode room n).isSome ↔ n < 128 ^ room ∧ 0 < room := by
  induction room generalizing n with
  | zero => simp [encode]
  | succ room ih =>
    rw [encode]
    split
    · have hpos : 128 ≤ 128 ^ (room + 1) := Nat.le_self_pow (Nat.succ_ne_zero _) _
      simp
      omega
    · rw [Option.isSome_map, ih, Nat.div_lt_iff_lt_mul (by decide), ← pow_succ]
      constructor
      · exact fun h => ⟨h.1, Nat.succ_pos room⟩
      · intro h
        refine ⟨h.1, Nat.pos_of_ne_zero ?_⟩
        rintro rfl
        omega

theorem value_encode (h : encode room n = some bytes) : value bytes = n := by
  induction room generalizing n bytes with
  | zero => cases h
  | succ room ih =>
    rw [encode] at h
    split at h
    · cases h
      rw [value, value, last_low, toNat_low]
      omega
    · obtain ⟨rest, hrest, rfl⟩ := Option.map_eq_some_iff.mp h
      rw [value, continued_low, toNat_low, ih hrest]
      omega

theorem delimited_encode (h : encode room n = some bytes) : Delimited bytes := by
  induction room generalizing n bytes with
  | zero => cases h
  | succ room ih =>
    rw [encode] at h
    split at h
    · cases h
      refine delimited_cons.mpr (.inl ⟨rfl, ?_⟩)
      rw [UInt8.le_iff_toNat_le, toNat_low]
      exact Nat.le_of_lt_succ (Nat.mod_lt _ (by decide))
    · obtain ⟨rest, hrest, rfl⟩ := Option.map_eq_some_iff.mp h
      exact delimited_cons.mpr (.inr ⟨lt_continued _, ih hrest⟩)

theorem length_encode_le {k : ℕ} (h : encode room n = some bytes) :
    bytes.length ≤ k + 1 ↔ n < 128 ^ (k + 1) := by
  induction room generalizing n bytes k with
  | zero => cases h
  | succ room ih =>
    rw [encode] at h
    split at h
    · cases h
      have hpos : 128 ≤ 128 ^ (k + 1) := Nat.le_self_pow (Nat.succ_ne_zero _) _
      simp
      omega
    · obtain ⟨rest, hrest, rfl⟩ := Option.map_eq_some_iff.mp h
      cases k with
      | zero =>
        have hne : rest ≠ [] := by
          rintro rfl
          exact not_delimited_nil (delimited_encode hrest)
        have hpos := List.length_pos_iff.mpr hne
        rw [List.length_cons]
        omega
      | succ k =>
        rw [List.length_cons, Nat.succ_le_succ_iff, ih hrest,
          Nat.div_lt_iff_lt_mul (by decide), ← pow_succ]

end Base128
