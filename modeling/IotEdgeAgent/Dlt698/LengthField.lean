import IotEdgeAgent.Dlt698.DataLen

/-!
# All forms of a length field

A length stands in one byte below 128, or behind a byte that counts up to four bytes with the
high byte first. `dwDlt698Len` joins the low bytes of the two long forms with `&` instead of `|`.
It reads the length of such a field right, and its value as 0.
-/

namespace IotEdgeAgent.Dlt698.LengthField
open DataLen

def bigEndian : ℕ → ℕ → List UInt8
  | 0, _ => []
  | k + 1, value => UInt8.ofNat (value / 256 ^ k) :: bigEndian k value

inductive Form
  | short | one | two | three | four
  deriving DecidableEq, Repr

def Form.following : Form → ℕ
  | .short => 0
  | .one => 1
  | .two => 2
  | .three => 3
  | .four => 4

def Form.capacity (form : Form) : ℕ := if form = .short then 128 else 256 ^ form.following

def Form.encode (form : Form) (value : ℕ) : List UInt8 :=
  if form = .short then [UInt8.ofNat value]
  else UInt8.ofNat (0x80 + form.following) :: bigEndian form.following value

theorem bigEndian_length (k value : ℕ) : (bigEndian k value).length = k := by
  induction k with
  | zero => rfl
  | succ k ih => rw [bigEndian, List.length_cons, ih]

theorem Form.encode_length (form : Form) (value : ℕ) :
    (form.encode value).length = form.following + 1 := by
  rw [encode]
  split_ifs with h
  · rw [h]
    rfl
  · rw [List.length_cons, bigEndian_length]

theorem toNat_ofNat_of_lt {n : ℕ} (h : n < 256) : (UInt8.ofNat n).toNat = n := by
  rw [UInt8.toNat_ofNat', Nat.mod_eq_of_lt h]

theorem two_bytes {value : ℕ} (h : value < 65536) :
    (UInt8.ofNat (value / 256)).toNat <<< 8 ||| (UInt8.ofNat value).toNat = value := by
  have hlow : (UInt8.ofNat value).toNat = value % 256 := UInt8.toNat_ofNat'
  have hlt : value % 256 < 2 ^ 8 := Nat.mod_lt _ (by omega)
  rw [toNat_ofNat_of_lt (by omega), hlow, ← Nat.shiftLeft_add_eq_or_of_lt hlt, Nat.shiftLeft_eq]
  omega

theorem and_eq_zero_of_lt {a b n : ℕ} (ha : a % 2 ^ n = 0) (hb : b < 2 ^ n) : a &&& b = 0 := by
  apply Nat.eq_of_testBit_eq
  intro i
  rw [Nat.testBit_and, Nat.zero_testBit]
  by_cases hi : i < n
  · have hlow : a.testBit i = (a % 2 ^ n).testBit i := by
      rw [Nat.testBit_mod_two_pow, decide_eq_true hi, Bool.true_and]
    rw [hlow, ha, Nat.zero_testBit, Bool.false_and]
  · have hsmall : b < 2 ^ i := Nat.lt_of_lt_of_le hb (Nat.pow_le_pow_right (by omega) (by omega))
    rw [Nat.testBit_lt_two_pow hsmall, Bool.and_false]

theorem or_shiftLeft_mod {a b n m : ℕ} (h : n ≤ m) : (a <<< m ||| b <<< n) % 2 ^ n = 0 := by
  rw [Nat.or_mod_two_pow, Nat.shiftLeft_eq, Nat.shiftLeft_eq]
  have hm : 2 ^ m = 2 ^ n * 2 ^ (m - n) := by
    rw [← Nat.pow_add, Nat.add_sub_cancel' h]
  have ha : a * 2 ^ m % 2 ^ n = 0 := by
    rw [hm, Nat.mul_left_comm]
    exact Nat.mul_mod_right _ _
  rw [ha, Nat.mul_mod_left, Nat.or_zero]

section
variable (rest : List UInt8) (b1 b2 b3 b4 : UInt8)

theorem dwDlt698Len_one : dwDlt698Len (0x81 :: b1 :: rest) = .ok (b1.toNat, 2) := by
  simp [dwDlt698Len, byteAt, bind, Except.bind, pure, Except.pure]

theorem dwDlt698Len_two : dwDlt698Len (0x82 :: b1 :: b2 :: rest) =
    .ok (b1.toNat <<< 8 ||| b2.toNat, 3) := by
  simp [dwDlt698Len, byteAt, bind, Except.bind, pure, Except.pure]

theorem dwDlt698Len_three : dwDlt698Len (0x83 :: b1 :: b2 :: b3 :: rest) = .ok (0, 4) := by
  have hlost : (b1.toNat <<< 16 ||| b2.toNat <<< 8) &&& b3.toNat = 0 := by
    apply and_eq_zero_of_lt _ b3.toNat_lt
    exact or_shiftLeft_mod (by omega)
  simp [dwDlt698Len, byteAt, hlost, bind, Except.bind, pure, Except.pure]

theorem dwDlt698Len_four : dwDlt698Len (0x84 :: b1 :: b2 :: b3 :: b4 :: rest) = .ok (0, 5) := by
  have hlost : (b1.toNat <<< 24 ||| b2.toNat <<< 16) &&& b3.toNat <<< 8 = 0 := by
    have hb := b3.toNat_lt
    apply and_eq_zero_of_lt (or_shiftLeft_mod (n := 16) (by omega))
    rw [Nat.shiftLeft_eq]
    omega
  simp [dwDlt698Len, byteAt, hlost, bind, Except.bind, pure, Except.pure]

theorem dwDlt698Len_refuses {b : UInt8} (hlong : 128 ≤ b.toNat)
    (hother : ∀ k, 1 ≤ k → k ≤ 4 → b.toNat ≠ 0x80 + k) :
    dwDlt698Len (b :: rest) = .error .reject := by
  have hb := b.toNat_lt
  have hbits : ∀ n < 128, (128 + n) &&& 0x80 ≠ 0 := by decide
  have hhigh := hbits (b.toNat - 128) (by omega)
  rw [Nat.add_sub_cancel' hlong] at hhigh
  have hlow : b.toNat &&& 0x7F = b.toNat - 128 := by
    rw [Nat.and_two_pow_sub_one_eq_mod b.toNat 7]
    omega
  have hne : ∀ k, 1 ≤ k → k ≤ 4 → b.toNat - 128 ≠ k := by
    intro k hk hk4 hsame
    have := hother k hk hk4
    omega
  have h1 := hne 1 (by omega) (by omega)
  have h2 := hne 2 (by omega) (by omega)
  have h3 := hne 3 (by omega) (by omega)
  have h4 := hne 4 (by omega) (by omega)
  simp [dwDlt698Len, byteAt, hhigh, hlow, h1, h2, h3, h4, bind, Except.bind, throw, throwThe,
    MonadExceptOf.throw]

end

theorem dwDlt698Len_encode (form : Form) {value : ℕ} (h : value < form.capacity)
    (rest : List UInt8) : dwDlt698Len (form.encode value ++ rest) =
      .ok (if form.following ≤ 2 then value else 0, (form.encode value).length) := by
  rw [Form.encode_length]
  cases form with
  | short =>
    have hv : value < 128 := h
    have hbyte := toNat_ofNat_of_lt (n := value) (by omega)
    have hshort := dwDlt698Len_short (b := UInt8.ofNat value) (by omega) rest
    rw [hbyte] at hshort
    exact hshort
  | one =>
    have hv : value < 256 := h
    have hone := dwDlt698Len_one rest (UInt8.ofNat (value / 1))
    rw [Nat.div_one, toNat_ofNat_of_lt hv] at hone
    have hencode : Form.one.encode value ++ rest = 0x81 :: UInt8.ofNat (value / 1) :: rest := rfl
    rw [hencode, Nat.div_one]
    exact hone
  | two =>
    have hv : value < 65536 := h
    have htwo := dwDlt698Len_two rest (UInt8.ofNat (value / 256)) (UInt8.ofNat value)
    rw [two_bytes hv] at htwo
    have hencode : Form.two.encode value ++ rest =
        0x82 :: UInt8.ofNat (value / 256) :: UInt8.ofNat (value / 1) :: rest := rfl
    rw [hencode, Nat.div_one]
    exact htwo
  | three => exact dwDlt698Len_three rest _ _ _
  | four => exact dwDlt698Len_four rest _ _ _ _

/-- The value of a field is returned unless it is positive and takes three or four bytes. -/
theorem dwDlt698Len_encode_iff (rest : List UInt8) :
    (∀ (form : Form) (value : ℕ), value < 2 ^ 31 → value < form.capacity →
      (dwDlt698Len (form.encode value ++ rest) = .ok (value, (form.encode value).length) ↔
        form.following ≤ 2 ∨ value = 0)) ∧
    ∀ b : UInt8, 128 ≤ b.toNat → (∀ k, 1 ≤ k → k ≤ 4 → b.toNat ≠ 0x80 + k) →
      dwDlt698Len (b :: rest) = .error .reject := by
  refine ⟨fun form value _ hfits => ?_, fun b => dwDlt698Len_refuses rest⟩
  rw [dwDlt698Len_encode form hfits]
  split_ifs with hform
  · exact ⟨fun _ => .inl hform, fun _ => rfl⟩
  · constructor
    · intro h
      exact .inr (Prod.mk.inj (Except.ok.inj h)).1.symm
    · rintro (h | rfl)
      · exact absurd h hform
      · rfl

theorem dwDlt698Len_encode_iff_three :
    dwDlt698Len ([0x83, 0, 0, 0] ++ [7]) = .ok (0, 4) ∧
    dwDlt698Len [0x85, 1] = .error .reject := by
  constructor
  · exact ((dwDlt698Len_encode_iff [7]).1 .three 0 (by decide) (by decide)).mpr (.inr rfl)
  · apply (dwDlt698Len_encode_iff [1]).2 0x85 (by decide)
    intro k _ hk
    have hbyte : (0x85 : UInt8).toNat = 133 := rfl
    omega

/-- 65536 in three bytes. -/
theorem dwDlt698Len_loses_three_bytes :
    Form.three.encode 65536 = [0x83, 1, 0, 0] ∧ 65536 < Form.three.capacity ∧
    dwDlt698Len (Form.three.encode 65536 ++ []) ≠
      .ok (65536, (Form.three.encode 65536).length) := by
  decide

end IotEdgeAgent.Dlt698.LengthField
