import Mathlib.Data.Nat.Log
import IotEdgeAgent.Dlt698.Conversion

/-!
# Room for the text of a unit

`dlt698_response_parse` gives the conversion 32 bytes for the text of a unit. The text of a number
has its sign, the digits in front of the point, the point and two digits behind it. It is followed
by a comma or, behind the last element, by the terminator; a loop that stops at another type
leaves its last comma in front of the terminator.
-/

namespace IotEdgeAgent.Dlt698.TextRoom
open DataLen Response Payload Conversion Binary64

def integerDigits (units : ℕ) : ℕ := Nat.log 10 (hundredths units / 100) + 1

def signWidth (temp : ℤ) : ℕ := if temp < 0 then 1 else 0

/-- The characters of a number times a power of ten. -/
def textWidth (temp math : ℤ) : ℕ :=
  match timesPow10 temp math with
  | .finite units => signWidth temp + integerDigits units + 3
  | .infinite => signWidth temp + 3
  | .nan => 4

theorem toString_length (n : ℕ) : (toString n).length = Nat.log 10 n + 1 := by
  have hlength : (toString n).length = (Nat.toDigits 10 n).length := String.length_ofList
  rw [hlength]
  apply Nat.le_antisymm
  · rw [Nat.length_toDigits_le_iff (by decide) (Nat.succ_pos _)]
    exact Nat.lt_pow_succ_log_self (by decide) n
  · by_contra hless
    have hle : (Nat.toDigits 10 n).length ≤ Nat.log 10 n := Nat.le_of_lt_succ (Nat.lt_of_not_le hless)
    have hpos : 0 < Nat.log 10 n := Nat.lt_of_lt_of_le Nat.length_toDigits_pos hle
    have hlt := (Nat.length_toDigits_le_iff (by decide) hpos).mp hle
    have hne : n ≠ 0 := by
      rintro rfl
      cases hpos
    exact absurd (Nat.pow_log_le_self 10 hne) (Nat.not_le_of_lt hlt)

theorem toString_digit {n : ℕ} (h : n < 10) : (toString n).length = 1 := by
  rw [toString_length, Nat.log_of_lt h]

theorem minus_length (temp : ℤ) : (minus temp).length = signWidth temp := by
  unfold minus signWidth
  split_ifs <;> rfl

theorem printFixed_length (temp math : ℤ) : (printFixed temp math).length = textWidth temp math := by
  unfold printFixed textWidth
  cases timesPow10 temp math with
  | finite units =>
    have hten : (toString (hundredths units / 10 % 10)).length = 1 :=
      toString_digit (Nat.mod_lt _ (by decide))
    have hone : (toString (hundredths units % 10)).length = 1 :=
      toString_digit (Nat.mod_lt _ (by decide))
    have hpoint : ".".length = 1 := rfl
    simp only [String.length_append, minus_length, toString_length (hundredths units / 100),
      hten, hone, hpoint, integerDigits]
  | infinite =>
    simp only [String.length_append, minus_length]
    rfl
  | nan => exact (by decide : "-nan".length = 4)

section
variable (sprintf : ℤ → ℤ → String) (math : ℤ)

/-- The bytes for the numbers that are found in so many rounds. -/
def room (width : ℤ → ℕ) (rounds : ℕ) (numbers : List ℤ) : ℕ :=
  (numbers.map fun temp => width temp + 1).sum + if numbers.length < rounds then 1 else 0

variable (width : ℤ → ℕ)

theorem room_cons (rounds : ℕ) (temp : ℤ) (numbers : List ℤ) :
    room width (rounds + 1) (temp :: numbers) = width temp + 1 + room width rounds numbers := by
  simp only [room, List.map_cons, List.sum_cons, List.length_cons, Nat.add_lt_add_iff_right]
  omega

theorem room_nil (rounds : ℕ) : room width rounds [] = if 0 < rounds then 1 else 0 := by
  simp only [room, List.map_nil, List.sum_nil, List.length_nil, Nat.zero_add]

theorem room_pos (rounds : ℕ) {numbers : List ℤ} (h : numbers ≠ []) :
    1 ≤ room width rounds numbers := by
  obtain ⟨temp, others, rfl⟩ := List.exists_cons_of_ne_nil h
  simp only [room, List.map_cons, List.sum_cons]
  omega

theorem elementText_length (left : ℕ) (temp : ℤ) : (elementText sprintf math left temp).length =
    (sprintf temp math).length + if 0 < left then 1 else 0 := by
  rw [elementText]
  cases left with
  | zero => rfl
  | succ left =>
    rw [if_neg (Nat.succ_ne_zero left), String.length_append]
    rfl

theorem written_of_silent {act : Act} (h : act.temp? = none) : act.written = 0 := by
  cases act with
  | print temp index text => cases h
  | _ => rfl

variable (mem : List UInt8)

theorem convertElementsActs_written (n offset index size : ℕ) (res : String) :
    (∀ act ∈ (convertElementsActs sprintf math mem n offset index res).log, act.written ≤ size) ↔
      (temps mem n offset ≠ [] → index + room (fun temp => (sprintf temp math).length) n (temps mem n offset) ≤ size) := by
  induction n generalizing offset index res with
  | zero => exact ⟨fun _ h => absurd rfl h, fun _ act h => by cases h⟩
  | succ n ih =>
    cases hnumber : numberAt mem offset with
    | none =>
      rw [temps_of_none mem _ hnumber]
      refine ⟨fun _ h => absurd rfl h, fun _ act hact => ?_⟩
      rw [written_of_silent (convertElementsActs_silent sprintf math mem n index res hnumber
        act hact)]
      exact Nat.zero_le size
    | some temp =>
      rw [temps_of_number mem n hnumber, convertElementsActs_print sprintf math mem n index res
        hnumber, room_cons]
      simp only [List.forall_mem_cons, ih, ne_eq, reduceCtorEq, not_false_eq_true, forall_const]
      have htext := elementText_length sprintf math n temp
      have hwritten : (Act.print temp index (elementText sprintf math n temp)).written =
          index + (elementText sprintf math n temp).length + 1 := rfl
      have hreads : (Act.read offset 1).written ≤ size ∧ (Act.visit offset).written ≤ size ∧
          (Act.read (offset + 1) 4).written ≤ size :=
        ⟨Nat.zero_le _, Nat.zero_le _, Nat.zero_le _⟩
      rw [hwritten, htext]
      by_cases hrest : temps mem n (offset + 5) = []
      · rw [hrest, room_nil]
        constructor
        · rintro ⟨-, -, -, hlast, -⟩
          omega
        · intro hroom
          exact ⟨hreads.1, hreads.2.1, hreads.2.2, by omega, fun h => absurd rfl h⟩
      · have hpos := room_pos (fun temp => (sprintf temp math).length) n hrest
        have hleft : 0 < n := by
          have hle := temps_length_le mem n (offset + 5)
          have hlength := List.length_pos_of_ne_nil hrest
          omega
        rw [if_pos hleft]
        constructor
        · rintro ⟨-, -, -, -, hroom⟩
          have hroom := hroom hrest
          omega
        · intro hroom
          exact ⟨hreads.1, hreads.2.1, hreads.2.2, by omega, fun _ => by omega⟩

theorem convertActs_written (size : ℕ) (res : String) :
    (∀ act ∈ (convertActs sprintf math mem res).log, act.written ≤ size) ↔
      ∀ rounds, arrayRounds mem = some rounds → temps mem rounds 2 ≠ [] →
        room (fun temp => (sprintf temp math).length) rounds (temps mem rounds 2) ≤ size := by
  cases hrounds : arrayRounds mem with
  | none =>
    refine ⟨fun _ rounds h => ?_, fun _ act hact => ?_⟩
    · cases h
    · obtain ⟨offset, rfl⟩ := convertActs_reads sprintf math mem hrounds res act hact
      exact Nat.zero_le size
  | some rounds =>
    have hwritten := convertElementsActs_written sprintf math mem rounds 2 0 size res
    have hreads (offset : ℕ) : (Act.read offset 1).written ≤ size := Nat.zero_le size
    rw [Nat.zero_add] at hwritten
    rw [convertActs_array sprintf math mem hrounds]
    simp only [List.forall_mem_cons, hreads, true_and, hwritten]
    constructor
    · intro h rounds' hrounds' hne
      obtain rfl := Option.some.inj hrounds'
      exact h hne
    · intro h
      exact h rounds rfl

end

/-- The numbers of an array, each with its text and the byte behind it, take at most so many
bytes. -/
def NumbersFit (math : ℤ) (mem : List UInt8) (size : ℕ) : Prop :=
  ∀ rounds, arrayRounds mem = some rounds → temps mem rounds 2 ≠ [] →
    room (textWidth · math) rounds (temps mem rounds 2) ≤ size

/-- For a response that is accepted no unit's text takes more than the 32 bytes of `res`. -/
def TextInside (math : ℤ) (f : List UInt8) (a dwlen : ℕ) : Prop :=
  (dwAPduAnalyze f (some a) dwlen emptyStore).ret = some 1 →
    ∀ unit ∈ (dwAPduAnalyze f (some a) dwlen emptyStore).coll.stDataUnit, ∀ res,
      ∀ act ∈ (convertActs printFixed math (f.drop unit.ucPtr) res).log, act.written ≤ sizeofRes

def wholePart (temp math : ℤ) : ℕ :=
  temp.natAbs * 10 ^ math.toNat / 10 ^ (-math).toNat

theorem one_ge : 2 ^ 60 ≤ one := by
  rw [one, Nat.pow_le_pow_iff_right (by decide)]
  decide

theorem representable_pow10 {k : ℕ} (hk : k ≤ 22) : Representable (10 ^ k * one) := by
  refine ⟨5 ^ k, k + 1074, ?_, ?_⟩
  · exact Nat.lt_of_le_of_lt (Nat.pow_le_pow_right (by decide) hk) (by decide)
  · rw [one, Nat.pow_add, ← Nat.mul_assoc, ← Nat.mul_pow]

theorem hundredths_whole (n : ℕ) : hundredths (n * one) = 100 * n := by
  rw [hundredths, ← Nat.mul_assoc]
  exact roundHalfEven_multiple (Nat.lt_of_lt_of_le (by decide) one_ge) _

theorem spacing_product {n a : ℕ} (hn : n ≤ 2 ^ 31) (ha : 2 ^ 60 ≤ a) :
    100 * spacing (n * a) ≤ a := by
  have hmul : n * a ≤ 2 ^ 31 * a := Nat.mul_le_mul_right a hn
  rcases spacing_le (n * a) with hone | hle
  · omega
  · omega

theorem log_hundredths {n k : ℕ} (hn : n ≤ 2 ^ 31) (hsmall : n * 10 ^ k < 10 ^ 23) :
    Nat.log 10 (hundredths (nearest (n * (10 ^ k * one)) 1) / 100) = Nat.log 10 (n * 10 ^ k) := by
  rcases Nat.eq_zero_or_pos n with rfl | hpos
  · have hzero : nearest 0 1 = 0 * one := by
      rw [Nat.zero_mul]
      exact nearest_self ⟨0, 0, by decide, rfl⟩
    rw [Nat.zero_mul, Nat.zero_mul, hzero, hundredths_whole]
  · have hten : 0 < 10 ^ k := Nat.pow_pos (by decide)
    have hne : n * 10 ^ k ≠ 0 := (Nat.mul_pos hpos hten).ne'
    generalize hL : Nat.log 10 (n * 10 ^ k) = L
    have hlow : 10 ^ L ≤ n * 10 ^ k := hL ▸ Nat.pow_log_le_self 10 hne
    have hhigh : n * 10 ^ k < 10 ^ (L + 1) := hL ▸ Nat.lt_pow_succ_log_self (by decide) _
    have hdigits : L ≤ 22 := by
      have hlt : 10 ^ L < 10 ^ 23 := Nat.lt_of_le_of_lt hlow hsmall
      exact Nat.le_of_lt_succ ((Nat.pow_lt_pow_iff_right (by decide)).mp hlt)
    have hk : k ≤ L := by
      have hlt : 10 ^ k < 10 ^ (L + 1) :=
        Nat.lt_of_le_of_lt (Nat.le_mul_of_pos_left _ hpos) hhigh
      exact Nat.le_of_lt_succ ((Nat.pow_lt_pow_iff_right (by decide)).mp hlt)
    -- the product is a multiple of the power, so the next power of ten is that far away
    have hnext : n * 10 ^ k + 10 ^ k ≤ 10 ^ (L + 1) := by
      have hsplit : 10 ^ (L + 1) = 10 ^ (L + 1 - k) * 10 ^ k := by
        rw [← Nat.pow_add, Nat.sub_add_cancel (by omega)]
      rw [hsplit] at hhigh ⊢
      rw [← Nat.succ_mul]
      exact Nat.mul_le_mul_right _ (Nat.succ_le_of_lt (Nat.lt_of_mul_lt_mul_right hhigh))
    have hone := one_ge
    have hpower : one ≤ 10 ^ k * one := Nat.le_mul_of_pos_left one hten
    have hproduct : n * (10 ^ k * one) = n * 10 ^ k * one := (Nat.mul_assoc _ _ _).symm
    have hspacing := spacing_product hn (Nat.le_trans hone hpower)
    have hunits := nearest_mul_le (n * (10 ^ k * one)) 1
    have hleast : 10 ^ L * one ≤ nearest (n * (10 ^ k * one)) 1 := by
      refine le_nearest Nat.one_pos (representable_pow10 hdigits) ?_
      rw [Nat.mul_one, hproduct]
      exact Nat.mul_le_mul_right one hlow
    generalize nearest (n * (10 ^ k * one)) 1 = units at hunits hleast ⊢
    rw [Nat.div_one, Nat.mul_one, Nat.one_mul] at hunits
    have hround := roundHalfEven_mul_le (100 * units) one
    apply Nat.log_eq_of_pow_le_of_lt_pow
    · rw [Nat.le_div_iff_mul_le (by decide), Nat.mul_comm]
      refine le_roundHalfEven (by omega) ?_
      rw [Nat.mul_assoc]
      exact Nat.mul_le_mul_left 100 hleast
    · rw [Nat.div_lt_iff_lt_mul (by decide)]
      by_contra hge
      have hmany : 10 ^ (L + 1) * 100 * one ≤ hundredths units * one :=
        Nat.mul_le_mul_right one (Nat.not_lt.mp hge)
      have hfew := Nat.mul_le_mul_right one hnext
      rw [Nat.add_mul] at hfew
      rw [hproduct] at hunits hspacing
      rw [Nat.mul_right_comm] at hmany
      change 2 * (hundredths units * one) ≤ _ at hround
      omega

theorem nearest_part {d : ℕ} (hd : 0 < d) (hle : d ≤ 100) :
    2 ^ 53 * (nearest one d * d) ≤ 2 ^ 53 * one + one ∧
      2 ^ 53 * one ≤ 2 ^ 53 * (nearest one d * d) + one := by
  have hone := one_ge
  have hupper := nearest_mul_le one d
  have hlower := le_nearest_mul (n := one) hd
  have hspacing : 2 ^ 52 * (d * spacing (one / d)) ≤ one := by
    rcases spacing_le (one / d) with hunit | hmany
    · rw [hunit]
      omega
    · calc 2 ^ 52 * (d * spacing (one / d)) = d * (2 ^ 52 * spacing (one / d)) :=
          Nat.mul_left_comm _ _ _
        _ ≤ d * (one / d) := Nat.mul_le_mul_left d hmany
        _ ≤ one := Nat.mul_div_le one d
  omega

theorem hundredths_part {n d : ℕ} (hn : n ≤ 2 ^ 31) (hd : d = 10 ∨ d = 100) :
    hundredths (nearest (n * nearest one d) 1) = n * (100 / d) := by
  have hone := one_ge
  obtain ⟨hupper, hlower⟩ := @nearest_part d (by omega) (by omega)
  have hupper : 2 ^ 53 * (n * nearest one d * d) ≤ 2 ^ 53 * (n * one) + n * one := by
    calc 2 ^ 53 * (n * nearest one d * d) = n * (2 ^ 53 * (nearest one d * d)) := by ring
      _ ≤ n * (2 ^ 53 * one + one) := Nat.mul_le_mul_left n hupper
      _ = 2 ^ 53 * (n * one) + n * one := by ring
  have hlower : 2 ^ 53 * (n * one) ≤ 2 ^ 53 * (n * nearest one d * d) + n * one := by
    calc 2 ^ 53 * (n * one) = n * (2 ^ 53 * one) := by ring
      _ ≤ n * (2 ^ 53 * (nearest one d * d) + one) := Nat.mul_le_mul_left n hlower
      _ = 2 ^ 53 * (n * nearest one d * d) + n * one := by ring
  have hmany : n * one ≤ 2 ^ 31 * one := Nat.mul_le_mul_right one hn
  have hunits := nearest_mul_le (n * nearest one d) 1
  have hunits' := le_nearest_mul (n := n * nearest one d) Nat.one_pos
  have hspacing := spacing_le (n * nearest one d)
  rw [Nat.div_one, Nat.mul_one, Nat.one_mul] at hunits hunits'
  rw [hundredths]
  generalize nearest (n * nearest one d) 1 = units at hunits hunits' ⊢
  generalize n * nearest one d = product at *
  rcases hd with rfl | rfl
  · have hwhole : n * (100 / 10) * one = 10 * (n * one) := by ring
    apply roundHalfEven_eq
    · rw [hwhole]
      omega
    · rw [hwhole]
      omega
  · have hwhole : n * (100 / 100) * one = n * one := by ring
    apply roundHalfEven_eq
    · rw [hwhole]
      omega
    · rw [hwhole]
      omega

theorem nearest_lt_overflow {x : ℕ} (hx : x ≤ 2 ^ 200 * one) : nearest x 1 < overflow := by
  have hone := one_ge
  have hunits := nearest_mul_le x 1
  have hlarge : 2 ^ 202 * one ≤ overflow := by
    refine Nat.mul_le_mul_right one ?_
    rw [Nat.pow_le_pow_iff_right (by decide)]
    decide
  rw [Nat.div_one, Nat.mul_one, Nat.one_mul] at hunits
  rcases spacing_le x with hunit | hle
  · omega
  · omega

theorem timesPow10_finite {temp math : ℤ} {power : ℕ} (htemp : temp.natAbs ≤ 2 ^ 31)
    (hpow : pow10 math = some power) (hle : power ≤ 10 ^ 22 * one) :
    timesPow10 temp math = .finite (nearest (temp.natAbs * power) 1) := by
  have hproduct : temp.natAbs * power ≤ 2 ^ 200 * one := by
    calc temp.natAbs * power ≤ 2 ^ 31 * (10 ^ 22 * one) := Nat.mul_le_mul htemp hle
      _ ≤ 2 ^ 200 * one := by
        rw [← Nat.mul_assoc]
        exact Nat.mul_le_mul_right one (by decide)
  simp only [timesPow10, hpow, if_pos (nearest_lt_overflow hproduct)]

theorem pow10_whole {k : ℕ} (hk : k ≤ 22) : pow10 k = some (10 ^ k * one) := by
  rw [pow10, if_neg (by omega), if_neg (by omega)]
  have hnone : (-(k : ℤ)).toNat = 0 := by omega
  rw [hnone, Int.toNat_natCast, Nat.pow_zero, nearest_self (representable_pow10 hk)]

theorem pow10_part {m : ℕ} (hm : m = 1 ∨ m = 2) :
    pow10 (-m) = some (nearest one (10 ^ m)) := by
  rw [pow10, if_neg (by omega), if_neg (by omega)]
  have hnone : (-(m : ℤ)).toNat = 0 := by omega
  rw [hnone, Int.neg_neg, Int.toNat_natCast, Nat.pow_zero, Nat.one_mul]

theorem textWidth_eq {temp math : ℤ} (htemp : temp.natAbs ≤ 2 ^ 31) (hlow : -2 ≤ math)
    (hhigh : math ≤ 22) (hsmall : wholePart temp math < 10 ^ 23) :
    textWidth temp math = signWidth temp + (Nat.log 10 (wholePart temp math) + 1) + 3 := by
  rcases Int.lt_or_le math 0 with hneg | hnonneg
  · obtain ⟨m, hm, rfl⟩ : ∃ m : ℕ, (m = 1 ∨ m = 2) ∧ math = -m :=
      ⟨(-math).toNat, by omega, by omega⟩
    have hten : 10 ^ m = 10 ∨ 10 ^ m = 100 := by
      rcases hm with rfl | rfl
      · exact Or.inl rfl
      · exact Or.inr rfl
    have hle : nearest one (10 ^ m) ≤ 10 ^ 22 * one := by
      have hpart := (@nearest_part (10 ^ m) (by omega) (by omega)).1
      have hmul := Nat.le_mul_of_pos_right (nearest one (10 ^ m)) (show 0 < 10 ^ m by omega)
      omega
    have hwhole : wholePart temp (-m) = temp.natAbs * (100 / 10 ^ m) / 100 := by
      rcases hm with rfl | rfl
      · change temp.natAbs * 10 ^ 0 / 10 ^ 1 = temp.natAbs * (100 / 10 ^ 1) / 100
        omega
      · change temp.natAbs * 10 ^ 0 / 10 ^ 2 = temp.natAbs * (100 / 10 ^ 2) / 100
        omega
    rw [textWidth, timesPow10_finite htemp (pow10_part hm) hle, hwhole]
    simp only [integerDigits, hundredths_part htemp hten]
  · obtain ⟨k, rfl⟩ := Int.eq_ofNat_of_zero_le hnonneg
    have hk : k ≤ 22 := by omega
    have hwhole : wholePart temp k = temp.natAbs * 10 ^ k := by
      have hnone : (-(k : ℤ)).toNat = 0 := by omega
      rw [wholePart, hnone, Int.toNat_natCast, Nat.pow_zero, Nat.div_one]
    rw [hwhole] at hsmall ⊢
    rw [textWidth, timesPow10_finite htemp (pow10_whole hk)
      (Nat.mul_le_mul_right one (Nat.pow_le_pow_right (by decide) hk))]
    simp only [integerDigits, log_hundredths htemp hsmall]

/-- The texts are inside the buffer exactly if the widths of the numbers fit, where a number is as
wide as its sign, its digits in front of the point and three more. -/
theorem textInside_iff (math : ℤ) (f : List UInt8) (a dwlen : ℕ) :
    (TextInside math f a dwlen ↔
      ((dwAPduAnalyze f (some a) dwlen emptyStore).ret = some 1 →
        ∀ unit ∈ (dwAPduAnalyze f (some a) dwlen emptyStore).coll.stDataUnit,
          NumbersFit math (f.drop unit.ucPtr) sizeofRes)) ∧
    ∀ temp : ℤ, temp.natAbs ≤ 2 ^ 31 → -2 ≤ math → math ≤ 22 → wholePart temp math < 10 ^ 23 →
      textWidth temp math = signWidth temp + (Nat.log 10 (wholePart temp math) + 1) + 3 := by
  refine ⟨imp_congr_right fun _ => forall₂_congr fun unit _ => ?_,
    fun temp htemp hlow hhigh hsmall => textWidth_eq htemp hlow hhigh hsmall⟩
  simp only [convertActs_written, forall_const, printFixed_length]
  rfl

def fiveReadings : List UInt8 :=
  [0x85, 0x01, 0x05, 0x00, 0x00, 0x02, 0x00, 0x01, 0x01, 0x05, 0x06, 0x00, 0xbc, 0x61, 0x4e,
    0x06, 0x00, 0xbc, 0x61, 0x4e, 0x06, 0x00, 0xbc, 0x61, 0x4e, 0x06, 0x00, 0xbc, 0x61, 0x4e,
    0x06, 0x00, 0xbc, 0x61, 0x4e, 0x00, 0x00]

/-- The text of five readings with six digits in front of the point has 50 bytes. -/
theorem fiveReadings_overflow :
    ¬ ∀ (f : List UInt8) (a dwlen : ℕ) (math : ℤ), TextInside math f a dwlen := by
  intro hall
  have hinside := hall fiveReadings 0 37 (-2) (by decide +kernel) ⟨⟨0, 2, 0⟩, 27, 8⟩
    (by decide +kernel) ""
  revert hinside
  decide +kernel

end IotEdgeAgent.Dlt698.TextRoom
