import Mathlib.Data.List.Basic
import Mathlib.Data.Nat.Notation

/-!
# UTF-8

The encoding of a character by the bits in its bytes, and texts that consist of such encodings.
-/

namespace Utf8

/-- A number and its bytes: the numbers of characters, each in its shortest form. -/
inductive Encodes : ℕ → List UInt8 → Prop
  | one {n : ℕ} : n < 0x80 → Encodes n [UInt8.ofNat n]
  | two {k l : ℕ} : 2 ≤ k → k < 32 → l < 64 →
      Encodes (64 * k + l) [UInt8.ofNat (0xc0 + k), UInt8.ofNat (0x80 + l)]
  | three {k l m : ℕ} : k < 16 → l < 64 → m < 64 → 0x800 ≤ 4096 * k + 64 * l + m →
      4096 * k + 64 * l + m < 0xd800 ∨ 0xdfff < 4096 * k + 64 * l + m →
      Encodes (4096 * k + 64 * l + m)
        [UInt8.ofNat (0xe0 + k), UInt8.ofNat (0x80 + l), UInt8.ofNat (0x80 + m)]
  | four {k l m n : ℕ} : k < 5 → l < 64 → m < 64 → n < 64 →
      0x10000 ≤ 262144 * k + 4096 * l + 64 * m + n →
      262144 * k + 4096 * l + 64 * m + n ≤ 0x10ffff →
      Encodes (262144 * k + 4096 * l + 64 * m + n)
        [UInt8.ofNat (0xf0 + k), UInt8.ofNat (0x80 + l), UInt8.ofNat (0x80 + m),
          UInt8.ofNat (0x80 + n)]

inductive Valid : List UInt8 → Prop
  | nil : Valid []
  | append {n : ℕ} {bytes text : List UInt8} : Encodes n bytes → Valid text → Valid (bytes ++ text)

variable {n : ℕ} {text : List UInt8}

theorem exists_char (h : n < 0xd800 ∨ 0xdfff < n ∧ n ≤ 0x10ffff) : ∃ c : Char, c.val.toNat = n := by
  have hvalid : n.isValidChar := h.imp id fun h => ⟨h.1, Nat.lt_succ_of_le h.2⟩
  refine ⟨Char.ofNatAux n hvalid, ?_⟩
  rfl

theorem utf8EncodeChar_eq {c : Char} (hc : c.val.toNat = n) :
    String.utf8EncodeChar c =
      if n ≤ 0x7f then [UInt8.ofNat n]
      else if n ≤ 0x7ff then [UInt8.ofNat (n / 64 % 32 + 0xc0), UInt8.ofNat (n % 64 + 0x80)]
      else if n ≤ 0xffff then
        [UInt8.ofNat (n / 4096 % 16 + 0xe0), UInt8.ofNat (n / 64 % 64 + 0x80),
          UInt8.ofNat (n % 64 + 0x80)]
      else
        [UInt8.ofNat (n / 262144 % 8 + 0xf0), UInt8.ofNat (n / 4096 % 64 + 0x80),
          UInt8.ofNat (n / 64 % 64 + 0x80), UInt8.ofNat (n % 64 + 0x80)] := by
  subst hc
  rfl

theorem Encodes.exists_char (h : Encodes n text) : ∃ c : Char, String.utf8EncodeChar c = text := by
  have hscalar : n < 0xd800 ∨ 0xdfff < n ∧ n ≤ 0x10ffff := by
    cases h <;> omega
  obtain ⟨c, hc⟩ := Utf8.exists_char hscalar
  refine ⟨c, ?_⟩
  rw [utf8EncodeChar_eq hc]
  cases h with
  | one hn => exact if_pos (Nat.le_of_lt_succ hn)
  | @two k l hk hk' hl =>
    rw [if_neg (by omega), if_pos (by omega)]
    have hlead : (64 * k + l) / 64 % 32 + 0xc0 = 0xc0 + k := by omega
    have hlast : (64 * k + l) % 64 + 0x80 = 0x80 + l := by omega
    rw [hlead, hlast]
  | @three k l m hk hl hm hlong hscalar =>
    rw [if_neg (by omega), if_neg (by omega), if_pos (by omega)]
    have hlead : (4096 * k + 64 * l + m) / 4096 % 16 + 0xe0 = 0xe0 + k := by omega
    have hmiddle : (4096 * k + 64 * l + m) / 64 % 64 + 0x80 = 0x80 + l := by omega
    have hlast : (4096 * k + 64 * l + m) % 64 + 0x80 = 0x80 + m := by omega
    rw [hlead, hmiddle, hlast]
  | @four k l m n hk hl hm hn hlong hscalar =>
    rw [if_neg (by omega), if_neg (by omega), if_neg (by omega)]
    have hlead : (262144 * k + 4096 * l + 64 * m + n) / 262144 % 8 + 0xf0 = 0xf0 + k := by omega
    have hsecond : (262144 * k + 4096 * l + 64 * m + n) / 4096 % 64 + 0x80 = 0x80 + l := by omega
    have hthird : (262144 * k + 4096 * l + 64 * m + n) / 64 % 64 + 0x80 = 0x80 + m := by omega
    have hlast : (262144 * k + 4096 * l + 64 * m + n) % 64 + 0x80 = 0x80 + n := by omega
    rw [hlead, hsecond, hthird, hlast]

theorem encodes_char (c : Char) : ∃ n, Encodes n (String.utf8EncodeChar c) := by
  have hscalar : c.val.toNat < 0xd800 ∨ 0xdfff < c.val.toNat ∧ c.val.toNat < 0x110000 := c.valid
  rw [utf8EncodeChar_eq rfl]
  generalize c.val.toNat = n at hscalar
  split
  · rename_i hn
    exact ⟨n, .one (Nat.lt_succ_of_le hn)⟩
  · split
    · rw [Nat.add_comm _ 0xc0, Nat.add_comm _ 0x80]
      exact ⟨_, .two (by omega) (by omega) (by omega)⟩
    · split
      · rw [Nat.add_comm _ 0xe0, Nat.add_comm _ 0x80, Nat.add_comm _ 0x80]
        exact ⟨_, .three (by omega) (by omega) (by omega) (by omega) (by omega)⟩
      · rw [Nat.add_comm _ 0xf0, Nat.add_comm _ 0x80, Nat.add_comm _ 0x80, Nat.add_comm _ 0x80]
        exact ⟨_, .four (by omega) (by omega) (by omega) (by omega) (by omega) (by omega)⟩

theorem valid_iff : Valid text ↔ ∃ cs : List Char, text = cs.flatMap String.utf8EncodeChar := by
  constructor
  · intro h
    induction h with
    | nil => exact ⟨[], rfl⟩
    | append hbytes _ ih =>
      obtain ⟨c, rfl⟩ := hbytes.exists_char
      obtain ⟨cs, rfl⟩ := ih
      exact ⟨c :: cs, List.flatMap_cons.symm⟩
  · rintro ⟨cs, rfl⟩
    induction cs with
    | nil => exact .nil
    | cons c cs ih =>
      obtain ⟨n, hn⟩ := encodes_char c
      rw [List.flatMap_cons]
      exact .append hn ih

theorem valid_flatMap {items : List (List UInt8)} (h : ∀ bytes ∈ items, ∃ n, Encodes n bytes) :
    Valid (items.flatMap id) := by
  induction items with
  | nil => exact .nil
  | cons bytes items ih =>
    rw [List.forall_mem_cons] at h
    obtain ⟨⟨n, hn⟩, hitems⟩ := h
    exact .append hn (ih hitems)

theorem Valid.items (h : Valid text) :
    ∃ items : List (List UInt8), (∀ bytes ∈ items, ∃ n, Encodes n bytes) ∧
      text = items.flatMap id := by
  induction h with
  | nil => exact ⟨[], List.forall_mem_nil _, rfl⟩
  | @append n bytes text hn _ ih =>
    obtain ⟨items, hitems, rfl⟩ := ih
    exact ⟨bytes :: items, List.forall_mem_cons.mpr ⟨⟨n, hn⟩, hitems⟩, rfl⟩

theorem le_toNat_ofNat {m : ℕ} (hm : 0x80 ≤ m) (hlt : m < 256) : 0x80 ≤ UInt8.ofNat m := by
  rw [UInt8.le_iff_toNat_le, UInt8.toNat_ofNat', Nat.mod_eq_of_lt hlt]
  exact hm

theorem Encodes.high {bytes : List UInt8} (h : Encodes n bytes) :
    n < 0x80 ∧ bytes = [UInt8.ofNat n] ∨ ∀ b ∈ bytes, 0x80 ≤ b := by
  cases h with
  | one hn => exact .inl ⟨hn, rfl⟩
  | two hk hk' hl =>
    refine .inr (List.forall_mem_cons.mpr ⟨le_toNat_ofNat (by omega) (by omega), ?_⟩)
    exact List.forall_mem_singleton.mpr (le_toNat_ofNat (by omega) (by omega))
  | three hk hl hm =>
    refine .inr (List.forall_mem_cons.mpr ⟨le_toNat_ofNat (by omega) (by omega), ?_⟩)
    refine List.forall_mem_cons.mpr ⟨le_toNat_ofNat (by omega) (by omega), ?_⟩
    exact List.forall_mem_singleton.mpr (le_toNat_ofNat (by omega) (by omega))
  | four hk hl hm hn =>
    refine .inr (List.forall_mem_cons.mpr ⟨le_toNat_ofNat (by omega) (by omega), ?_⟩)
    refine List.forall_mem_cons.mpr ⟨le_toNat_ofNat (by omega) (by omega), ?_⟩
    refine List.forall_mem_cons.mpr ⟨le_toNat_ofNat (by omega) (by omega), ?_⟩
    exact List.forall_mem_singleton.mpr (le_toNat_ofNat (by omega) (by omega))

theorem Encodes.ne_nil {bytes : List UInt8} (h : Encodes n bytes) : bytes ≠ [] := by
  cases h <;> exact List.cons_ne_nil _ _

theorem Valid.split {front behind : List UInt8} {b : UInt8} (h : Valid (front ++ b :: behind))
    (hb : b < 0x80) : Valid front ∧ Valid behind := by
  generalize htext : front ++ b :: behind = text at h
  induction h generalizing front with
  | nil => exact absurd htext (List.append_ne_nil_of_right_ne_nil _ (List.cons_ne_nil _ _))
  | @append n bytes text hbytes htail ih =>
    obtain ⟨between, hfront, hbehind⟩ | ⟨between, hfront, hbehind⟩ :=
      List.append_eq_append_iff.mp htext
    · cases between with
      | nil =>
        rw [List.append_nil] at hfront
        rw [← List.append_nil front, ← hfront]
        exact ⟨.append hbytes .nil, (@ih [] hbehind).2⟩
      | cons c between =>
        obtain ⟨rfl, rfl⟩ := List.cons.inj hbehind
        obtain ⟨-, hone⟩ | hhigh := hbytes.high
        · rw [hfront, List.append_eq_singleton_iff] at hone
          obtain ⟨rfl, hone⟩ | ⟨-, hone⟩ := hone
          · rw [(List.cons.inj hone).2]
            exact ⟨.nil, htail⟩
          · exact absurd hone (List.cons_ne_nil _ _)
        · have hb' := hhigh b (hfront ▸ List.mem_append_right _ List.mem_cons_self)
          exact absurd hb (UInt8.not_lt.mpr hb')
    · obtain ⟨hbetween, hbehind'⟩ := ih hbehind.symm
      exact ⟨hfront ▸ .append hbytes hbetween, hbehind'⟩

theorem Valid.behind {b : UInt8} (hb : b < 0x80) (h : Valid (b :: text)) : Valid text :=
  (@Valid.split [] text b h hb).2

end Utf8
