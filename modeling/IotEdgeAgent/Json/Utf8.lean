import IotEdgeAgent.Json.Accepted
import IotEdgeAgent.Library.Items
import IotEdgeAgent.Library.Utf8
import Mathlib.Tactic.SplitIfs

/-!
# Strings in UTF-8

`is_valid_utf8` guards the strings that a program puts into a document; those that the parser finds
in a text are not checked.
-/

namespace IotEdgeAgent.Json

open Strings Items Utf8

variable {s : UInt8} {text rest bytes : List UInt8} {n k l : ℕ}

/-- `IS_CONT` -/
def isCont (b : UInt8) : Bool := b &&& 0xc0 = 0x80

def numBytesInUtf8Sequence (c : UInt8) : ℕ :=
  if c = 0xc0 ∨ c = 0xc1 ∨ 0xf4 < c ∨ isCont c then 0
  else if c &&& 0x80 = 0 then 1
  else if c &&& 0xe0 = 0xc0 then 2
  else if c &&& 0xf0 = 0xe0 then 3
  else if c &&& 0xf8 = 0xf0 then 4
  else 0

/-- `cp = (cp << 6) | (b & 0x3F)` -/
def sixMore (cp : ℕ) (b : UInt8) : ℕ := cp <<< 6 ||| (b &&& 0x3f).toNat

def codePoint : ℕ → List UInt8 → Option ℕ
  | 1, s0 :: _ => some s0.toNat
  | 2, s0 :: s1 :: _ => if isCont s1 then some (sixMore (s0 &&& 0x1f).toNat s1) else none
  | 3, s0 :: s1 :: s2 :: _ =>
    if isCont s1 ∧ isCont s2 then some (sixMore (sixMore (s0 &&& 0xf).toNat s1) s2) else none
  | 4, s0 :: s1 :: s2 :: s3 :: _ =>
    if isCont s1 ∧ isCont s2 ∧ isCont s3 then
      some (sixMore (sixMore (sixMore (s0 &&& 0x7).toNat s1) s2) s3)
    else none
  | _, _ => none

def acceptCodePoint (len cp : ℕ) : Option ℕ :=
  if cp < 0x80 ∧ 1 < len ∨ cp < 0x800 ∧ 2 < len ∨ cp < 0x10000 ∧ 3 < len then none
  else if 0x10ffff < cp then none
  else if 0xd800 ≤ cp ∧ cp ≤ 0xdfff then none
  else some len

def verifyUtf8Sequence (string : List UInt8) : Option ℕ :=
  let len := numBytesInUtf8Sequence (string.headD 0)
  (codePoint len string).bind (acceptCodePoint len)

def nextSequence (string : List UInt8) : Option (List UInt8 × List UInt8) :=
  (verifyUtf8Sequence string).map fun len => (string.take len, string.drop len)

def isValidUtf8 (string : List UInt8) : Bool :=
  (readAll nextSequence string.length string).isSome

theorem bytes_carry :
    (∀ l < 64, isCont (UInt8.ofNat (0x80 + l)) ∧ (UInt8.ofNat (0x80 + l) &&& 0x3f).toNat = l) ∧
    (∀ n < 0x80, numBytesInUtf8Sequence (UInt8.ofNat n) = 1) ∧
    (∀ k < 32, 2 ≤ k → numBytesInUtf8Sequence (UInt8.ofNat (0xc0 + k)) = 2 ∧
      (UInt8.ofNat (0xc0 + k) &&& 0x1f).toNat = k) ∧
    (∀ k < 16, numBytesInUtf8Sequence (UInt8.ofNat (0xe0 + k)) = 3 ∧
      (UInt8.ofNat (0xe0 + k) &&& 0xf).toNat = k) ∧
    ∀ k < 5, numBytesInUtf8Sequence (UInt8.ofNat (0xf0 + k)) = 4 ∧
      (UInt8.ofNat (0xf0 + k) &&& 0x7).toNat = k := by
  decide +kernel

theorem isCont_ofNat (hl : l < 64) :
    isCont (UInt8.ofNat (0x80 + l)) ∧ (UInt8.ofNat (0x80 + l) &&& 0x3f).toNat = l :=
  bytes_carry.1 l hl

theorem byte_cases (s : UInt8) :
    (isCont s → ∃ l < 64, s = UInt8.ofNat (0x80 + l)) ∧
    (numBytesInUtf8Sequence s = 0 ∨ numBytesInUtf8Sequence s = 1 ∧ s.toNat < 0x80 ∨
    (numBytesInUtf8Sequence s = 2 ∧ ∃ k < 32, 2 ≤ k ∧ s = UInt8.ofNat (0xc0 + k)) ∨
    (numBytesInUtf8Sequence s = 3 ∧ ∃ k < 16, s = UInt8.ofNat (0xe0 + k)) ∨
    numBytesInUtf8Sequence s = 4 ∧ ∃ k < 5, s = UInt8.ofNat (0xf0 + k)) := by
  apply @forall_byte _ 256 _ s s.toNat_lt
  decide +kernel

theorem isCont_cases (h : isCont s) : ∃ l < 64, s = UInt8.ofNat (0x80 + l) :=
  (byte_cases s).1 h

theorem lead_one (hn : n < 0x80) : numBytesInUtf8Sequence (UInt8.ofNat n) = 1 :=
  bytes_carry.2.1 n hn

theorem lead_two (hk : 2 ≤ k) (hk' : k < 32) :
    numBytesInUtf8Sequence (UInt8.ofNat (0xc0 + k)) = 2 ∧
      (UInt8.ofNat (0xc0 + k) &&& 0x1f).toNat = k :=
  bytes_carry.2.2.1 k hk' hk

theorem lead_three (hk : k < 16) :
    numBytesInUtf8Sequence (UInt8.ofNat (0xe0 + k)) = 3 ∧
      (UInt8.ofNat (0xe0 + k) &&& 0xf).toNat = k :=
  bytes_carry.2.2.2.1 k hk

theorem lead_four (hk : k < 5) :
    numBytesInUtf8Sequence (UInt8.ofNat (0xf0 + k)) = 4 ∧
      (UInt8.ofNat (0xf0 + k) &&& 0x7).toNat = k :=
  bytes_carry.2.2.2.2 k hk

theorem sixMore_ofNat (cp : ℕ) (hl : l < 64) :
    sixMore cp (UInt8.ofNat (0x80 + l)) = 64 * cp + l := by
  rw [sixMore, (isCont_ofNat hl).2, ← Nat.shiftLeft_add_eq_or_of_lt (i := 6) hl, Nat.shiftLeft_eq,
    Nat.mul_comm]

theorem accept_iff {len cp m : ℕ} : acceptCodePoint len cp = some m ↔
    m = len ∧ (len ≤ 1 ∨ 0x80 ≤ cp) ∧ (len ≤ 2 ∨ 0x800 ≤ cp) ∧ (len ≤ 3 ∨ 0x10000 ≤ cp) ∧
      (cp < 0xd800 ∨ 0xdfff < cp ∧ cp ≤ 0x10ffff) := by
  rw [acceptCodePoint]
  split_ifs
  · exact ⟨fun h => (by cases h), fun h => by omega⟩
  · exact ⟨fun h => (by cases h), fun h => by omega⟩
  · exact ⟨fun h => (by cases h), fun h => by omega⟩
  · rw [Option.some.injEq, eq_comm]
    exact (and_iff_left (by omega)).symm

theorem verify_append (h : Encodes n bytes) (rest : List UInt8) :
    verifyUtf8Sequence (bytes ++ rest) = some bytes.length := by
  cases h with
  | one hn =>
    have hsmall : (UInt8.ofNat n).toNat = n :=
      UInt8.toNat_ofNat'.trans (Nat.mod_eq_of_lt (Nat.lt_trans hn (by decide)))
    simp only [verifyUtf8Sequence, List.cons_append, List.headD_cons, lead_one hn, codePoint,
      hsmall]
    exact accept_iff.mpr ⟨rfl, by omega⟩
  | @two k l hk hk' hl =>
    obtain ⟨hlead, hvalue⟩ := lead_two hk hk'
    simp only [verifyUtf8Sequence, List.cons_append, List.headD_cons, hlead, codePoint,
      (isCont_ofNat hl).1, if_pos, hvalue, sixMore_ofNat _ hl]
    exact accept_iff.mpr ⟨rfl, by omega⟩
  | @three k l m hk hl hm hlong hscalar =>
    obtain ⟨hlead, hvalue⟩ := lead_three hk
    simp only [verifyUtf8Sequence, List.cons_append, List.headD_cons, hlead, codePoint,
      (isCont_ofNat hl).1, (isCont_ofNat hm).1, and_self, if_pos, hvalue, sixMore_ofNat _ hl,
      sixMore_ofNat _ hm]
    exact accept_iff.mpr ⟨rfl, by omega⟩
  | @four k l m n hk hl hm hn hlong hmax =>
    obtain ⟨hlead, hvalue⟩ := lead_four hk
    simp only [verifyUtf8Sequence, List.cons_append, List.headD_cons, hlead, codePoint,
      (isCont_ofNat hl).1, (isCont_ofNat hm).1, (isCont_ofNat hn).1, and_self, if_pos, hvalue,
      sixMore_ofNat _ hl, sixMore_ofNat _ hm, sixMore_ofNat _ hn]
    exact accept_iff.mpr ⟨rfl, by omega⟩

theorem encodes_of_verify {len : ℕ} (h : verifyUtf8Sequence text = some len) :
    ∃ n, Encodes n (text.take len) := by
  obtain ⟨cp, hcp, haccept⟩ := Option.bind_eq_some_iff.mp h
  rw [accept_iff] at haccept
  obtain ⟨hlen, hshort⟩ := haccept
  rcases text with _ | ⟨s0, text⟩
  · cases hcp
  rw [List.headD_cons] at hcp hlen hshort
  obtain hlead | ⟨hlead, hsmall⟩ | ⟨hlead, k, hk, hk', rfl⟩ | ⟨hlead, k, hk, rfl⟩ |
    ⟨hlead, k, hk, rfl⟩ := (byte_cases s0).2
  · rw [hlead] at hcp
    cases hcp
  · rw [hlen, hlead]
    have hone := Encodes.one hsmall
    rw [UInt8.ofNat_toNat] at hone
    exact ⟨s0.toNat, hone⟩
  · rw [hlead] at hcp hlen hshort
    rcases text with _ | ⟨s1, text⟩
    · cases hcp
    rw [codePoint] at hcp
    split_ifs at hcp with hcont
    obtain ⟨l, hl, rfl⟩ := isCont_cases hcont
    cases hcp
    rw [hlen]
    exact ⟨_, .two hk' hk hl⟩
  · rw [hlead] at hcp hlen hshort
    rcases text with _ | ⟨s1, _ | ⟨s2, text⟩⟩
    · cases hcp
    · cases hcp
    rw [codePoint] at hcp
    split_ifs at hcp with hcont
    obtain ⟨l, hl, rfl⟩ := isCont_cases hcont.1
    obtain ⟨m, hm, rfl⟩ := isCont_cases hcont.2
    rw [(lead_three hk).2, sixMore_ofNat _ hl, sixMore_ofNat _ hm] at hcp
    cases hcp
    rw [hlen]
    exact ⟨_, .three hk hl hm (by omega) (by omega)⟩
  · rw [hlead] at hcp hlen hshort
    rcases text with _ | ⟨s1, _ | ⟨s2, _ | ⟨s3, text⟩⟩⟩
    · cases hcp
    · cases hcp
    · cases hcp
    rw [codePoint] at hcp
    split_ifs at hcp with hcont
    obtain ⟨l, hl, rfl⟩ := isCont_cases hcont.1
    obtain ⟨m, hm, rfl⟩ := isCont_cases hcont.2.1
    obtain ⟨n, hn, rfl⟩ := isCont_cases hcont.2.2
    rw [(lead_four hk).2, sixMore_ofNat _ hl, sixMore_ofNat _ hm, sixMore_ofNat _ hn] at hcp
    cases hcp
    rw [hlen]
    exact ⟨_, .four hk hl hm hn (by omega) (by omega)⟩

theorem delimits_nextSequence (h : Encodes n bytes) : Delimits nextSequence id bytes where
  read_write rest := by
    rw [id, nextSequence, verify_append h, Option.map_some, List.take_left, List.drop_left]
  nonempty := h.ne_nil

theorem encodes_of_nextSequence (h : nextSequence text = some (bytes, rest)) :
    (∃ n, Encodes n bytes) ∧ text = id bytes ++ rest := by
  obtain ⟨len, hlen, hnext⟩ := Option.map_eq_some_iff.mp h
  cases hnext
  exact ⟨encodes_of_verify hlen, (List.take_append_drop _ _).symm⟩

/-- `is_valid_utf8` accepts the encodings of sequences of characters and nothing else. -/
theorem isValidUtf8_iff :
    isValidUtf8 text ↔ ∃ cs : List Char, text = cs.flatMap String.utf8EncodeChar := by
  rw [← valid_iff, isValidUtf8]
  constructor
  · intro h
    obtain ⟨items, hitems⟩ := Option.isSome_iff_exists.mp h
    obtain ⟨hencodes, htext⟩ := write_of_readAll encodes_of_nextSequence hitems
    rw [htext]
    exact valid_flatMap hencodes
  · intro h
    obtain ⟨items, hencodes, htext⟩ := h.items
    have hdelimits : ∀ bytes ∈ items, Delimits nextSequence id bytes := fun bytes hbytes =>
      (hencodes bytes hbytes).elim fun _ h => delimits_nextSequence h
    rw [htext, readAll_write hdelimits (length_le_flatMap hdelimits)]
    rfl

end IotEdgeAgent.Json
