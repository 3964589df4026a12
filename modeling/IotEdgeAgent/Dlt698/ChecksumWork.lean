import IotEdgeAgent.Dlt698.LinkFrame
import IotEdgeAgent.Library.Logged

/-!
# What the link layer reads

`dwGet698Apdu` with a record of its reads: single bytes, and the calls of `pppfcs16` with the
number of bytes each is given. That number is an `int`. It comes from the address byte and from
the length field, and neither is compared with the other before the checksums are computed.
-/

namespace IotEdgeAgent.Dlt698.ChecksumWork
open Checksum LinkFrame

inductive Read
  | byte (pos : ℕ)
  | checksum (len : ℤ)
  deriving DecidableEq, Repr

/-- The bytes examined; `while (len--)` runs through a negative `len` as well. -/
def Read.bytes : Read → ℕ
  | .byte _ => 1
  | .checksum len => u32 len

def int32 (w : ℕ) : ℤ := Int.bmod w 4294967296

section
variable (pframe : List UInt8)

def readByte (pos : ℕ) : Logged Read UInt8 := .doing (.byte pos) pframe[pos]?

def readWord (hpos lpos : ℕ) : Logged Read ℕ := do
  let hbyte ← readByte pframe hpos
  let lbyte ← readByte pframe lpos
  return makeWord hbyte lbyte

def callPppfcs16 (pos : ℕ) (len : ℤ) : Logged Read UInt16 :=
  .doing (.checksum len) (pppfcs16 PPPINITFCS16 (pframe.drop pos) (u32 len))

def leaderReads : Logged Read ℕ := do
  let b0 ← readByte pframe 0
  let b1 ← readByte pframe 1
  let b2 ← readByte pframe 2
  let b3 ← readByte pframe 3
  return [b0, b1, b2, b3].count 0xFE

def checkFrameReads (premNum uwframeLen saLen : ℕ) : Logged Read ApduRef := do
  let refused : ApduRef := ⟨-1, none, some (premNum + 5), saLen - 1⟩
  let nHCSPos := saLen + 5
  let uwhcs ← callPppfcs16 pframe (premNum + 1) (int32 (nHCSPos - 1))
  let hcs ← readWord pframe (premNum + nHCSPos + 1) (premNum + nHCSPos)
  if uwhcs.toNat ≠ hcs then return refused else
    let nFCSPos := u32 (uwframeLen - 1)
    let uwfcs ← callPppfcs16 pframe (premNum + 1) (int32 (u32 (nFCSPos - 1)))
    let fcs ← readWord pframe (u32 (premNum + nFCSPos + 1)) (u32 (premNum + nFCSPos))
    if uwfcs.toNat ≠ fcs then return refused else
      return ⟨uwframeLen - saLen - 8, some (premNum + nHCSPos + 2), some (premNum + 5), saLen - 1⟩

def dwGet698ApduReads : Logged Read ApduRef := do
  let premNum ← leaderReads pframe
  let start ← readByte pframe premNum
  if start ≠ 0x68 then return ⟨-1, none, none, 0⟩ else
    let uwframeLen ← readWord pframe (premNum + 2) (premNum + 1)
    let flag ← readByte pframe (premNum + 4)
    checkFrameReads pframe premNum uwframeLen ((flag &&& 0x0F).toNat + 2)

end

section
variable {pframe : List UInt8}

theorem u32_int32 (w : ℕ) (h : w < 4294967296) : u32 (int32 w) = w := by
  have hmod : int32 w % (4294967296 : ℕ) = w % (4294967296 : ℕ) := Int.bmod_emod
  rw [u32]
  omega

theorem addrNibble_le (flag : UInt8) : (flag &&& 0x0F).toNat ≤ 15 := by
  rw [UInt8.toNat_and]
  exact Nat.and_le_right

theorem leaderReads_value : (leaderReads pframe).value = leaderCount pframe := by
  by_cases h : 4 ≤ pframe.length
  · match pframe, h with
    | a :: b :: c :: d :: rest, _ => simp [leaderReads, readByte, leaderCount_eq]
  · match pframe, Nat.not_le.mp h with
    | [], _ => rfl
    | [a], _ => rfl
    | [a, b], _ => rfl
    | [a, b, c], _ => rfl

theorem wordAt_high (i : ℕ) : wordAt pframe i =
    pframe[i + 1]?.bind fun hbyte => pframe[i]?.bind fun lbyte => some (makeWord hbyte lbyte) := by
  rw [wordAt]
  cases pframe[i + 1]? <;> cases pframe[i]? <;> rfl

theorem readWord_value (i : ℕ) : (readWord pframe (i + 1) i).value = wordAt pframe i := by
  simp only [wordAt_high, readWord, readByte, Logged.bind_value, Logged.doing_value,
    Logged.pure_value]

theorem checkFrameReads_value (premNum uwframeLen : ℕ) {saLen : ℕ} (hsa : saLen < 18) :
    (checkFrameReads pframe premNum uwframeLen saLen).value =
      checkFrame pframe premNum uwframeLen saLen := by
  have hspan : u32 (int32 (saLen + 5 - 1)) = saLen + 5 - 1 := u32_int32 _ (by omega)
  have hfspan : ∀ z, u32 (int32 (u32 z)) = u32 z := fun z => u32_int32 _ (by rw [u32]; omega)
  simp only [checkFrameReads, checkFrame, Logged.bind_value, callPppfcs16, Logged.doing_value,
    hspan, hfspan, Option.bind_eq_bind, apply_ite Logged.value, Logged.pure_value, readWord,
    readByte, wordAt_high, Option.bind_assoc, Option.bind_some]
  rfl

theorem dwGet698ApduReads_value : (dwGet698ApduReads pframe).value = dwGet698Apdu pframe := by
  have hsa : ∀ flag : UInt8, (flag &&& 0x0F).toNat + 2 < 18 := fun flag =>
    Nat.add_lt_add_right (Nat.lt_succ_of_le (addrNibble_le flag)) 2
  simp only [dwGet698ApduReads, dwGet698Apdu, Logged.bind_value, leaderReads_value, readByte,
    readWord, Logged.doing_value, wordAt_high, Option.bind_eq_bind, apply_ite Logged.value,
    Logged.pure_value, checkFrameReads_value, hsa, Option.bind_assoc, Option.bind_some]
  rfl

def Within (len : ℕ) : Read → Prop
  | .byte _ => True
  | .checksum n => 0 ≤ n ∧ n ≤ len

/-- Every call of `pppfcs16` is given a number of bytes between 0 and the length field, and the
bytes examined are at most 12 more than twice that field. -/
def WorkBounded (pframe : List UInt8) : Prop :=
  ∀ p len, leaderCount pframe = some p → wordAt pframe (p + 1) = some len →
    (dwGet698ApduReads pframe).Every (Within len) ∧
      (dwGet698ApduReads pframe).weight Read.bytes ≤ 2 * len + 12

/-- The calls are within `len`, and no more than `n` bytes are examined. -/
structure Bounded {β : Type} (len n : ℕ) (x : Logged Read β) : Prop where
  every : x.Every (Within len)
  weight : x.weight Read.bytes ≤ n

section Bounds
variable {β γ : Type} {len m n : ℕ}

theorem Bounded.bind {x : Logged Read β} {g : β → Logged Read γ} (hx : Bounded len m x)
    (hg : ∀ a, x.value = some a → Bounded len n (g a)) : Bounded len (m + n) (x >>= g) :=
  ⟨hx.every.bind fun a ha => (hg a ha).every,
    Logged.weight_bind_le hx.weight fun a ha => (hg a ha).weight⟩

theorem Bounded.mono {x : Logged Read β} (hx : Bounded len m x) (h : m ≤ n) : Bounded len n x :=
  ⟨hx.every, hx.weight.trans h⟩

theorem Bounded.pure (a : β) : Bounded len 0 (pure a : Logged Read β) :=
  ⟨.pure _ a, Nat.le_of_eq (Logged.weight_pure _ a)⟩

theorem readByte_bounded (pos : ℕ) : Bounded len 1 (readByte pframe pos) :=
  ⟨.doing trivial _, Nat.le_of_eq (Logged.weight_doing _ _ _)⟩

theorem readWord_bounded (hpos lpos : ℕ) : Bounded len 2 (readWord pframe hpos lpos) :=
  (readByte_bounded hpos).bind fun _ _ => (readByte_bounded lpos).bind fun _ _ => .pure _

theorem leaderReads_bounded : Bounded len 4 (leaderReads pframe) :=
  (readByte_bounded 0).bind fun _ _ => (readByte_bounded 1).bind fun _ _ =>
    (readByte_bounded 2).bind fun _ _ => (readByte_bounded 3).bind fun _ _ => .pure _

theorem callPppfcs16_bounded (pos : ℕ) (h : n ≤ len) (hn : n < 4294967296) :
    Bounded len n (callPppfcs16 pframe pos n) := by
  refine ⟨.doing ⟨Int.natCast_nonneg n, Int.ofNat_le.mpr h⟩ _, ?_⟩
  rw [callPppfcs16, Logged.weight_doing, Read.bytes, u32]
  omega

end Bounds

theorem int32_small {n : ℕ} (h : n < 2147483648) : int32 n = n :=
  Int.bmod_eq_of_le (by omega) (by omega)

theorem fcsSpan {len : ℕ} (h : 2 ≤ len) (hlen : len < 65536) :
    int32 (u32 (u32 (len - 1) - 1)) = (len - 2 : ℕ) := by
  have hspan : u32 (u32 (len - 1) - 1) = len - 2 := by
    simp only [u32]
    omega
  rw [hspan, int32_small (by omega)]

theorem checkFrameReads_bounded {saLen len : ℕ} (p : ℕ) (hlen : len < 65536)
    (h : saLen + 4 ≤ len) : Bounded len (2 * len + 2) (checkFrameReads pframe p len saLen) := by
  have hheader : int32 (saLen + 5 - 1) = (saLen + 4 : ℕ) := int32_small (by omega)
  have hframe := fcsSpan (show 2 ≤ len by omega) hlen
  simp only [checkFrameReads, hheader, hframe]
  refine ((callPppfcs16_bounded (p + 1) h (by omega)).bind fun uwhcs _ =>
    (readWord_bounded _ _).bind fun hcs _ => (?_ : Bounded len len _)).mono (by omega)
  split_ifs
  · exact (Bounded.pure _).mono (Nat.zero_le len)
  · refine ((callPppfcs16_bounded (p + 1) (show len - 2 ≤ len by omega) (by omega)).bind
      fun uwfcs _ => (readWord_bounded _ _).bind fun fcs _ => (?_ : Bounded len 0 _)).mono
        (by omega)
    split_ifs
    · exact .pure _
    · exact .pure _

/-- Where there is a start byte behind the counted preamble, the length field is large enough for
the header whose length the address byte gives. -/
def HeaderFits (pframe : List UInt8) : Prop :=
  ∀ p len flag, leaderCount pframe = some p → pframe[p]? = some 0x68 →
    wordAt pframe (p + 1) = some len → pframe[p + 4]? = some flag →
      (flag &&& 0x0F).toNat + 6 ≤ len

theorem workBounded_of_headerFits (h : HeaderFits pframe) : WorkBounded pframe := by
  intro p len hp hlen
  have hlen' : len < 65536 := wordAt_lt hlen
  suffices hbounded :
      Bounded len (4 + (1 + (2 + (1 + (2 * len + 2))))) (dwGet698ApduReads pframe) by
    exact ⟨hbounded.every, hbounded.weight.trans (by omega)⟩
  refine leaderReads_bounded.bind fun p' hp' => (readByte_bounded p').bind fun start hstart => ?_
  obtain rfl : p = p' := Option.some.inj (hp.symm.trans (leaderReads_value.symm.trans hp'))
  split_ifs with hne
  · exact (Bounded.pure _).mono (Nat.zero_le _)
  refine (readWord_bounded _ _).bind fun len' hword => ?_
  refine (readByte_bounded _).bind fun flag hflag => ?_
  obtain rfl : len = len' := Option.some.inj (hlen.symm.trans ((readWord_value _).symm.trans hword))
  have hfits := h p len flag hp (hstart.trans (congrArg some (not_not.mp hne))) hlen hflag
  exact checkFrameReads_bounded p hlen' (by omega)

theorem first_checksum {p len : ℕ} {flag : UInt8} (hp : leaderCount pframe = some p)
    (hstart : pframe[p]? = some 0x68) (hlen : wordAt pframe (p + 1) = some len)
    (hflag : pframe[p + 4]? = some flag) :
    .checksum ((flag &&& 0x0F).toNat + 6 : ℕ) ∈ (dwGet698ApduReads pframe).log := by
  have hflag' : (flag &&& 0x0F).toNat ≤ 15 := addrNibble_le flag
  have hspan : int32 ((flag &&& 0x0F).toNat + 2 + 5 - 1) = ((flag &&& 0x0F).toNat + 6 : ℕ) :=
    int32_small (by omega)
  refine Logged.mem_bind_right (leaderReads_value.trans hp) (Logged.mem_bind_right hstart ?_)
  rw [if_neg (not_not.mpr rfl)]
  refine Logged.mem_bind_right ((readWord_value _).trans hlen) (Logged.mem_bind_right hflag ?_)
  rw [← hspan]
  exact Logged.mem_bind_left (List.mem_singleton.mpr rfl)

theorem workBounded_iff (pframe : List UInt8) : WorkBounded pframe ↔ HeaderFits pframe := by
  constructor
  · intro h p len flag hp hstart hlen hflag
    have hwithin := (h p len hp hlen).1 _ (first_checksum hp hstart hlen hflag)
    exact Int.ofNat_le.mp hwithin.2
  · exact workBounded_of_headerFits

end

def emptyLengthFrame : List UInt8 := [0x68, 0x00, 0x00, 0xC3, 0x00, 0x01, 0x00, 0x43, 0xF0]

/-- The second checksum is given -2 bytes. -/
theorem emptyLengthFrame_work : ¬ WorkBounded emptyLengthFrame := by
  intro h
  have hwithin := (h 0 0 (by decide) (by decide)).1 (.checksum (-2)) (by decide +kernel)
  exact absurd hwithin.1 (by decide)

end IotEdgeAgent.Dlt698.ChecksumWork
