import IotEdgeAgent.Dlt698.Checksum
import Mathlib.Data.Nat.Bitwise
import Mathlib.Data.Vector.Basic

/-!
# The link frame of DL/T 698.45

`dwGet698Apdu` finds the APDU in a received buffer and `dlt698PacketBuild` builds a
request. Positions are offsets from the start of the buffer; `none` is a read
outside it. Positions behind the length field are 32-bit numbers, as in the source,
so that the length values 0 and 1 wrap.

`Frame` is a well-formed frame with 0 to 4 leading 0xFE bytes. The parser counts
0xFE bytes among the first four bytes of the buffer instead of scanning a prefix,
and finds the frame exactly if no header byte is counted with them.
-/

namespace IotEdgeAgent.Dlt698.LinkFrame
open Checksum

def makeWord (hbyte lbyte : UInt8) : ℕ := lbyte.toNat ||| hbyte.toNat <<< 8

def u32 (z : ℤ) : ℕ := (z % 4294967296).toNat

def leaderCount (pframe : List UInt8) : Option ℕ :=
  (List.range 4).foldlM (fun premNum i => do
    let b ← pframe[i]?
    return if b = 0xFE then premNum + 1 else premNum) 0

def wordAt (pframe : List UInt8) (i : ℕ) : Option ℕ := do
  let lbyte ← pframe[i]?
  let hbyte ← pframe[i + 1]?
  return makeWord hbyte lbyte

structure ApduRef where
  ret : ℤ
  pAPDU : Option ℕ
  saAddr : Option ℕ
  saAddrLen : ℕ
  deriving DecidableEq, Repr

def checkFrame (pframe : List UInt8) (premNum uwframeLen saLen : ℕ) : Option ApduRef := do
  let refused : ApduRef := ⟨-1, none, some (premNum + 5), saLen - 1⟩
  let nHCSPos := saLen + 5
  let uwhcs ← pppfcs16 PPPINITFCS16 (pframe.drop (premNum + 1)) (nHCSPos - 1)
  let hcs ← wordAt pframe (premNum + nHCSPos)
  if uwhcs.toNat ≠ hcs then return refused else
    let nFCSPos := u32 (uwframeLen - 1)
    let uwfcs ← pppfcs16 PPPINITFCS16 (pframe.drop (premNum + 1)) (u32 (nFCSPos - 1))
    let hbyte ← pframe[u32 (premNum + nFCSPos + 1)]?
    let lbyte ← pframe[u32 (premNum + nFCSPos)]?
    if uwfcs.toNat ≠ makeWord hbyte lbyte then return refused else
      return ⟨uwframeLen - saLen - 8, some (premNum + nHCSPos + 2), some (premNum + 5), saLen - 1⟩

def dwGet698Apdu (pframe : List UInt8) : Option ApduRef := do
  let premNum ← leaderCount pframe
  let start ← pframe[premNum]?
  if start ≠ 0x68 then return ⟨-1, none, none, 0⟩ else
    let uwframeLen ← wordAt pframe (premNum + 1)
    let flag ← pframe[premNum + 4]?
    checkFrame pframe premNum uwframeLen ((flag &&& 0x0F).toNat + 2)

theorem makeWord_eq (hbyte lbyte : UInt8) :
    makeWord hbyte lbyte = 256 * hbyte.toNat + lbyte.toNat := by
  rw [makeWord, Nat.shiftLeft_eq, Nat.mul_comm, Nat.or_comm]
  exact (Nat.two_pow_add_eq_or_of_lt lbyte.toNat_lt hbyte.toNat).symm

def lowByte (w : UInt16) : UInt8 := (w &&& 0x00FF).toUInt8
def highByte (w : UInt16) : UInt8 := (w >>> 8).toUInt8

theorem lowByte_toNat (w : UInt16) : (lowByte w).toNat = w.toNat % 256 := by
  have hand : w.toNat % 256 &&& 255 = w.toNat % 256 % 256 :=
    Nat.and_two_pow_sub_one_eq_mod (w.toNat % 256) 8
  simp [lowByte, hand]

theorem highByte_toNat (w : UInt16) : (highByte w).toNat = w.toNat / 256 := by
  have hw := w.toNat_lt
  simp [highByte, Nat.shiftRight_eq_div_pow]
  omega

theorem makeWord_split (w : UInt16) : makeWord (highByte w) (lowByte w) = w.toNat := by
  rw [makeWord_eq, highByte_toNat, lowByte_toNat]
  omega

theorem wordAt_lt {pframe : List UInt8} {i w : ℕ} (h : wordAt pframe i = some w) : w < 65536 := by
  simp only [wordAt, Option.bind_eq_bind, Option.bind_eq_some_iff] at h
  obtain ⟨lbyte, -, hbyte, -, h⟩ := h
  obtain rfl := Option.some.inj h
  rw [makeWord_eq]
  have hh := hbyte.toNat_lt
  have hl := lbyte.toNat_lt
  omega

theorem wordAt_append (x y : List UInt8) (lo hi : UInt8) :
    wordAt (x ++ lo :: hi :: y) x.length = some (makeWord hi lo) := by
  simp [wordAt]

theorem wordAt_drop (f : List UInt8) (a i : ℕ) : wordAt (f.drop a) i = wordAt f (a + i) := by
  simp [wordAt, Nat.add_assoc]

theorem leaderCount_eq (f : List UInt8) (h : 4 ≤ f.length) :
    leaderCount f = some ((f.take 4).count 0xFE) := by
  match f, h with
  | a :: b :: c :: d :: rest, _ =>
    simp [leaderCount, List.range, List.range.loop, List.count_cons]
    split_ifs <;> rfl

theorem leaderCount_short (f : List UInt8) (h : f.length < 4) : leaderCount f = none := by
  match f, h with
  | [], _ => rfl
  | [a], _ => rfl
  | [a, b], _ => rfl
  | [a, b, c], _ => rfl

theorem leaderCount_le {f : List UInt8} {p : ℕ} (h : leaderCount f = some p) : p ≤ 4 := by
  by_cases hlong : 4 ≤ f.length
  · rw [leaderCount_eq f hlong] at h
    rw [← Option.some.inj h]
    exact List.count_le_length.trans (List.length_take_le 4 f)
  · rw [leaderCount_short f (Nat.not_le.mp hlong)] at h
    cases h

/-- The buffer holds a start byte behind `p` bytes counted as preamble, a length field
`len` and an address length byte for `k` address bytes (client address included), and both
checksums agree with the bytes they cover. -/
structure FrameOk (f : List UInt8) (p len k : ℕ) : Prop where
  leader : leaderCount f = some p
  start : f[p]? = some 0x68
  length : wordAt f (p + 1) = some len
  address : ∃ flag, f[p + 4]? = some flag ∧ k = (flag &&& 0x0F).toNat + 2
  hcs : ∃ w, pppfcs16 PPPINITFCS16 (f.drop (p + 1)) (k + 4) = some w ∧
    wordAt f (p + (k + 5)) = some w.toNat
  fcs : ∃ w hi lo, pppfcs16 PPPINITFCS16 (f.drop (p + 1)) (u32 (u32 (len - 1) - 1)) = some w ∧
    f[u32 (p + u32 (len - 1) + 1)]? = some hi ∧ f[u32 (p + u32 (len - 1))]? = some lo ∧
    w.toNat = makeWord hi lo

def FrameOk.ref (p len k : ℕ) : ApduRef :=
  ⟨len - k - 8, some (p + (k + 5) + 2), some (p + 5), k - 1⟩

theorem checkFrame_accepts {f : List UInt8} {p len k : ℕ} {r : ApduRef}
    (h : checkFrame f p len k = some r) {a : ℕ} (ha : r.pAPDU = some a) :
    (∃ w, pppfcs16 PPPINITFCS16 (f.drop (p + 1)) (k + 4) = some w ∧
      wordAt f (p + (k + 5)) = some w.toNat) ∧
    (∃ w hi lo, pppfcs16 PPPINITFCS16 (f.drop (p + 1)) (u32 (u32 (len - 1) - 1)) = some w ∧
      f[u32 (p + u32 (len - 1) + 1)]? = some hi ∧ f[u32 (p + u32 (len - 1))]? = some lo ∧
      w.toNat = makeWord hi lo) ∧ r = FrameOk.ref p len k := by
  simp only [checkFrame, Option.bind_eq_bind, Option.bind_eq_some_iff] at h
  obtain ⟨uwhcs, hu, hcs, hc, h⟩ := h
  split_ifs at h with hne
  · cases h
    cases ha
  · simp only [Option.bind_eq_some_iff] at h
    obtain ⟨uwfcs, hf, hi, hhi, lo, hlo, h⟩ := h
    split_ifs at h with hne'
    · cases h
      cases ha
    · cases h
      refine ⟨⟨uwhcs, hu, ?_⟩, ⟨uwfcs, hi, lo, hf, hhi, hlo, not_not.mp hne'⟩, rfl⟩
      rw [hc, not_not.mp hne]

theorem dwGet698Apdu_accepts {f : List UInt8} {r : ApduRef} (h : dwGet698Apdu f = some r)
    {a : ℕ} (ha : r.pAPDU = some a) : ∃ p len k, FrameOk f p len k ∧ r = FrameOk.ref p len k := by
  simp only [dwGet698Apdu, Option.bind_eq_bind, Option.bind_eq_some_iff] at h
  obtain ⟨p, hp, start, hstart, h⟩ := h
  split_ifs at h with hne
  · cases h
    cases ha
  · simp only [Option.bind_eq_some_iff] at h
    obtain ⟨len, hlen, flag, hflag, h⟩ := h
    obtain ⟨hhcs, hfcs, hr⟩ := checkFrame_accepts h ha
    rw [not_not.mp hne] at hstart
    exact ⟨p, len, _, ⟨hp, hstart, hlen, ⟨flag, hflag, rfl⟩, hhcs, hfcs⟩, hr⟩

theorem FrameOk.dwGet698Apdu_eq {f : List UInt8} {p len k : ℕ} (h : FrameOk f p len k) :
    dwGet698Apdu f = some (FrameOk.ref p len k) := by
  obtain ⟨hp, hs, hl, ⟨flag, hflag, hk⟩, ⟨w, hw, hword⟩, ⟨w', hi, lo, hw', hhi, hlo, heq⟩⟩ := h
  have hcheck : checkFrame f p len k = some (FrameOk.ref p len k) := by
    simp [checkFrame, hw, hword, hw', hhi, hlo, heq, FrameOk.ref]
  simp only [dwGet698Apdu, hp, hs, hl, hflag, ← hk, hcheck, Option.bind_eq_bind, Option.bind_some,
    ne_eq, not_true_eq_false, if_false]

theorem FrameOk.unique {f : List UInt8} {p len k p' len' k' : ℕ} (h : FrameOk f p len k)
    (h' : FrameOk f p' len' k') : p = p' ∧ len = len' ∧ k = k' := by
  have hp : p = p' := Option.some.inj (h.leader.symm.trans h'.leader)
  subst hp
  have hlen : len = len' := Option.some.inj (h.length.symm.trans h'.length)
  obtain ⟨flag, hflag, hk⟩ := h.address
  obtain ⟨flag', hflag', hk'⟩ := h'.address
  have hflags : flag = flag' := Option.some.inj (hflag.symm.trans hflag')
  exact ⟨rfl, hlen, by rw [hk, hk', hflags]⟩

theorem dwGet698Apdu_saAddr {f : List UInt8} {r : ApduRef} (h : dwGet698Apdu f = some r)
    {a p : ℕ} (ha : r.saAddr = some a) (hp : leaderCount f = some p) : a = p + 5 := by
  simp only [dwGet698Apdu, hp, Option.bind_eq_bind, Option.bind_some,
    Option.bind_eq_some_iff] at h
  obtain ⟨start, -, h⟩ := h
  split_ifs at h
  · cases h
    cases ha
  · simp only [Option.bind_eq_some_iff] at h
    obtain ⟨len, -, flag, -, h⟩ := h
    simp only [checkFrame, Option.bind_eq_bind, Option.bind_eq_some_iff] at h
    obtain ⟨uwhcs, -, hcs, -, h⟩ := h
    split_ifs at h
    · cases h
      cases ha
      rfl
    · simp only [Option.bind_eq_some_iff] at h
      obtain ⟨uwfcs, -, hi, -, lo, -, h⟩ := h
      split_ifs at h <;> cases h <;> cases ha <;> rfl

structure Frame where
  preamble : Fin 5
  control : UInt8
  flag : UInt8
  addr : Vector UInt8 ((flag &&& 0x0F).toNat + 1)
  ca : UInt8
  apdu : List UInt8
  fits : (flag &&& 0x0F).toNat + 1 + 9 + apdu.length < 65536

namespace Frame
variable (F : Frame)

def addrLen : ℕ := (F.flag &&& 0x0F).toNat + 1

def length : UInt16 := UInt16.ofNat (F.addrLen + 9 + F.apdu.length)

def header : List UInt8 :=
  lowByte F.length :: highByte F.length :: F.control :: F.flag :: (F.addr.toList ++ [F.ca])

def hcs : UInt16 := fcs16 PPPINITFCS16 F.header

def covered : List UInt8 := F.header ++ lowByte F.hcs :: highByte F.hcs :: F.apdu

def fcs : UInt16 := fcs16 PPPINITFCS16 F.covered

def bytes : List UInt8 :=
  List.replicate F.preamble 0xFE ++
    0x68 :: (F.covered ++ lowByte F.fcs :: highByte F.fcs :: [0x16])

def addrPos : ℕ := F.preamble + 5

def apduPos : ℕ := F.preamble + F.addrLen + 8

theorem length_toNat : F.length.toNat = F.addrLen + 9 + F.apdu.length := by
  have hfits := F.fits
  simp only [length, addrLen, UInt16.toNat_ofNat']
  omega

theorem header_length : F.header.length = F.addrLen + 5 := by
  simp [header, addrLen]

theorem covered_length : F.covered.length = F.addrLen + 7 + F.apdu.length := by
  simp only [covered, List.length_append, List.length_cons, header_length]
  omega

theorem bytes_drop : F.bytes.drop (F.preamble + 1) =
    F.covered ++ lowByte F.fcs :: highByte F.fcs :: [0x16] := by
  simp [bytes, List.drop_append]

theorem covered_drop_addr : (F.covered.drop 4).take F.addrLen = F.addr.toList := by
  simp [covered, header, addrLen]

theorem covered_drop_apdu : F.covered.drop (F.addrLen + 7) = F.apdu := by
  have hlen : F.addrLen + 7 = F.header.length + 2 := by
    rw [header_length]
  rw [hlen, covered, List.drop_append]
  simp

theorem bytes_addr : (F.bytes.drop F.addrPos).take F.addrLen = F.addr.toList := by
  have hpos : F.addrPos = F.preamble + 1 + 4 := rfl
  have hle : 4 + F.addrLen ≤ F.covered.length := by
    rw [covered_length]
    omega
  rw [hpos, ← List.drop_drop, bytes_drop, List.drop_append_of_le_length (by omega),
    List.take_append_of_le_length (by simp only [List.length_drop]; omega), covered_drop_addr]

theorem bytes_drop_apdu : F.bytes.drop F.apduPos =
    F.apdu ++ lowByte F.fcs :: highByte F.fcs :: [0x16] := by
  have hpos : F.apduPos = F.preamble + 1 + (F.addrLen + 7) := by
    simp only [apduPos]
    omega
  have hle : F.addrLen + 7 ≤ F.covered.length := by
    rw [covered_length]
    omega
  rw [hpos, ← List.drop_drop, bytes_drop, List.drop_append_of_le_length hle, covered_drop_apdu]

theorem bytes_apdu : (F.bytes.drop F.apduPos).take F.apdu.length = F.apdu := by
  rw [bytes_drop_apdu, List.take_left]

theorem leaderCount_bytes :
    leaderCount F.bytes = some (F.preamble + (F.header.take (3 - F.preamble)).count 0xFE) := by
  have hlen : 4 ≤ F.bytes.length := by
    have hdrop := congrArg List.length F.bytes_drop
    simp only [List.length_drop, List.length_append, covered_length, List.length_cons] at hdrop
    omega
  rw [leaderCount_eq F.bytes hlen]
  have hheader : 3 - F.preamble ≤ F.header.length := by
    rw [header_length]
    omega
  have hfour : (List.replicate F.preamble.val (0xFE : UInt8)).take 4 =
      List.replicate F.preamble.val 0xFE := by
    apply List.take_of_length_le
    rw [List.length_replicate]
    omega
  rw [bytes, List.take_append, List.count_append, hfour, List.count_replicate_self,
    List.length_replicate]
  by_cases hlast : F.preamble.val = 4
  · simp [hlast]
  · have hsplit : 4 - F.preamble.val = (3 - F.preamble.val) + 1 := by omega
    rw [hsplit, List.take_succ_cons, covered, List.append_assoc,
      List.take_append_of_le_length hheader, List.count_cons_of_ne (by decide)]

theorem bytes_length_word : wordAt F.bytes (F.preamble + 1) = some F.length.toNat := by
  rw [← makeWord_split, ← Nat.add_zero (F.preamble.val + 1), ← wordAt_drop, bytes_drop]
  simp [wordAt, covered, header]

theorem bytes_flag : F.bytes[F.preamble.val + 4]? = some F.flag := by
  rw [show F.preamble.val + 4 = F.preamble + 1 + 3 from rfl, ← List.getElem?_drop, bytes_drop]
  simp [covered, header]

theorem bytes_hcs :
    pppfcs16 PPPINITFCS16 (F.bytes.drop (F.preamble + 1)) (F.addrLen + 5) = some F.hcs ∧
    wordAt F.bytes (F.preamble + 1 + (F.addrLen + 5)) = some F.hcs.toNat := by
  rw [← wordAt_drop, bytes_drop, covered, List.append_assoc, ← header_length]
  constructor
  · exact pppfcs16_append PPPINITFCS16 F.header _
  · rw [List.cons_append, List.cons_append, wordAt_append, makeWord_split]

theorem bytes_fcs :
    pppfcs16 PPPINITFCS16 (F.bytes.drop (F.preamble + 1)) F.covered.length = some F.fcs ∧
    F.bytes[F.preamble + 1 + (F.covered.length + 1)]? = some (highByte F.fcs) ∧
    F.bytes[F.preamble + 1 + F.covered.length]? = some (lowByte F.fcs) := by
  simp only [← List.getElem?_drop, bytes_drop]
  refine ⟨pppfcs16_append PPPINITFCS16 F.covered _, ?_, ?_⟩ <;> simp

theorem frameOk (hp : leaderCount F.bytes = some F.preamble.val) :
    FrameOk F.bytes F.preamble F.length.toNat (F.addrLen + 1) := by
  have hlen := F.length_toNat
  have hcov := F.covered_length
  have hsmall : F.addrLen + 9 + F.apdu.length < 65536 := F.fits
  have hspan : u32 (u32 (F.length.toNat - 1) - 1) = F.covered.length := by
    simp only [u32]
    omega
  have hlo : u32 (F.preamble + u32 (F.length.toNat - 1)) = F.preamble + 1 + F.covered.length := by
    simp only [u32]
    omega
  have hhi : u32 (F.preamble + u32 (F.length.toNat - 1) + 1) =
      F.preamble + 1 + (F.covered.length + 1) := by
    simp only [u32]
    omega
  obtain ⟨hsum, hhibyte, hlobyte⟩ := F.bytes_fcs
  refine ⟨hp, by simp [bytes], F.bytes_length_word, ⟨F.flag, F.bytes_flag, rfl⟩,
    ⟨F.hcs, F.bytes_hcs.1, ?_⟩, ⟨F.fcs, highByte F.fcs, lowByte F.fcs, ?_, ?_, ?_, ?_⟩⟩
  · rw [← F.bytes_hcs.2]
    congr 1
    omega
  · rw [hspan, hsum]
  · rw [hhi, hhibyte]
  · rw [hlo, hlobyte]
  · exact (makeWord_split F.fcs).symm

theorem dwGet698Apdu_bytes (hp : leaderCount F.bytes = some F.preamble.val) :
    dwGet698Apdu F.bytes =
      some ⟨F.apdu.length, some F.apduPos, some F.addrPos, F.addrLen⟩ := by
  have hlen := F.length_toNat
  rw [(F.frameOk hp).dwGet698Apdu_eq]
  simp only [FrameOk.ref, Option.some.injEq, ApduRef.mk.injEq, apduPos, addrPos]
  refine ⟨by omega, by omega, trivial, rfl⟩

end Frame

def Finds (F : Frame) : Prop :=
  dwGet698Apdu F.bytes = some ⟨F.apdu.length, some F.apduPos, some F.addrPos, F.addrLen⟩ ∧
    (F.bytes.drop F.apduPos).take F.apdu.length = F.apdu ∧
    (F.bytes.drop F.addrPos).take F.addrLen = F.addr.toList

theorem finds_iff_no_leader_in_header (F : Frame) :
    Finds F ↔ 0xFE ∉ F.header.take (3 - F.preamble) := by
  have hcount := F.leaderCount_bytes
  constructor
  · rintro ⟨hget, -, -⟩ hmem
    have hsome := List.count_pos_iff.mpr hmem
    have haddr : F.addrPos = F.preamble + (F.header.take (3 - F.preamble)).count 0xFE + 5 :=
      dwGet698Apdu_saAddr hget rfl hcount
    simp only [Frame.addrPos] at haddr
    omega
  · intro hmem
    have hp : leaderCount F.bytes = some F.preamble.val := by
      rw [hcount, List.count_eq_zero.mpr hmem, Nat.add_zero]
    exact ⟨F.dwGet698Apdu_bytes hp, F.bytes_apdu, F.bytes_addr⟩

/-- A 239-byte APDU with a six-byte address has the length 254, that is `FE 00`. -/
def leaderLengthFrame : Frame where
  preamble := 0
  control := 0xC3
  flag := 0x05
  addr := Vector.replicate 6 0
  ca := 0
  apdu := List.replicate 239 0
  fits := by
    rw [List.length_replicate]
    decide

theorem dwGet698Apdu_misses_leaderLengthFrame : ¬ Finds leaderLengthFrame := by
  intro hfinds
  have hcount := leaderLengthFrame.leaderCount_bytes
  have haddr := dwGet698Apdu_saAddr hfinds.1 rfl hcount
  have hlength : leaderLengthFrame.length = 254 := by
    simp only [Frame.length, Frame.addrLen, leaderLengthFrame, List.length_replicate]
    decide
  rw [Frame.header, hlength] at haddr
  revert haddr
  decide

end IotEdgeAgent.Dlt698.LinkFrame
