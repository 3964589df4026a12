import IotEdgeAgent.Dlt698.Checksum
import IotEdgeAgent.Library.Crc

/-!
# The checksum table against the bitwise checksum

Each entry of `fcstab` is what eight steps of the bitwise check make of its index, so that
`pppfcs16` is the reflected check with the polynomial 0x8408.
-/

namespace IotEdgeAgent.Dlt698.FcsTable
open Checksum

def bitStep (fcs : UInt16) : UInt16 :=
  if fcs &&& 1 = 1 then (fcs >>> 1) ^^^ 0x8408 else fcs >>> 1

def bitSteps : ℕ → UInt16 → UInt16
  | 0, fcs => fcs
  | n + 1, fcs => bitSteps n (bitStep fcs)

def byteStep (fcs : UInt16) (b : UInt8) : UInt16 := bitSteps 8 (fcs ^^^ b.toUInt16)

def bitwiseFcs16 (fcs : UInt16) (bytes : List UInt8) : UInt16 := ~~~(bytes.foldl byteStep fcs)

def bitsOf (bytes : List UInt8) : List Bool :=
  bytes.flatMap fun b => (List.range 8).map b.toBitVec.getLsbD

/-- CRC-16/X.25: polynomial 0x1021 with the top bit first, initial value and final exclusive or
0xFFFF, and the bits of the bytes and of the result in reverse order. -/
def crc16X25 (bytes : List UInt8) : BitVec 16 :=
  (Crc.feedTop 0x1021#16 0xFFFF#16 (bitsOf bytes)).reverse ^^^ 0xFFFF#16

def polynomial : BitVec 16 := 0x8408#16

theorem low_bit (fcs : UInt16) :
    (fcs &&& 1).toBitVec = (BitVec.ofBool (fcs.toBitVec.getLsbD 0)).setWidth 16 := by
  rw [UInt16.toBitVec_and]
  exact BitVec.and_one_eq_setWidth_ofBool_getLsbD

theorem bitStep_toBitVec (fcs : UInt16) :
    (bitStep fcs).toBitVec = Crc.step polynomial fcs.toBitVec := by
  have hlow : fcs &&& 1 = 1 ↔ fcs.toBitVec.getLsbD 0 = true := by
    rw [← UInt16.toBitVec_inj, low_bit]
    cases fcs.toBitVec.getLsbD 0 <;> decide
  rw [bitStep, Crc.step]
  by_cases h : fcs.toBitVec.getLsbD 0 = true
  · rw [if_pos (hlow.mpr h), if_pos h]
    rfl
  · rw [if_neg (mt hlow.mp h), if_neg h]
    rfl

theorem bitSteps_toBitVec (n : ℕ) (fcs : UInt16) :
    (bitSteps n fcs).toBitVec = Crc.steps polynomial n fcs.toBitVec := by
  induction n generalizing fcs with
  | zero => rfl
  | succ n ih => rw [bitSteps, ih, bitStep_toBitVec, Crc.steps]

theorem fcstab_eq : fcstab = (List.range 256).map fun i => bitSteps 8 (UInt16.ofNat i) := by
  decide +kernel

theorem fcstab_getD {i : ℕ} (h : i < 256) : fcstab.getD i 0 = bitSteps 8 (UInt16.ofNat i) := by
  rw [fcstab_eq, List.getD_eq_getElem?_getD, List.getElem?_map, List.getElem?_range h]
  rfl

theorem low_byte (x : UInt16) :
    (x &&& 0xff).toBitVec = (x.toBitVec.setWidth 8).setWidth 16 := by
  apply BitVec.eq_of_toNat_eq
  have hand : x.toNat &&& 255 = x.toNat % 256 := Nat.and_two_pow_sub_one_eq_mod x.toNat 8
  have hsmall : x.toNat % 256 < 65536 :=
    Nat.lt_trans (Nat.mod_lt x.toNat (by decide : 0 < 256)) (by decide)
  rw [BitVec.toNat_setWidth, BitVec.toNat_setWidth, UInt16.toNat_toBitVec, UInt16.toNat_toBitVec,
    UInt16.toNat_and]
  exact hand.trans (Nat.mod_eq_of_lt hsmall).symm

theorem byte_shifted_out (fcs : UInt16) (b : UInt8) :
    (fcs ^^^ b.toUInt16).toBitVec >>> 8 = fcs.toBitVec >>> 8 := by
  have hbyte : b.toUInt16.toBitVec >>> 8 = 0#16 := by
    apply BitVec.eq_of_toNat_eq
    have hb : b.toUInt16.toNat / 256 = 0 := Nat.div_eq_of_lt b.toNat_lt
    rw [BitVec.toNat_ushiftRight, Nat.shiftRight_eq_div_pow]
    exact hb
  rw [UInt16.toBitVec_xor, BitVec.ushiftRight_xor_distrib, hbyte, BitVec.xor_zero]

theorem fcsStep_eq (fcs : UInt16) (b : UInt8) : fcsStep fcs b = byteStep fcs b := by
  have hindex : ((fcs ^^^ b.toUInt16) &&& 0xff).toNat < 256 := by
    rw [UInt16.toNat_and]
    exact Nat.lt_of_le_of_lt Nat.and_le_right (by decide)
  have htable := Crc.steps_eq_table polynomial 8 (fcs ^^^ b.toUInt16).toBitVec
  rw [byte_shifted_out, ← low_byte] at htable
  apply UInt16.toBitVec_inj.mp
  rw [fcsStep, fcstab_getD hindex, UInt16.ofNat_toNat, byteStep, UInt16.toBitVec_xor,
    bitSteps_toBitVec, bitSteps_toBitVec, htable]
  rfl

theorem fcs16_eq (fcs : UInt16) (bytes : List UInt8) : fcs16 fcs bytes = bitwiseFcs16 fcs bytes := by
  have hstep : fcsStep = byteStep := funext fun fcs => funext fun b => fcsStep_eq fcs b
  rw [fcs16, bitwiseFcs16, hstep]

theorem byte_word (b : UInt8) :
    Crc.word 16 ((List.range 8).map b.toBitVec.getLsbD) = b.toUInt16.toBitVec := by
  apply BitVec.eq_of_getLsbD_eq
  intro i hi
  have hwide : b.toUInt16.toBitVec = b.toBitVec.setWidth 16 := rfl
  rw [Crc.getLsbD_word, hwide, BitVec.getLsbD_setWidth, List.getD_eq_getElem?_getD,
    List.getElem?_map]
  by_cases hbyte : i < 8
  · rw [List.getElem?_range hbyte]
    rfl
  · rw [List.getElem?_eq_none (by rw [List.length_range]; omega),
      BitVec.getLsbD_of_ge b.toBitVec i (Nat.not_lt.mp hbyte)]
    rfl

theorem byteStep_toBitVec (fcs : UInt16) (b : UInt8) :
    (byteStep fcs b).toBitVec =
      Crc.feed polynomial fcs.toBitVec ((List.range 8).map b.toBitVec.getLsbD) := by
  have hshort : ((List.range 8).map b.toBitVec.getLsbD).length ≤ 16 := by simp
  rw [byteStep, bitSteps_toBitVec, Crc.feed_eq_steps polynomial hshort, byte_word,
    UInt16.toBitVec_xor, List.length_map, List.length_range]

theorem foldl_byteStep_toBitVec (fcs : UInt16) (bytes : List UInt8) :
    (bytes.foldl byteStep fcs).toBitVec = Crc.feed polynomial fcs.toBitVec (bitsOf bytes) := by
  induction bytes generalizing fcs with
  | nil => rfl
  | cons b bytes ih =>
    rw [List.foldl_cons, ih, byteStep_toBitVec, ← Crc.feed_append]
    rfl

theorem fcs16_toBitVec (fcs : UInt16) (bytes : List UInt8) :
    (fcs16 fcs bytes).toBitVec = ~~~(Crc.feed polynomial fcs.toBitVec (bitsOf bytes)) := by
  rw [fcs16_eq, bitwiseFcs16, UInt16.toBitVec_not, foldl_byteStep_toBitVec]

theorem fcs16_x25 (bytes : List UInt8) :
    (fcs16 PPPINITFCS16 bytes).toBitVec = crc16X25 bytes := by
  have hpoly : (0x1021#16).reverse = polynomial := by decide
  have hinit : (0xFFFF#16).reverse = PPPINITFCS16.toBitVec := by decide
  rw [crc16X25, Crc.reverse_feedTop, hpoly, hinit, fcs16_toBitVec]
  exact (BitVec.xor_allOnes).symm

/-- The checksum with the table is the bitwise one, and CRC-16/X.25 from its initial value on. -/
theorem pppfcs16_bitwise (fcs : UInt16) (cp rest : List UInt8) :
    pppfcs16 fcs (cp ++ rest) cp.length = some (bitwiseFcs16 fcs cp) ∧
      (bitwiseFcs16 PPPINITFCS16 cp).toBitVec = crc16X25 cp := by
  constructor
  · rw [pppfcs16_append, fcs16_eq]
  · rw [← fcs16_eq, fcs16_x25]

end IotEdgeAgent.Dlt698.FcsTable
