import IotEdgeAgent.Dlt698.LinkFrame
import Mathlib.Tactic.IntervalCases

/-!
# Building a request

`dlt698_packet_build` fills a global buffer at fixed positions and copies its front
into a fresh packet. Neither the old contents of the buffer nor those of the packet
reach the 29 bytes of the frame, and the parser for responses accepts that frame.
-/

namespace IotEdgeAgent.Dlt698.Request
open Checksum LinkFrame

@[simp] def DLT698_LEADER_CHAR : UInt8 := 0xFE
@[simp] def DLT698_HEADER : UInt8 := 0x68
@[simp] def DLT698_END : UInt8 := 0x16
@[simp] def DLT698_C_2_S_DATA : UInt8 := 0x43
@[simp] def DLT698_CLIENT_ADDR : UInt8 := 0x00
@[simp] def DLT698_PIID : UInt8 := 0x01
@[simp] def DLT698_TIME_LABER : UInt8 := 0x00
@[simp] def GET_Request : UInt8 := 5
@[simp] def GetRequestNormal : UInt8 := 1

@[simp] def DLT698_HEADER_LOC : ℕ := 4
@[simp] def DLT698_LENGTH_LOC : ℕ := 5
@[simp] def DLT698_CON_LOC : ℕ := 7
@[simp] def DLT698_SA_LOC : ℕ := 8
@[simp] def DLT698_CA_LOC : ℕ := 15
@[simp] def DLT698_HEAD_CRC_LOC : ℕ := 16
@[simp] def DLT698_APDU_LOC : ℕ := 18
@[simp] def DLT698_PIID_LOC : ℕ := 20
@[simp] def DLT698_OAD_LOC : ℕ := 21
@[simp] def DLT698_TIME_LOC : ℕ := 25
@[simp] def DLT698_ALL_CRC_LOC : ℕ := 26
@[simp] def DLT698_END_LOC : ℕ := 28

abbrev Buffer := Vector UInt8 1024

namespace Buffer

def store (b : Buffer) (i : ℕ) (v : UInt8) : Buffer := b.setIfInBounds i v

@[simp] theorem store_getElem? (b : Buffer) (i j : ℕ) (v : UInt8) :
    (b.store i v)[j]? = if i = j then (if i < 1024 then some v else none) else b[j]? := by
  rw [store, Vector.getElem?_setIfInBounds]

@[simp] theorem store_getElem (b : Buffer) (i j : ℕ) (v : UInt8) (hj : j < 1024) :
    (b.store i v)[j] = if i = j then v else b[j] := by
  simp only [store, Vector.getElem_setIfInBounds]

def Holds (b : Buffer) (i : ℕ) (bytes : List UInt8) : Prop :=
  ∀ j, j < bytes.length → b[i + j]? = bytes[j]?

theorem holds_nil (b : Buffer) (i : ℕ) : b.Holds i [] := by
  intro j hj
  simp at hj

theorem Holds.slice {b : Buffer} {i : ℕ} {bytes : List UInt8} (h : b.Holds i bytes) :
    (b.toList.drop i).take bytes.length = bytes := by
  apply List.ext_getElem?
  intro j
  rw [List.getElem?_take]
  split_ifs with hj
  · rw [List.getElem?_drop, ← h j hj, Vector.getElem?_toList]
  · rw [List.getElem?_eq_none (Nat.le_of_not_lt hj)]

theorem Holds.append {b : Buffer} {i : ℕ} {x y : List UInt8} (hx : b.Holds i x)
    (hy : b.Holds (i + x.length) y) : b.Holds i (x ++ y) := by
  intro j hj
  by_cases hlt : j < x.length
  · rw [hx j hlt, List.getElem?_append_left hlt]
  · rw [List.getElem?_append_right (Nat.le_of_not_lt hlt), ← hy (j - x.length)]
    · congr 1
      omega
    · rw [List.length_append] at hj
      omega

theorem Holds.right {b : Buffer} {i : ℕ} {x y : List UInt8} (h : b.Holds i (x ++ y)) :
    b.Holds (i + x.length) y := by
  intro j hj
  rw [Nat.add_assoc, h (x.length + j) (by rw [List.length_append]; omega)]
  rw [List.getElem?_append_right (Nat.le_add_right _ _), Nat.add_sub_cancel_left]

theorem Holds.store {b : Buffer} {i : ℕ} {bytes : List UInt8} (h : b.Holds i bytes) {k : ℕ}
    (hk : k < i ∨ i + bytes.length ≤ k) (v : UInt8) : (b.store k v).Holds i bytes := by
  intro j hj
  rw [store_getElem?, if_neg (by omega), h j hj]

theorem Holds.pppfcs16 {b : Buffer} {i : ℕ} {bytes : List UInt8} (h : b.Holds i bytes)
    (fcs : UInt16) (hi : i + bytes.length ≤ 1024) :
    pppfcs16 fcs (b.toList.drop i) bytes.length = some (fcs16 fcs bytes) := by
  rw [pppfcs16_eq, h.slice, if_pos]
  rw [List.length_drop, Vector.length_toList]
  omega

end Buffer

structure Dlt698Packet where
  data : Vector UInt8 512
  length : UInt8

def Dlt698Packet.bytes (packet : Dlt698Packet) : List UInt8 :=
  packet.data.toList.take packet.length.toNat

def storeLeader (b : Buffer) : Buffer :=
  (List.finRange 4).foldl (fun b (i : Fin 4) => b.store i DLT698_LEADER_CHAR) b

def storeServerAddr (b : Buffer) (sa : Vector UInt8 6) : Buffer :=
  (List.finRange 6).foldl (fun b (i : Fin 6) => b.store (DLT698_SA_LOC + 1 + i) (sa[5 - i])) b

def storeOad (b : Buffer) (oad : Vector UInt8 4) : Buffer :=
  (List.finRange 4).foldl (fun b (i : Fin 4) => b.store (DLT698_OAD_LOC + i) (oad[i])) b

/-- All fields but the checksums and the end byte, with the running value of `length`. -/
def storeFields (b : Buffer) (oad : Vector UInt8 4) (sa : Vector UInt8 6) : Buffer × ℕ :=
  let b := storeLeader b
  let b := b.store DLT698_HEADER_LOC DLT698_HEADER
  let b := b.store DLT698_CON_LOC DLT698_C_2_S_DATA
  let length := 0 + 3
  let b := b.store DLT698_SA_LOC 0x05
  let length := length + 1
  let b := storeServerAddr b sa
  let length := length + 6
  let b := b.store DLT698_CA_LOC DLT698_CLIENT_ADDR
  let length := length + 1 + 2
  let b := b.store DLT698_APDU_LOC GET_Request
  let b := b.store (DLT698_APDU_LOC + 1) GetRequestNormal
  let b := b.store DLT698_PIID_LOC DLT698_PIID
  let b := storeOad b oad
  let b := b.store DLT698_TIME_LOC DLT698_TIME_LABER
  let length := length + 8 + 2
  let b := b.store DLT698_LENGTH_LOC (UInt8.ofNat length)
  let b := b.store (DLT698_LENGTH_LOC + 1) 0x00
  (b, length)

def storeWord (b : Buffer) (i : ℕ) (w : UInt16) : Buffer :=
  (b.store i (lowByte w)).store (i + 1) (highByte w)

theorem storeWord_holds (b : Buffer) (i : ℕ) (w : UInt16) (hi : i + 1 < 1024) :
    (storeWord b i w).Holds i [lowByte w, highByte w] := by
  intro j hj
  have hj : j < 2 := hj
  interval_cases j
  · simp [storeWord]
    omega
  · simp [storeWord, hi]

theorem Buffer.Holds.storeWord {b : Buffer} {front tail : List UInt8} (hfront : b.Holds 0 front)
    (htail : b.Holds (front.length + 2) tail) (hk : front.length + 1 < 1024) (w : UInt16) :
    (storeWord b front.length w).Holds 0 (front ++ (lowByte w :: highByte w :: tail)) := by
  have hleft : (Request.storeWord b front.length w).Holds 0 front :=
    (hfront.store (by omega) (lowByte w)).store (by omega) (highByte w)
  have hright : (Request.storeWord b front.length w).Holds (front.length + 2) tail :=
    (htail.store (by omega) (lowByte w)).store (by omega) (highByte w)
  have hword := storeWord_holds b front.length w hk
  apply hleft.append
  rw [Nat.zero_add]
  exact hword.append hright

def memcpy (dst : Vector UInt8 512) (src : Buffer) (length : ℕ) : Vector UInt8 512 :=
  Vector.ofFn fun i => if i < length then src[i.val] else dst[i]

def dlt698PacketBuild (b : Buffer) (packet : Option (Vector UInt8 512))
    (oad : Option (Vector UInt8 4)) (sa : Option (Vector UInt8 6)) :
    Option (Option Dlt698Packet × Buffer) :=
  match oad, sa, packet with
  | some oad, some sa, some data => do
    let (b, length) := storeFields b oad sa
    let uwhcs ← pppfcs16 PPPINITFCS16 (b.toList.drop 5) 11
    let b := storeWord b DLT698_HEAD_CRC_LOC uwhcs
    let uwfcs ← pppfcs16 PPPINITFCS16 (b.toList.drop 5) (length - 2)
    let b := storeWord b DLT698_ALL_CRC_LOC uwfcs
    let b := b.store DLT698_END_LOC DLT698_END
    let length := length + 6
    return (some ⟨memcpy data b length, UInt8.ofNat length⟩, b)
  | _, _, _ => some (none, b)

def requestFrame (oad : Vector UInt8 4) (sa : Vector UInt8 6) : Frame where
  preamble := ⟨4, by decide⟩
  control := DLT698_C_2_S_DATA
  flag := 0x05
  addr := sa.reverse
  ca := DLT698_CLIENT_ADDR
  apdu := [GET_Request, GetRequestNormal, DLT698_PIID] ++ oad.toList ++ [DLT698_TIME_LABER]
  fits := by simp

def requestStart : List UInt8 := List.replicate 4 0xFE ++ [0x68]

variable (b : Buffer) (oad : Vector UInt8 4) (sa : Vector UInt8 6)

theorem storeFields_length : (storeFields b oad sa).2 = 23 := rfl

theorem requestFrame_length : (requestFrame oad sa).length = 23 := by
  simp [Frame.length, Frame.addrLen, requestFrame]

theorem requestFrame_apdu_length : (requestFrame oad sa).apdu.length = 8 := by
  simp [requestFrame]

theorem storeFields_front :
    (storeFields b oad sa).1.Holds 0
      (requestStart ++ (requestFrame oad sa).header) := by
  have hlo : lowByte 23 = 23 := rfl
  have hhi : highByte 23 = 0 := rfl
  intro j hj
  have hj : j < 16 := by simpa [requestStart, Frame.header, requestFrame] using hj
  rw [requestStart, Frame.header, requestFrame_length, hlo, hhi]
  interval_cases j <;>
    simp [storeFields, storeLeader, storeServerAddr, storeOad, List.finRange, List.ofFn, Fin.foldr,
      Fin.foldr.loop, requestFrame]

theorem storeFields_apdu :
    (storeFields b oad sa).1.Holds 18 (requestFrame oad sa).apdu := by
  intro j hj
  have hj : j < 8 := by simpa [requestFrame] using hj
  interval_cases j <;>
    simp [storeFields, storeLeader, storeServerAddr, storeOad, List.finRange, List.ofFn, Fin.foldr,
      Fin.foldr.loop, requestFrame]

theorem requestFrame_addrLen : (requestFrame oad sa).addrLen = 6 := by
  simp [Frame.addrLen, requestFrame]

theorem requestFrame_header_length : (requestFrame oad sa).header.length = 11 := by
  rw [Frame.header_length, requestFrame_addrLen]

theorem requestFrame_covered_length : (requestFrame oad sa).covered.length = 21 := by
  rw [Frame.covered_length, requestFrame_addrLen, requestFrame_apdu_length]

theorem requestFrame_bytes : (requestFrame oad sa).bytes = requestStart ++
    (requestFrame oad sa).covered ++
      ([lowByte (requestFrame oad sa).fcs, highByte (requestFrame oad sa).fcs] ++ [0x16]) := by
  simp [Frame.bytes, requestStart, requestFrame]

theorem storeFields_hcs (b : Buffer) :
    pppfcs16 PPPINITFCS16 ((storeFields b oad sa).1.toList.drop 5) 11 =
      some (requestFrame oad sa).hcs := by
  have hheader := (storeFields_front b oad sa).right.pppfcs16 PPPINITFCS16
  rw [requestFrame_header_length] at hheader
  exact hheader (by decide)

theorem storeHcs_holds :
    (storeWord (storeFields b oad sa).1 16 (requestFrame oad sa).hcs).Holds 0
      (requestStart ++ (requestFrame oad sa).covered) := by
  have hlen : (requestStart ++ (requestFrame oad sa).header).length = 16 := by
    rw [List.length_append, requestFrame_header_length]
    rfl
  have htail := storeFields_apdu b oad sa
  rw [show 18 = (requestStart ++ (requestFrame oad sa).header).length + 2 by rw [hlen]] at htail
  have happend := (storeFields_front b oad sa).storeWord htail (by omega) (requestFrame oad sa).hcs
  rwa [hlen, List.append_assoc] at happend

theorem storeHcs_fcs (b : Buffer) :
    pppfcs16 PPPINITFCS16
      ((storeWord (storeFields b oad sa).1 16 (requestFrame oad sa).hcs).toList.drop 5) 21 =
      some (requestFrame oad sa).fcs := by
  have hcovered := (storeHcs_holds b oad sa).right.pppfcs16 PPPINITFCS16
  rw [requestFrame_covered_length] at hcovered
  exact hcovered (by decide)

def requestBuffer : Buffer :=
  let head := storeWord (storeFields b oad sa).1 DLT698_HEAD_CRC_LOC (requestFrame oad sa).hcs
  (storeWord head DLT698_ALL_CRC_LOC (requestFrame oad sa).fcs).store DLT698_END_LOC DLT698_END

theorem requestBuffer_holds :
    (requestBuffer b oad sa).Holds 0 (requestFrame oad sa).bytes := by
  have hlen : (requestStart ++ (requestFrame oad sa).covered).length = 26 := by
    rw [List.length_append, requestFrame_covered_length]
    rfl
  have hfcs := (storeHcs_holds b oad sa).storeWord (Buffer.holds_nil _ _) (by omega)
    (requestFrame oad sa).fcs
  rw [hlen] at hfcs
  have hend : (requestBuffer b oad sa).Holds 28 [0x16] := by
    intro j hj
    have hj : j < 1 := hj
    interval_cases j
    simp [requestBuffer]
  rw [requestFrame_bytes, ← List.append_assoc]
  apply (hfcs.store (k := 28) (Or.inr ?_) DLT698_END).append
  · rw [List.length_append, hlen]
    exact hend
  · rw [List.length_append, hlen]
    rfl

theorem memcpy_take (dst : Vector UInt8 512) (src : Buffer) {length : ℕ} (hlen : length ≤ 512) :
    (memcpy dst src length).toList.take length = src.toList.take length := by
  apply List.ext_getElem?
  intro j
  rw [List.getElem?_take, List.getElem?_take]
  split_ifs with hj
  · have hlt : j < 512 := by omega
    have hlt' : j < 1024 := by omega
    simp [memcpy, hlt, hlt', hj]
  · rfl

theorem dlt698PacketBuild_eq (data : Vector UInt8 512) :
    dlt698PacketBuild b (some data) (some oad) (some sa) =
      some (some ⟨memcpy data (requestBuffer b oad sa) 29, 29⟩, requestBuffer b oad sa) := by
  have hhcs := storeFields_hcs oad sa b
  have hfcs := storeHcs_fcs oad sa b
  simp only [dlt698PacketBuild, storeFields_length, hhcs, Option.bind_eq_bind, Option.bind_some,
    DLT698_HEAD_CRC_LOC, hfcs]
  rfl

theorem requestFrame_bytes_length : (requestFrame oad sa).bytes.length = 29 := by
  rw [requestFrame_bytes, List.length_append, List.length_append, requestFrame_covered_length]
  rfl

theorem requestBuffer_take (data : Vector UInt8 512) :
    (memcpy data (requestBuffer b oad sa) 29).toList.take 29 = (requestFrame oad sa).bytes := by
  have hslice := (requestBuffer_holds b oad sa).slice
  rw [memcpy_take data _ (by decide), ← requestFrame_bytes_length oad sa]
  exact hslice

theorem dlt698PacketBuild_bytes {b b' : Buffer} {oad : Vector UInt8 4} {sa : Vector UInt8 6}
    {data : Vector UInt8 512} {packet : Dlt698Packet}
    (h : dlt698PacketBuild b (some data) (some oad) (some sa) = some (some packet, b')) :
    packet.bytes = (requestFrame oad sa).bytes := by
  rw [dlt698PacketBuild_eq] at h
  simp only [Option.some.injEq, Prod.mk.injEq] at h
  rw [← h.1]
  exact requestBuffer_take b oad sa data

theorem dwGet698Apdu_requestFrame :
    dwGet698Apdu (requestFrame oad sa).bytes = some ⟨8, some 18, some 9, 6⟩ := by
  have hleader : leaderCount (requestFrame oad sa).bytes =
      some (requestFrame oad sa).preamble.val := by
    rw [Frame.leaderCount_bytes]
    rfl
  rw [Frame.dwGet698Apdu_bytes _ hleader, Frame.apduPos, requestFrame_addrLen,
    requestFrame_apdu_length]
  rfl

theorem dlt698PacketBuild_agrees (data : Vector UInt8 512) :
    ∃ packet b', dlt698PacketBuild b (some data) (some oad) (some sa) = some (some packet, b') ∧
      packet.length = 29 ∧ packet.bytes.length = 29 ∧ wordAt packet.bytes 5 = some 23 ∧
      ∃ apdu saAddr, dwGet698Apdu packet.bytes = some ⟨8, some apdu, some saAddr, 6⟩ ∧
        (packet.bytes.drop apdu).take 8 = [0x05, 0x01, 0x01] ++ oad.toList ++ [0x00] ∧
        (packet.bytes.drop saAddr).take 6 = sa.toList.reverse := by
  have hbytes := requestBuffer_take b oad sa data
  refine ⟨_, _, dlt698PacketBuild_eq b oad sa data, rfl, ?_⟩
  have hpacket : (Dlt698Packet.mk (memcpy data (requestBuffer b oad sa) 29) 29).bytes =
      (requestFrame oad sa).bytes := hbytes
  rw [hpacket]
  have hlength := (requestFrame oad sa).bytes_length_word
  have hapdu := (requestFrame oad sa).bytes_apdu
  have haddr := (requestFrame oad sa).bytes_addr
  rw [Frame.apduPos, requestFrame_addrLen, requestFrame_apdu_length] at hapdu
  rw [Frame.addrPos, requestFrame_addrLen] at haddr
  rw [requestFrame_length] at hlength
  refine ⟨requestFrame_bytes_length oad sa, hlength, 18, 9, dwGet698Apdu_requestFrame oad sa,
    hapdu, ?_⟩
  rw [← Vector.toList_reverse]
  exact haddr

end IotEdgeAgent.Dlt698.Request
