import IotEdgeAgent.Dlt698.FcsTable
import IotEdgeAgent.Dlt698.LinkFrame

/-!
# Bursts of errors in a frame

A disturbance of up to 16 consecutive bits changes the checksum of every message. In the APDU of a
frame it leaves the header, the range that the checksum covers and the checksum itself as they
are, so that the last test of `dwGet698Apdu` refuses the frame.
-/

namespace IotEdgeAgent.Dlt698.BurstErrors
open Checksum FcsTable LinkFrame
open Crc (Burst)

theorem bitsOf_length (bytes : List UInt8) : (bitsOf bytes).length = 8 * bytes.length := by
  induction bytes with
  | nil => rfl
  | cons b bytes ih =>
    have hcons : bitsOf (b :: bytes) =
        (List.range 8).map b.toBitVec.getLsbD ++ bitsOf bytes := rfl
    rw [hcons, List.length_append, ih, List.length_map, List.length_range, List.length_cons]
    omega

theorem length_of_burst {x y : List UInt8} (h : Burst 16 (bitsOf x) (bitsOf y)) :
    x.length = y.length := by
  have hbits := h.length
  rw [bitsOf_length, bitsOf_length] at hbits
  omega

theorem fcs16_burst (fcs : UInt16) {x y : List UInt8} (h : Burst 16 (bitsOf x) (bitsOf y)) :
    fcs16 fcs x ≠ fcs16 fcs y := by
  intro hsame
  have hbits := congrArg UInt16.toBitVec hsame
  rw [fcs16_toBitVec, fcs16_toBitVec] at hbits
  have hpoly : polynomial.msb = true := by decide
  exact Crc.feed_ne_of_burst hpoly h fcs.toBitVec (BitVec.not_inj.mp hbits)

theorem fcs16_append (fcs : UInt16) (x y : List UInt8) :
    fcs16 fcs (x ++ y) = fcs16 (x.foldl fcsStep fcs) y := by
  rw [fcs16, fcs16, List.foldl_append]

/-- The header of the buffer is right, and the frame checksum is not that of the bytes that it
covers. -/
structure FcsRefused (f : List UInt8) (p len k : ℕ) : Prop where
  leader : leaderCount f = some p
  start : f[p]? = some 0x68
  length : wordAt f (p + 1) = some len
  address : ∃ flag, f[p + 4]? = some flag ∧ k = (flag &&& 0x0F).toNat + 2
  hcs : ∃ w, pppfcs16 PPPINITFCS16 (f.drop (p + 1)) (k + 4) = some w ∧
    wordAt f (p + (k + 5)) = some w.toNat
  fcs : ∃ w hi lo, pppfcs16 PPPINITFCS16 (f.drop (p + 1)) (u32 (u32 (len - 1) - 1)) = some w ∧
    f[u32 (p + u32 (len - 1) + 1)]? = some hi ∧ f[u32 (p + u32 (len - 1))]? = some lo ∧
    w.toNat ≠ makeWord hi lo

theorem FcsRefused.dwGet698Apdu_eq {f : List UInt8} {p len k : ℕ} (h : FcsRefused f p len k) :
    dwGet698Apdu f = some ⟨-1, none, some (p + 5), k - 1⟩ := by
  obtain ⟨hp, hs, hl, ⟨flag, hflag, hk⟩, ⟨w, hw, hword⟩, ⟨w', hi, lo, hw', hhi, hlo, hne⟩⟩ := h
  have hcheck : checkFrame f p len k = some ⟨-1, none, some (p + 5), k - 1⟩ := by
    simp [checkFrame, hw, hword, hw', hhi, hlo, hne]
  simp only [dwGet698Apdu, hp, hs, hl, hflag, ← hk, hcheck, Option.bind_eq_bind, Option.bind_some,
    ne_eq, not_true_eq_false, if_false]

section
variable {front apdu apdu' back : List UInt8} {p len k : ℕ}

theorem getElem?_front {i : ℕ} (hi : i < front.length) :
    (front ++ (apdu' ++ back))[i]? = (front ++ (apdu ++ back))[i]? := by
  rw [List.getElem?_append_left hi, List.getElem?_append_left hi]

theorem getElem?_back (hlength : apdu.length = apdu'.length) {i : ℕ}
    (hi : front.length + apdu.length ≤ i) :
    (front ++ (apdu' ++ back))[i]? = (front ++ (apdu ++ back))[i]? := by
  rw [List.getElem?_append_right (by omega), List.getElem?_append_right (by omega),
    List.getElem?_append_right (by omega), List.getElem?_append_right (by omega), hlength]

theorem wordAt_front {i : ℕ} (hi : i + 1 < front.length) :
    wordAt (front ++ (apdu' ++ back)) i = wordAt (front ++ (apdu ++ back)) i := by
  rw [wordAt, wordAt, getElem?_front (Nat.lt_of_succ_lt hi), getElem?_front hi]

theorem leaderCount_front (hfront : 4 ≤ front.length) :
    leaderCount (front ++ (apdu' ++ back)) = leaderCount (front ++ (apdu ++ back)) := by
  have hlong : ∀ rest : List UInt8, 4 ≤ (front ++ rest).length := by
    intro rest
    rw [List.length_append]
    omega
  rw [leaderCount_eq _ (hlong _), leaderCount_eq _ (hlong _),
    List.take_append_of_le_length hfront, List.take_append_of_le_length hfront]

theorem pppfcs16_front (fcs : UInt16) {i n : ℕ} (hin : i + n ≤ front.length) :
    pppfcs16 fcs ((front ++ (apdu' ++ back)).drop i) n =
      pppfcs16 fcs ((front ++ (apdu ++ back)).drop i) n := by
  have hi : i ≤ front.length := Nat.le_of_add_right_le hin
  have hn : n ≤ (front.drop i).length := by
    rw [List.length_drop]
    omega
  have hlong : ∀ rest, n ≤ (front.drop i ++ rest).length := by
    intro rest
    rw [List.length_append]
    omega
  rw [List.drop_append_of_le_length hi, List.drop_append_of_le_length hi, pppfcs16_eq,
    pppfcs16_eq, if_pos (hlong _), if_pos (hlong _), List.take_append_of_le_length hn,
    List.take_append_of_le_length hn]

theorem pppfcs16_covered (fcs : UInt16) {i n : ℕ} (hi : i ≤ front.length)
    (hn : n = front.length - i + apdu.length) :
    pppfcs16 fcs ((front ++ (apdu ++ back)).drop i) n =
      some (fcs16 ((front.drop i).foldl fcsStep fcs) apdu) := by
  have hlength : n = (front.drop i ++ apdu).length := by
    rw [List.length_append, List.length_drop, hn]
  rw [List.drop_append_of_le_length hi, ← List.append_assoc, hlength, pppfcs16_append,
    fcs16_append]

theorem refused_of_burst (h : FrameOk (front ++ (apdu ++ back)) p len k)
    (hfront : front.length = p + (k + 5) + 2) (hapdu : len = apdu.length + k + 8)
    (hburst : Burst 16 (bitsOf apdu) (bitsOf apdu')) :
    FcsRefused (front ++ (apdu' ++ back)) p len k := by
  obtain ⟨hleader, hstart, hlen, ⟨flag, hflag, hk⟩, ⟨w, hw, hword⟩,
    ⟨w', hi, lo, hw', hhi, hlo, hsum⟩⟩ := h
  have hlength := length_of_burst hburst
  have hsmall : len < 65536 := wordAt_lt hlen
  have hlast : u32 (len - 1) = len - 1 := by
    simp only [u32]
    omega
  have hspan : u32 (u32 (len - 1) - 1) = front.length - (p + 1) + apdu.length := by
    rw [hlast]
    simp only [u32]
    omega
  have hp := leaderCount_le hleader
  have hlow : u32 (p + u32 (len - 1)) = front.length + apdu.length := by
    rw [hlast]
    simp only [u32]
    omega
  have hhigh : u32 (p + u32 (len - 1) + 1) = front.length + apdu.length + 1 := by
    rw [hlast]
    simp only [u32]
    omega
  rw [hspan, pppfcs16_covered PPPINITFCS16 (by omega) rfl] at hw'
  rw [hhigh] at hhi
  rw [hlow] at hlo
  refine ⟨?_, ?_, ?_, ⟨flag, ?_, hk⟩, ⟨w, ?_, ?_⟩, ?_⟩
  · rw [leaderCount_front (by omega), hleader]
  · rw [getElem?_front (by omega), hstart]
  · rw [wordAt_front (by omega), hlen]
  · rw [getElem?_front (by omega), hflag]
  · rw [pppfcs16_front PPPINITFCS16 (by omega), hw]
  · rw [wordAt_front (by omega), hword]
  · have hspan' : u32 (u32 (len - 1) - 1) = front.length - (p + 1) + apdu'.length := by
      rw [hspan, hlength]
    refine ⟨_, hi, lo, pppfcs16_covered PPPINITFCS16 (by omega) hspan', ?_, ?_, ?_⟩
    · rw [hhigh, getElem?_back hlength (by omega), hhi]
    · rw [hlow, getElem?_back hlength (Nat.le_refl _), hlo]
    · rw [← hsum, ← Option.some.inj hw']
      exact fun hsame => fcs16_burst _ hburst (UInt16.toNat_inj.mp hsame.symm)

end

/-- A burst of up to 16 bits changes the checksum of a message, whatever the initial value is. In
the APDU of a frame that is accepted it makes the last test of `dwGet698Apdu` refuse the frame. -/
theorem bursts_detected :
    (∀ fcs x y, Burst 16 (bitsOf x) (bitsOf y) →
      pppfcs16 fcs x x.length ≠ pppfcs16 fcs y y.length) ∧
    ∀ front apdu apdu' back r, dwGet698Apdu (front ++ (apdu ++ back)) = some r →
      r.pAPDU = some front.length → r.ret = apdu.length →
      Burst 16 (bitsOf apdu) (bitsOf apdu') →
      ∃ p len k, FcsRefused (front ++ (apdu' ++ back)) p len k ∧
        dwGet698Apdu (front ++ (apdu' ++ back)) = some ⟨-1, none, some (p + 5), k - 1⟩ := by
  constructor
  · intro fcs x y hburst hsame
    rw [pppfcs16_eq, pppfcs16_eq, if_pos (Nat.le_refl _), if_pos (Nat.le_refl _),
      List.take_length, List.take_length] at hsame
    exact fcs16_burst fcs hburst (Option.some.inj hsame)
  · intro front apdu apdu' back r hget hpos hret hburst
    obtain ⟨p, len, k, hok, rfl⟩ := dwGet698Apdu_accepts hget hpos
    have hfront : front.length = p + (k + 5) + 2 := (Option.some.inj hpos).symm
    have hdifference : (len : ℤ) - k - 8 = apdu.length := hret
    have hrefused := refused_of_burst hok hfront (by omega) hburst
    exact ⟨p, len, k, hrefused, hrefused.dwGet698Apdu_eq⟩

theorem bursts_detected_frame :
    pppfcs16 PPPINITFCS16 [0x85, 0x01] 2 ≠ pppfcs16 PPPINITFCS16 [0x84, 0x81] 2 ∧
    ∃ p len k, FcsRefused ([0x68, 12, 0, 0xC3, 0, 0x11, 0xA0, 44, 241] ++
        ([0x84, 0x81] ++ [35, 31, 0x16])) p len k ∧
      dwGet698Apdu ([0x68, 12, 0, 0xC3, 0, 0x11, 0xA0, 44, 241] ++
        ([0x84, 0x81] ++ [35, 31, 0x16])) = some ⟨-1, none, some (p + 5), k - 1⟩ := by
  have hburst : Burst 16 (bitsOf [0x85, 0x01]) (bitsOf [0x84, 0x81]) :=
    Burst.of_short (by decide) (by decide) (by decide)
  have haccepted : dwGet698Apdu ([0x68, 12, 0, 0xC3, 0, 0x11, 0xA0, 44, 241] ++
      ([0x85, 0x01] ++ [35, 31, 0x16])) = some ⟨2, some 9, some 5, 1⟩ := by decide
  exact ⟨bursts_detected.1 _ _ _ hburst,
    bursts_detected.2 _ _ _ _ _ haccepted rfl rfl hburst⟩

end IotEdgeAgent.Dlt698.BurstErrors
