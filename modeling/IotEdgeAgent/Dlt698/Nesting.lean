import IotEdgeAgent.Dlt698.DataLenExact
import IotEdgeAgent.Library.Descent

/-!
# How deep the length functions recurse

`dwDlt698DataLen` hands the rest of its limit down, but looks at it only when an element is
walked. An item that opens another one at its front is entered whatever is left, so the depth of
the calls follows the bytes, and the limit stops no chain of openings.
-/

namespace IotEdgeAgent.Dlt698.Nesting
open ByteWalk DataLen DataFormat DataLenExact

/-- The calls of `dwDlt698DataLen` that a call makes, through the other two functions as well. -/
def Calls : Call UInt8 → Call UInt8 → Prop := Asks dataLenBody dwDlt698DataLen

def RecursionDepthAtMost (ucRcvBuf : List UInt8) (dwRcvLen : ℤ) (k : ℕ) : Prop :=
  DepthAtMost Calls ⟨ucRcvBuf, dwRcvLen⟩ k

/-- By the tags, counts and length fields of the bytes, an item starts at position `i`. It lies in
the item at the front of the memory and in `n` more. -/
def ItemAt (dwRcvLen : ℤ) (ucRcvBuf : List UInt8) (n i : ℕ) : Prop :=
  ∃ limit, FieldAt dwRcvLen ucRcvBuf n i (.item limit)

theorem recursionDepthAtMost_iff (ucRcvBuf : List UInt8) (dwRcvLen : ℤ) (k : ℕ) :
    RecursionDepthAtMost ucRcvBuf dwRcvLen (k + 1) ↔
      ∀ n i, ItemAt dwRcvLen ucRcvBuf n i → n < k := by
  have hbody : dataLenBody = measureBody lenModulus dwDlt698Len dataTable := by
    funext dataLen
    exact dataLenBody_eq dataLen
  rw [RecursionDepthAtMost, Calls, dwDlt698DataLen_eq_dataLenWith, hbody]
  refine (depthAtMost_iff dwDlt698Len_decodes).trans ⟨?_, ?_⟩
  · rintro h n i ⟨limit, hitem⟩
    exact h n i limit hitem
  · intro h n i limit hitem
    exact h n i ⟨limit, hitem⟩

def Behind (k : ℕ) (p : Shape UInt8) : Prop :=
  ∀ ⦃limit b o i l⦄,
    Meets lenModulus shortLengthValue dataTable limit p b o 0 i (.item l) → k ≤ i

section
variable {k : ℕ} {p q : Shape UInt8}

theorem Behind.seq (hp : Behind k p) (hq : Behind k q) : Behind k (.seq p q) := by
  intro limit b o i l h
  cases h with
  | left h => exact hp h
  | right _ h =>
    have hle := hq h
    omega

theorem behind_fixed (k j : ℕ) : Behind k (.fixed j) := by
  intro limit b o i l h
  cases h

theorem behind_sized (k : ℕ) (f : ℕ → ℕ) : Behind k (.sized f) := by
  intro limit b o i l h
  cases h

theorem behind_seq_fixed (k : ℕ) (q : Shape UInt8) : Behind k (.seq (.fixed k) q) := by
  intro limit b o i l h
  cases h with
  | left h => cases h
  | right hs _ =>
    cases hs
    exact Nat.le_add_right k _

theorem behind_counted (p : Shape UInt8) : Behind 1 (.counted p) := by
  intro limit b o i l h
  cases h with
  | counted hv _ =>
    have hpos := shortLengthValue_pos hv
    omega

theorem behind_choice (tags : UInt8 → Shape UInt8) : Behind 1 (.choice tags) := by
  intro limit b o i l h
  cases h with
  | choice _ => exact Nat.le_add_right 1 _

theorem Behind.call (hp : Behind k p) : Behind k (.call p) := by
  intro limit b o i l h
  cases h with
  | call h => exact hp h

end

theorem behind_dataShape (t : DltData) : Behind 1 (dataShape t) := by
  have hoctets : Behind 1 octetString := behind_sized 1 id
  cases t with
  | array | struct | rcsd => exact behind_counted _
  | region => exact behind_seq_fixed 1 _
  | rsd => exact (behind_choice rsdTable).call
  | ms => exact (behind_choice msTable).call
  | csd => exact behind_choice _
  | road => exact (behind_fixed 1 4).seq (behind_counted _)
  | sid => exact (behind_fixed 1 4).seq hoctets
  | sidMac => exact (behind_fixed 1 4).seq (hoctets.seq hoctets)
  | bitStr => exact behind_sized 1 _
  | octetStr | visibleStr | utf8Str | tsa | mac | rn => exact hoctets
  | _ => exact behind_fixed 1 _

theorem behind_dataTable (type : UInt8) : Behind 1 (dataTable type) := by
  rw [dataTable]
  cases DltData.ofByte type with
  | none =>
    intro limit b o i l h
    cases h
  | some t => exact behind_dataShape t

/-- An item lies behind two bytes of each item that it lies in. The memory may end in front of it,
but not in front of the item that it lies in directly. -/
theorem itemAt_behind {ucRcvBuf : List UInt8} {dwRcvLen : ℤ} {n i : ℕ}
    (h : ItemAt dwRcvLen ucRcvBuf n i) : 2 * (n + 1) ≤ i ∧ 2 * n < ucRcvBuf.length := by
  induction n generalizing ucRcvBuf dwRcvLen i with
  | zero =>
    obtain ⟨limit, h⟩ := h
    cases h with
    | choice hitem =>
      have hle := behind_dataTable _ hitem
      exact ⟨by omega, Nat.succ_pos _⟩
  | succ n ih =>
    obtain ⟨limit, h⟩ := h
    obtain ⟨l, j₁, j₂, hfirst, hinside, rfl⟩ := h.split rfl
    have houter : 2 ≤ j₁ := by
      cases hfirst with
      | choice hitem =>
        have hle := behind_dataTable _ hitem
        omega
    obtain ⟨hle, hlength⟩ := ih ⟨limit, hinside⟩
    rw [List.length_drop] at hlength
    omega

structure Opening where
  type : DltData
  count : UInt8
  container : type = .array ∨ type = .struct
  nonempty : 0 < count.toNat
  short : count.toNat < 128

def Opening.bytes (opening : Opening) : List UInt8 := [opening.type.code, opening.count]

section
variable {dwRcvLen : ℤ} {rest : List UInt8} {n i : ℕ} {mark : Mark}

theorem meets_opening (opening : Opening)
    (h : Meets lenModulus shortLengthValue dataTable dwRcvLen (.item true) rest 2 n i mark) :
    FieldAt dwRcvLen (opening.bytes ++ rest) n (2 + i) mark := by
  obtain ⟨m, hm⟩ := Nat.exists_eq_succ_of_ne_zero (Nat.pos_iff_ne_zero.mp opening.nonempty)
  have hcount := shortLengthValue_short opening.short rest
  rw [hm] at hcount
  have htype : dataTable opening.type.code = .counted (.item true) := by
    rw [dataTable, DltData.ofByte_code]
    rcases opening.container with htype | htype <;> rw [htype] <;> rfl
  have hcontents : Meets lenModulus shortLengthValue dataTable dwRcvLen
      (.counted (.item true)) (opening.count :: rest) 1 n (1 + i) mark :=
    .counted hcount (.first h)
  rw [← htype] at hcontents
  rw [show 2 + i = 1 + (1 + i) by omega]
  exact .choice hcontents

theorem fieldAt_region (rest : List UInt8) (dwRcvLen : ℤ) :
    FieldAt dwRcvLen (DltData.region.code :: rest) 0 2 (.item (dwRcvLen - 2)) := by
  have hcontents : Meets lenModulus shortLengthValue dataTable dwRcvLen regionShape rest 1 0
      (1 + 0) (.item (room lenModulus dwRcvLen (1 + 1))) := .right (.fixed _ 1 _ _) (.left .item)
  have htype : dataTable DltData.region.code = regionShape := rfl
  rw [← htype] at hcontents
  exact .choice hcontents

def openings (chain : List Opening) : List UInt8 := chain.flatMap Opening.bytes

theorem itemAt_openings (chain : List Opening) (dwRcvLen : ℤ) (h : ∀ limit, ItemAt limit rest n i) :
    ItemAt dwRcvLen (openings chain ++ rest) (chain.length + n) (2 * chain.length + i) := by
  induction chain generalizing dwRcvLen with
  | nil =>
    rw [List.length_nil, Nat.zero_add, Nat.mul_zero, Nat.zero_add]
    exact h dwRcvLen
  | cons opening chain ih =>
    obtain ⟨limit, hitem⟩ := ih (room lenModulus dwRcvLen 2)
    have hopening := meets_opening opening (.inside hitem)
    rw [openings, List.flatMap_cons, List.append_assoc, List.length_cons]
    rw [show chain.length + 1 + n = chain.length + n + 1 by omega,
      show 2 * (chain.length + 1) + i = 2 + (2 * chain.length + i) by omega]
    exact ⟨limit, hopening⟩

end

def arrayOfOne : Opening := ⟨.array, 1, Or.inl rfl, by decide, by decide⟩

theorem exists_deep {levels length : ℕ} (h : 2 * levels < length) (dwRcvLen : ℤ) :
    ∃ ucRcvBuf : List UInt8, ucRcvBuf.length = length ∧
      ∃ i, ItemAt dwRcvLen ucRcvBuf levels i := by
  have hchain := itemAt_openings (List.replicate levels arrayOfOne) dwRcvLen
    fun limit => ⟨_, fieldAt_region (List.replicate (length - 2 * levels - 1) 0) limit⟩
  rw [List.length_replicate] at hchain
  have hbytes : (openings (List.replicate levels arrayOfOne)).length = 2 * levels := by
    simp [openings, Opening.bytes, Nat.mul_comm]
  refine ⟨_, ?_, _, hchain⟩
  rw [List.length_append, hbytes, List.length_cons, List.length_replicate]
  omega

/-- The bound of an input that no item breaks which starts behind the first `2 * dwRcvLen` bytes:
each of them lies in `dwRcvLen` items at most. Whatever the bytes are, that is so exactly for a
memory of no more than `2 * dwRcvLen` of them. -/
theorem recursionDepth_bounded_iff (ucRcvBuf : List UInt8) (dwRcvLen : ℤ) (length : ℕ) :
    RecursionDepthAtMost ucRcvBuf dwRcvLen (ucRcvBuf.length + 1) ∧
    (RecursionDepthAtMost ucRcvBuf dwRcvLen (dwRcvLen.toNat + 1) ↔
      ∀ n i, ItemAt dwRcvLen ucRcvBuf n i → 2 * dwRcvLen.toNat < i → n < dwRcvLen.toNat) ∧
    ((∀ buf : List UInt8, buf.length = length →
        RecursionDepthAtMost buf dwRcvLen (dwRcvLen.toNat + 1)) ↔
      length ≤ 2 * dwRcvLen.toNat) := by
  refine ⟨?_, ⟨?_, ?_⟩, ⟨?_, ?_⟩⟩
  · rw [recursionDepthAtMost_iff]
    intro n i hitem
    have hbehind := (itemAt_behind hitem).2
    omega
  · rw [recursionDepthAtMost_iff]
    intro h n i hitem _
    exact h n i hitem
  · rw [recursionDepthAtMost_iff]
    intro h n i hitem
    by_contra hdeep
    have hbehind := (itemAt_behind hitem).1
    exact hdeep (h n i hitem (by omega))
  · intro h
    by_contra hlong
    obtain ⟨buf, hlength, i, hitem⟩ := exists_deep (Nat.not_le.mp hlong) dwRcvLen
    have hle := (recursionDepthAtMost_iff _ _ _).mp (h buf hlength) _ i hitem
    exact absurd hle (Nat.lt_irrefl _)
  · intro h buf hlength
    rw [recursionDepthAtMost_iff]
    intro n i hitem
    have hbehind := (itemAt_behind hitem).2
    omega

/-- An array is opened with each of 257 byte pairs and a region in the last, under the limit of 256
that responses are measured with. -/
theorem recursionDepth_exceeds :
    ¬ ∀ (ucRcvBuf : List UInt8) (dwRcvLen : ℤ),
      RecursionDepthAtMost ucRcvBuf dwRcvLen (dwRcvLen.toNat + 1) := by
  intro h
  have hitem := itemAt_openings (List.replicate 257 arrayOfOne) 256
    fun limit => ⟨_, fieldAt_region [] limit⟩
  rw [List.length_replicate] at hitem
  exact absurd ((recursionDepthAtMost_iff _ _ _).mp (h _ 256) _ _ hitem) (by decide)

end IotEdgeAgent.Dlt698.Nesting
