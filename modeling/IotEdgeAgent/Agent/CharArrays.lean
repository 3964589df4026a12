import IotEdgeAgent.Agent.Parson

/-!
# Texts of a document in character arrays

What `strncpy` leaves of a string of a document in memory that was not cleared.
-/

namespace IotEdgeAgent.CharArrays
open Parson Strings

def cText (s : String) : List UInt8 := (bytesOf s).takeWhile (· ≠ 0)

section
variable {count : ℕ}

theorem cText_noNul (s : String) : 0 ∉ cText s := by
  intro hin
  have hne := List.mem_takeWhile_imp (p := fun b : UInt8 => decide (b ≠ 0)) hin
  exact of_decide_eq_true hne rfl

theorem cText_of_noNul {s : String} (h : 0 ∉ bytesOf s) : cText s = bytesOf s := by
  apply List.takeWhile_eq_self_iff.mpr
  intro b hb
  exact decide_eq_true fun hzero => h (hzero ▸ hb)

theorem bytesOf_injective {s t : String} (h : bytesOf s = bytesOf t) : s = t := by
  apply String.toByteArray_inj.mp
  apply ByteArray.ext
  exact Array.toList_inj.mp h

theorem bytesOf_split (s : String) :
    bytesOf s = cText s ∨ ∃ rest, bytesOf s = cText s ++ 0 :: rest := by
  have hsplit : cText s ++ (bytesOf s).dropWhile (· ≠ 0) = bytesOf s :=
    List.takeWhile_append_dropWhile
  cases hrest : (bytesOf s).dropWhile (· ≠ 0) with
  | nil =>
    rw [hrest, List.append_nil] at hsplit
    exact .inl hsplit.symm
  | cons b rest =>
    have hb : b = 0 := by
      have hhead := List.head?_dropWhile_not (p := fun b : UInt8 => decide (b ≠ 0)) (bytesOf s)
      rw [hrest] at hhead
      exact not_not.mp (of_decide_eq_false hhead)
    rw [hrest, hb] at hsplit
    exact .inr ⟨rest, hsplit.symm⟩

theorem bytesOf_ended (s : String) : ∃ rest, bytesOf s ++ [0] = cText s ++ 0 :: rest := by
  obtain hbytes | ⟨rest, hbytes⟩ := bytesOf_split s
  · exact ⟨[], by rw [hbytes]⟩
  · refine ⟨rest ++ [0], ?_⟩
    rw [hbytes, List.append_assoc, List.cons_append]

theorem written_short {s : String} (h : (cText s).length < count) :
    written s count = cText s ++ List.replicate (count - (cText s).length) 0 := by
  obtain ⟨rest, hrest⟩ := bytesOf_ended s
  rw [written, hrest, strncpy_short (cText_noNul s) h, Option.getD_some]

theorem written_long {s : String} (h : count ≤ (cText s).length) :
    written s count = (cText s).take count := by
  obtain ⟨rest, hrest⟩ := bytesOf_ended s
  have hnul : 0 ∉ (cText s).take count := fun hin => cText_noNul s (List.mem_of_mem_take hin)
  have hcopy := strncpy_long hnul ((cText s).drop count ++ 0 :: rest)
  rw [← List.append_assoc, List.take_append_drop, List.length_take, Nat.min_eq_left h] at hcopy
  rw [written, hrest, hcopy, Option.getD_some]

theorem written_length (s : String) : (written s count).length = count := by
  obtain h | h := Nat.lt_or_ge (cText s).length count
  · rw [written_short h, List.length_append, List.length_replicate]
    omega
  · rw [written_long h, List.length_take, Nat.min_eq_left h]

theorem store_written {s : String} (h : (cText s).length < count) (prior behind : List UInt8) :
    ∃ rest, store (written s count) prior ++ behind = cText s ++ 0 :: rest := by
  obtain ⟨n, hn⟩ := Nat.exists_eq_add_of_lt h
  rw [written_short h, hn, Nat.add_assoc, Nat.add_sub_cancel_left, List.replicate_succ, store,
    List.append_assoc, List.append_assoc, List.cons_append]
  exact ⟨_, rfl⟩

theorem readString_store {s : String} (h : (cText s).length < count) (prior behind : List UInt8) :
    readString (store (written s count) prior ++ behind) = some (cText s) := by
  obtain ⟨rest, hrest⟩ := store_written h prior behind
  rw [hrest]
  exact readString_ended (cText_noNul s) rest

theorem readString_written_ne {s : String} (h : count ≤ (cText s).length) :
    ∃ last, ∀ behind, readString (written s count ++ last :: behind) ≠ some (cText s) := by
  obtain heq | hlt := Nat.eq_or_lt_of_le h
  · refine ⟨1, fun behind hread => ?_⟩
    rw [written_long h, heq, List.take_length, readString_append_iff (cText_noNul s)] at hread
    exact absurd (Option.some.inj hread) (by decide)
  · refine ⟨0, fun behind hread => ?_⟩
    have hnul : 0 ∉ (cText s).take count := fun hin => cText_noNul s (List.mem_of_mem_take hin)
    rw [written_long h, readString_ended hnul] at hread
    have hlength := congrArg List.length (Option.some.inj hread)
    rw [List.length_take] at hlength
    omega

end

end IotEdgeAgent.CharArrays
