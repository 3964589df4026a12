import Mathlib.Data.List.Basic
import Mathlib.Data.List.Infix
import Mathlib.Data.Nat.Notation

/-!
# Chunks of a stream, and items that delimit themselves

A stream is sent in chunks, each of a known size. `covered` gives the leading chunks that lie
within the first `n` elements of the stream, which are those that have been sent to the end
when `n` elements are out. Items written one behind the other, with nothing between them, are read
back in the same way when the reader of a single item ends where the item does.
-/

namespace Chunks

variable {α : Type*} {size : α → ℕ} {n m : ℕ} {c : α} {cs ds : List α}

def covered (size : α → ℕ) : ℕ → List α → List α
  | _, [] => []
  | n, c :: cs => if size c ≤ n then c :: covered size (n - size c) cs else []

def total (size : α → ℕ) : List α → ℕ
  | [] => 0
  | c :: cs => size c + total size cs

theorem total_append (cs ds : List α) : total size (cs ++ ds) = total size cs + total size ds := by
  induction cs with
  | nil => exact (Nat.zero_add _).symm
  | cons c cs ih => rw [List.cons_append, total, ih, total, Nat.add_assoc]

theorem covered_total_append (cs ds : List α) (n : ℕ) :
    covered size (total size cs + n) (cs ++ ds) = cs ++ covered size n ds := by
  induction cs with
  | nil => simp [total]
  | cons c cs ih =>
    have hrest : total size (c :: cs) + n - size c = total size cs + n := by
      rw [total]
      omega
    rw [List.cons_append, covered, hrest, ih, List.cons_append, if_pos]
    rw [total]
    omega

theorem covered_cons_of_lt (h : n < size c) : covered size n (c :: cs) = [] :=
  if_neg (Nat.not_le.mpr h)

theorem covered_isPrefix_append (cs ds : List α) (n : ℕ) :
    covered size n cs <+: covered size n (cs ++ ds) := by
  induction cs generalizing n with
  | nil => exact List.nil_prefix
  | cons c cs ih =>
    rw [List.cons_append, covered, covered]
    split_ifs
    · exact (List.prefix_cons_inj c).mpr (ih _)
    · exact List.nil_prefix

theorem prefix_covered (h : cs <+: ds) (hn : total size cs ≤ n) : cs <+: covered size n ds := by
  obtain ⟨rest, rfl⟩ := h
  rw [← Nat.add_sub_of_le hn, covered_total_append]
  exact List.prefix_append cs _

end Chunks

namespace Items

variable {α β : Type} {read : List α → Option (β × List α)} {write : β → List α} {items : List β}

/-- `read` undoes `write`, whatever stands behind, and an item is never empty. -/
structure Delimits (read : List α → Option (β × List α)) (write : β → List α) (item : β) :
    Prop where
  read_write : ∀ rest, read (write item ++ rest) = some (item, rest)
  nonempty : write item ≠ []

def readAll (read : List α → Option (β × List α)) : ℕ → List α → Option (List β)
  | _, [] => some []
  | 0, _ :: _ => none
  | room + 1, a :: as => do
    let (item, rest) ← read (a :: as)
    return item :: (← readAll read room rest)

theorem readAll_write {room : ℕ} (h : ∀ item ∈ items, Delimits read write item)
    (hroom : items.length ≤ room) : readAll read room (items.flatMap write) = some items := by
  induction items generalizing room with
  | nil => cases room <;> rfl
  | cons item items ih =>
    obtain ⟨room, rfl⟩ := Nat.exists_eq_succ_of_ne_zero
      (Nat.ne_of_gt (Nat.lt_of_lt_of_le (Nat.succ_pos _) hroom))
    have hitem := h item List.mem_cons_self
    have hrest := ih (fun i hi => h i (List.mem_cons_of_mem _ hi)) (Nat.le_of_succ_le_succ hroom)
    obtain ⟨a, as, has⟩ := List.exists_cons_of_ne_nil hitem.nonempty
    have hread := hitem.read_write (items.flatMap write)
    rw [has, List.cons_append] at hread
    rw [List.flatMap_cons, has, List.cons_append, readAll, hread, Option.bind_eq_bind,
      Option.bind_some]
    dsimp only
    rw [hrest]
    rfl

theorem length_le_flatMap (h : ∀ item ∈ items, Delimits read write item) :
    items.length ≤ (items.flatMap write).length := by
  induction items with
  | nil => exact Nat.zero_le 0
  | cons item items ih =>
    have hitem := List.length_pos_iff.mpr (h item List.mem_cons_self).nonempty
    have hrest := ih fun i hi => h i (List.mem_cons_of_mem _ hi)
    rw [List.flatMap_cons, List.length_append, List.length_cons]
    omega

theorem write_of_readAll {Q : β → Prop} {room : ℕ} {text : List α}
    (hread : ∀ {text item rest}, read text = some (item, rest) →
      Q item ∧ text = write item ++ rest)
    (h : readAll read room text = some items) :
    (∀ item ∈ items, Q item) ∧ text = items.flatMap write := by
  induction room generalizing text items with
  | zero =>
    cases text with
    | nil =>
      cases h
      exact ⟨List.forall_mem_nil _, rfl⟩
    | cons a as => cases h
  | succ room ih =>
    cases text with
    | nil =>
      cases h
      exact ⟨List.forall_mem_nil _, rfl⟩
    | cons a as =>
      obtain ⟨⟨item, rest⟩, hfirst, h⟩ := Option.bind_eq_some_iff.mp h
      obtain ⟨others, hothers, h⟩ := Option.bind_eq_some_iff.mp h
      cases h
      obtain ⟨hitem, htext⟩ := hread hfirst
      obtain ⟨hitems, hrest⟩ := ih hothers
      exact ⟨List.forall_mem_cons.mpr ⟨hitem, hitems⟩, by rw [htext, List.flatMap_cons, ← hrest]⟩

end Items
