import Mathlib.Data.List.Basic
import Mathlib.Data.List.Perm.Basic
import Mathlib.Data.List.Range
import Mathlib.Data.Nat.Notation
import Mathlib.Tactic.TypeStar

/-!
# Resources that are held and released

A log of what was done with resources, of which at most one may be held at a time. A resource is
used and released only while it is held. Names of resources may come again: after a log that keeps
to this, each resource was released as often as it was acquired, but for the one that is held.
Where more may be held, handles are numbered in the order in which they are issued. The ledger is
balanced when every handle that was issued is either held at one place or was released once.
-/

namespace Custody

variable {α : Type*} [DecidableEq α]

inductive Use (α : Type*)
  | acquired (a : α)
  | used (a : α)
  | released (a : α)
  deriving DecidableEq, Repr

def next (held : Option α) : Use α → Option (Option α)
  | .acquired a => if held = none then some (some a) else none
  | .used a => if held = some a then some held else none
  | .released a => if held = some a then some none else none

def heldAfter (log : List (Use α)) : Option (Option α) := log.foldlM next none

variable {log later : List (Use α)} {held held' : Option α} {a : α}

theorem heldAfter_append (h : heldAfter log = some held) :
    heldAfter (log ++ later) = later.foldlM next held := by
  have hbind : heldAfter (log ++ later) = (heldAfter log).bind (later.foldlM next) :=
    List.foldlM_append
  rw [hbind, h, Option.bind_some]

theorem acquire : [Use.acquired a].foldlM next none = some (some a) := rfl

theorem use_all (uses : List (Use α)) (huses : ∀ use ∈ uses, use = .used a) :
    uses.foldlM next (some a) = some (some a) := by
  induction uses with
  | nil => rfl
  | cons use uses ih =>
    obtain ⟨hfirst, hrest⟩ := List.forall_mem_cons.mp huses
    have hnext : next (some a) (.used a) = some (some a) := if_pos rfl
    rw [List.foldlM_cons, hfirst, hnext]
    exact ih hrest

theorem release : [Use.released a].foldlM next (some a) = some none := by
  rw [List.foldlM_cons]
  have hnext : next (some a) (.released a) = some none := if_pos rfl
  rw [hnext]
  rfl

theorem pass : [Use.acquired a, Use.released a].foldlM next none = some none := release

theorem count_next {use : Use α} (h : next held use = some held') (a : α) :
    (if held' = some a then 1 else 0) + (if use = .released a then 1 else 0) =
      (if held = some a then 1 else 0) + (if use = .acquired a then 1 else 0) := by
  cases use with
  | acquired b =>
    obtain ⟨rfl, hheld⟩ := Option.ite_none_right_eq_some.mp h
    cases hheld
    simp
  | used b =>
    obtain ⟨-, hheld⟩ := Option.ite_none_right_eq_some.mp h
    cases hheld
    simp
  | released b =>
    obtain ⟨rfl, hheld⟩ := Option.ite_none_right_eq_some.mp h
    cases hheld
    simp

theorem count_foldlM (h : log.foldlM next held = some held') (a : α) :
    log.count (.acquired a) + (if held = some a then 1 else 0) =
      log.count (.released a) + if held' = some a then 1 else 0 := by
  induction log generalizing held with
  | nil =>
    cases h
    rfl
  | cons use log ih =>
    rw [List.foldlM_cons] at h
    obtain ⟨between, hnext, hrest⟩ := Option.bind_eq_some_iff.mp h
    have hlog := ih hrest
    have huse := count_next hnext a
    simp only [List.count_cons, beq_iff_eq]
    omega

theorem count_acquired (h : heldAfter log = some held) (a : α) :
    log.count (.acquired a) = log.count (.released a) + if held = some a then 1 else 0 := by
  have hcount := count_foldlM h a
  rwa [if_neg (Option.some_ne_none a).symm, Nat.add_zero] at hcount

end Custody

namespace Ledger

variable {issued : ℕ} {held front back released : List ℕ} {h : ℕ}

def Balanced (issued : ℕ) (held released : List ℕ) : Prop :=
  (held ++ released).Perm (List.range issued)

theorem balanced_zero : Balanced 0 [] [] := List.Perm.refl _

theorem Balanced.issue (b : Balanced issued (front ++ back) released) :
    Balanced (issued + 1) (front ++ issued :: back) released := by
  have hmoved : (front ++ issued :: back ++ released).Perm
      (front ++ back ++ released ++ [issued]) := by
    rw [List.append_assoc, List.cons_append, List.append_assoc front back]
    exact List.perm_middle.trans (List.perm_append_singleton _ _).symm
  rw [Balanced, List.range_succ]
  exact hmoved.trans (b.append_right _)

theorem Balanced.release (b : Balanced issued (front ++ h :: back) released) :
    Balanced issued (front ++ back) (released ++ [h]) := by
  have hmoved : (front ++ back ++ (released ++ [h])).Perm (front ++ h :: back ++ released) := by
    rw [← List.append_assoc, List.append_assoc front (h :: back), List.cons_append,
      List.append_assoc front back]
    exact (List.perm_append_singleton _ _).trans List.perm_middle.symm
  exact hmoved.trans b

theorem Balanced.pass (b : Balanced issued held released) :
    Balanced (issued + 1) held (released ++ [issued]) := by
  have hissued : Balanced (issued + 1) ([] ++ issued :: held) released :=
    @Balanced.issue issued [] held released b
  exact hissued.release

theorem Balanced.release_all (b : Balanced issued held released) :
    Balanced issued [] (released ++ held) := by
  rw [Balanced, List.nil_append]
  exact List.perm_append_comm.trans b

theorem Balanced.count_held (b : Balanced issued held released) (hissued : h < issued)
    (hkept : h ∉ released) : held.count h = 1 := by
  have hcount := b.count_eq h
  rw [List.count_append, List.count_eq_zero_of_not_mem hkept, Nat.add_zero] at hcount
  rw [hcount]
  exact List.nodup_range.count.trans (if_pos (List.mem_range.mpr hissued))

theorem Balanced.not_released (b : Balanced issued held released) (hheld : h ∈ held) :
    h ∉ released := by
  have hdisjoint := (List.nodup_append.mp (b.nodup_iff.mpr List.nodup_range)).2.2
  exact fun hreleased => hdisjoint h hheld h hreleased rfl

theorem Balanced.nodup_released (b : Balanced issued held released) : released.Nodup :=
  (List.nodup_append.mp (b.nodup_iff.mpr List.nodup_range)).2.1

end Ledger
