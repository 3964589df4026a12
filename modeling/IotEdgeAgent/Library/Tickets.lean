import Mathlib.Data.List.Nodup
import Mathlib.Data.List.Range

/-!
# Tickets that are issued, opened and closed in order

Tickets are numbered in the order in which they are issued, and each is accepted or refused when it
is issued. The tickets that are open are the accepted ones that were not closed, in order. A
refused ticket may be closed as it is issued.
-/

namespace Tickets

variable {accepted : List Bool} {opened closed : List ℕ} {n : ℕ}

def pending (accepted : List Bool) (closed : List ℕ) : List ℕ :=
  (List.range accepted.length).filter fun n => accepted[n]? = some true ∧ n ∉ closed

structure Kept (accepted : List Bool) (opened closed : List ℕ) : Prop where
  opened_eq : opened = pending accepted closed
  nodup : closed.Nodup
  issued : ∀ n ∈ closed, n < accepted.length

theorem mem_pending :
    n ∈ pending accepted closed ↔ accepted[n]? = some true ∧ n ∉ closed := by
  rw [pending, List.mem_filter, List.mem_range, decide_eq_true_eq]
  refine and_iff_right_of_imp fun h => ?_
  by_contra hlt
  rw [List.getElem?_eq_none (Nat.not_lt.mp hlt)] at h
  exact absurd h.1 nofun

theorem nodup_pending : (pending accepted closed).Nodup := List.nodup_range.filter _

theorem kept_nil : Kept [] [] [] where
  opened_eq := rfl
  nodup := List.nodup_nil
  issued := List.forall_mem_nil _

theorem pending_append {b : Bool} {closed closed' : List ℕ}
    (h : ∀ n < accepted.length, n ∈ closed' ↔ n ∈ closed) :
    pending (accepted ++ [b]) closed' =
      pending accepted closed ++
        if b ∧ accepted.length ∉ closed' then [accepted.length] else [] := by
  have hold : (List.range accepted.length).filter
      (fun n => (accepted ++ [b])[n]? = some true ∧ n ∉ closed') = pending accepted closed := by
    rw [pending]
    refine List.filter_congr fun n hn => ?_
    have hlt := List.mem_range.mp hn
    simp only [List.getElem?_append_left hlt, h n hlt]
  rw [pending, List.length_append, List.length_singleton, List.range_succ, List.filter_append, hold]
  congr 1
  have hlast : (accepted ++ [b])[accepted.length]? = some b := List.getElem?_concat_length
  cases b with
  | true => by_cases hclosed : accepted.length ∈ closed' <;> simp [hclosed]
  | false => simp

namespace Kept

theorem accept (h : Kept accepted opened closed) :
    Kept (accepted ++ [true]) (opened ++ [accepted.length]) closed where
  opened_eq := by
    have hfree : accepted.length ∉ closed := fun hmem => Nat.lt_irrefl _ (h.issued _ hmem)
    rw [pending_append fun _ _ => Iff.rfl, if_pos ⟨rfl, hfree⟩, h.opened_eq]
  nodup := h.nodup
  issued n hn := by
    rw [List.length_append]
    exact Nat.lt_add_right _ (h.issued n hn)

theorem refuse (h : Kept accepted opened closed) : Kept (accepted ++ [false]) opened closed where
  opened_eq := by
    rw [pending_append fun _ _ => Iff.rfl, if_neg (fun hand => absurd hand.1 nofun),
      List.append_nil, h.opened_eq]
  nodup := h.nodup
  issued n hn := by
    rw [List.length_append]
    exact Nat.lt_add_right _ (h.issued n hn)

theorem refuse_closed (h : Kept accepted opened closed) :
    Kept (accepted ++ [false]) opened (closed ++ [accepted.length]) where
  opened_eq := by
    have hsame : ∀ n < accepted.length, n ∈ closed ++ [accepted.length] ↔ n ∈ closed := by
      intro n hn
      rw [List.mem_append, List.mem_singleton]
      exact or_iff_left (Nat.ne_of_lt hn)
    rw [pending_append hsame, if_neg (fun hand => absurd hand.1 nofun), List.append_nil,
      h.opened_eq]
  nodup := by
    refine List.Nodup.append h.nodup (List.nodup_singleton _) ?_
    intro n hn hlast
    exact Nat.lt_irrefl _ (List.mem_singleton.mp hlast ▸ h.issued n hn)
  issued n hn := by
    rw [List.length_append, List.length_singleton]
    rcases List.mem_append.mp hn with hn | hn
    · exact Nat.lt_succ_of_lt (h.issued n hn)
    · exact Nat.lt_succ_of_le (Nat.le_of_eq (List.mem_singleton.mp hn))

theorem lt_of_mem (h : Kept accepted opened closed) (hn : n ∈ opened) : n < accepted.length := by
  rw [h.opened_eq, pending, List.mem_filter, List.mem_range] at hn
  exact hn.1

theorem opened_nodup (h : Kept accepted opened closed) : opened.Nodup := h.opened_eq ▸ nodup_pending

theorem not_closed (h : Kept accepted opened closed) (hn : n ∈ opened) : n ∉ closed := by
  rw [h.opened_eq] at hn
  exact (mem_pending.mp hn).2

theorem close (h : Kept accepted opened closed) {closing : List ℕ} (hnodup : closing.Nodup)
    (hopen : ∀ n ∈ closing, n ∈ opened) :
    Kept accepted (opened.filter (· ∉ closing)) (closed ++ closing) where
  opened_eq := by
    rw [h.opened_eq, pending, pending, List.filter_filter]
    refine List.filter_congr fun n _ => ?_
    simp only [List.mem_append, not_or, Bool.decide_and]
    by_cases hclosing : n ∈ closing <;> simp [hclosing]
  nodup := h.nodup.append hnodup fun n hn hclosing => h.not_closed (hopen n hclosing) hn
  issued n hn := by
    rcases List.mem_append.mp hn with hn | hn
    · exact h.issued n hn
    · exact h.lt_of_mem (hopen n hn)

theorem close_one (h : Kept accepted opened closed) (hn : n ∈ opened) :
    Kept accepted (opened.erase n) (closed ++ [n]) := by
  have hclose := h.close (List.nodup_singleton n) fun m hm => List.mem_singleton.mp hm ▸ hn
  have hfilter : opened.filter (· ∉ [n]) = opened.erase n := by
    rw [h.opened_nodup.erase_eq_filter]
    refine List.filter_congr fun m _ => ?_
    by_cases heq : m = n <;> simp [heq]
  rwa [hfilter] at hclose

theorem close_all (h : Kept accepted opened closed) : Kept accepted [] (closed ++ opened) := by
  have hclose := h.close h.opened_nodup fun _ hm => hm
  have hnone : opened.filter (· ∉ opened) = [] :=
    List.filter_eq_nil_iff.mpr fun n hn => by simpa using hn
  rwa [hnone] at hclose

end Kept

theorem map_eraseP {α : Type*} {entries : List α} {p : α → Bool} {ticket : α → ℕ} {entry : α}
    (hfind : entries.find? p = some entry) (hnodup : (entries.map ticket).Nodup) :
    (entries.eraseP p).map ticket = (entries.map ticket).erase (ticket entry) := by
  induction entries with
  | nil => cases hfind
  | cons first entries ih =>
    rw [List.map_cons, List.nodup_cons] at hnodup
    rw [List.map_cons]
    cases hp : p first with
    | true =>
      rw [List.find?_cons_of_pos hp] at hfind
      obtain rfl := Option.some.inj hfind
      rw [List.eraseP_cons_of_pos hp, List.erase_cons_head]
    | false =>
      rw [List.find?_cons_of_neg (Bool.eq_false_iff.mp hp)] at hfind
      have hne : ticket first ≠ ticket entry := fun heq =>
        hnodup.1 (heq ▸ List.mem_map_of_mem (List.mem_of_find?_eq_some hfind))
      rw [List.eraseP_cons_of_neg (Bool.eq_false_iff.mp hp), List.map_cons,
        List.erase_cons_tail (by simpa using hne), ih hfind hnodup.2]

end Tickets
