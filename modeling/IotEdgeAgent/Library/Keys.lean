import Mathlib.Data.List.Basic
import Mathlib.Data.List.Nodup
import Mathlib.Data.Nat.Notation

/-!
# Rows with a primary key, and marks on the first item of a key

A table is a list of rows in which no two rows have the same key. Inserting a row is refused
when its key is taken, as SQL refuses it for a primary key. Deleting by key removes at most
one row, and every other row stays where it was. A history lists items with the latest first. Some
of them have a key, and some are marked. If in every state of the history each key that occurred has
one mark, then the items that are marked are those whose key is new, and conversely.
-/

structure Table {ρ κ : Type*} (key : ρ → κ) where
  rows : List ρ
  keys_nodup : (rows.map key).Nodup

namespace Table
variable {ρ κ : Type*} {key : ρ → κ}

def keys (t : Table key) : List κ := t.rows.map key

theorem eq_of_key_eq {t : Table key} {row row' : ρ} (h : row ∈ t.rows) (h' : row' ∈ t.rows)
    (hkey : key row = key row') : row = row' :=
  List.inj_on_of_nodup_map t.keys_nodup h h' hkey

instance : EmptyCollection (Table key) := ⟨⟨[], List.nodup_nil⟩⟩

@[simp] theorem empty_rows : (∅ : Table key).rows = [] := rfl

theorem insert_nodup {rows : List ρ} {row : ρ} (h : (rows.map key).Nodup)
    (hkey : key row ∉ rows.map key) : ((rows ++ [row]).map key).Nodup := by
  rw [List.map_append, List.map_singleton]
  apply List.Nodup.append h (List.nodup_singleton _)
  intro k hk hrow
  rw [List.mem_singleton] at hrow
  exact hkey (hrow ▸ hk)

variable [DecidableEq κ]

def insert (t : Table key) (row : ρ) : Option (Table key) :=
  if h : key row ∈ t.rows.map key then none
  else some ⟨t.rows ++ [row], insert_nodup t.keys_nodup h⟩

def delete (t : Table key) (k : κ) : Table key :=
  ⟨t.rows.filter (fun row => key row ≠ k), t.keys_nodup.sublist (List.filter_sublist.map key)⟩

theorem insert_eq_none_iff {t : Table key} {row : ρ} :
    t.insert row = none ↔ key row ∈ t.keys := by
  rw [insert]
  split
  · next h => exact iff_of_true rfl h
  · next h => exact iff_of_false (by simp) h

theorem rows_of_insert {t t' : Table key} {row : ρ} (h : t.insert row = some t') :
    t'.rows = t.rows ++ [row] := by
  rw [insert] at h
  split at h
  · cases h
  · rw [← Option.some.inj h]

theorem exists_insert {t : Table key} {row : ρ} (h : key row ∉ t.keys) :
    ∃ t', t.insert row = some t' ∧ t'.rows = t.rows ++ [row] := by
  obtain ⟨t', ht'⟩ := Option.ne_none_iff_exists'.mp (mt insert_eq_none_iff.mp h)
  exact ⟨t', ht', rows_of_insert ht'⟩

@[simp] theorem mem_delete {t : Table key} {k : κ} {row : ρ} :
    row ∈ (t.delete k).rows ↔ row ∈ t.rows ∧ key row ≠ k := by
  simp [delete]

end Table

namespace Firsts

variable {α κ : Type*} [DecidableEq κ] (key : α → Option κ) (marked : α → Bool)

def New (earlier : List α) (a : α) : Prop := key a ≠ none ∧ ∀ b ∈ earlier, key b ≠ key a

instance (earlier : List α) (a : α) : Decidable (New key earlier a) :=
  inferInstanceAs (Decidable (_ ∧ _))

def marks (k : κ) (history : List α) : ℕ := history.countP fun a => key a = some k ∧ marked a

def Once (history : List α) : Prop :=
  ∀ a ∈ history, ∀ k, key a = some k → marks key marked k history = 1

def FirstsMarked : List α → Prop
  | [] => True
  | a :: earlier => FirstsMarked earlier ∧ (marked a = true ↔ New key earlier a)

def lastNew : List α → Option α
  | [] => none
  | a :: earlier => if New key earlier a then some a else lastNew earlier

def lastMarked (history : List α) : Option α := history.find? marked

variable {key marked} {a : α} {earlier history : List α} {k : κ}

theorem marks_cons (k : κ) (a : α) (earlier : List α) :
    marks key marked k (a :: earlier) =
      marks key marked k earlier + if key a = some k ∧ marked a = true then 1 else 0 := by
  simp only [marks, List.countP_cons, decide_eq_true_eq]

theorem marks_of_absent (h : ∀ b ∈ earlier, key b ≠ some k) : marks key marked k earlier = 0 := by
  rw [marks, List.countP_eq_zero]
  intro b hb hmark
  exact h b hb (of_decide_eq_true hmark).1

theorem lastMarked_eq_lastNew (h : FirstsMarked key marked history) :
    lastMarked marked history = lastNew key history := by
  induction history with
  | nil => rfl
  | cons a earlier ih =>
    obtain ⟨hearlier, hmark⟩ := h
    rw [lastNew, ← ih hearlier, lastMarked, List.find?_cons]
    by_cases hnew : New key earlier a
    · rw [if_pos hnew, hmark.mpr hnew]
    · rw [if_neg hnew, Bool.eq_false_iff.mpr (hmark.not.mpr hnew)]
      rfl

theorem Once.of_firstsMarked (h : FirstsMarked key marked history) :
    Once key marked history := by
  induction history with
  | nil =>
    intro a ha
    simp at ha
  | cons a earlier ih =>
    obtain ⟨hearlier, hmark⟩ := h
    intro b hb k hk
    rw [marks_cons]
    -- Either an earlier item has this key too, and then `a` adds no mark, or `a` is the first.
    by_cases hseen : ∃ c ∈ earlier, key c = some k
    · obtain ⟨c, hc, hck⟩ := hseen
      rw [ih hearlier c hc k hck, if_neg]
      rintro ⟨hak, hmarked⟩
      exact (hmark.mp hmarked).2 c hc (hck.trans hak.symm)
    · have habsent : ∀ c ∈ earlier, key c ≠ some k := fun c hc hck => hseen ⟨c, hc, hck⟩
      have hba : b = a := (List.mem_cons.mp hb).resolve_right fun hb => habsent b hb hk
      rw [hba] at hk
      have hnew : New key earlier a := by
        rw [New, hk]
        exact ⟨Option.some_ne_none k, habsent⟩
      rw [marks_of_absent habsent, if_pos ⟨hk, hmark.mpr hnew⟩]

theorem once_throughout_iff (hkeyed : ∀ a ∈ history, marked a = true → key a ≠ none) :
    (∀ past, past <:+ history → Once key marked past) ↔ FirstsMarked key marked history := by
  induction history with
  | nil =>
    refine ⟨fun _ => trivial, fun h past hpast => ?_⟩
    rw [List.suffix_nil.mp hpast]
    exact Once.of_firstsMarked h
  | cons a earlier ih =>
    have ih := ih fun b hb => hkeyed b (List.mem_cons_of_mem a hb)
    constructor
    · intro h
      have hearlier := ih.mp fun past hpast => h past (hpast.trans (List.suffix_cons a earlier))
      refine ⟨hearlier, fun hmarked => ⟨hkeyed a List.mem_cons_self hmarked, ?_⟩, fun hnew => ?_⟩
      · -- A second mark would be one too many.
        intro b hb hkey
        obtain ⟨k, hk⟩ := Option.ne_none_iff_exists'.mp (hkeyed a List.mem_cons_self hmarked)
        have hone := h _ List.suffix_rfl a List.mem_cons_self k hk
        have hbefore := Once.of_firstsMarked hearlier b hb k (hkey.trans hk)
        rw [marks_cons, hbefore, if_pos ⟨hk, hmarked⟩] at hone
        omega
      · obtain ⟨k, hk⟩ := Option.ne_none_iff_exists'.mp hnew.1
        have hone := h _ List.suffix_rfl a List.mem_cons_self k hk
        have habsent : marks key marked k earlier = 0 :=
          marks_of_absent fun b hb hbk => hnew.2 b hb (hbk.trans hk.symm)
        rw [marks_cons, habsent] at hone
        by_contra hmarked
        rw [if_neg fun h => hmarked h.2] at hone
        omega
    · intro h past hpast
      rcases List.suffix_cons_iff.mp hpast with rfl | hpast
      · exact Once.of_firstsMarked h
      · exact ih.mpr h.1 past hpast

end Firsts
