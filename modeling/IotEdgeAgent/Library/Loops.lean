import Mathlib.Data.Nat.Notation
import Mathlib.Logic.Basic
import Mathlib.Tactic.TypeStar

/-!
# Loops that may run forever, and loops that run before they test

The body of a loop takes a state to the next one, or leaves the loop. A measure that every round
lowers bounds the number of rounds. A state from which every round goes on to such a state is the
start of a run without an end. A do-while loop goes over the inputs that its rounds meet: a round
may have no result, and the inputs may end before the loop does. A condition on the rounds that are
reached is settled where the loop is left when every round that keeps the loop going meets it.
-/

namespace Loops

variable {σ : Type*} {body : σ → Option σ} {m : σ → ℕ} {s t : σ} {n : ℕ}

/-- The state behind `n` rounds, unless one of them left the loop. -/
def stateAt (body : σ → Option σ) : ℕ → σ → Option σ
  | 0, s => some s
  | n + 1, s => (body s).bind (stateAt body n)

def Terminates (body : σ → Option σ) (s : σ) : Prop := ∃ n, stateAt body n s = none

def Descends (m : σ → ℕ) (body : σ → Option σ) (s : σ) : Prop :=
  ∀ n t u, stateAt body n s = some t → body t = some u → m u < m t

theorem stateAt_succ (h : body s = some t) (n : ℕ) : stateAt body (n + 1) s = stateAt body n t := by
  rw [stateAt, h, Option.bind_some]

theorem stateAt_of_left (h : body s = none) (n : ℕ) : stateAt body (n + 1) s = none := by
  rw [stateAt, h, Option.bind_none]

theorem descends_of_left (h : body s = none) : Descends m body s := by
  intro n t u ht hu
  cases n with
  | zero =>
    cases ht
    rw [h] at hu
    cases hu
  | succ n =>
    rw [stateAt_of_left h] at ht
    cases ht

theorem descends_iff (h : body s = some t) :
    Descends m body s ↔ m t < m s ∧ Descends m body t := by
  constructor
  · intro hs
    refine ⟨hs 0 s t rfl h, fun n u v hu => hs (n + 1) u v ?_⟩
    rwa [stateAt_succ h]
  · intro hs n u v hu hv
    cases n with
    | zero =>
      cases hu
      rw [h] at hv
      cases hv
      exact hs.1
    | succ n =>
      rw [stateAt_succ h] at hu
      exact hs.2 n u v hu hv

theorem Descends.stateAt_none (h : Descends m body s) (hn : m s < n) : stateAt body n s = none := by
  induction n generalizing s with
  | zero => exact absurd hn (Nat.not_lt_zero _)
  | succ n ih =>
    cases hbody : body s with
    | none => exact stateAt_of_left hbody n
    | some t =>
      obtain ⟨hless, hrest⟩ := (descends_iff hbody).mp h
      rw [stateAt_succ hbody]
      exact ih hrest (by omega)

theorem Descends.terminates (h : Descends m body s) : Terminates body s :=
  ⟨m s + 1, h.stateAt_none (Nat.lt_succ_self _)⟩

theorem not_terminates (inv : σ → Prop) (hs : inv s)
    (hnext : ∀ s, inv s → ∃ t, body s = some t ∧ inv t) : ¬ Terminates body s := by
  intro h
  obtain ⟨n, hn⟩ := h
  induction n generalizing s with
  | zero => cases hn
  | succ n ih =>
    obtain ⟨t, hbody, ht⟩ := hnext s hs
    rw [stateAt_succ hbody] at hn
    exact ih ht hn

end Loops

namespace DoWhile

variable {σ ι : Type*} {body : σ → ι → Option σ} {keep : σ → ι → Bool}
  {cond cond' : σ → ι → σ → Prop} {inv : σ → Prop} {s t : σ} {i : ι} {inputs : List ι}

/-- The state behind the last round, with the input of that round. -/
def doWhile (body : σ → ι → Option σ) (keep : σ → ι → Bool) : σ → List ι → Option (σ × ι)
  | _, [] => none
  | s, i :: inputs =>
    (body s i).bind fun t => if keep t i then doWhile body keep t inputs else some (t, i)

def Throughout (body : σ → ι → Option σ) (keep : σ → ι → Bool) (cond : σ → ι → σ → Prop) :
    σ → List ι → Prop
  | _, [] => True
  | s, i :: inputs => ∀ t, body s i = some t →
      cond s i t ∧ (keep t i = true → Throughout body keep cond t inputs)

theorem throughout_iff_exit {exit : σ → ι → Prop}
    (hkeep : ∀ s i t, inv s → body s i = some t → keep t i = true → cond s i t ∧ inv t)
    (hexit : ∀ s i t, inv s → body s i = some t → keep t i = false → (cond s i t ↔ exit t i))
    (hinv : inv s) (h : doWhile body keep s inputs = some (t, i)) :
    Throughout body keep cond s inputs ↔ exit t i := by
  induction inputs generalizing s with
  | nil => cases h
  | cons j inputs ih =>
    obtain ⟨u, hu, hrest⟩ := Option.bind_eq_some_iff.mp h
    have hreached : Throughout body keep cond s (j :: inputs) ↔
        cond s j u ∧ (keep u j = true → Throughout body keep cond u inputs) := by
      rw [Throughout]
      constructor
      · exact fun hall => hall u hu
      · intro hone v hv
        obtain rfl := Option.some.inj (hu.symm.trans hv)
        exact hone
    rw [hreached]
    cases hgoes : keep u j with
    | true =>
      rw [if_pos hgoes] at hrest
      obtain ⟨hcond, hu'⟩ := hkeep s j u hinv hu hgoes
      have hlater := ih hu' hrest
      exact ⟨fun h => hlater.mp (h.2 rfl), fun h => ⟨hcond, fun _ => hlater.mpr h⟩⟩
    | false =>
      rw [if_neg (by rw [hgoes]; exact Bool.false_ne_true)] at hrest
      obtain ⟨rfl, rfl⟩ := Prod.mk.inj (Option.some.inj hrest)
      rw [and_iff_left fun h => absurd h Bool.false_ne_true]
      exact hexit s j u hinv hu hgoes

theorem throughout_congr
    (hiff : ∀ s i t, inv s → body s i = some t → (cond s i t ↔ cond' s i t))
    (hnext : ∀ s i t, inv s → body s i = some t → cond s i t → keep t i = true → inv t)
    (hinv : inv s) :
    Throughout body keep cond s inputs ↔ Throughout body keep cond' s inputs := by
  induction inputs generalizing s with
  | nil => exact Iff.rfl
  | cons i inputs ih =>
    rw [Throughout, Throughout]
    refine forall₂_congr fun t ht => ?_
    have hround := hiff s i t hinv ht
    constructor
    · rintro ⟨hcond, hrest⟩
      exact ⟨hround.mp hcond, fun hgoes =>
        (ih (hnext s i t hinv ht hcond hgoes)).mp (hrest hgoes)⟩
    · rintro ⟨hcond, hrest⟩
      have hcond := hround.mpr hcond
      exact ⟨hcond, fun hgoes => (ih (hnext s i t hinv ht hcond hgoes)).mpr (hrest hgoes)⟩

end DoWhile
