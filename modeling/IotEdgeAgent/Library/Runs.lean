import Mathlib.Data.List.Basic
import Mathlib.Logic.Relation
import Mathlib.Tactic.TypeStar

/-!
# Runs of a step relation, and logs under a monitor

A run is a path of a step relation that is labelled with actions. The invariant rule
takes what one step preserves to what a whole run preserves. `Guarded` cuts a relation
down to the steps that meet a condition on the state in front of them. A monitor runs along a log
and says of each event whether it is allowed in the state that the events before it have led to.
-/

namespace Runs

variable {σ τ : Type*}

inductive Run (step : σ → τ → σ → Prop) (s : σ) : List τ → σ → Prop
  | start : Run step s [] s
  | next {as : List τ} {t u : σ} {a : τ} :
      Run step s as t → step t a u → Run step s (as ++ [a]) u

def Guarded (guard : σ → τ → Prop) (step : σ → τ → σ → Prop) : σ → τ → σ → Prop :=
  fun s a t => guard s a ∧ step s a t

variable {step : σ → τ → σ → Prop} {guard : σ → τ → Prop} {inv : σ → Prop} {s t : σ} {as : List τ}

theorem Run.invariant (h : Run step s as t) (hinit : inv s)
    (hstep : ∀ x a y, inv x → step x a y → inv y) : inv t := by
  induction h with
  | start => exact hinit
  | next _ hab ih => exact hstep _ _ _ ih hab

theorem Run.unguard (h : Run (Guarded guard step) s as t) : Run step s as t := by
  induction h with
  | start => exact .start
  | next _ hab ih => exact .next ih hab.2

end Runs

namespace Monitor

variable {σ ε : Type*} {next : σ → ε → σ} {allowed : σ → ε → Prop} {s : σ} {e : ε}
  {log later : List ε}

def Obeys (next : σ → ε → σ) (allowed : σ → ε → Prop) : σ → List ε → Prop
  | _, [] => True
  | s, e :: log => allowed s e ∧ Obeys next allowed (next s e) log

theorem obeys_append : Obeys next allowed s (log ++ later) ↔
    Obeys next allowed s log ∧ Obeys next allowed (log.foldl next s) later := by
  induction log generalizing s with
  | nil => simp [Obeys]
  | cons e log ih =>
    rw [List.cons_append, Obeys, Obeys, List.foldl_cons, ih, and_assoc]

theorem obeys_iff : Obeys next allowed s log ↔
    ∀ before e after, log = before ++ e :: after → allowed (before.foldl next s) e := by
  constructor
  · rintro h before e after rfl
    exact (obeys_append.mp h).2.1
  · intro h
    induction log generalizing s with
    | nil => trivial
    | cons e log ih =>
      refine ⟨h [] e log rfl, ih fun before e' after hlog => ?_⟩
      rw [hlog] at h
      exact h (e :: before) e' after rfl

theorem obeys_of_ignored (h : ∀ e ∈ log, ∀ s, allowed s e ∧ next s e = s) :
    Obeys next allowed s log ∧ log.foldl next s = s := by
  induction log with
  | nil => exact ⟨trivial, rfl⟩
  | cons e log ih =>
    obtain ⟨hallowed, hnext⟩ := h e List.mem_cons_self s
    obtain ⟨hlog, hfold⟩ := ih fun e he => h e (List.mem_cons_of_mem _ he)
    refine ⟨⟨hallowed, ?_⟩, ?_⟩
    · rw [hnext]
      exact hlog
    · rw [List.foldl_cons, hnext, hfold]

end Monitor
