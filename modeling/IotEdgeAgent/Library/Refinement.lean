import Mathlib.Data.List.Basic

/-!
# A machine that may stop against one that cannot

The lower machine has a step that may be undefined, the upper machine answers every request. If
from every good state the step is defined and does what the upper machine does, then so does every
run.
-/

namespace Refinement

section
variable {τ γ δ : Type} {perform : τ → γ → δ × τ} {t : τ} {cs cs' : List γ}

def answers (perform : τ → γ → δ × τ) : τ → List γ → List δ × τ
  | t, [] => ([], t)
  | t, c :: cs =>
    let rest := answers perform (perform t c).2 cs
    ((perform t c).1 :: rest.1, rest.2)

theorem answers_append : answers perform t (cs ++ cs') =
    ((answers perform t cs).1 ++ (answers perform (answers perform t cs).2 cs').1,
      (answers perform (answers perform t cs).2 cs').2) := by
  induction cs generalizing t with
  | nil => rfl
  | cons c cs ih =>
    rw [List.cons_append, answers, ih]
    rfl

theorem answers_map {ε : Type} (f : δ → ε) :
    answers (fun t c => (f (perform t c).1, (perform t c).2)) t cs =
      ((answers perform t cs).1.map f, (answers perform t cs).2) := by
  induction cs generalizing t with
  | nil => rfl
  | cons c cs ih =>
    rw [answers, ih]
    rfl

theorem answers_related {R : τ → τ → Prop} (hrefl : ∀ t, R t t)
    (htrans : ∀ t u v, R t u → R u v → R t v) (hstep : ∀ t c, R t (perform t c).2) (t : τ)
    (cs : List γ) : R t (answers perform t cs).2 := by
  induction cs generalizing t with
  | nil => exact hrefl t
  | cons c cs ih => exact htrans t _ _ (hstep t c) (ih _)

end

section
variable {σ τ α β γ δ : Type} {step : σ → α → Option (β × σ)} {s : σ} {as : List α}

def steps (step : σ → α → Option (β × σ)) : σ → List α → Option (List β × σ)
  | s, [] => some ([], s)
  | s, a :: as => do
    let (b, s) ← step s a
    let (bs, s) ← steps step s as
    return (b :: bs, s)

theorem steps_cons {a : α} {b : β} {t : σ} (h : step s a = some (b, t)) :
    steps step s (a :: as) = (steps step t as).map fun r => (b :: r.1, r.2) := by
  rw [steps, h]
  change (do let (bs, u) ← steps step t as; return (b :: bs, u)) = _
  cases steps step t as with
  | none => rfl
  | some r => rfl

theorem steps_answer {perform : τ → γ → δ × τ} {good : σ → Prop} {allowed : α → Prop} {abs : σ → τ}
    {ask : α → γ} {tell : β → δ}
    (hstep : ∀ s a, good s → allowed a → ∃ b t, step s a = some (b, t) ∧ good t ∧
      perform (abs s) (ask a) = (tell b, abs t))
    (hs : good s) (has : ∀ a ∈ as, allowed a) :
    ∃ bs t, steps step s as = some (bs, t) ∧ good t ∧
      answers perform (abs s) (as.map ask) = (bs.map tell, abs t) := by
  induction as generalizing s with
  | nil => exact ⟨[], s, rfl, hs, rfl⟩
  | cons a as ih =>
    obtain ⟨b, t, hfirst, ht, hperform⟩ := hstep s a hs (has a List.mem_cons_self)
    obtain ⟨bs, u, hrest, hu, hanswers⟩ := ih ht fun a' ha' => has a' (List.mem_cons_of_mem a ha')
    refine ⟨b :: bs, u, ?_, hu, ?_⟩
    · rw [steps_cons hfirst, hrest]
      rfl
    · rw [List.map_cons, answers, hperform]
      dsimp only
      rw [hanswers]
      rfl

/-- Every step is a run of the upper machine. -/
theorem steps_run {perform : τ → γ → δ × τ} {good : σ → Prop} {allowed : α → Prop} {abs : σ → τ}
    {said : β → Prop}
    (hstep : ∀ s a, good s → allowed a → ∃ b t, step s a = some (b, t) ∧ good t ∧ said b ∧
      ∃ cs, abs t = (answers perform (abs s) cs).2)
    (hs : good s) (has : ∀ a ∈ as, allowed a) :
    ∃ bs t, steps step s as = some (bs, t) ∧ good t ∧ (∀ b ∈ bs, said b) ∧
      ∃ cs, abs t = (answers perform (abs s) cs).2 := by
  induction as generalizing s with
  | nil => exact ⟨[], s, rfl, hs, List.forall_mem_nil said, [], rfl⟩
  | cons a as ih =>
    obtain ⟨b, t, hfirst, ht, hb, cs, hcs⟩ := hstep s a hs (has a List.mem_cons_self)
    obtain ⟨bs, u, hrest, hu, hbs, cs', hcs'⟩ :=
      ih ht fun a' ha' => has a' (List.mem_cons_of_mem a ha')
    refine ⟨b :: bs, u, ?_, hu, List.forall_mem_cons.mpr ⟨hb, hbs⟩, cs ++ cs', ?_⟩
    · rw [steps_cons hfirst, hrest]
      rfl
    · rw [answers_append, ← hcs]
      exact hcs'

end

end Refinement
