import IotEdgeAgent.Library.Logged
import Mathlib.Data.List.Basic

/-!
# Machines that are fed symbol by symbol

A step takes a symbol, may report something, and succeeds or fails; it has no value where the
program is undefined. Feeding goes on until a step fails, and drops the symbols behind it. A stream
may arrive in chunks, each of which is fed by a call of its own. As long as nothing fails the cut
into chunks makes no difference.
-/

namespace Feed

variable {σ α ε : Type}

def feed (step : σ → α → Logged ε (Bool × σ)) : σ → List α → Logged ε (Bool × σ)
  | s, [] => pure (true, s)
  | s, a :: as => step s a >>= fun (succeeded, s) =>
      if succeeded then feed step s as else pure (false, s)

def feedChunks (call : σ → List α → Logged ε (Bool × σ)) :
    σ → List (List α) → Logged ε (List Bool × σ)
  | s, [] => pure ([], s)
  | s, chunk :: chunks => call s chunk >>= fun (succeeded, s) =>
      feedChunks call s chunks >>= fun (results, s) => pure (succeeded :: results, s)

variable {step : σ → α → Logged ε (Bool × σ)} {call : σ → List α → Logged ε (Bool × σ)}
  {s t u : σ} {a : α} {as bs : List α} {log log' : List ε} {succeeded : Bool}

@[simp] theorem feed_nil : feed step s [] = pure (true, s) := rfl

theorem feed_cons (h : step s a = ⟨log, some (true, t)⟩) :
    feed step s (a :: as) = ⟨log ++ (feed step t as).log, (feed step t as).value⟩ := by
  rw [feed, h]
  exact Logged.bind_done ..

theorem feed_cons_pure (h : step s a = pure (true, t)) :
    feed step s (a :: as) = feed step t as := by
  rw [feed, h, Logged.pure_bind]
  exact if_pos rfl

theorem feed_singleton (step : σ → α → Logged ε (Bool × σ)) (s : σ) (a : α) :
    feed step s [a] = step s a := by
  rw [feed]
  rcases step s a with ⟨log, _ | ⟨_ | _, t⟩⟩ <;> simp [Logged.bind_stopped, Logged.bind_done]

theorem feed_append (step : σ → α → Logged ε (Bool × σ)) (s : σ) (as bs : List α) :
    feed step s (as ++ bs) = feed step s as >>= fun (succeeded, t) =>
      if succeeded then feed step t bs else pure (false, t) := by
  induction as generalizing s with
  | nil => simp [Logged.pure_bind]
  | cons a as ih =>
    rw [List.cons_append, feed, feed, Logged.bind_assoc]
    congr 1
    funext ⟨succeeded, t⟩
    cases succeeded with
    | false => simp only [Bool.false_eq_true, if_false, Logged.pure_bind]
    | true => simp only [if_true, ih]

theorem feed_append_of (h : feed step s as = ⟨log, some (true, t)⟩) :
    feed step s (as ++ bs) = ⟨log ++ (feed step t bs).log, (feed step t bs).value⟩ := by
  rw [feed_append, h]
  exact Logged.bind_done ..

theorem feed_append_eq (h : feed step s as = ⟨log, some (true, t)⟩)
    (h' : feed step t bs = ⟨log', some (succeeded, u)⟩) :
    feed step s (as ++ bs) = ⟨log ++ log', some (succeeded, u)⟩ := by
  rw [feed_append_of h, h']

theorem feed_of_append (h : feed step s (as ++ bs) = ⟨log, some (true, u)⟩) :
    ∃ log₁ log₂ t, feed step s as = ⟨log₁, some (true, t)⟩ ∧
      feed step t bs = ⟨log₂, some (true, u)⟩ ∧ log = log₁ ++ log₂ := by
  rw [feed_append] at h
  obtain ⟨log₁, ⟨succeeded, t⟩, log₂, hfirst, hrest, rfl⟩ := Logged.of_bind h
  cases succeeded with
  | false => cases hrest
  | true => exact ⟨log₁, log₂, t, hfirst, hrest, rfl⟩

theorem feedChunks_of_feed {chunks : List (List α)}
    (hcall : ∀ chunk ∈ chunks, ∀ s, call s chunk = feed step s chunk)
    (h : feed step s chunks.flatten = ⟨log, some (true, t)⟩) :
    feedChunks call s chunks = ⟨log, some (List.replicate chunks.length true, t)⟩ := by
  induction chunks generalizing s log with
  | nil => exact congrArg (fun x : Logged ε (Bool × σ) =>
      (⟨x.log, x.value.map fun y => ([], y.2)⟩ : Logged ε (List Bool × σ))) h
  | cons chunk chunks ih =>
    rw [List.flatten_cons] at h
    obtain ⟨log₁, log₂, u, hchunk, hchunks, rfl⟩ := feed_of_append h
    have hrest := ih (fun c hc => hcall c (List.mem_cons_of_mem _ hc)) hchunks
    rw [feedChunks, hcall chunk List.mem_cons_self, hchunk, Logged.bind_done]
    simp [hrest, Logged.bind_done, List.replicate_succ]

theorem feed_of_feedChunks {chunks : List (List α)}
    (hcall : ∀ chunk ∈ chunks, ∀ s, call s chunk = feed step s chunk)
    (h : feedChunks call s chunks = ⟨log, some (List.replicate chunks.length true, t)⟩) :
    feed step s chunks.flatten = ⟨log, some (true, t)⟩ := by
  induction chunks generalizing s log with
  | nil =>
    cases h
    rfl
  | cons chunk chunks ih =>
    rw [feedChunks, hcall chunk List.mem_cons_self] at h
    obtain ⟨log₁, ⟨succeeded, u⟩, rest, hfirst, hthen, rfl⟩ := Logged.of_bind h
    obtain ⟨log₂, ⟨results, v⟩, nothing, hrest, hdone, rfl⟩ := Logged.of_bind hthen
    cases hdone
    rw [List.append_nil, List.flatten_cons]
    exact feed_append_eq hfirst (ih (fun c hc => hcall c (List.mem_cons_of_mem _ hc)) hrest)

section
variable {Inv : σ → Prop} {P : ε → Prop}

def Keeps {β : Type} (Inv : σ → Prop) (P : ε → Prop) (x : Logged ε (β × σ)) : Prop :=
  x.Every P ∧ ∀ r, x.value = some r → Inv r.2

theorem Keeps.pure {β : Type} {b : β} (h : Inv s) : Keeps Inv P (pure (b, s)) := by
  refine ⟨.pure P _, ?_⟩
  rintro r hr
  cases hr
  exact h

theorem Keeps.bind {β γ : Type} {x : Logged ε (β × σ)} {f : β × σ → Logged ε (γ × σ)}
    (hx : Keeps Inv P x) (hf : ∀ r, Inv r.2 → Keeps Inv P (f r)) : Keeps Inv P (x >>= f) := by
  refine ⟨hx.1.bind fun r hr => (hf r (hx.2 r hr)).1, fun r hr => ?_⟩
  rw [Logged.bind_value] at hr
  obtain ⟨q, hq, hr⟩ := Option.bind_eq_some_iff.mp hr
  exact (hf q (hx.2 q hq)).2 r hr

theorem feed_keeps (hstep : ∀ s a, Inv s → Keeps Inv P (step s a)) (hs : Inv s) (as : List α) :
    Keeps Inv P (feed step s as) := by
  induction as generalizing s with
  | nil => exact .pure hs
  | cons a as ih =>
    refine (hstep s a hs).bind fun ⟨succeeded, t⟩ ht => ?_
    cases succeeded with
    | false => exact .pure ht
    | true => exact ih ht

theorem feedChunks_keeps (hcall : ∀ s as, Inv s → Keeps Inv P (call s as)) (hs : Inv s)
    (chunks : List (List α)) : Keeps Inv P (feedChunks call s chunks) := by
  induction chunks generalizing s with
  | nil => exact .pure hs
  | cons chunk chunks ih =>
    exact (hcall s chunk hs).bind fun r hr => (ih hr).bind fun q hq => .pure hq

end

section
variable {out : ε → List α} {held : σ → List α}

def yield {β : Type} (out : ε → List α) (held : σ → List α) (x : Logged ε (β × σ)) : List α :=
  x.log.flatMap out ++ (x.value.map fun r => held r.2).getD []

theorem yield_pure {β : Type} (b : β) (s : σ) : yield out held (pure (b, s)) = held s := rfl

theorem yield_bind {β γ : Type} {x : Logged ε (β × σ)} {f : β × σ → Logged ε (γ × σ)}
    (hf : ∀ r, (yield out held (f r)).Sublist (held r.2 ++ bs)) :
    (yield out held (x >>= f)).Sublist (yield out held x ++ bs) := by
  rcases x with ⟨log, _ | r⟩
  · rw [Logged.bind_stopped]
    exact List.sublist_append_left ..
  · rw [Logged.bind_done]
    simp only [yield, List.flatMap_append, List.append_assoc, Option.map_some, Option.getD_some]
    exact (List.Sublist.refl _).append (hf r)

theorem feed_yield (hstep : ∀ s a, (yield out held (step s a)).Sublist (held s ++ [a])) (s : σ)
    (as : List α) : (yield out held (feed step s as)).Sublist (held s ++ as) := by
  induction as generalizing s with
  | nil => rw [feed_nil, yield_pure, List.append_nil]
  | cons a as ih =>
    rw [List.append_cons]
    refine (yield_bind fun ⟨succeeded, t⟩ => ?_).trans ((hstep s a).append (.refl as))
    cases succeeded with
    | false => exact List.sublist_append_left ..
    | true => exact ih t

theorem feedChunks_yield (hcall : ∀ s as, (yield out held (call s as)).Sublist (held s ++ as))
    (s : σ) (chunks : List (List α)) :
    (yield out held (feedChunks call s chunks)).Sublist (held s ++ chunks.flatten) := by
  induction chunks generalizing s with
  | nil => exact List.sublist_append_left ..
  | cons chunk chunks ih =>
    rw [List.flatten_cons, ← List.append_assoc]
    refine (yield_bind fun r => ?_).trans ((hcall s chunk).append (.refl _))
    refine List.Sublist.trans ?_ (ih r.2)
    rw [← List.append_nil (yield out held (feedChunks call r.2 chunks))]
    exact yield_bind fun q => List.sublist_append_left ..

end

end Feed
