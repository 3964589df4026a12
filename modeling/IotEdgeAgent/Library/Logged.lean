import Mathlib.Data.Nat.Notation
import Mathlib.Algebra.BigOperators.Group.List.Basic
import Mathlib.Algebra.Ring.Nat

/-!
# Computations with a log

A computation that may stop without a value, together with the list of what it did until then.
Its value alone is that of the computation in `Option`.
-/

structure Logged (ε β : Type) where
  log : List ε
  value : Option β

namespace Logged

variable {ε β γ : Type}

def bind (x : Logged ε β) (f : β → Logged ε γ) : Logged ε γ :=
  match x.value with
  | none => ⟨x.log, none⟩
  | some a => ⟨x.log ++ (f a).log, (f a).value⟩

instance : Monad (Logged ε) where
  pure a := ⟨[], some a⟩
  bind := Logged.bind

def doing (event : ε) (value : Option β) : Logged ε β := ⟨[event], value⟩

def holding (value : Option β) : Logged ε β := ⟨[], value⟩

@[simp] theorem pure_log (a : β) : (pure a : Logged ε β).log = [] := rfl
@[simp] theorem pure_value (a : β) : (pure a : Logged ε β).value = some a := rfl
@[simp] theorem doing_log (event : ε) (value : Option β) : (doing event value).log = [event] := rfl
@[simp] theorem doing_value (event : ε) (value : Option β) :
    (doing event value).value = value := rfl

@[simp] theorem holding_log (value : Option β) : (holding value : Logged ε β).log = [] := rfl
@[simp] theorem holding_value (value : Option β) :
    (holding value : Logged ε β).value = value := rfl

@[simp] theorem bind_value (x : Logged ε β) (f : β → Logged ε γ) :
    (x >>= f).value = x.value.bind fun a => (f a).value := by
  change (x.bind f).value = _
  rw [Logged.bind]
  cases x.value <;> rfl

theorem bind_log (x : Logged ε β) (f : β → Logged ε γ) :
    (x >>= f).log = x.log ++ (x.value.map fun a => (f a).log).getD [] := by
  change (x.bind f).log = _
  rw [Logged.bind]
  cases x.value with
  | none => exact (List.append_nil _).symm
  | some a => rfl

theorem bind_stopped (log : List ε) (f : β → Logged ε γ) :
    (⟨log, none⟩ : Logged ε β) >>= f = ⟨log, none⟩ := rfl

theorem bind_done (log : List ε) (a : β) (f : β → Logged ε γ) :
    (⟨log, some a⟩ : Logged ε β) >>= f = ⟨log ++ (f a).log, (f a).value⟩ := rfl

theorem bind_pure (x : Logged ε β) (g : β → γ) :
    (x >>= fun a => pure (g a)) = ⟨x.log, x.value.map g⟩ := by
  obtain ⟨log, _ | a⟩ := x
  · rfl
  · rw [bind_done, pure_log, List.append_nil]
    rfl

theorem pure_bind (a : β) (f : β → Logged ε γ) : (pure a >>= f) = f a := by
  apply Eq.trans (bind_done [] a f)
  rw [List.nil_append]

theorem bind_assoc {δ : Type} (x : Logged ε β) (f : β → Logged ε γ) (g : γ → Logged ε δ) :
    (x >>= f >>= g) = x >>= fun a => f a >>= g := by
  obtain ⟨log, _ | a⟩ := x
  · rfl
  · rw [bind_done, bind_done]
    cases hvalue : (f a).value with
    | none => simp only [bind_stopped, bind_log, bind_value, hvalue, Option.map_none,
        Option.getD_none, List.append_nil, Option.bind_none]
    | some b => simp only [bind_done, bind_log, bind_value, hvalue, Option.map_some,
        Option.getD_some, List.append_assoc, Option.bind_some]

theorem of_bind {x : Logged ε β} {f : β → Logged ε γ} {log : List ε} {c : γ}
    (h : (x >>= f) = ⟨log, some c⟩) :
    ∃ log₁ a log₂, x = ⟨log₁, some a⟩ ∧ f a = ⟨log₂, some c⟩ ∧ log = log₁ ++ log₂ := by
  obtain ⟨log₁, _ | a⟩ := x
  · cases h
  · rw [bind_done] at h
    obtain ⟨hlog, hvalue⟩ := Logged.mk.inj h
    exact ⟨log₁, a, (f a).log, rfl, congrArg (Logged.mk _) hvalue, hlog.symm⟩

section
variable {x : Logged ε β} {f : β → Logged ε γ}

theorem mem_bind {event : ε} :
    event ∈ (x >>= f).log ↔ event ∈ x.log ∨ ∃ a, x.value = some a ∧ event ∈ (f a).log := by
  rw [bind_log, List.mem_append]
  cases x.value with
  | none => simp
  | some a => simp

theorem mem_bind_left {event : ε} (h : event ∈ x.log) : event ∈ (x >>= f).log :=
  mem_bind.mpr (.inl h)

theorem mem_bind_right {event : ε} {a : β} (ha : x.value = some a) (h : event ∈ (f a).log) :
    event ∈ (x >>= f).log :=
  mem_bind.mpr (.inr ⟨a, ha, h⟩)

def Every (P : ε → Prop) (x : Logged ε β) : Prop := ∀ event ∈ x.log, P event

theorem Every.pure (P : ε → Prop) (a : β) : Every P (Pure.pure a : Logged ε β) := by
  intro event h
  cases h

theorem Every.doing {P : ε → Prop} {event : ε} (h : P event) (value : Option β) :
    Every P (Logged.doing event value) := by
  intro event' hmem
  rw [List.mem_singleton.mp hmem]
  exact h

theorem Every.bind {P : ε → Prop} (hx : Every P x) (hf : ∀ a, x.value = some a → Every P (f a)) :
    Every P (x >>= f) := by
  intro event h
  obtain h | ⟨a, ha, h⟩ := mem_bind.mp h
  · exact hx event h
  · exact hf a ha event h

def weight (w : ε → ℕ) (x : Logged ε β) : ℕ := (x.log.map w).sum

theorem weight_pure (w : ε → ℕ) (a : β) : weight w (Pure.pure a : Logged ε β) = 0 := rfl

theorem weight_doing (w : ε → ℕ) (event : ε) (value : Option β) :
    weight w (doing event value) = w event := Nat.add_zero _

theorem weight_bind_le {w : ε → ℕ} {m n : ℕ} (hx : weight w x ≤ m)
    (hf : ∀ a, x.value = some a → weight w (f a) ≤ n) : weight w (x >>= f) ≤ m + n := by
  rw [weight, bind_log, List.map_append, List.sum_append]
  refine Nat.add_le_add hx ?_
  cases hvalue : x.value with
  | none => exact Nat.zero_le n
  | some a => exact hf a hvalue

end

end Logged
