import Mathlib.Data.Nat.Notation

/-!
# Collecting from a list until an element is refused

A loop looks at the elements of a list in order. It adds what an element yields, skips the
element, or refuses it and gives up the whole list; looking at an element may also fail. Which
elements the loop gets to depends only on the elements that it lets pass, so `Reached` is
defined from a predicate for those.
-/

namespace Collect

variable {ε α β : Type*}

inductive Verdict (β : Type*)
  | skip
  | add (b : β)
  | refuse

def collect (step : ℕ → α → Except ε (Verdict β)) : List α → Except ε (Option (List β))
  | [] => .ok (some [])
  | a :: as =>
    match step 0 a with
    | .error e => .error e
    | .ok .refuse => .ok none
    | .ok .skip => collect (fun i => step (i + 1)) as
    | .ok (.add b) => (collect (fun i => step (i + 1)) as).map (Option.map (b :: ·))

def Reached (passes : ℕ → α → Prop) (as : List α) (j : ℕ) (a : α) : Prop :=
  as[j]? = some a ∧ ∀ i b, i < j → as[i]? = some b → passes i b

variable {step : ℕ → α → Except ε (Verdict β)} {passes : ℕ → α → Prop} {as : List α} {a : α}

theorem reached_zero (b : α) : Reached passes (a :: as) 0 b ↔ b = a := by
  constructor
  · rintro ⟨hb, -⟩
    exact (Option.some.inj hb).symm
  · rintro rfl
    exact ⟨rfl, fun i _ hi => absurd hi (Nat.not_lt_zero i)⟩

theorem reached_succ (j : ℕ) (b : α) :
    Reached passes (a :: as) (j + 1) b ↔
      passes 0 a ∧ Reached (fun i => passes (i + 1)) as j b := by
  constructor
  · rintro ⟨hb, hbefore⟩
    exact ⟨hbefore 0 a (Nat.succ_pos j) rfl, hb,
      fun i c hi hc => hbefore (i + 1) c (Nat.succ_lt_succ hi) hc⟩
  · rintro ⟨ha, hb, hbefore⟩
    refine ⟨hb, fun i c hi hc => ?_⟩
    cases i with
    | zero => exact Option.some.inj hc ▸ ha
    | succ i => exact hbefore i c (Nat.lt_of_succ_lt_succ hi) hc

theorem reached_cons (P : ℕ → α → Prop) :
    (∃ j b, Reached passes (a :: as) j b ∧ P j b) ↔
      P 0 a ∨ passes 0 a ∧ ∃ j b, Reached (fun i => passes (i + 1)) as j b ∧ P (j + 1) b := by
  constructor
  · rintro ⟨j, b, hreached, hb⟩
    cases j with
    | zero => exact .inl ((reached_zero b).mp hreached ▸ hb)
    | succ j =>
      obtain ⟨ha, hrest⟩ := (reached_succ j b).mp hreached
      exact .inr ⟨ha, j, b, hrest, hb⟩
  · rintro (ha | ⟨ha, j, b, hrest, hb⟩)
    · exact ⟨0, a, (reached_zero a).mpr rfl, ha⟩
    · exact ⟨j + 1, b, (reached_succ j b).mpr ⟨ha, hrest⟩, hb⟩

theorem collect_fails_iff
    (hpasses : ∀ i a, passes i a ↔ ∃ verdict, step i a = .ok verdict ∧ verdict ≠ .refuse) :
    (∃ e, collect step as = .error e) ↔
      ∃ j a, Reached passes as j a ∧ ∃ e, step j a = .error e := by
  induction as generalizing step passes with
  | nil =>
    constructor
    · rintro ⟨e, he⟩
      simp [collect] at he
    · rintro ⟨j, a, ⟨ha, -⟩, -⟩
      simp at ha
  | cons a as ih =>
    rw [reached_cons fun j b => ∃ e, step j b = .error e, collect, hpasses]
    have hrest := @ih (fun i => step (i + 1)) (fun i => passes (i + 1)) fun i => hpasses (i + 1)
    cases hstep : step 0 a with
    | error e => simp
    | ok verdict =>
      cases verdict with
      | refuse => simp
      | skip => simpa using hrest
      | add b =>
        rw [← hrest]
        cases collect (fun i => step (i + 1)) as <;> simp [Except.map]

theorem collect_accepts_iff
    (hpasses : ∀ i a, passes i a ↔ ∃ verdict, step i a = .ok verdict ∧ verdict ≠ .refuse) :
    (∃ bs, collect step as = .ok (some bs)) ↔ ∀ j a, as[j]? = some a → passes j a := by
  induction as generalizing step passes with
  | nil => simp [collect]
  | cons a as ih =>
    have hrest := @ih (fun i => step (i + 1)) (fun i => passes (i + 1)) fun i => hpasses (i + 1)
    have hsplit : (∀ j b, (a :: as)[j]? = some b → passes j b) ↔
        passes 0 a ∧ ∀ j b, as[j]? = some b → passes (j + 1) b := by
      constructor
      · intro h
        exact ⟨h 0 a rfl, fun j b hb => h (j + 1) b hb⟩
      · rintro ⟨ha, h⟩ j b hb
        cases j with
        | zero => exact Option.some.inj hb ▸ ha
        | succ j => exact h j b hb
    rw [hsplit, ← hrest, hpasses, collect]
    cases hstep : step 0 a with
    | error e => simp
    | ok verdict =>
      cases verdict with
      | refuse => simp
      | skip => simp
      | add b =>
        cases collect (fun i => step (i + 1)) as with
        | error e => simp [Except.map]
        | ok collected => cases collected <;> simp [Except.map]

theorem collect_added (hskip : ∀ i a, step i a ≠ .ok .skip) {bs : List β}
    (h : collect step as = .ok (some bs)) : bs.length = as.length ∧
      ∀ i b, bs[i]? = some b → ∃ a, as[i]? = some a ∧ step i a = .ok (.add b) := by
  induction as generalizing step bs with
  | nil =>
    cases h
    exact ⟨rfl, fun i b hb => nomatch hb⟩
  | cons a as ih =>
    rw [collect] at h
    cases hfirst : step 0 a with
    | error e =>
      rw [hfirst] at h
      cases h
    | ok verdict =>
      rw [hfirst] at h
      cases verdict with
      | refuse => cases h
      | skip => exact absurd hfirst (hskip 0 a)
      | add b =>
        cases hrest : collect (fun i => step (i + 1)) as with
        | error e =>
          rw [hrest] at h
          cases h
        | ok collected =>
          cases collected with
          | none =>
            rw [hrest] at h
            cases h
          | some bs' =>
            rw [hrest] at h
            obtain rfl := Option.some.inj (Except.ok.inj h)
            obtain ⟨hlength, hadded⟩ := ih (fun i => hskip (i + 1)) hrest
            refine ⟨congrArg (· + 1) hlength, fun i c hc => ?_⟩
            cases i with
            | zero =>
              obtain rfl := Option.some.inj hc
              exact ⟨a, rfl, hfirst⟩
            | succ i => exact hadded i c hc

section
variable {σ : Type*}

def collectFrom (step : σ → ℕ → α → Except ε (σ × Verdict β)) (s : σ) (i : ℕ) :
    List α → Except ε (Option (List β) × σ)
  | [] => .ok (some [], s)
  | a :: as =>
    match step s i a with
    | .error e => .error e
    | .ok (s, .refuse) => .ok (none, s)
    | .ok (s, .skip) => collectFrom step s (i + 1) as
    | .ok (s, .add b) =>
      (collectFrom step s (i + 1) as).map fun rest => (rest.1.map (b :: ·), rest.2)

inductive Yields (made : ℕ → α → β → Prop) (skipped : ℕ → α → Prop) : ℕ → List α → List β → Prop
  | nil (i : ℕ) : Yields made skipped i [] []
  | skip {i : ℕ} {a : α} {as : List α} {bs : List β} :
      skipped i a → Yields made skipped (i + 1) as bs → Yields made skipped i (a :: as) bs
  | add {i : ℕ} {a : α} {as : List α} {b : β} {bs : List β} :
      made i a b → Yields made skipped (i + 1) as bs → Yields made skipped i (a :: as) (b :: bs)

theorem map_eq_ok {x : Except ε α} {f : α → β} {b : β} (h : x.map f = .ok b) :
    ∃ a, x = .ok a ∧ f a = b := by
  cases x with
  | error e => cases h
  | ok a => exact ⟨a, rfl, Except.ok.inj h⟩

theorem mapM_getElem? {f : α → Except ε β} {bs : List β} (h : as.mapM f = .ok bs) (i : ℕ) :
    as[i]?.map f = bs[i]?.map .ok := by
  induction as generalizing bs i with
  | nil =>
    cases h
    rfl
  | cons a as ih =>
    rw [List.mapM_cons] at h
    cases hfirst : f a with
    | error e =>
      rw [hfirst] at h
      cases h
    | ok b =>
      rw [hfirst] at h
      obtain ⟨rest, hrest, hcons⟩ := map_eq_ok h
      cases hcons
      cases i with
      | zero => exact congrArg some hfirst
      | succ i => exact ih hrest i

variable {made : ℕ → α → β → Prop} {skipped : ℕ → α → Prop} {i : ℕ} {bs : List β}

theorem collectFrom_yields {step : σ → ℕ → α → Except ε (σ × Verdict β)} {Inv : σ → Prop}
    (hstep : ∀ s i a s' verdict, Inv s → step s i a = .ok (s', verdict) →
      Inv s' ∧ (verdict = .skip → skipped i a) ∧ ∀ b, verdict = .add b → made i a b)
    {s s' : σ} (hinv : Inv s) (h : collectFrom step s i as = .ok (some bs, s')) :
    Inv s' ∧ Yields made skipped i as bs := by
  induction as generalizing s i bs with
  | nil =>
    cases h
    exact ⟨hinv, .nil i⟩
  | cons a as ih =>
    rw [collectFrom] at h
    cases hfirst : step s i a with
    | error e =>
      rw [hfirst] at h
      cases h
    | ok next =>
      obtain ⟨t, verdict⟩ := next
      obtain ⟨hnext, hskip, hadd⟩ := hstep _ _ _ _ _ hinv hfirst
      rw [hfirst] at h
      cases verdict with
      | refuse => cases h
      | skip =>
        obtain ⟨hlast, hrest⟩ := ih hnext h
        exact ⟨hlast, .skip (hskip rfl) hrest⟩
      | add b =>
        obtain ⟨⟨_ | bs', t'⟩, hcollect, hrest⟩ := map_eq_ok h
        · cases hrest
        · cases hrest
          obtain ⟨hlast, hyields⟩ := ih hnext hcollect
          exact ⟨hlast, .add (hadd b rfl) hyields⟩

theorem number_succ (i j : ℕ) : i + 1 + j = i + (j + 1) := by omega

def Verdict.map {γ : Type*} (f : β → γ) : Verdict β → Verdict γ
  | .skip => .skip
  | .add b => .add (f b)
  | .refuse => .refuse

theorem collect_of_collectFrom {γ δ ε' : Type*} {step : σ → ℕ → α → Except ε (σ × Verdict β)}
    {plain : ℕ → α → Except ε' (Verdict γ)} {f : β → δ} {g : γ → δ}
    (hstep : ∀ s i a s' verdict, step s i a = .ok (s', verdict) →
      ∃ verdict', plain i a = .ok verdict' ∧ verdict.map f = verdict'.map g)
    {s s' : σ} {result : Option (List β)} (h : collectFrom step s i as = .ok (result, s')) :
    ∃ collected, collect (fun j => plain (i + j)) as = .ok collected ∧
      result.map (List.map f) = collected.map (List.map g) := by
  induction as generalizing s i result with
  | nil =>
    cases h
    exact ⟨some [], rfl, rfl⟩
  | cons a as ih =>
    rw [collectFrom] at h
    cases hfirst : step s i a with
    | error e =>
      rw [hfirst] at h
      cases h
    | ok next =>
      obtain ⟨t, verdict⟩ := next
      obtain ⟨verdict', hplain, hsame⟩ := hstep s i a t verdict hfirst
      have htail : (fun j => plain (i + (j + 1))) = fun j => plain (i + 1 + j) :=
        funext fun j => congrArg plain (number_succ i j).symm
      rw [hfirst] at h
      rw [collect, Nat.add_zero, hplain, htail]
      cases verdict with
      | refuse =>
        cases verdict' <;> cases hsame
        cases h
        exact ⟨none, rfl, rfl⟩
      | skip =>
        cases verdict' <;> cases hsame
        exact ih h
      | add b =>
        cases verdict' with
        | skip => cases hsame
        | refuse => cases hsame
        | add c =>
          have hbc : f b = g c := Verdict.add.inj hsame
          obtain ⟨rest, hcollect, hrest⟩ := map_eq_ok h
          cases hrest
          obtain ⟨collected, hplain', hsame'⟩ := ih hcollect
          refine ⟨collected.map (c :: ·), by rw [hplain']; rfl, ?_⟩
          have hleft : (rest.1.map (b :: ·)).map (List.map f) =
              (rest.1.map (List.map f)).map (f b :: ·) := by
            rw [Option.map_map, Option.map_map]
            rfl
          have hright : (collected.map (c :: ·)).map (List.map g) =
              (collected.map (List.map g)).map (g c :: ·) := by
            rw [Option.map_map, Option.map_map]
            rfl
          rw [hleft, hright, hsame', hbc]

theorem Yields.of_mem (h : Yields made skipped i as bs) {b : β} (hb : b ∈ bs) :
    ∃ j a, as[j]? = some a ∧ made (i + j) a b := by
  induction h with
  | nil => cases hb
  | skip _ _ ih =>
    obtain ⟨j, a, ha, hmade⟩ := ih hb
    exact ⟨j + 1, a, ha, by rwa [number_succ] at hmade⟩
  | add hmade _ ih =>
    cases hb with
    | head => exact ⟨0, _, rfl, hmade⟩
    | tail _ hrest =>
      obtain ⟨j, a, ha, hmade⟩ := ih hrest
      exact ⟨j + 1, a, ha, by rwa [number_succ] at hmade⟩

theorem Yields.of_getElem? (h : Yields made skipped i as bs) {j : ℕ} (ha : as[j]? = some a) :
    skipped (i + j) a ∨ ∃ b ∈ bs, made (i + j) a b := by
  induction h generalizing j with
  | nil => cases ha
  | skip hskip _ ih =>
    cases j with
    | zero => exact .inl (Option.some.inj ha ▸ hskip)
    | succ j =>
      rw [← number_succ]
      exact ih ha
  | @add i _ as b bs hmade _ ih =>
    cases j with
    | zero => exact .inr ⟨b, List.mem_cons_self, Option.some.inj ha ▸ hmade⟩
    | succ j =>
      rw [← number_succ]
      refine (ih ha).imp_right fun hyields => ?_
      obtain ⟨c, hc, hmade'⟩ := hyields
      exact ⟨c, List.mem_cons_of_mem b hc, hmade'⟩

theorem Yields.pairwise (h : Yields made skipped i as bs) :
    bs.Pairwise fun b c => ∃ j k a a', j < k ∧ as[j]? = some a ∧ made (i + j) a b ∧
      as[k]? = some a' ∧ made (i + k) a' c := by
  induction h with
  | nil => exact .nil
  | skip _ _ ih =>
    refine ih.imp fun hpair => ?_
    obtain ⟨j, k, a, a', hlt, ha, hmade, ha', hmade'⟩ := hpair
    rw [number_succ] at hmade hmade'
    exact ⟨j + 1, k + 1, a, a', Nat.succ_lt_succ hlt, ha, hmade, ha', hmade'⟩
  | add hmade hrest ih =>
    refine .cons (fun c hc => ?_) (ih.imp fun hpair => ?_)
    · obtain ⟨k, a', ha', hmade'⟩ := hrest.of_mem hc
      rw [number_succ] at hmade'
      exact ⟨0, k + 1, _, a', Nat.succ_pos k, rfl, hmade, ha', hmade'⟩
    · obtain ⟨j, k, a, a', hlt, ha, hmade, ha', hmade'⟩ := hpair
      rw [number_succ] at hmade hmade'
      exact ⟨j + 1, k + 1, a, a', Nat.succ_lt_succ hlt, ha, hmade, ha', hmade'⟩

end

end Collect
