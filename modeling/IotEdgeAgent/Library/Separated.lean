import Mathlib.Data.Nat.Notation
import Mathlib.Data.List.Basic
import Mathlib.Tactic.SplitIfs

/-!
# Lists with a separator

The loop of a descent parser over items with a separator between them, up to a closing character,
and the layout that it undoes. What is `space` may stand around the items.
-/

namespace Separated

/-- Why there is no result: text that is not read, or more rounds than there is room for. -/
inductive Stop
  | rejected
  | unfinished
  deriving DecidableEq, Repr

variable {α σ : Type}

def skip (space : α → Bool) (text : List α) : List α := text.dropWhile space

def readItems [DecidableEq α] (space : α → Bool) (separator closing : α)
    (item : σ → List α → Except Stop (σ × List α)) :
    ℕ → σ → List α → Except Stop (σ × List α)
  | 0, _, _ => .error .unfinished
  | rounds + 1, read, text =>
    match item read text with
    | .error stop => .error stop
    | .ok (read, text) =>
      match skip space text with
      | [] => .error .rejected
      | c :: text =>
        if c = separator then
          readItems space separator closing item rounds read (skip space text)
        else if c = closing then .ok (read, text)
        else .error .rejected

/-- A result has the property, and more rounds would not change the outcome. -/
def Ensures {β : Type} (P : β → Prop) : Except Stop β → Prop
  | .ok result => P result
  | .error stop => stop ≠ .unfinished

def entries (separator : α) (before behind : List α) : List (List α) → List α
  | [] => []
  | [text] => before ++ text ++ behind
  | text :: texts =>
    before ++ text ++ separator :: behind ++ entries separator before behind texts

section Skip
variable {space : α → Bool} {gap : List α} {c : α}

theorem skip_cons (h : space c = false) (text : List α) : skip space (c :: text) = c :: text :=
  List.dropWhile_cons_of_neg (by simp [h])

theorem skip_append (hgap : ∀ c ∈ gap, space c) (text : List α) :
    skip space (gap ++ text) = skip space text :=
  List.dropWhile_append_of_pos hgap

theorem length_skip_le (space : α → Bool) (text : List α) :
    (skip space text).length ≤ text.length := (List.dropWhile_suffix space).length_le

end Skip

section Ensures
variable {β γ : Type} {P Q : β → Prop} {result : Except Stop β}

theorem ensures_rejected : Ensures P (.error .rejected) := fun h => (by cases h)

theorem Ensures.mono (h : Ensures P result) (hPQ : ∀ b, P b → Q b) : Ensures Q result := by
  cases result with
  | ok b => exact hPQ b h
  | error stop => exact h

theorem Ensures.map {f : β → γ} {Q : γ → Prop} (h : Ensures P result) (hPQ : ∀ b, P b → Q (f b)) :
    Ensures Q (result.map f) := by
  cases result with
  | ok b => exact hPQ b h
  | error stop => exact h

end Ensures

section Rounds
variable [DecidableEq α] {space : α → Bool} {separator closing : α}
  {item : σ → List α → Except Stop (σ × List α)} {rounds : ℕ} {read : σ} {text : List α}

theorem readItems_item {stop : Stop} (h : item read text = .error stop) :
    readItems space separator closing item (rounds + 1) read text = .error stop := by
  rw [readItems, h]

theorem readItems_separator {next : σ} {behind ahead : List α}
    (h : item read text = .ok (next, behind)) (hskip : skip space behind = separator :: ahead) :
    readItems space separator closing item (rounds + 1) read text =
      readItems space separator closing item rounds next (skip space ahead) := by
  simp only [readItems, h, hskip, if_pos]

theorem readItems_closing (hne : separator ≠ closing) {next : σ} {behind ahead : List α}
    (h : item read text = .ok (next, behind)) (hskip : skip space behind = closing :: ahead) :
    readItems space separator closing item (rounds + 1) read text = .ok (next, ahead) := by
  simp only [readItems, h, hskip, if_neg hne.symm, if_pos]

theorem readItems_ensures {P : σ → Prop} {T : List α → Prop}
    (hskip : ∀ text, T text → T (skip space text))
    (hdrop : ∀ {c text}, c = separator ∨ c = closing → T (c :: text) → T text)
    (hitem : ∀ read text, P read → T text → Ensures
      (fun next => P next.1 ∧ T next.2 ∧ next.2.length ≤ text.length) (item read text))
    (hread : P read) (htext : T text) (hrounds : text.length < rounds) :
    Ensures (fun next => P next.1 ∧ T next.2 ∧ next.2.length < text.length)
      (readItems space separator closing item rounds read text) := by
  induction rounds generalizing read text with
  | zero => exact absurd hrounds (Nat.not_lt_zero _)
  | succ rounds ih =>
    have hfirst := hitem read text hread htext
    rw [readItems]
    split
    · rename_i stop hstop
      rwa [hstop] at hfirst
    · rename_i next behind hnext
      rw [hnext] at hfirst
      have hbehind : T behind ∧ behind.length ≤ text.length := hfirst.2
      have hgap := length_skip_le space behind
      have hskipped := hskip behind hbehind.1
      split
      · exact ensures_rejected
      · rename_i c ahead hahead
        rw [hahead] at hgap hskipped
        split_ifs with hseparator hclosing
        · have hrest := length_skip_le space ahead
          have hlen : ahead.length < text.length := Nat.lt_of_lt_of_le hgap hbehind.2
          refine (ih hfirst.1 (hskip ahead (hdrop (.inl hseparator) hskipped)) (by omega)).mono
            fun result hresult => ⟨hresult.1, hresult.2.1, ?_⟩
          exact Nat.lt_of_lt_of_le hresult.2.2 (by omega)
        · exact ⟨hfirst.1, hdrop (.inr hclosing) hskipped, Nat.lt_of_lt_of_le hgap hbehind.2⟩
        · exact ensures_rejected

end Rounds

theorem mem_entries {separator : α} {before behind : List α} {texts : List (List α)} {c : α}
    (h : c ∈ entries separator before behind texts) :
    c = separator ∨ c ∈ before ∨ c ∈ behind ∨ ∃ text ∈ texts, c ∈ text := by
  induction texts with
  | nil => exact absurd h List.not_mem_nil
  | cons text texts ih =>
    cases texts with
    | nil =>
      simp only [entries, List.mem_append] at h
      obtain (h | h) | h := h
      · exact .inr (.inl h)
      · exact .inr (.inr (.inr ⟨text, List.mem_cons_self, h⟩))
      · exact .inr (.inr (.inl h))
    | cons other texts =>
      simp only [entries, List.mem_append, List.mem_cons] at h
      obtain ((h | h) | h | h) | h := h
      · exact .inr (.inl h)
      · exact .inr (.inr (.inr ⟨text, List.mem_cons_self, h⟩))
      · exact .inl h
      · exact .inr (.inr (.inl h))
      · obtain h | h | h | ⟨t, ht, h⟩ := ih h
        · exact .inl h
        · exact .inr (.inl h)
        · exact .inr (.inr (.inl h))
        · exact .inr (.inr (.inr ⟨t, List.mem_cons_of_mem _ ht, h⟩))

section Written
variable {β : Type} {space : α → Bool} {separator closing : α}
  {item : σ → List α → Except Stop (σ × List α)} {write : β → List α} {add : σ → β → σ}
  {good : β → Prop} [DecidablePred good] {before behind ending rest : List α} {read : σ}

/-- Only gaps consist of space. -/
structure Layout (space : α → Bool) (separator closing : α) (before behind ending : List α) :
    Prop where
  separator_ne : space separator = false
  closing_ne : space closing = false
  distinct : separator ≠ closing
  before_space : ∀ c ∈ before, space c
  behind_space : ∀ c ∈ behind, space c
  ending_space : ∀ c ∈ ending, space c

def Follows (space : α → Bool) (separator closing : α) (rest : List α) : Prop :=
  ∃ c behind, rest = c :: behind ∧ (c = separator ∨ c = closing ∨ space c)

/-- One item is read exactly when it is `good`, whatever follows. -/
def ReadsItem (space : α → Bool) (separator closing : α)
    (item : σ → List α → Except Stop (σ × List α)) (write : β → List α) (add : σ → β → σ)
    (good : β → Prop) [DecidablePred good] (read : σ) (x : β) : Prop :=
  ∀ rest, Follows space separator closing rest →
    item read (write x ++ rest) = if good x then .ok (add read x, rest) else .error .rejected

def Reads (space : α → Bool) (separator closing : α)
    (item : σ → List α → Except Stop (σ × List α)) (write : β → List α) (add : σ → β → σ)
    (good : β → Prop) [DecidablePred good] : σ → List β → Prop
  | _, [] => True
  | read, x :: xs =>
    ReadsItem space separator closing item write add good read x ∧
      Reads space separator closing item write add good (add read x) xs

theorem skip_entry {x : β} (hstart : ∃ c text, write x = c :: text ∧ space c = false)
    (hbefore : ∀ c ∈ before, space c) (rest : List α) :
    skip space (before ++ (write x ++ rest)) = write x ++ rest := by
  obtain ⟨c, text, hwrite, hc⟩ := hstart
  rw [skip_append hbefore, hwrite, List.cons_append, skip_cons hc]

theorem follows_gap {gap : List α} (hgap : ∀ c ∈ gap, space c) (rest : List α) :
    Follows space separator closing (gap ++ closing :: rest) := by
  cases gap with
  | nil => exact ⟨closing, rest, rfl, .inr (.inl rfl)⟩
  | cons c gap => exact ⟨c, _, rfl, .inr (.inr (hgap c List.mem_cons_self))⟩

theorem skip_entries {x : β} {xs : List β}
    (hlayout : Layout space separator closing before behind ending)
    (hstart : ∃ c text, write x = c :: text ∧ space c = false) (ahead : List α) :
    ∃ others, skip space (entries separator before behind ((x :: xs).map write) ++ ahead) =
      write x ++ others := by
  cases xs with
  | nil =>
    refine ⟨behind ++ ahead, ?_⟩
    simp only [List.map_cons, List.map_nil, entries, List.append_assoc,
      skip_entry hstart hlayout.before_space]
  | cons y ys =>
    refine ⟨separator :: (behind ++ (entries separator before behind ((y :: ys).map write) ++
      ahead)), ?_⟩
    simp only [List.map_cons, entries, List.append_assoc, List.cons_append,
      skip_entry hstart hlayout.before_space]

theorem length_le_entries {xs : List β}
    (hlayout : Layout space separator closing before behind ending)
    (hstart : ∀ x ∈ xs, ∃ c text, write x = c :: text ∧ space c = false) (ahead : List α) :
    xs.length ≤
      (skip space (entries separator before behind (xs.map write) ++ ahead)).length := by
  induction xs with
  | nil => exact Nat.zero_le _
  | cons x xs ih =>
    have hx := hstart x List.mem_cons_self
    have hpos : 0 < (write x).length := by
      obtain ⟨c, text, hwrite, -⟩ := hx
      rw [hwrite]
      exact Nat.succ_pos _
    cases xs with
    | nil =>
      simp only [List.map_cons, List.map_nil, entries, List.append_assoc,
        skip_entry hx hlayout.before_space, List.length_append, List.length_cons, List.length_nil]
      omega
    | cons y ys =>
      have hrest := ih fun z hz => hstart z (List.mem_cons_of_mem _ hz)
      have hskip := length_skip_le space
        (entries separator before behind ((y :: ys).map write) ++ ahead)
      rw [List.map_cons, List.length_append] at hskip
      simp only [List.map_cons, entries, List.append_assoc, List.cons_append,
        skip_entry hx hlayout.before_space, List.length_append, List.length_cons] at hrest ⊢
      omega

theorem readItems_entries [DecidableEq α] {xs : List β} {rounds : ℕ} (hne : xs ≠ [])
    (hlayout : Layout space separator closing before behind ending)
    (hstart : ∀ x ∈ xs, ∃ c text, write x = c :: text ∧ space c = false)
    (hreads : Reads space separator closing item write add good read xs)
    (hrounds : xs.length ≤ rounds) :
    readItems space separator closing item rounds read
        (skip space (entries separator before behind (xs.map write) ++
          (ending ++ closing :: rest))) =
      if ∀ x ∈ xs, good x then .ok (xs.foldl add read, rest) else .error .rejected := by
  induction xs generalizing read rounds with
  | nil => exact absurd rfl hne
  | cons x xs ih =>
    obtain ⟨rounds, rfl⟩ := Nat.exists_eq_succ_of_ne_zero
      (Nat.ne_of_gt (Nat.lt_of_lt_of_le (Nat.succ_pos _) hrounds))
    have hx := hstart x List.mem_cons_self
    cases xs with
    | nil =>
      have hgap : ∀ c ∈ behind ++ ending, space c := fun c hc =>
        (List.mem_append.mp hc).elim (hlayout.behind_space c) (hlayout.ending_space c)
      have hitem := hreads.1 _ (follows_gap hgap rest)
      simp only [List.map_cons, List.map_nil, entries, List.append_assoc,
        skip_entry hx hlayout.before_space]
      rw [List.append_assoc] at hitem
      by_cases hgood : good x
      · rw [if_pos hgood] at hitem
        have hskip : skip space (behind ++ (ending ++ closing :: rest)) = closing :: rest := by
          rw [← List.append_assoc, skip_append hgap, skip_cons hlayout.closing_ne]
        rw [if_pos (by simpa using hgood)]
        exact readItems_closing hlayout.distinct hitem hskip
      · rw [if_neg hgood] at hitem
        rw [if_neg (by simpa using hgood)]
        exact readItems_item hitem
    | cons y ys =>
      have hitem := fun ahead => hreads.1 (separator :: ahead) ⟨separator, ahead, rfl, .inl rfl⟩
      simp only [List.map_cons, entries, List.append_assoc, List.cons_append,
        skip_entry hx hlayout.before_space]
      by_cases hgood : good x
      · rw [readItems_separator ((hitem _).trans (if_pos hgood)) (skip_cons hlayout.separator_ne _),
          skip_append hlayout.behind_space]
        have hrest := ih (List.cons_ne_nil _ _) (fun z hz => hstart z (List.mem_cons_of_mem _ hz))
          hreads.2 (Nat.le_of_succ_le_succ hrounds)
        rw [List.map_cons] at hrest
        rw [hrest, List.foldl_cons]
        congr 1
        rw [List.forall_mem_cons (a := x), and_iff_right hgood]
      · rw [readItems_item ((hitem _).trans (if_neg hgood)), if_neg]
        exact fun h => hgood (h x List.mem_cons_self)

end Written

end Separated
