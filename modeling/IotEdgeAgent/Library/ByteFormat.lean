import IotEdgeAgent.Library.ByteWalk
import Mathlib.Data.List.OfFn

/-!
# What the bytes of a format say about a walk

Three relations of a shape and a memory. `Spans` gives the number of elements that tags, counts and
length fields prescribe, in unbounded arithmetic. `Passes` gives the number that a program passes
which counts them modulo a machine width, and stops where its limit does. `Meets` gives the tags,
the length fields and the items that such a program comes to, each with its position and with the
number of items it lies in.

The walk over the shape ends as `Passes` says, and reads outside the memory exactly if it comes to
a field that does not fit (`measureOf_ok_iff`, `measureOf_fault_iff`). Where nothing is reduced,
`Passes` is `Spans` under the limit (`measureOf_spans_iff`).
-/

namespace ByteWalk

variable {α : Type*}

def room (m : ℕ) (limit : ℤ) (o : ℕ) : ℤ := limit - ((o % m : ℕ) : ℤ)

inductive Mark
  | elements (k : ℕ)
  | length
  | item (limit : ℤ)

section Relations
variable (m : ℕ) (len : List α → Option (ℕ × ℕ)) (table : α → Shape α)

inductive Spans : Shape α → List α → ℕ → Prop
  | fixed (k : ℕ) (b : List α) : Spans (.fixed k) b k
  | sized {f : ℕ → ℕ} {b : List α} {v k : ℕ} : len b = some (v, k) → Spans (.sized f) b (k + f v)
  | seq {p q : Shape α} {b : List α} {s t : ℕ} :
      Spans p b s → Spans q (b.drop s) t → Spans (.seq p q) b (s + t)
  | repZero (p : Shape α) (b : List α) : Spans (.rep 0 p) b 0
  | repSucc {n : ℕ} {p : Shape α} {b : List α} {s t : ℕ} :
      Spans p b s → Spans (.rep n p) (b.drop s) t → Spans (.rep (n + 1) p) b (s + t)
  | counted {p : Shape α} {b : List α} {v k t : ℕ} :
      len b = some (v, k) → Spans (.rep v p) (b.drop k) t → Spans (.counted p) b (k + t)
  | choice {tags : α → Shape α} {x : α} {b : List α} {s : ℕ} :
      Spans (tags x) b s → Spans (.choice tags) (x :: b) (1 + s)
  | item {nonempty : Bool} {b : List α} {s : ℕ} :
      Spans (.choice table) b s → Spans (.item nonempty) b s
  | call {p : Shape α} {b : List α} {s : ℕ} : Spans p b s → Spans (.call p) b s
  | checked {p : Shape α} {b : List α} {s : ℕ} : Spans p b s → Spans (.checked p) b s

/-- Behind `o` elements, a program that counts modulo `m` passes `s` elements for the shape. What
it passes for an item is what it has counted in it. -/
inductive Passes : ℤ → Shape α → List α → ℕ → ℕ → Prop
  | fixed (limit : ℤ) (k : ℕ) (b : List α) (o : ℕ) : Passes limit (.fixed k) b o k
  | sized {limit : ℤ} {f : ℕ → ℕ} {b : List α} {o v k : ℕ} :
      len b = some (v, k) → Passes limit (.sized f) b o (k + f v)
  | seq {limit : ℤ} {p q : Shape α} {b : List α} {o s t : ℕ} :
      Passes limit p b o s → Passes limit q (b.drop s) (o + s) t →
      Passes limit (.seq p q) b o (s + t)
  | repZero (limit : ℤ) (p : Shape α) (b : List α) (o : ℕ) : Passes limit (.rep 0 p) b o 0
  | repSucc {limit : ℤ} {n : ℕ} {p : Shape α} {b : List α} {o s t : ℕ} :
      Passes limit p b o s → Passes limit (.rep n p) (b.drop s) (o + s) t →
      Passes limit (.rep (n + 1) p) b o (s + t)
  | counted {limit : ℤ} {p : Shape α} {b : List α} {o v k t : ℕ} :
      len b = some (v, k) → Passes limit (.rep v p) (b.drop k) (o + k) t →
      Passes limit (.counted p) b o (k + t)
  | choice {limit : ℤ} {tags : α → Shape α} {x : α} {b : List α} {o s : ℕ} :
      Passes limit (tags x) b (o + 1) s → Passes limit (.choice tags) (x :: b) o (1 + s)
  | item {limit : ℤ} {nonempty : Bool} {b : List α} {o s : ℕ} :
      Passes (room m limit o) (.choice table) b 0 s → nonempty.toNat ≤ s % m →
      ((s % m : ℕ) : ℤ) ≤ room m limit o → Passes limit (.item nonempty) b o (s % m)
  | call {limit : ℤ} {p : Shape α} {b : List α} {o s : ℕ} :
      Passes (room m limit o) p b 0 s → ((s % m : ℕ) : ℤ) ≤ room m limit o →
      Passes limit (.call p) b o (s % m)
  | checked {limit : ℤ} {p : Shape α} {b : List α} {o s : ℕ} :
      ((o % m : ℕ) : ℤ) ≤ limit → Passes limit p b o s → Passes limit (.checked p) b o s

/-- Behind `o` elements, the program comes to the mark at position `i` of the memory, inside of
`n` items of the shape. -/
inductive Meets : ℤ → Shape α → List α → ℕ → ℕ → ℕ → Mark → Prop
  | size {limit : ℤ} {f : ℕ → ℕ} {b : List α} {o : ℕ} : Meets limit (.sized f) b o 0 0 .length
  | left {limit : ℤ} {p q : Shape α} {b : List α} {o n i : ℕ} {mark : Mark} :
      Meets limit p b o n i mark → Meets limit (.seq p q) b o n i mark
  | right {limit : ℤ} {p q : Shape α} {b : List α} {o s n i : ℕ} {mark : Mark} :
      Passes m len table limit p b o s → Meets limit q (b.drop s) (o + s) n i mark →
      Meets limit (.seq p q) b o n (s + i) mark
  | first {limit : ℤ} {k : ℕ} {p : Shape α} {b : List α} {o n i : ℕ} {mark : Mark} :
      Meets limit p b o n i mark → Meets limit (.rep (k + 1) p) b o n i mark
  | later {limit : ℤ} {k : ℕ} {p : Shape α} {b : List α} {o s n i : ℕ} {mark : Mark} :
      Passes m len table limit p b o s → Meets limit (.rep k p) (b.drop s) (o + s) n i mark →
      Meets limit (.rep (k + 1) p) b o n (s + i) mark
  | count {limit : ℤ} {p : Shape α} {b : List α} {o : ℕ} : Meets limit (.counted p) b o 0 0 .length
  | counted {limit : ℤ} {p : Shape α} {b : List α} {o v k n i : ℕ} {mark : Mark} :
      len b = some (v, k) → Meets limit (.rep v p) (b.drop k) (o + k) n i mark →
      Meets limit (.counted p) b o n (k + i) mark
  | tag {limit : ℤ} {tags : α → Shape α} {b : List α} {o : ℕ} :
      Meets limit (.choice tags) b o 0 0 (.elements 1)
  | choice {limit : ℤ} {tags : α → Shape α} {x : α} {b : List α} {o n i : ℕ} {mark : Mark} :
      Meets limit (tags x) b (o + 1) n i mark → Meets limit (.choice tags) (x :: b) o n (1 + i) mark
  | item {limit : ℤ} {nonempty : Bool} {b : List α} {o : ℕ} :
      Meets limit (.item nonempty) b o 0 0 (.item (room m limit o))
  | inside {limit : ℤ} {nonempty : Bool} {b : List α} {o n i : ℕ} {mark : Mark} :
      Meets (room m limit o) (.choice table) b 0 n i mark →
      Meets limit (.item nonempty) b o (n + 1) i mark
  | call {limit : ℤ} {p : Shape α} {b : List α} {o n i : ℕ} {mark : Mark} :
      Meets (room m limit o) p b 0 n i mark → Meets limit (.call p) b o n i mark
  | checked {limit : ℤ} {p : Shape α} {b : List α} {o n i : ℕ} {mark : Mark} :
      ((o % m : ℕ) : ℤ) ≤ limit → Meets limit p b o n i mark →
      Meets limit (.checked p) b o n i mark

def Measured (limit : ℤ) (b : List α) (k : ℕ) : Prop :=
  ∃ s, Passes m len table limit (.choice table) b 0 s ∧ s % m = k ∧ (k : ℤ) ≤ limit

end Relations

/-- A byte string that a shape measures at its own length, whatever comes behind it. -/
def Spells (len : List α → Option (ℕ × ℕ)) (table : α → Shape α) (p : Shape α)
    (bytes : List α) : Prop :=
  ∀ rest, Spans len table p (bytes ++ rest) bytes.length

section Spelling
variable {len : List α → Option (ℕ × ℕ)} {table : α → Shape α} {p q : Shape α} {x y : List α}

theorem Spells.fixed {k : ℕ} (h : x.length = k) : Spells len table (.fixed k) x := by
  intro rest
  subst h
  exact Spans.fixed _ _

theorem Spells.seq (hx : Spells len table p x) (hy : Spells len table q y) :
    Spells len table (.seq p q) (x ++ y) := by
  intro rest
  rw [List.append_assoc, List.length_append]
  refine Spans.seq (hx _) ?_
  simpa using hy rest

theorem Spells.rep {n : ℕ} {f : Fin n → List α} (h : ∀ i, Spells len table p (f i)) :
    Spells len table (.rep n p) (List.ofFn f).flatten := by
  induction n with
  | zero => exact fun rest => Spans.repZero _ _
  | succ n ih =>
    intro rest
    rw [List.ofFn_succ, List.flatten_cons, List.append_assoc, List.length_append]
    refine Spans.repSucc (h 0 _) ?_
    simpa using ih (fun i => h i.succ) rest

theorem Spells.sized {f : ℕ → ℕ} {v : ℕ} (hx : ∀ rest, len (x ++ rest) = some (v, x.length))
    (hy : y.length = f v) : Spells len table (.sized f) (x ++ y) := by
  intro rest
  rw [List.append_assoc, List.length_append, hy]
  exact Spans.sized (hx _)

theorem Spells.counted {v : ℕ} (hx : ∀ rest, len (x ++ rest) = some (v, x.length))
    (hy : Spells len table (.rep v p) y) : Spells len table (.counted p) (x ++ y) := by
  intro rest
  rw [List.append_assoc, List.length_append]
  refine Spans.counted (hx _) ?_
  simpa using hy rest

theorem Spells.choice {tags : α → Shape α} {tag : α} (htag : tags tag = p)
    (h : Spells len table p y) : Spells len table (.choice tags) (tag :: y) := by
  subst htag
  intro rest
  rw [List.cons_append, List.length_cons, Nat.add_comm]
  exact Spans.choice (h rest)

theorem Spells.item {nonempty : Bool} (h : Spells len table (.choice table) y) :
    Spells len table (.item nonempty) y := fun rest => Spans.item (h rest)

theorem Spells.call (h : Spells len table p y) : Spells len table (.call p) y :=
  fun rest => Spans.call (h rest)

theorem Spells.checked (h : Spells len table p y) : Spells len table (.checked p) y :=
  fun rest => Spans.checked (h rest)

end Spelling

section Ending
variable {m : ℕ} {read : List α → Except Stop (ℕ × ℕ)} {len : List α → Option (ℕ × ℕ)}
  {table : α → Shape α} {limit : ℤ} {p : Shape α} {b : List α} {o s : ℕ}

theorem advance_at (b : List α) (o k : ℕ) :
    Cursor.advance m ⟨b, o % m⟩ k = ⟨b.drop k, (o + k) % m⟩ := by
  rw [Cursor.advance, Nat.mod_add_mod]

theorem measureWith_ok {w : Walk α} {c : Cursor α} (h : w ⟨b, 0 % m⟩ = .ok c)
    (hle : (c.len : ℤ) ≤ limit) : measureWith w b limit = .ok c.len := by
  rw [Nat.zero_mod] at h
  simp only [measureWith, h, Except.bind]
  rw [if_neg (by omega)]

theorem measureWith_eq_ok {w : Walk α} {k : ℕ} (h : measureWith w b limit = .ok k) :
    ∃ c, w ⟨b, 0 % m⟩ = .ok c ∧ c.len = k ∧ (k : ℤ) ≤ limit := by
  obtain ⟨c, hc, hend⟩ := bind_eq_ok h
  rw [Nat.zero_mod]
  split_ifs at hend with hlimit
  cases hend
  exact ⟨c, hc, rfl, by omega⟩

theorem nested_ok {f : Measure α} {least k : ℕ} (h : f b (room m limit o) = .ok k)
    (hleast : least ≤ k) :
    nested m f least limit ⟨b, o % m⟩ = .ok ⟨b.drop k, (o + k) % m⟩ := by
  rw [room] at h
  simp only [nested, h, Except.bind]
  rw [if_neg (by omega), advance_at]

theorem measureWith_error {w : Walk α} {e : Stop} (h : w ⟨b, 0 % m⟩ = .error e) :
    measureWith w b limit = .error e := by
  rw [Nat.zero_mod] at h
  simp only [measureWith, h, Except.bind]

theorem nested_error {f : Measure α} {least : ℕ} {e : Stop}
    (h : f b (room m limit o) = .error e) : nested m f least limit ⟨b, o % m⟩ = .error e := by
  rw [room] at h
  simp only [nested, h, Except.bind]

theorem Passes.walk_eq (hread : ∀ b r, len b = some r → read b = .ok r)
    (h : Passes m len table limit p b o s) :
    p.walk m read (measureOf m read table) limit ⟨b, o % m⟩ =
      .ok ⟨b.drop s, (o + s) % m⟩ := by
  induction h with
  | fixed limit k b o => exact congrArg Except.ok (advance_at b o k)
  | sized hv =>
    simp only [Shape.walk, field, hread _ _ hv, Except.bind, skip, advance_at, List.drop_drop,
      Nat.add_assoc]
  | seq _ _ ihp ihq =>
    simp only [Shape.walk, andThen, ihp, Except.bind, ihq, List.drop_drop, Nat.add_assoc]
  | repZero => rfl
  | repSucc _ _ ihp ihn =>
    simp only [Shape.walk, loop, andThen, ihp, Except.bind] at ihn ⊢
    rw [ihn, List.drop_drop, Nat.add_assoc]
  | counted hv _ ih =>
    simp only [Shape.walk, field, hread _ _ hv, Except.bind, advance_at] at ih ⊢
    rw [ih, List.drop_drop, Nat.add_assoc]
  | choice _ ih =>
    simp only [Shape.walk, branch, andThen, skip, Except.bind, advance_at, List.drop_succ_cons,
      List.drop_zero, ih, Nat.add_assoc, Nat.add_comm 1]
  | item _ hleast hle ih =>
    refine nested_ok ?_ hleast
    rw [measureOf_eq]
    rw [Nat.zero_add] at ih
    exact measureWith_ok ih hle
  | call _ hle ih =>
    refine nested_ok ?_ (Nat.zero_le _)
    rw [Nat.zero_add] at ih
    exact measureWith_ok ih hle
  | checked ho _ ih =>
    simp only [Shape.walk, andThen, within]
    rw [if_neg (by omega)]
    exact ih

/-- A length field takes as many elements as its first one says. -/
def LengthFits (wide : α → ℕ) (b : List α) : Prop :=
  ∃ x rest, b = x :: rest ∧ wide x ≤ b.length

def Mark.Fits (wide : α → ℕ) : Mark → List α → Prop
  | .elements k, b => k ≤ b.length
  | .length, b => LengthFits wide b
  | .item _, _ => True

/-- The read of a length field takes what the field says, and fails where the field does not fit. -/
structure Decodes (read : List α → Except Stop (ℕ × ℕ)) (len : List α → Option (ℕ × ℕ))
    (wide : α → ℕ) : Prop where
  ok : ∀ b r, read b = .ok r ↔ len b = some r
  fault : ∀ b, read b = .error .fault ↔ ¬ LengthFits wide b

section Telling
variable (m : ℕ) (len : List α → Option (ℕ × ℕ)) (table : α → Shape α) (wide : α → ℕ)

/-- The program comes to a field that does not fit into the memory. -/
def Misfit (limit : ℤ) (p : Shape α) (b : List α) (o : ℕ) : Prop :=
  ∃ n i mark, Meets m len table limit p b o n i mark ∧ ¬ mark.Fits wide (b.drop i)

structure Told (bound : ℕ) (limit : ℤ) (w : Walk α) (p : Shape α) : Prop where
  ok : ∀ b o c, b.length < bound → w ⟨b, o % m⟩ = .ok c →
    ∃ s, Passes m len table limit p b o s ∧ c = ⟨b.drop s, (o + s) % m⟩
  fault : ∀ b o, b.length < bound → w ⟨b, o % m⟩ = .error .fault →
    Misfit m len table wide limit p b o

structure MeasureTold (bound : ℕ) (f : Measure α) (p : Shape α) : Prop where
  ok : ∀ b limit k, b.length < bound → f b limit = .ok k →
    ∃ s, Passes m len table limit p b 0 s ∧ s % m = k ∧ (k : ℤ) ≤ limit
  fault : ∀ b limit, b.length < bound → f b limit = .error .fault →
    Misfit m len table wide limit p b 0

end Telling

section Sound
variable {m : ℕ} {read : List α → Except Stop (ℕ × ℕ)} {len : List α → Option (ℕ × ℕ)}
  {table : α → Shape α} {wide : α → ℕ} {bound : ℕ} {limit : ℤ} {p q : Shape α} {v w : Walk α}
  {b : List α} {o s : ℕ}

theorem bind_eq_error {ε β γ : Type*} {x : Except ε β} {f : β → Except ε γ} {e : ε}
    (h : x.bind f = .error e) : x = .error e ∨ ∃ a, x = .ok a ∧ f a = .error e := by
  cases x with
  | error e' =>
    cases h
    exact .inl rfl
  | ok a => exact .inr ⟨a, rfl, h⟩

theorem drop_length_lt (hb : b.length < bound) (k : ℕ) : (b.drop k).length < bound := by
  rw [List.length_drop]
  omega

theorem Misfit.left (h : Misfit m len table wide limit p b o) :
    Misfit m len table wide limit (.seq p q) b o := by
  obtain ⟨n, i, mark, hmeets, hfits⟩ := h
  exact ⟨n, i, mark, .left hmeets, hfits⟩

theorem Misfit.right (hs : Passes m len table limit p b o s)
    (h : Misfit m len table wide limit q (b.drop s) (o + s)) :
    Misfit m len table wide limit (.seq p q) b o := by
  obtain ⟨n, i, mark, hmeets, hfits⟩ := h
  rw [List.drop_drop] at hfits
  exact ⟨n, s + i, mark, .right hs hmeets, hfits⟩

theorem Told.skip (k : ℕ) : Told m len table wide bound limit (skip m k) (.fixed k) where
  ok b o c _ h := by
    cases h
    exact ⟨k, .fixed _ _ _ _, advance_at b o k⟩
  fault b o _ h := by cases h

theorem Told.seq (hv : Told m len table wide bound limit v p)
    (hw : Told m len table wide bound limit w q) :
    Told m len table wide bound limit (andThen v w) (.seq p q) where
  ok b o c hb h := by
    obtain ⟨d, hd, hrest⟩ := bind_eq_ok h
    obtain ⟨s, hs, rfl⟩ := hv.ok b o d hb hd
    obtain ⟨t, ht, rfl⟩ := hw.ok _ _ c (drop_length_lt hb s) hrest
    exact ⟨s + t, .seq hs ht, by rw [List.drop_drop, Nat.add_assoc]⟩
  fault b o hb h := by
    rcases bind_eq_error h with h | ⟨d, hd, hrest⟩
    · exact (hv.fault b o hb h).left
    · obtain ⟨s, hs, rfl⟩ := hv.ok b o d hb hd
      exact (hw.fault _ _ (drop_length_lt hb s) hrest).right hs

theorem Told.rep (hw : Told m len table wide bound limit w p) (n : ℕ) :
    Told m len table wide bound limit (loop w n) (.rep n p) := by
  induction n with
  | zero =>
    refine ⟨fun b o c _ h => ?_, fun b o _ h => by cases h⟩
    cases h
    exact ⟨0, .repZero _ _ _ _, rfl⟩
  | succ n ih =>
    -- a round more is a sequence
    have hseq := hw.seq ih
    refine ⟨fun b o c hb h => ?_, fun b o hb h => ?_⟩
    · obtain ⟨u, hu, hc⟩ := hseq.ok b o c hb h
      cases hu with
      | seq hs ht => exact ⟨_, .repSucc hs ht, hc⟩
    · obtain ⟨k, i, mark, hmeets, hfits⟩ := hseq.fault b o hb h
      cases hmeets with
      | left hmeets => exact ⟨k, i, mark, .first hmeets, hfits⟩
      | right hs hmeets => exact ⟨k, _, mark, .later hs hmeets, hfits⟩

theorem Told.sized (hread : Decodes read len wide) (f : ℕ → ℕ) :
    Told m len table wide bound limit (field m read fun v => ByteWalk.skip m (f v))
      (.sized f) where
  ok b o c _ h := by
    obtain ⟨r, hr, hrest⟩ := bind_eq_ok h
    cases hrest
    refine ⟨r.2 + f r.1, .sized ((hread.ok b r).mp hr), ?_⟩
    rw [advance_at, advance_at, List.drop_drop, Nat.add_assoc]
  fault b o _ h := by
    rcases bind_eq_error h with h | ⟨r, -, hrest⟩
    · exact ⟨0, 0, .length, .size, (hread.fault b).mp h⟩
    · cases hrest

theorem Told.counted (hread : Decodes read len wide)
    (hw : Told m len table wide bound limit w p) :
    Told m len table wide bound limit (field m read (loop w)) (.counted p) where
  ok b o c hb h := by
    obtain ⟨r, hr, hrest⟩ := bind_eq_ok h
    rw [advance_at] at hrest
    obtain ⟨t, ht, rfl⟩ := (hw.rep r.1).ok _ _ c (drop_length_lt hb _) hrest
    refine ⟨r.2 + t, .counted ((hread.ok b r).mp hr) ht, ?_⟩
    rw [List.drop_drop, Nat.add_assoc]
  fault b o hb h := by
    rcases bind_eq_error h with h | ⟨r, hr, hrest⟩
    · exact ⟨0, 0, .length, .count, (hread.fault b).mp h⟩
    · rw [advance_at] at hrest
      obtain ⟨n, i, mark, hmeets, hfits⟩ :=
        (hw.rep r.1).fault _ _ (drop_length_lt hb _) hrest
      rw [List.drop_drop] at hfits
      exact ⟨n, r.2 + i, mark, .counted ((hread.ok b r).mp hr) hmeets, hfits⟩

theorem Told.mono {bound' : ℕ} (hle : bound ≤ bound')
    (h : Told m len table wide bound' limit w p) : Told m len table wide bound limit w p :=
  ⟨fun b o c hb => h.ok b o c (hb.trans_le hle), fun b o hb => h.fault b o (hb.trans_le hle)⟩

theorem Told.branch {tags : α → Shape α} {body : α → Walk α}
    (h : ∀ x, Told m len table wide bound limit (body x) (tags x)) :
    Told m len table wide (bound + 1) limit
      (branch fun x => andThen (ByteWalk.skip m 1) (body x)) (.choice tags) where
  ok b o c hb hc := by
    cases b with
    | nil => cases hc
    | cons x b =>
      have hbody : body x (Cursor.advance m ⟨x :: b, o % m⟩ 1) = .ok c := hc
      rw [advance_at] at hbody
      obtain ⟨s, hs, rfl⟩ := (h x).ok b (o + 1) c (Nat.lt_of_succ_lt_succ hb) hbody
      refine ⟨1 + s, .choice hs, ?_⟩
      rw [Nat.add_comm 1 s, List.drop_succ_cons, Nat.add_assoc, Nat.add_comm 1 s]
  fault b o hb hfault := by
    cases b with
    | nil => exact ⟨0, 0, _, .tag, by simp [Mark.Fits]⟩
    | cons x b =>
      have hbody : body x (Cursor.advance m ⟨x :: b, o % m⟩ 1) = .error .fault := hfault
      rw [advance_at] at hbody
      obtain ⟨n, i, mark, hmeets, hfits⟩ :=
        (h x).fault b (o + 1) (Nat.lt_of_succ_lt_succ hb) hbody
      refine ⟨n, 1 + i, mark, .choice hmeets, ?_⟩
      rw [Nat.add_comm, List.drop_succ_cons]
      exact hfits

theorem nested_eq_ok {f : Measure α} {least : ℕ} {c : Cursor α}
    (h : nested m f least limit ⟨b, o % m⟩ = .ok c) :
    ∃ k, f b (room m limit o) = .ok k ∧ least ≤ k ∧ c = ⟨b.drop k, (o + k) % m⟩ := by
  obtain ⟨k, hk, hrest⟩ := bind_eq_ok h
  split_ifs at hrest with hleast
  cases hrest
  exact ⟨k, hk, Nat.not_lt.mp hleast, advance_at b o k⟩

theorem nested_eq_fault {f : Measure α} {least : ℕ}
    (h : nested m f least limit ⟨b, o % m⟩ = .error .fault) :
    f b (room m limit o) = .error .fault := by
  rcases bind_eq_error h with h | ⟨k, -, hrest⟩
  · exact h
  · split_ifs at hrest
    cases hrest

theorem Told.item {f : Measure α} (hf : MeasureTold m len table wide bound f (.choice table))
    (nonempty : Bool) :
    Told m len table wide bound limit (nested m f nonempty.toNat limit) (.item nonempty) where
  ok b o c hb h := by
    obtain ⟨k, hk, hleast, rfl⟩ := nested_eq_ok h
    obtain ⟨s, hs, rfl, hle⟩ := hf.ok b _ k hb hk
    exact ⟨_, .item hs hleast hle, rfl⟩
  fault b o hb h := by
    obtain ⟨n, i, mark, hmeets, hfits⟩ := hf.fault b _ hb (nested_eq_fault h)
    exact ⟨n + 1, i, mark, .inside hmeets, hfits⟩

theorem Told.call {f : Measure α} (hf : MeasureTold m len table wide bound f p) :
    Told m len table wide bound limit (nested m f 0 limit) (.call p) where
  ok b o c hb h := by
    obtain ⟨k, hk, -, rfl⟩ := nested_eq_ok h
    obtain ⟨s, hs, rfl, hle⟩ := hf.ok b _ k hb hk
    exact ⟨_, .call hs hle, rfl⟩
  fault b o hb h := by
    obtain ⟨n, i, mark, hmeets, hfits⟩ := hf.fault b _ hb (nested_eq_fault h)
    exact ⟨n, i, mark, .call hmeets, hfits⟩

theorem within_eq_ok {c d : Cursor α} (h : within limit c = .ok d) :
    (c.len : ℤ) ≤ limit ∧ d = c := by
  simp only [within] at h
  split_ifs at h
  cases h
  exact ⟨by omega, rfl⟩

theorem Told.checked (hw : Told m len table wide bound limit w p) :
    Told m len table wide bound limit (andThen (within limit) w) (.checked p) where
  ok b o c hb h := by
    obtain ⟨d, hd, hrest⟩ := bind_eq_ok h
    obtain ⟨hle, rfl⟩ := within_eq_ok hd
    obtain ⟨s, hs, rfl⟩ := hw.ok b o c hb hrest
    exact ⟨s, .checked hle hs, rfl⟩
  fault b o hb h := by
    rcases bind_eq_error h with h | ⟨d, hd, hrest⟩
    · simp only [within] at h
      split_ifs at h
      cases h
    · obtain ⟨hle, rfl⟩ := within_eq_ok hd
      obtain ⟨n, i, mark, hmeets, hfits⟩ := hw.fault b o hb hrest
      exact ⟨n, i, mark, .checked hle hmeets, hfits⟩

theorem MeasureTold.ofTold {w : ℤ → Walk α}
    (h : ∀ limit, Told m len table wide bound limit (w limit) p) :
    MeasureTold m len table wide bound (fun b limit => measureWith (w limit) b limit) p where
  ok b limit k hb hk := by
    obtain ⟨c, hc, rfl, hle⟩ := measureWith_eq_ok hk
    obtain ⟨s, hs, rfl⟩ := (h limit).ok b 0 c hb hc
    exact ⟨s, hs, by rw [Nat.zero_add], hle⟩
  fault b limit hb hfault := by
    rcases bind_eq_error hfault with hfault | ⟨c, -, hrest⟩
    · refine (h limit).fault b 0 hb ?_
      rw [Nat.zero_mod]
      exact hfault
    · split_ifs at hrest
      cases hrest

theorem Shape.walk_told (hread : Decodes read len wide) {f : Measure α}
    (hf : MeasureTold m len table wide bound f (.choice table)) (p : Shape α) (limit : ℤ) :
    Told m len table wide bound limit (p.walk m read f limit) p := by
  induction p generalizing limit with
  | fixed k => exact Told.skip k
  | sized size => exact Told.sized hread size
  | seq p q ihp ihq => exact (ihp limit).seq (ihq limit)
  | rep n p ih => exact (ih limit).rep n
  | counted p ih => exact Told.counted hread (ih limit)
  | choice tags ih => exact (Told.branch fun x => ih x limit).mono (Nat.le_succ bound)
  | refused => exact ⟨fun _ _ _ _ h => (by cases h), fun _ _ _ h => (by cases h)⟩
  | item nonempty => exact Told.item hf nonempty
  | call p ih => exact Told.call (MeasureTold.ofTold ih)
  | checked p ih => exact (ih limit).checked

/-- The recursion of the measure is an induction on the length of the memory. -/
theorem measureOf_told (hread : Decodes read len wide) (bound : ℕ) :
    MeasureTold m len table wide bound (measureOf m read table) (.choice table) := by
  induction bound with
  | zero => exact ⟨fun _ _ _ h => absurd h (Nat.not_lt_zero _),
      fun _ _ h => absurd h (Nat.not_lt_zero _)⟩
  | succ bound ih =>
    have hbody : MeasureTold m len table wide (bound + 1)
        (measureBody m read table (measureOf m read table)) (.choice table) :=
      MeasureTold.ofTold fun limit => Told.branch fun x => Shape.walk_told hread ih _ limit
    refine ⟨fun b limit k hb h => ?_, fun b limit hb h => ?_⟩
    · rw [measureOf_eq] at h
      exact hbody.ok b limit k hb h
    · rw [measureOf_eq] at h
      exact hbody.fault b limit hb h

theorem Shape.walk_eq_ok (hread : Decodes read len wide) (p : Shape α) {c : Cursor α}
    (h : p.walk m read (measureOf m read table) limit ⟨b, o % m⟩ = .ok c) :
    ∃ s, Passes m len table limit p b o s ∧ c = ⟨b.drop s, (o + s) % m⟩ :=
  (Shape.walk_told hread (measureOf_told hread (b.length + 1)) p limit).ok b o c
    (Nat.lt_succ_self _) h

theorem measureOf_ok_iff (hread : Decodes read len wide) (b : List α) (limit : ℤ) (k : ℕ) :
    measureOf m read table b limit = .ok k ↔ Measured m len table limit b k := by
  constructor
  · exact (measureOf_told hread (b.length + 1)).ok b limit k (Nat.lt_succ_self _)
  · rintro ⟨s, hs, rfl, hle⟩
    have hwalk := hs.walk_eq fun b r => (hread.ok b r).mpr
    rw [measureOf_eq]
    rw [Nat.zero_add] at hwalk
    exact measureWith_ok hwalk hle

theorem Meets.walk_eq (hread : Decodes read len wide) {n i : ℕ} {mark : Mark}
    (h : Meets m len table limit p b o n i mark) (hfits : ¬ mark.Fits wide (b.drop i)) :
    p.walk m read (measureOf m read table) limit ⟨b, o % m⟩ = .error .fault := by
  have hpasses := fun b r => (hread.ok b r).mpr
  induction h with
  | size | count =>
    have hfield := (hread.fault _).mpr hfits
    rw [List.drop_zero] at hfield
    simp only [Shape.walk, field, hfield, Except.bind]
  | left _ ih => simp only [Shape.walk, andThen, ih hfits, Except.bind]
  | right hs _ ih =>
    rw [← List.drop_drop] at hfits
    simp only [Shape.walk, andThen, hs.walk_eq hpasses, Except.bind, ih hfits]
  | first _ ih => simp only [Shape.walk, loop, andThen, ih hfits, Except.bind]
  | later hs _ ih =>
    rw [← List.drop_drop] at hfits
    simp only [Shape.walk] at ih
    simp only [Shape.walk, loop, andThen, hs.walk_eq hpasses, Except.bind, ih hfits]
  | counted hv _ ih =>
    rw [← List.drop_drop] at hfits
    simp only [Shape.walk] at ih
    simp only [Shape.walk, field, hpasses _ _ hv, Except.bind, advance_at, ih hfits]
  | @tag _ _ b _ =>
    cases b with
    | nil => rfl
    | cons x b => exact absurd (Nat.succ_le_succ (Nat.zero_le _)) hfits
  | choice _ ih =>
    rw [Nat.add_comm, List.drop_succ_cons] at hfits
    simp only [Shape.walk, branch, andThen, skip, Except.bind, advance_at, List.drop_succ_cons,
      List.drop_zero, ih hfits]
  | item => exact absurd trivial hfits
  | inside _ ih =>
    refine nested_error ?_
    rw [measureOf_eq]
    exact measureWith_error (ih hfits)
  | call _ ih => exact nested_error (measureWith_error (ih hfits))
  | checked ho _ ih =>
    simp only [Shape.walk, andThen, within]
    rw [if_neg (by omega)]
    exact ih hfits

theorem measureOf_fault_iff (hread : Decodes read len wide) (b : List α) (limit : ℤ) :
    measureOf m read table b limit = .error .fault ↔
      Misfit m len table wide limit (.choice table) b 0 := by
  constructor
  · exact (measureOf_told hread (b.length + 1)).fault b limit (Nat.lt_succ_self _)
  · rintro ⟨n, i, mark, hmeets, hfits⟩
    rw [measureOf_eq]
    exact measureWith_error (hmeets.walk_eq hread hfits)

end Sound

end Ending

section Unreduced
variable {m : ℕ} {read : List α → Except Stop (ℕ × ℕ)} {len : List α → Option (ℕ × ℕ)}
  {table : α → Shape α} {wide : α → ℕ} {limit : ℤ} {p : Shape α} {b : List α} {o s t : ℕ}

theorem Spans.choice_pos {tags : α → Shape α} (h : Spans len table (.choice tags) b s) :
    0 < s := by
  cases h
  omega

theorem room_eq (ho : o % m = o) : room m limit o = limit - o := by
  rw [room, ho]

theorem Spans.passes (h : Spans len table p b s) (hm : ∀ i ≤ o + s, i % m = i)
    (hlimit : ((o + s : ℕ) : ℤ) ≤ limit) : Passes m len table limit p b o s := by
  induction h generalizing o limit with
  | fixed k b => exact .fixed limit k b o
  | sized hv => exact .sized hv
  | @seq p q b s t _ _ ihp ihq =>
    refine .seq (ihp (fun i hi => hm i (by omega)) (by omega)) ?_
    exact ihq (fun i hi => hm i (by omega)) (by omega)
  | repZero p b => exact .repZero limit p b o
  | @repSucc n p b s t _ _ ihp ihn =>
    refine .repSucc (ihp (fun i hi => hm i (by omega)) (by omega)) ?_
    exact ihn (fun i hi => hm i (by omega)) (by omega)
  | counted hv _ ih =>
    exact .counted hv (ih (fun i hi => hm i (by omega)) (by omega))
  | choice _ ih => exact .choice (ih (fun i hi => hm i (by omega)) (by omega))
  | @item nonempty b s hs ih =>
    have hroom : room m limit o = limit - o := room_eq (hm o (by omega))
    have hmod := hm s (by omega)
    have hpos := hs.choice_pos
    have hone := Bool.toNat_le nonempty
    have hinner : Passes m len table (room m limit o) (.choice table) b 0 s :=
      ih (fun i hi => hm i (by omega)) (by omega)
    have hpasses : Passes m len table limit (.item nonempty) b o (s % m) :=
      .item hinner (by omega) (by omega)
    rwa [hmod] at hpasses
  | @call p b s _ ih =>
    have hroom : room m limit o = limit - o := room_eq (hm o (by omega))
    have hmod := hm s (by omega)
    have hinner : Passes m len table (room m limit o) p b 0 s :=
      ih (fun i hi => hm i (by omega)) (by omega)
    have hpasses : Passes m len table limit (.call p) b o (s % m) := .call hinner (by omega)
    rwa [hmod] at hpasses
  | checked _ ih =>
    have hmod := hm o (by omega)
    exact .checked (by omega) (ih hm hlimit)

theorem Spans.eq_of_passes (h : Spans len table p b s) (hm : ∀ i ≤ o + s, i % m = i)
    (hpasses : Passes m len table limit p b o t) : t = s := by
  induction h generalizing o limit t with
  | fixed => cases hpasses with | fixed => rfl
  | sized hv =>
    cases hpasses with
    | sized hv' =>
      cases hv.symm.trans hv'
      rfl
  | seq _ _ ihp ihq =>
    cases hpasses with
    | seq hp hq =>
      obtain rfl := ihp (fun i hi => hm i (by omega)) hp
      obtain rfl := ihq (fun i hi => hm i (by omega)) hq
      rfl
  | repZero => cases hpasses with | repZero => rfl
  | repSucc _ _ ihp ihn =>
    cases hpasses with
    | repSucc hp hn =>
      obtain rfl := ihp (fun i hi => hm i (by omega)) hp
      obtain rfl := ihn (fun i hi => hm i (by omega)) hn
      rfl
  | counted hv _ ih =>
    cases hpasses with
    | counted hv' ht =>
      cases hv.symm.trans hv'
      obtain rfl := ih (fun i hi => hm i (by omega)) ht
      rfl
  | choice _ ih =>
    cases hpasses with
    | choice ht =>
      obtain rfl := ih (fun i hi => hm i (by omega)) ht
      rfl
  | @item _ _ s _ ih =>
    cases hpasses with
    | item ht =>
      obtain rfl := ih (fun i hi => hm i (by omega)) ht
      exact hm _ (by omega)
  | @call _ _ s _ ih =>
    cases hpasses with
    | call ht =>
      obtain rfl := ih (fun i hi => hm i (by omega)) ht
      exact hm _ (by omega)
  | checked _ ih =>
    cases hpasses with
    | checked _ ht => exact ih hm ht

theorem Passes.spans (hm : ∀ i, i % m = i) (h : Passes m len table limit p b o s) :
    Spans len table p b s := by
  induction h with
  | fixed limit k b o => exact .fixed k b
  | sized hv => exact .sized hv
  | seq _ _ ihp ihq => exact .seq ihp ihq
  | repZero limit p b o => exact .repZero p b
  | repSucc _ _ ihp ihn => exact .repSucc ihp ihn
  | counted hv _ ih => exact .counted hv ih
  | choice _ ih => exact .choice ih
  | @item _ _ _ _ s _ _ _ ih =>
    rw [hm s]
    exact .item ih
  | @call _ _ _ _ s _ _ ih =>
    rw [hm s]
    exact .call ih
  | checked _ _ ih => exact .checked ih

theorem measureOf_spans_iff (hread : Decodes read len wide)
    (h : Spans len table (.choice table) b s) (hm : ∀ i ≤ s, i % m = i) (limit : ℤ) (k : ℕ) :
    measureOf m read table b limit = .ok k ↔ k = s ∧ (s : ℤ) ≤ limit := by
  rw [measureOf_ok_iff hread]
  rw [← Nat.zero_add s] at hm
  constructor
  · rintro ⟨t, ht, rfl, hle⟩
    obtain rfl := h.eq_of_passes hm ht
    have hmod := hm t (by omega)
    exact ⟨hmod, hmod ▸ hle⟩
  · rintro ⟨rfl, hle⟩
    exact ⟨k, h.passes hm (by omega), hm k (by omega), hle⟩

end Unreduced

end ByteWalk
