import Mathlib.Data.List.Infix
import Mathlib.Algebra.Order.Ring.Int
import Mathlib.Tactic.Linarith

/-!
# Walking over a self-describing byte format with a wrapping counter

A walk moves a cursor over the memory behind a pointer and counts the elements it passed modulo
a machine width. A read behind the end of the memory is a `fault`; a value the program refuses is
a `reject`. The grammar of the format is a `Shape`, and `Shape.walk` the walk over what a shape
describes. `measureOf` is the recursive measure of a whole format.

`Agrees` says that a walk looks at a recursive measure only on memory shorter than a bound, which
is what a fuelled definition needs to satisfy its own recursion equation. `Persists` says that what
a walk finds in a memory it finds in every longer one.
-/

namespace ByteWalk

inductive Stop
  | reject
  | fault
  deriving DecidableEq, Repr

structure Cursor (α : Type*) where
  ptr : List α
  len : ℕ

abbrev Walk (α : Type*) := Cursor α → Except Stop (Cursor α)
abbrev Measure (α : Type*) := List α → ℤ → Except Stop ℕ

variable {α : Type*} {m : ℕ}

def Cursor.advance (m : ℕ) (c : Cursor α) (k : ℕ) : Cursor α :=
  ⟨c.ptr.drop k, (c.len + k) % m⟩

def refuse : Walk α := fun _ => .error .reject

def skip (m k : ℕ) : Walk α := fun c => .ok (c.advance m k)

def andThen (v w : Walk α) : Walk α := fun c => (v c).bind w

def loop (w : Walk α) : ℕ → Walk α
  | 0 => .ok
  | n + 1 => andThen w (loop w n)

def field (m : ℕ) (read : List α → Except Stop (ℕ × ℕ)) (body : ℕ → Walk α) : Walk α :=
  fun c => (read c.ptr).bind fun r => body r.1 (c.advance m r.2)

/-- Pass what a measure finds under the rest of the limit; `least` is the smallest
result the caller lets pass. -/
def nested (m : ℕ) (measure : Measure α) (least : ℕ) (limit : ℤ) : Walk α :=
  fun c => (measure c.ptr (limit - c.len)).bind fun k =>
    if k < least then .error .reject else .ok (c.advance m k)

def within (limit : ℤ) : Walk α :=
  fun c => if limit < c.len then .error .reject else .ok c

def branch (body : α → Walk α) : Walk α := fun c =>
  match c.ptr with
  | [] => .error .fault
  | b :: _ => body b c

def measureWith (w : Walk α) : Measure α := fun b limit =>
  (w ⟨b, 0⟩).bind fun c => if limit < c.len then .error .reject else .ok c.len

/-- `sized f` is a length field and as many elements as `f` makes of it, `counted p` a count field
and as many instances of `p`. `item` is an instance of the whole format and `call p` one of `p`,
each with a measure of its own; the measure of a `nonempty` item has to be positive. The limit is
tested in front of `checked p`. -/
inductive Shape (α : Type*)
  | fixed (k : ℕ)
  | sized (f : ℕ → ℕ)
  | seq (p q : Shape α)
  | rep (n : ℕ) (p : Shape α)
  | counted (p : Shape α)
  | choice (table : α → Shape α)
  | refused
  | item (nonempty : Bool)
  | call (p : Shape α)
  | checked (p : Shape α)

section Walking
variable (m : ℕ) (read : List α → Except Stop (ℕ × ℕ))

def Shape.walk (measure : Measure α) : Shape α → ℤ → Walk α
  | .fixed k, _ => skip m k
  | .sized f, _ => field m read fun v => skip m (f v)
  | .seq p q, limit => andThen (p.walk measure limit) (q.walk measure limit)
  | .rep n p, limit => loop (p.walk measure limit) n
  | .counted p, limit => field m read (loop (p.walk measure limit))
  | .choice table, limit => branch fun x => andThen (skip m 1) ((table x).walk measure limit)
  | .refused, _ => refuse
  | .item nonempty, limit => nested m measure nonempty.toNat limit
  | .call p, limit => nested m (fun b l => measureWith (p.walk measure l) b l) 0 limit
  | .checked p, limit => andThen (within limit) (p.walk measure limit)

variable (table : α → Shape α)

def measureBody (measure : Measure α) : Measure α := fun b limit =>
  measureWith ((Shape.choice table).walk m read measure limit) b limit

def measureFuel : ℕ → Measure α
  | 0 => fun _ _ => .error .fault
  | fuel + 1 => measureBody m read table (measureFuel fuel)

def measureOf : Measure α := fun b limit => measureFuel m read table (b.length + 1) b limit

end Walking

section Agreeing
variable {bound : ℕ}

def MeasureAgrees (bound : ℕ) (f g : Measure α) : Prop :=
  ∀ b limit, b.length < bound → f b limit = g b limit

/-- Both walks do the same on memory shorter than the bound, and stay there. -/
def Agrees (bound : ℕ) (v w : Walk α) : Prop :=
  ∀ c, c.ptr.length < bound → v c = w c ∧ ∀ c', v c = .ok c' → c'.ptr.length < bound

theorem Cursor.advance_length (c : Cursor α) (k : ℕ) :
    (c.advance m k).ptr.length ≤ c.ptr.length := by
  simp [Cursor.advance]

theorem Agrees.refuse : Agrees bound (refuse : Walk α) refuse :=
  fun _ _ => ⟨rfl, fun _ h => by cases h⟩

theorem Agrees.skip (k : ℕ) : Agrees bound (skip m k : Walk α) (skip m k) := by
  intro c hc
  refine ⟨rfl, fun c' h => ?_⟩
  cases h
  exact (c.advance_length k).trans_lt hc

theorem Agrees.within (limit : ℤ) : Agrees bound (within limit : Walk α) (within limit) := by
  intro c hc
  refine ⟨rfl, fun c' h => ?_⟩
  simp only [ByteWalk.within] at h
  split_ifs at h
  cases h
  exact hc

theorem Agrees.andThen {v v' w w' : Walk α} (hv : Agrees bound v v') (hw : Agrees bound w w') :
    Agrees bound (andThen v w) (andThen v' w') := by
  intro c hc
  obtain ⟨he, hlt⟩ := hv c hc
  simp only [ByteWalk.andThen, ← he]
  cases hr : v c with
  | error e => exact ⟨rfl, fun _ h => by cases h⟩
  | ok c₁ => exact hw c₁ (hlt c₁ hr)

theorem Agrees.loop {v w : Walk α} (h : Agrees bound v w) (n : ℕ) :
    Agrees bound (loop v n) (loop w n) := by
  induction n with
  | zero =>
    intro c hc
    refine ⟨rfl, fun c' h => ?_⟩
    cases h
    exact hc
  | succ n ih => exact h.andThen ih

theorem Agrees.field {read : List α → Except Stop (ℕ × ℕ)} {w w' : ℕ → Walk α}
    (hw : ∀ v, Agrees bound (w v) (w' v)) : Agrees bound (field m read w) (field m read w') := by
  intro c hc
  simp only [ByteWalk.field]
  cases read c.ptr with
  | error e => exact ⟨rfl, fun _ h => by cases h⟩
  | ok r => exact hw r.1 _ ((c.advance_length r.2).trans_lt hc)

theorem Agrees.nested {f g : Measure α} (h : MeasureAgrees bound f g) (least : ℕ) (limit : ℤ) :
    Agrees bound (nested m f least limit) (nested m g least limit) := by
  intro c hc
  refine ⟨by simp only [ByteWalk.nested, h c.ptr _ hc], fun c' hok => ?_⟩
  simp only [ByteWalk.nested] at hok
  cases hr : f c.ptr (limit - c.len) with
  | error e =>
    rw [hr] at hok
    cases hok
  | ok k =>
    simp only [hr, Except.bind] at hok
    split_ifs at hok
    cases hok
    exact (c.advance_length k).trans_lt hc

theorem Agrees.branch {v w : α → Walk α} (h : ∀ x, Agrees bound (v x) (w x)) :
    Agrees bound (branch v) (branch w) := by
  intro c hc
  obtain ⟨ptr, n⟩ := c
  cases ptr with
  | nil => exact ⟨rfl, fun _ h => by cases h⟩
  | cons x b => exact h x _ hc

theorem MeasureAgrees.ofAgrees {v w : ℤ → Walk α} (h : ∀ limit, Agrees bound (v limit) (w limit)) :
    MeasureAgrees bound (fun b limit => measureWith (v limit) b limit)
      fun b limit => measureWith (w limit) b limit := by
  intro b limit hb
  simp only [measureWith, (h limit ⟨b, 0⟩ hb).1]

/-- The walk over a shape looks at its measure where the shape has items. -/
theorem Shape.walk_agrees {read : List α → Except Stop (ℕ × ℕ)} {f g : Measure α}
    (h : MeasureAgrees bound f g) (p : Shape α) (limit : ℤ) :
    Agrees bound (p.walk m read f limit) (p.walk m read g limit) := by
  induction p generalizing limit with
  | fixed k => exact Agrees.skip k
  | sized size => exact Agrees.field fun v => Agrees.skip (size v)
  | seq p q ihp ihq => exact (ihp limit).andThen (ihq limit)
  | rep n p ih => exact (ih limit).loop n
  | counted p ih => exact Agrees.field (ih limit).loop
  | choice table ih => exact Agrees.branch fun x => (Agrees.skip 1).andThen (ih x limit)
  | refused => exact Agrees.refuse
  | item nonempty => exact Agrees.nested h nonempty.toNat limit
  | call p ih => exact Agrees.nested (MeasureAgrees.ofAgrees ih) 0 limit
  | checked p ih => exact (Agrees.within limit).andThen (ih limit)

variable {read : List α → Except Stop (ℕ × ℕ)} {table : α → Shape α}

/-- The tag is passed before the selected walk starts, so that walk only sees memory shorter than
the item itself. -/
theorem measureBody_congr {f g : Measure α} {b : List α} (h : MeasureAgrees b.length f g)
    (limit : ℤ) : measureBody m read table f b limit = measureBody m read table g b limit := by
  cases b with
  | nil => rfl
  | cons x b =>
    have hshorter : ((⟨x :: b, 0⟩ : Cursor α).advance m 1).ptr.length < (x :: b).length := by
      simp [Cursor.advance]
    have hagrees : Agrees (x :: b).length ((table x).walk m read f limit)
        ((table x).walk m read g limit) := Shape.walk_agrees h _ limit
    have hwalk := (hagrees _ hshorter).1
    simp only [measureBody, measureWith, Shape.walk, branch, andThen, skip, Except.bind, hwalk]

theorem measureFuel_congr (fuel fuel' : ℕ) (b : List α) (limit : ℤ) (h : b.length < fuel)
    (h' : b.length < fuel') :
    measureFuel m read table fuel b limit = measureFuel m read table fuel' b limit := by
  induction fuel generalizing fuel' b limit with
  | zero => omega
  | succ fuel ih =>
    cases fuel' with
    | zero => omega
    | succ fuel' =>
      refine measureBody_congr (fun b' limit' hb => ?_) limit
      exact ih fuel' b' limit' (by omega) (by omega)

theorem measureOf_eq (b : List α) (limit : ℤ) :
    measureOf m read table b limit = measureBody m read table (measureOf m read table) b limit := by
  refine measureBody_congr (fun b' limit' hb => ?_) limit
  exact measureFuel_congr _ _ b' limit' hb (Nat.lt_succ_self _)

end Agreeing

section Persisting

def Longer (c c' : Cursor α) : Prop := c.ptr <+: c'.ptr ∧ c'.len = c.len

def Persists (v w : Walk α) : Prop :=
  ∀ c c' d, Longer c c' → v c = .ok d → ∃ d', w c' = .ok d' ∧ Longer d d'

def MeasurePersists (f g : Measure α) : Prop :=
  ∀ b b' limit k, b <+: b' → f b limit = .ok k → g b' limit = .ok k

def ReadPersists (read : List α → Except Stop (ℕ × ℕ)) : Prop :=
  ∀ b b' r, b <+: b' → read b = .ok r → read b' = .ok r

theorem bind_eq_ok {ε β γ : Type*} {x : Except ε β} {f : β → Except ε γ} {r : γ}
    (h : x.bind f = .ok r) : ∃ a, x = .ok a ∧ f a = .ok r := by
  cases x with
  | error e => cases h
  | ok a => exact ⟨a, rfl, h⟩

theorem Longer.advance {c c' : Cursor α} (h : Longer c c') (k : ℕ) :
    Longer (c.advance m k) (c'.advance m k) :=
  ⟨List.IsPrefix.drop h.1 k, by rw [Cursor.advance, Cursor.advance, h.2]⟩

theorem Persists.within (limit : ℤ) : Persists (within limit : Walk α) (within limit) := by
  intro c c' d h hd
  simp only [ByteWalk.within] at hd ⊢
  rw [h.2]
  split_ifs at hd ⊢
  cases hd
  exact ⟨c', rfl, h⟩

theorem Persists.andThen {v v' w w' : Walk α} (hv : Persists v v') (hw : Persists w w') :
    Persists (andThen v w) (andThen v' w') := by
  intro c c' d h hd
  obtain ⟨e, he, hrest⟩ := bind_eq_ok hd
  obtain ⟨e', he', hlonger⟩ := hv c c' e h he
  obtain ⟨d', hd', hend⟩ := hw e e' d hlonger hrest
  refine ⟨d', ?_, hend⟩
  rw [ByteWalk.andThen, he']
  exact hd'

theorem Persists.field {read : List α → Except Stop (ℕ × ℕ)} (hread : ReadPersists read)
    {v w : ℕ → Walk α} (h : ∀ n, Persists (v n) (w n)) :
    Persists (field m read v) (field m read w) := by
  intro c c' d hlonger hd
  obtain ⟨r, hr, hrest⟩ := bind_eq_ok hd
  obtain ⟨d', hd', hend⟩ := h r.1 _ _ d (hlonger.advance r.2) hrest
  refine ⟨d', ?_, hend⟩
  rw [ByteWalk.field, hread _ _ r hlonger.1 hr]
  exact hd'

theorem Persists.nested {f g : Measure α} (h : MeasurePersists f g) (least : ℕ) (limit : ℤ) :
    Persists (nested m f least limit) (nested m g least limit) := by
  intro c c' d hlonger hd
  obtain ⟨k, hk, hrest⟩ := bind_eq_ok hd
  rw [ByteWalk.nested, hlonger.2, h _ _ _ k hlonger.1 hk]
  simp only [Except.bind]
  split_ifs at hrest ⊢
  cases hrest
  exact ⟨_, rfl, hlonger.advance k⟩

theorem Persists.branch {v w : α → Walk α} (h : ∀ x, Persists (v x) (w x)) :
    Persists (branch v) (branch w) := by
  rintro ⟨ptr, n⟩ ⟨ptr', n'⟩ d hlonger hd
  cases ptr with
  | nil => cases hd
  | cons x b =>
    obtain ⟨b', rfl⟩ := hlonger.1
    exact h x _ _ d hlonger hd

theorem MeasurePersists.ofPersists {v w : ℤ → Walk α}
    (h : ∀ limit, Persists (v limit) (w limit)) :
    MeasurePersists (fun b limit => measureWith (v limit) b limit)
      fun b limit => measureWith (w limit) b limit := by
  intro b b' limit k hb hk
  obtain ⟨c, hc, hrest⟩ := bind_eq_ok hk
  obtain ⟨c', hc', -, hlen⟩ := h limit ⟨b, 0⟩ ⟨b', 0⟩ c ⟨hb, rfl⟩ hc
  simp only [measureWith, hc']
  simp only [Except.bind, hlen]
  exact hrest

theorem Persists.skip (k : ℕ) : Persists (skip m k : Walk α) (skip m k) := by
  intro c c' d h hd
  cases hd
  exact ⟨_, rfl, h.advance k⟩

theorem Persists.loop {v w : Walk α} (h : Persists v w) (n : ℕ) :
    Persists (loop v n) (loop w n) := by
  induction n with
  | zero =>
    intro c c' d hlonger hd
    cases hd
    exact ⟨c', rfl, hlonger⟩
  | succ n ih => exact h.andThen ih

theorem Shape.walk_persists {read : List α → Except Stop (ℕ × ℕ)} (hread : ReadPersists read)
    {f g : Measure α} (h : MeasurePersists f g) (p : Shape α) (limit : ℤ) :
    Persists (p.walk m read f limit) (p.walk m read g limit) := by
  induction p generalizing limit with
  | fixed k => exact Persists.skip k
  | sized size => exact Persists.field hread fun v => Persists.skip (size v)
  | seq p q ihp ihq => exact (ihp limit).andThen (ihq limit)
  | rep n p ih => exact (ih limit).loop n
  | counted p ih => exact Persists.field hread (ih limit).loop
  | choice table ih => exact Persists.branch fun x => (Persists.skip 1).andThen (ih x limit)
  | refused => exact fun _ _ _ _ h => by cases h
  | item nonempty => exact Persists.nested h nonempty.toNat limit
  | call p ih => exact Persists.nested (MeasurePersists.ofPersists ih) 0 limit
  | checked p ih => exact (Persists.within limit).andThen (ih limit)

variable {read : List α → Except Stop (ℕ × ℕ)} {table : α → Shape α}

theorem measureFuel_persists (hread : ReadPersists read) (fuel : ℕ) :
    MeasurePersists (measureFuel m read table fuel) (measureFuel m read table fuel) := by
  induction fuel with
  | zero => exact fun _ _ _ _ _ h => by cases h
  | succ fuel ih =>
    exact MeasurePersists.ofPersists fun limit => Shape.walk_persists hread ih _ limit

theorem measureOf_persists (hread : ReadPersists read) :
    MeasurePersists (measureOf m read table) (measureOf m read table) := by
  intro b b' limit k hb h
  have hlength := hb.length_le
  have hfuel : measureFuel m read table (b'.length + 1) b limit = .ok k := by
    rw [← h]
    exact measureFuel_congr _ _ b limit (by omega) (Nat.lt_succ_self _)
  exact measureFuel_persists hread (b'.length + 1) b b' limit k hb hfuel

end Persisting

end ByteWalk
