import IotEdgeAgent.Library.ByteFormat

/-!
# How deep a measure asks itself

A measure that is defined through itself asks itself about the items inside an item. An error for
an answer ends the walk with that error. So a question is put exactly if two different errors for
its answer make a difference, and the questions below a call are the paths of that relation.

The measure of a format asks about the items that it meets (`asks_iff`), and the calls below a
call are the items that lie in the item of the call, level by level (`below_iff`).
-/

namespace ByteWalk

variable {α : Type*}

structure Call (α : Type*) where
  ptr : List α
  limit : ℤ
  deriving DecidableEq

section Asking
variable [DecidableEq α] {body : Measure α → Measure α} {f : Measure α} {c d : Call α}

def answering (f : Measure α) (call : Call α) (answer : Except Stop ℕ) : Measure α :=
  fun b limit => if (⟨b, limit⟩ : Call α) = call then answer else f b limit

/-- On the call `c`, the body asks the measure about `d`. -/
def Asks (body : Measure α → Measure α) (f : Measure α) (c d : Call α) : Prop :=
  body (answering f d (.error .reject)) c.ptr c.limit ≠
    body (answering f d (.error .fault)) c.ptr c.limit

theorem answering_self (f : Measure α) (call : Call α) (answer : Except Stop ℕ) :
    answering f call answer call.ptr call.limit = answer := if_pos rfl

end Asking

section Levels
variable {asks : Call α → Call α → Prop} {c d e : Call α} {m n k : ℕ}

inductive Below (asks : Call α → Call α → Prop) (c : Call α) : ℕ → Call α → Prop
  | here : Below asks c 0 c
  | deeper {n : ℕ} {d e : Call α} : Below asks c n d → asks d e → Below asks c (n + 1) e

/-- No more than `k` calls are open at a time, the first one counted. -/
def DepthAtMost (asks : Call α → Call α → Prop) (c : Call α) (k : ℕ) : Prop :=
  ∀ n d, Below asks c n d → n < k

theorem Below.trans (h : Below asks c m d) (h' : Below asks d n e) : Below asks c (m + n) e := by
  induction h' with
  | here => exact h
  | deeper _ hasks ih => exact .deeper ih hasks

end Levels

section Stopping
variable {m : ℕ} {read : List α → Except Stop (ℕ × ℕ)} {stop : Stop}

def SameOrStopped (stop : Stop) (v w : Walk α) : Prop := ∀ c, v c = w c ∨ v c = .error stop

theorem SameOrStopped.andThen {v v' w w' : Walk α} (h : SameOrStopped stop v v')
    (h' : SameOrStopped stop w w') : SameOrStopped stop (andThen v w) (andThen v' w') := by
  intro c
  rcases h c with heq | heq
  · simp only [ByteWalk.andThen, heq]
    cases v' c with
    | error e => exact .inl rfl
    | ok c' => exact h' c'
  · simp only [ByteWalk.andThen, heq]
    exact .inr rfl

theorem SameOrStopped.loop {v w : Walk α} (h : SameOrStopped stop v w) (n : ℕ) :
    SameOrStopped stop (loop v n) (loop w n) := by
  induction n with
  | zero => exact fun _ => .inl rfl
  | succ n ih => exact h.andThen ih

theorem SameOrStopped.field {v w : ℕ → Walk α} (h : ∀ k, SameOrStopped stop (v k) (w k)) :
    SameOrStopped stop (field m read v) (field m read w) := by
  intro c
  simp only [ByteWalk.field]
  cases read c.ptr with
  | error e => exact .inl rfl
  | ok r => exact h r.1 _

theorem SameOrStopped.nested {f g : Measure α}
    (h : ∀ b limit, f b limit = g b limit ∨ f b limit = .error stop) (least : ℕ) :
    SameOrStopped stop (nested m f least limit) (nested m g least limit) := by
  intro c
  simp only [ByteWalk.nested]
  rcases h c.ptr (limit - c.len) with heq | heq
  · rw [heq]
    exact .inl rfl
  · rw [heq]
    exact .inr rfl

theorem sameOrStopped_measureWith {v w : Walk α} (h : SameOrStopped stop v w) (b : List α)
    (limit : ℤ) : measureWith v b limit = measureWith w b limit ∨
      measureWith v b limit = .error stop := by
  simp only [measureWith]
  rcases h ⟨b, 0⟩ with heq | heq
  · rw [heq]
    exact .inl rfl
  · rw [heq]
    exact .inr rfl

theorem andThen_error {v w : Walk α} {c : Cursor α} (h : v c = .error stop) :
    andThen v w c = .error stop := by
  simp only [andThen, h, Except.bind]

theorem andThen_stopped {v w : Walk α} {c c' : Cursor α}
    (hv : v c = .ok c' ∨ v c = .error stop) (hw : w c' = .error stop) :
    andThen v w c = .error stop := by
  rcases hv with hv | hv
  · simp only [andThen, hv, Except.bind, hw]
  · exact andThen_error hv

theorem andThen_congr {v v' w w' : Walk α} {c : Cursor α} (h : v c = v' c)
    (h' : ∀ c', v' c = .ok c' → w c' = w' c') : andThen v w c = andThen v' w' c := by
  simp only [andThen, h]
  cases hc : v' c with
  | error e => rfl
  | ok c' => exact h' c' hc

end Stopping

section Questions
variable [DecidableEq α] {m : ℕ} {read : List α → Except Stop (ℕ × ℕ)}
  {len : List α → Option (ℕ × ℕ)} {table : α → Shape α} {wide : α → ℕ} {limit : ℤ} {p : Shape α}
  {b : List α} {o i : ℕ} {c d : Call α}

theorem Shape.walk_sameOrStopped (f : Measure α) (d : Call α) (stop : Stop) (p : Shape α)
    (limit : ℤ) : SameOrStopped stop (p.walk m read (answering f d (.error stop)) limit)
      (p.walk m read f limit) := by
  induction p generalizing limit with
  | fixed | refused => exact fun _ => .inl rfl
  | sized => exact SameOrStopped.field fun _ _ => .inl rfl
  | seq p q ihp ihq => exact (ihp limit).andThen (ihq limit)
  | rep n p ih => exact (ih limit).loop n
  | counted p ih => exact SameOrStopped.field (ih limit).loop
  | choice tags ih =>
    intro c
    obtain ⟨ptr, k⟩ := c
    cases ptr with
    | nil => exact .inl rfl
    | cons x b => exact ih x limit _
  | item nonempty =>
    refine SameOrStopped.nested (fun b limit => ?_) nonempty.toNat
    rw [answering]
    split_ifs
    · exact .inr rfl
    · exact .inl rfl
  | call p ih =>
    exact SameOrStopped.nested (fun b limit => sameOrStopped_measureWith (ih limit) b limit) 0
  | checked p ih => exact SameOrStopped.andThen (fun _ => .inl rfl) (ih limit)

theorem Passes.walk_or_stops {s : ℕ} (hread : Decodes read len wide)
    (h : Passes m len table limit p b o s) (d : Call α) (stop : Stop) :
    p.walk m read (answering (measureOf m read table) d (.error stop)) limit ⟨b, o % m⟩ =
        .ok ⟨b.drop s, (o + s) % m⟩ ∨
      p.walk m read (answering (measureOf m read table) d (.error stop)) limit ⟨b, o % m⟩ =
        .error stop := by
  rw [← h.walk_eq fun b r => (hread.ok b r).mpr]
  exact Shape.walk_sameOrStopped _ d stop p limit _

theorem Meets.walk_stops (hread : Decodes read len wide) {n : ℕ} {mark : Mark}
    (h : Meets m len table limit p b o n i mark) (hn : n = 0) (hmark : mark = .item d.limit)
    (hd : b.drop i = d.ptr) (stop : Stop) :
    p.walk m read (answering (measureOf m read table) d (.error stop)) limit ⟨b, o % m⟩ =
      .error stop := by
  induction h with
  | size | count | tag => cases hmark
  | left _ ih => exact andThen_error (ih hn hmark hd)
  | right hs _ ih =>
    rw [← List.drop_drop] at hd
    exact andThen_stopped (hs.walk_or_stops hread d stop) (ih hn hmark hd)
  | first _ ih => exact andThen_error (ih hn hmark hd)
  | later hs _ ih =>
    rw [← List.drop_drop] at hd
    exact andThen_stopped (hs.walk_or_stops hread d stop) (ih hn hmark hd)
  | counted hv _ ih =>
    rw [← List.drop_drop] at hd
    have hloop := ih hn hmark hd
    simp only [Shape.walk, field, (hread.ok _ _).mpr hv, Except.bind, advance_at] at hloop ⊢
    exact hloop
  | choice _ ih =>
    rw [Nat.add_comm, List.drop_succ_cons] at hd
    simp only [Shape.walk, branch, andThen, skip, Except.bind, advance_at, List.drop_succ_cons,
      List.drop_zero, ih hn hmark hd]
  | item =>
    have hlimit := Mark.item.inj hmark
    refine nested_error ?_
    rw [List.drop_zero] at hd
    rw [hd, hlimit]
    exact answering_self _ d _
  | inside => cases hn
  | call _ ih => exact nested_error (measureWith_error (ih hn hmark hd))
  | checked ho _ ih =>
    refine andThen_stopped (.inl ?_) (ih hn hmark hd)
    exact if_neg (Int.not_lt.mpr ho)

def Unmet (m : ℕ) (len : List α → Option (ℕ × ℕ)) (table : α → Shape α) (d : Call α) (limit : ℤ)
    (p : Shape α) (b : List α) (o : ℕ) : Prop :=
  ∀ i, Meets m len table limit p b o 0 i (.item d.limit) → b.drop i ≠ d.ptr

omit [DecidableEq α] in
theorem Unmet.behind {s : ℕ} {q : Shape α}
    (h : ∀ i, Meets m len table limit p (b.drop s) (o + s) 0 i (.item d.limit) →
      Meets m len table limit q b o 0 (s + i) (.item d.limit))
    (hq : Unmet m len table d limit q b o) : Unmet m len table d limit p (b.drop s) (o + s) := by
  intro i hi
  rw [List.drop_drop]
  exact hq _ (h i hi)

theorem loop_unheard (hread : Decodes read len wide) {answer : Except Stop ℕ} {p : Shape α}
    (hp : ∀ {b o}, Unmet m len table d limit p b o →
      p.walk m read (answering (measureOf m read table) d answer) limit ⟨b, o % m⟩ =
        p.walk m read (measureOf m read table) limit ⟨b, o % m⟩)
    (n : ℕ) {b : List α} {o : ℕ} (h : Unmet m len table d limit (.rep n p) b o) :
    loop (p.walk m read (answering (measureOf m read table) d answer) limit) n ⟨b, o % m⟩ =
      loop (p.walk m read (measureOf m read table) limit) n ⟨b, o % m⟩ := by
  induction n generalizing b o with
  | zero => rfl
  | succ n ih =>
    refine andThen_congr (hp fun i hi => h i (.first hi)) fun c hc => ?_
    obtain ⟨s, hs, rfl⟩ := p.walk_eq_ok hread hc
    exact ih (h.behind fun i hi => .later hs hi)

theorem Shape.walk_unheard (hread : Decodes read len wide) (answer : Except Stop ℕ) (p : Shape α)
    (h : Unmet m len table d limit p b o) :
    p.walk m read (answering (measureOf m read table) d answer) limit ⟨b, o % m⟩ =
      p.walk m read (measureOf m read table) limit ⟨b, o % m⟩ := by
  induction p generalizing limit b o with
  | fixed | sized | refused => rfl
  | seq p q ihp ihq =>
    refine andThen_congr (ihp fun i hi => h i (.left hi)) fun c hc => ?_
    obtain ⟨s, hs, rfl⟩ := p.walk_eq_ok hread hc
    exact ihq (h.behind fun i hi => .right hs hi)
  | rep n p ih => exact loop_unheard hread ih n h
  | counted p ih =>
    simp only [Shape.walk, field]
    cases hr : read b with
    | error e => rfl
    | ok r =>
      have hv := (hread.ok b r).mp hr
      simp only [Except.bind, advance_at]
      exact loop_unheard hread ih r.1 (h.behind fun i hi => .counted hv hi)
  | choice tags ih =>
    cases b with
    | nil => rfl
    | cons x b =>
      simp only [Shape.walk, branch, andThen, skip, Except.bind, advance_at]
      refine ih x fun i hi => ?_
      have hne := h _ (.choice hi)
      rwa [Nat.add_comm, List.drop_succ_cons] at hne
  | item nonempty =>
    have hne : (⟨b, limit - ((o % m : ℕ) : ℤ)⟩ : Call α) ≠ d := by
      rintro rfl
      exact h 0 .item rfl
    simp only [Shape.walk, nested, answering, if_neg hne]
  | call p ih =>
    have hunmet : Unmet m len table d (room m limit o) p b 0 := fun i hi => h i (.call hi)
    have hinner := ih hunmet
    rw [Nat.zero_mod, room] at hinner
    simp only [Shape.walk, nested, measureWith, hinner]
  | checked p ih =>
    refine andThen_congr rfl fun c hc => ?_
    obtain ⟨hle, rfl⟩ := within_eq_ok hc
    exact ih fun i hi => h i (.checked hle hi)

theorem asks_iff (hread : Decodes read len wide) :
    Asks (measureBody m read table) (measureOf m read table) c d ↔
      ∃ i, Meets m len table c.limit (.choice table) c.ptr 0 0 i (.item d.limit) ∧
        c.ptr.drop i = d.ptr := by
  constructor
  · intro hasks
    by_contra hunmet
    refine hasks ?_
    have hheard : ∀ answer, measureBody m read table
        (answering (measureOf m read table) d answer) c.ptr c.limit =
          measureBody m read table (measureOf m read table) c.ptr c.limit := by
      intro answer
      have hchoice : Unmet m len table d c.limit (.choice table) c.ptr 0 :=
        fun i hi hd => hunmet ⟨i, hi, hd⟩
      have hwalk := Shape.walk_unheard hread answer _ hchoice
      rw [Nat.zero_mod] at hwalk
      simp only [measureBody, measureWith, hwalk]
    rw [hheard, hheard]
  · rintro ⟨i, hmeets, hd⟩
    have hstops : ∀ stop, measureBody m read table
        (answering (measureOf m read table) d (.error stop)) c.ptr c.limit = .error stop :=
      fun stop => measureWith_error (hmeets.walk_stops hread rfl rfl hd stop)
    rw [Asks, hstops, hstops]
    exact fun heq => by cases heq

end Questions

section Nested
variable {m : ℕ} {len : List α → Option (ℕ × ℕ)} {table : α → Shape α} {limit l : ℤ}
  {p : Shape α} {b : List α} {o n k i j : ℕ} {mark : Mark}

theorem Meets.trans (h : Meets m len table limit p b o n i (.item l))
    (h' : Meets m len table l (.choice table) (b.drop i) 0 k j mark) :
    Meets m len table limit p b o (n + 1 + k) (i + j) mark := by
  generalize hitem : Mark.item l = item at h
  induction h with
  | size | count | tag => cases hitem
  | left _ ih => exact .left (ih h' hitem)
  | right hs _ ih =>
    rw [← List.drop_drop] at h'
    rw [Nat.add_assoc _ _ j]
    exact .right hs (ih h' hitem)
  | first _ ih => exact .first (ih h' hitem)
  | later hs _ ih =>
    rw [← List.drop_drop] at h'
    rw [Nat.add_assoc _ _ j]
    exact .later hs (ih h' hitem)
  | counted hv _ ih =>
    rw [← List.drop_drop] at h'
    rw [Nat.add_assoc _ _ j]
    exact .counted hv (ih h' hitem)
  | choice _ ih =>
    rw [Nat.add_comm, List.drop_succ_cons] at h'
    rw [Nat.add_assoc _ _ j]
    exact .choice (ih h' hitem)
  | item =>
    cases hitem
    rw [Nat.zero_add, Nat.zero_add, Nat.add_comm]
    exact .inside h'
  | inside _ ih =>
    rw [Nat.add_right_comm]
    exact .inside (ih h' hitem)
  | call _ ih => exact .call (ih h' hitem)
  | checked ho _ ih => exact .checked ho (ih h' hitem)

theorem Meets.split (h : Meets m len table limit p b o k i mark) (hk : k = n + 1) :
    ∃ l j₁ j₂, Meets m len table limit p b o 0 j₁ (.item l) ∧
      Meets m len table l (.choice table) (b.drop j₁) 0 n j₂ mark ∧ i = j₁ + j₂ := by
  induction h with
  | size | count | tag | item => cases hk
  | left _ ih =>
    obtain ⟨l, j₁, j₂, h₁, h₂, rfl⟩ := ih hk
    exact ⟨l, j₁, j₂, .left h₁, h₂, rfl⟩
  | right hs _ ih =>
    obtain ⟨l, j₁, j₂, h₁, h₂, rfl⟩ := ih hk
    rw [List.drop_drop] at h₂
    exact ⟨l, _, j₂, .right hs h₁, h₂, (Nat.add_assoc _ _ _).symm⟩
  | first _ ih =>
    obtain ⟨l, j₁, j₂, h₁, h₂, rfl⟩ := ih hk
    exact ⟨l, j₁, j₂, .first h₁, h₂, rfl⟩
  | later hs _ ih =>
    obtain ⟨l, j₁, j₂, h₁, h₂, rfl⟩ := ih hk
    rw [List.drop_drop] at h₂
    exact ⟨l, _, j₂, .later hs h₁, h₂, (Nat.add_assoc _ _ _).symm⟩
  | counted hv _ ih =>
    obtain ⟨l, j₁, j₂, h₁, h₂, rfl⟩ := ih hk
    rw [List.drop_drop] at h₂
    exact ⟨l, _, j₂, .counted hv h₁, h₂, (Nat.add_assoc _ _ _).symm⟩
  | choice _ ih =>
    obtain ⟨l, j₁, j₂, h₁, h₂, rfl⟩ := ih hk
    refine ⟨l, 1 + j₁, j₂, .choice h₁, ?_, (Nat.add_assoc _ _ _).symm⟩
    rw [Nat.add_comm, List.drop_succ_cons]
    exact h₂
  | @inside limit _ b o _ i _ hin _ =>
    cases hk
    exact ⟨room m limit o, 0, i, .item, hin, (Nat.zero_add i).symm⟩
  | call _ ih =>
    obtain ⟨l, j₁, j₂, h₁, h₂, rfl⟩ := ih hk
    exact ⟨l, j₁, j₂, .call h₁, h₂, rfl⟩
  | checked ho _ ih =>
    obtain ⟨l, j₁, j₂, h₁, h₂, rfl⟩ := ih hk
    exact ⟨l, j₁, j₂, .checked ho h₁, h₂, rfl⟩

variable [DecidableEq α] {read : List α → Except Stop (ℕ × ℕ)} {wide : α → ℕ} {c d : Call α}

theorem below_iff (hread : Decodes read len wide) :
    Below (Asks (measureBody m read table) (measureOf m read table)) c (n + 1) d ↔
      ∃ i, Meets m len table c.limit (.choice table) c.ptr 0 n i (.item d.limit) ∧
        c.ptr.drop i = d.ptr := by
  constructor
  · intro h
    induction n generalizing d with
    | zero =>
      cases h with
      | deeper h hasks =>
        cases h
        exact (asks_iff hread).mp hasks
    | succ n ih =>
      cases h with
      | @deeper _ e _ h hasks =>
        obtain ⟨i, hi, he⟩ := ih h
        obtain ⟨j, hj, hd⟩ := (asks_iff hread).mp hasks
        rw [← he] at hj hd
        rw [List.drop_drop] at hd
        exact ⟨i + j, hi.trans hj, hd⟩
  · rintro ⟨i, hi, hd⟩
    induction n generalizing c i with
    | zero => exact .deeper .here ((asks_iff hread).mpr ⟨i, hi, hd⟩)
    | succ n ih =>
      obtain ⟨l, j₁, j₂, h₁, h₂, rfl⟩ := hi.split rfl
      rw [← List.drop_drop] at hd
      have hfirst : Asks (measureBody m read table) (measureOf m read table) c
          ⟨c.ptr.drop j₁, l⟩ := (asks_iff hread).mpr ⟨j₁, h₁, rfl⟩
      have hbelow := (Below.deeper .here hfirst).trans
        (ih (c := ⟨c.ptr.drop j₁, l⟩) j₂ h₂ hd)
      rwa [Nat.add_comm 1] at hbelow

theorem depthAtMost_iff (hread : Decodes read len wide) :
    DepthAtMost (Asks (measureBody m read table) (measureOf m read table)) c (k + 1) ↔
      ∀ n i l, Meets m len table c.limit (.choice table) c.ptr 0 n i (.item l) → n < k := by
  constructor
  · intro h n i l hmeets
    have hbelow := (below_iff (d := ⟨c.ptr.drop i, l⟩) hread).mpr ⟨i, hmeets, rfl⟩
    have hlt := h _ _ hbelow
    omega
  · intro h n d hbelow
    cases n with
    | zero => omega
    | succ n =>
      obtain ⟨i, hmeets, -⟩ := (below_iff hread).mp hbelow
      have hlt := h n i d.limit hmeets
      omega

end Nested

end ByteWalk
