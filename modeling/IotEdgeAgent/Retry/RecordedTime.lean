import IotEdgeAgent.Retry.RetryControl

/-!
# The time of the last retry

A retry counts first and reads the clock for the time of the retry afterwards. This reading is
the only one whose failure is not returned to the caller. It leaves a state with a retry and no
time, which every later evaluation refuses, whatever the clock says then.
-/

namespace IotEdgeAgent.Retry.RetryControl
open Runs

variable {c d : RetryControl}

def Recorded (c : RetryControl) : Prop := 0 < c.retryCount → c.lastRetryTime ≠ INDEFINITE_TIME

/-- The call does not retry, or it can read the time of the retry. A count that returns to 0 is as
good as none. -/
def TimeRead (c : RetryControl) (call : Call) : Prop :=
  ∀ m, call = .shouldRetry m → c.Retries m → 0 < c.retryCount + 1 → m.recorded ≠ INDEFINITE_TIME

/-- The call is not a reset, nor does it set an option. -/
def Evaluates (_ : RetryControl) : Call → Prop
  | .shouldRetry _ => True
  | _ => False

theorem Recorded.create (policy : RetryPolicy) (maxRetryTimeInSecs : UInt32) :
    Recorded (create policy maxRetryTimeInSecs) := fun h => absurd h (UInt32.lt_irrefl 0)

theorem Recorded.begun (h : c.Recorded) (m : Moment) : (c.begun m).Recorded := h

theorem Recorded.reset : c.reset.Recorded := fun h => absurd h (UInt32.lt_irrefl 0)

theorem Recorded.setOption {name : RetryOption} {value : UInt32} (h : c.Recorded)
    (hset : c.setOption name value = some d) : d.Recorded := by
  obtain ⟨_, hcount, hlast, _⟩ := setOption_keeps hset
  rw [Recorded, hcount, hlast]
  exact h

theorem after_recorded_iff (hwaits : c.Waits) (h : c.Recorded) (call : Call) :
    (c.after call).Recorded ↔ c.TimeRead call := by
  constructor
  · rintro hafter m rfl hretries hcount
    obtain ⟨_, hresult⟩ | ⟨hno, _⟩ := shouldRetry_cases hwaits m
    · rw [RetryControl.after, hresult] at hafter
      exact hafter hcount
    · exact absurd hretries hno
  · intro htime
    apply after_induction hwaits h
    · intro m hcall hretries hcount
      exact htime m hcall hretries hcount
    · exact h.begun
    · exact Recorded.reset
    · exact fun _ _ _ hset => h.setOption hset

theorem Recorded.evaluates (h : c.Recorded) (hwaits : c.Waits) {m : Moment}
    (hfirst : m.first ≠ INDEFINITE_TIME) (hcurrent : m.current ≠ INDEFINITE_TIME) :
    (c.shouldRetry m).1.isSome := by
  apply (shouldRetry_isSome_iff hwaits m).mpr
  constructor
  · rw [startTime]
    split_ifs with hstart
    · exact hfirst
    · exact hstart
  · by_cases hcount : c.retryCount = 0
    · exact .inl hcount
    · exact .inr ⟨h (UInt32.pos_iff_ne_zero.mpr hcount), hcurrent⟩

theorem shouldRetry_of_not_recorded (h : ¬ c.Recorded) (hwaits : c.Waits) (m : Moment) :
    (c.shouldRetry m).1 = none ∧ ¬ (c.shouldRetry m).2.Recorded := by
  have hcount : c.retryCount ≠ 0 := by
    intro hzero
    exact h fun hpos => absurd hzero (UInt32.pos_iff_ne_zero.mp hpos)
  have hlast : c.lastRetryTime = INDEFINITE_TIME := by
    by_cases hlast : c.lastRetryTime = INDEFINITE_TIME
    · exact hlast
    · exact absurd (fun _ => hlast) h
  constructor
  · apply Option.not_isSome_iff_eq_none.mp
    rw [shouldRetry_isSome_iff hwaits]
    rintro ⟨_, hzero | ⟨hknown, _⟩⟩
    · exact hcount hzero
    · exact hknown hlast
  · obtain ⟨hretries, _⟩ | ⟨_, _, hresult⟩ := shouldRetry_cases hwaits m
    · obtain hzero | ⟨hknown, _⟩ := hretries.due
      · exact absurd hzero hcount
      · exact absurd hlast hknown
    · rw [hresult]
      exact h

/-- In a run whose retries can all read their time, every state has the time of its last retry,
and a clock that works gets an answer from it. The next call keeps this only if it can read the
time too. After one that cannot, every call fails and retries nothing. -/
theorem run_recorded {policy : RetryPolicy} (hnone : policy ≠ .none)
    (himmediate : policy ≠ .immediate) {maxRetryTimeInSecs : UInt32} {calls : List Call}
    (h : Run (Guarded TimeRead Step) (create policy maxRetryTimeInSecs) calls c) :
    c.Recorded ∧
    (∀ m : Moment, m.first ≠ INDEFINITE_TIME → m.current ≠ INDEFINITE_TIME →
      (c.shouldRetry m).1.isSome) ∧
    (∀ call d, Step c call d → (d.Recorded ↔ c.TimeRead call)) ∧
    ∀ call d calls e, Step c call d → ¬ c.TimeRead call → Run (Guarded Evaluates Step) d calls e →
      ∀ m, (e.shouldRetry m).1 = none := by
  have hsound := Sound.run h.unguard (Sound.create policy maxRetryTimeInSecs) hnone himmediate
  have hwaits := hsound.waits hnone himmediate
  have hstep : ∀ x call y, Sound policy x ∧ x.Recorded → Guarded TimeRead Step x call y →
      Sound policy y ∧ y.Recorded := by
    rintro x call y ⟨hx, hr⟩ ⟨htime, rfl⟩
    have hx' := hx.waits hnone himmediate
    exact ⟨hx.after hx' call, (after_recorded_iff hx' hr call).mpr htime⟩
  have hrecorded := (h.invariant ⟨Sound.create _ _, Recorded.create _ _⟩ hstep).2
  refine ⟨hrecorded, fun m hfirst hcurrent => ?_, ?_, ?_⟩
  · exact hrecorded.evaluates hwaits hfirst hcurrent
  · rintro call _ rfl
    exact after_recorded_iff hwaits hrecorded call
  · rintro call _ calls e rfl hread hevaluates m
    have hlost : ¬ (c.after call).Recorded :=
      fun hkept => hread ((after_recorded_iff hwaits hrecorded call).mp hkept)
    have hstays : Sound policy e ∧ ¬ e.Recorded := by
      apply @Run.invariant _ _ _ (fun e => Sound policy e ∧ ¬ e.Recorded) _ _ _ hevaluates
      · exact ⟨hsound.after hwaits call, hlost⟩
      rintro x call y ⟨hx, hr⟩ ⟨hshould, rfl⟩
      have hx' := hx.waits hnone himmediate
      refine ⟨hx.after hx' call, ?_⟩
      cases call with
      | shouldRetry m => exact (shouldRetry_of_not_recorded hr hx' m).2
      | reset => exact hshould.elim
      | setOption name value => exact hshould.elim
    exact (shouldRetry_of_not_recorded hstays.2 (hstays.1.waits hnone himmediate) m).1

theorem run_recorded_first :
    ((create .interval 0).after (.shouldRetry ⟨10, -1, 10, 0⟩)).Recorded := by
  have hstart := @Run.start _ _ (Guarded TimeRead Step) (create .interval 0)
  have htime : (create .interval 0).TimeRead (.shouldRetry ⟨10, -1, 10, 0⟩) := by
    rintro m h _ _
    obtain rfl := Call.shouldRetry.inj h
    decide
  exact (run_recorded (by decide) (by decide) (hstart.next ⟨htime, rfl⟩)).1

/-- The clock fails once, when the first retry is to be recorded. -/
theorem recording_fails_first :
    let c := (create .interval 0).after (.shouldRetry ⟨10, -1, INDEFINITE_TIME, 0⟩)
    Run Step (create .interval 0) [.shouldRetry ⟨10, -1, INDEFINITE_TIME, 0⟩] c ∧
    0 < c.retryCount ∧ c.lastRetryTime = INDEFINITE_TIME ∧
    (c.shouldRetry ⟨100, 100, 100, 0⟩).1 = none := by
  refine ⟨Run.start.next rfl, ?_⟩
  decide

end IotEdgeAgent.Retry.RetryControl
