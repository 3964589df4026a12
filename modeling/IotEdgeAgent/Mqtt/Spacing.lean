import IotEdgeAgent.Mqtt.Session

/-!
# The spacing of the attempts to connect

`CanRetry` keeps more than five seconds between two attempts by the time of the last attempt that
it remembers. An accepted connection makes it forget that time: in the episode behind it the first
attempt is not held back. A client without retry logic is never held back.
-/

namespace IotEdgeAgent.Mqtt.Session

open Runs Transport

variable {μ κ : Type*} {tickModulus : ℕ} {s t : State μ κ} {a : Action}

def lastAttempt (evaluations : List Evaluation) : Option ℤ :=
  ((evaluations.filter (·.result)).getLast?).map (·.moment.now)

def Apart (evaluations : List Evaluation) : Prop :=
  evaluations.Pairwise fun (e f : Evaluation) => e.result → f.result →
    e.moment.now + ERROR_TIME_FOR_RETRY_SECS < f.moment.now

/-- There is no retry logic, or it would allow an attempt and does not remember the last one. -/
def Forgets (retryLogic : Option RetryLogic) (attempt now : ℤ) : Prop :=
  match retryLogic with
  | none => True
  | some r => r.retryExpired = false ∧ r.retryStarted = true ∧ r.lastConnect ≠ attempt ∧
      (ERROR_TIME_FOR_RETRY_SECS : ℤ) < now ∧ r.Permits now 0

def Spaced (s : State μ κ) : Action → Prop
  | .dowork work => Evaluates s.system.client →
      ∀ attempt, lastAttempt s.evaluations = some attempt →
      Forgets s.system.client.retryLogic attempt work.moment.retry.now →
      attempt + ERROR_TIME_FOR_RETRY_SECS < work.moment.retry.now
  | _ => True

structure Reset (r : RetryLogic) : Prop where
  lastConnect : r.lastConnect = EPOCH_TIME_T_VALUE
  retrycount : r.retrycount = 0
  delay : r.delayFromLastConnectToRetry = 0

structure Remembers (r : RetryLogic) (attempt : Option ℤ) : Prop where
  start : 0 ≤ r.start
  stopped : r.retryStarted = false → Reset r
  first : attempt = none ↔ r.firstAttempt = true
  last : ∀ time, attempt = some time → r.lastConnect = time ∨ Reset r

section Remembers
variable {r r' : RetryLogic} {attempt : Option ℤ} {moment : RetryMoment} {result : Bool}

theorem remembers_createRetryLogic (limit : ℕ) : Remembers (createRetryLogic limit) none where
  start := Int.le_refl _
  stopped _ := ⟨rfl, rfl, rfl⟩
  first := ⟨fun _ => rfl, fun _ => rfl⟩
  last := nofun

theorem Remembers.stopRetryTimer (h : Remembers r attempt) :
    Remembers r.stopRetryTimer attempt := by
  unfold RetryLogic.stopRetryTimer
  cases hstarted : r.retryStarted with
  | false => exact h
  | true => exact ⟨h.start, fun _ => ⟨rfl, rfl, rfl⟩, h.first, fun _ _ => .inr ⟨rfl, rfl, rfl⟩⟩

theorem startRetryTimer_start (r : RetryLogic) {time : ℤ} (hr : 0 ≤ r.start) (htime : 0 ≤ time) :
    0 ≤ (r.startRetryTimer time).start := by
  unfold RetryLogic.startRetryTimer
  cases r.retryStarted with
  | true => exact hr
  | false => exact htime

theorem Remembers.answer (h : Remembers r attempt) (hnow : 0 ≤ moment.now)
    (hstart : moment.now ≤ moment.startTime) (hanswer : RetryAnswer r moment result r') :
    Remembers r' (if result then some moment.now else attempt) := by
  cases hanswer with
  | noClock hclock => exact absurd hclock (by have := h.start; omega)
  | expired => exact h
  | early => exact h
  | first _ hfirst =>
    have hstarted := startRetryTimer_start r h.start (show 0 ≤ moment.startTime by omega)
    refine ⟨hstarted, fun hstopped => ?_, ?_, fun time htime => ?_⟩
    · exact absurd hstopped (by simp [startRetryTimer_started])
    · simp [RetryLogic.startRetryTimer]
    · exact .inl (Option.some.inj htime)
  | restart _ hfirst hstopped =>
    have hreset := h.stopped hstopped
    have hrestarted : Reset (r.startRetryTimer moment.startTime) := by
      rw [RetryLogic.startRetryTimer, hstopped]
      exact ⟨hreset.lastConnect, hreset.retrycount, rfl⟩
    refine ⟨startRetryTimer_start r h.start (by omega), fun _ => hrestarted, ?_, fun _ _ =>
      .inr hrestarted⟩
    rw [RetryLogic.startRetryTimer, hstopped]
    exact h.first.trans (by simp [hfirst])
  | attempt delay _ hfirst hstarted =>
    exact ⟨h.start, fun hstopped => Bool.noConfusion (hstarted.symm.trans hstopped),
      by simp [hfirst], fun _ htime => .inl (Option.some.inj htime)⟩
  | postponed delay hstarted hdelay hlong =>
    refine ⟨h.start, fun hstopped => Bool.noConfusion (hstarted.symm.trans hstopped), h.first,
      fun time htime => ?_⟩
    rcases h.last time htime with hlast | hreset
    · exact .inl hlast
    · rw [hreset.retrycount] at hdelay
      obtain rfl : 0 = delay := Option.some.inj hdelay
      exact absurd hlong (by decide)
  | giveUp delay =>
    have hexpired : Remembers { r with retryExpired := true } attempt :=
      ⟨h.start, fun hstopped => ⟨(h.stopped hstopped).1, (h.stopped hstopped).2,
        (h.stopped hstopped).3⟩, h.first, fun time htime => (h.last time htime).imp_right
          fun hreset => ⟨hreset.1, hreset.2, hreset.3⟩⟩
    exact hexpired.stopRetryTimer

theorem RetryAnswer.forgets {time : ℤ} (h : Remembers r (some time))
    (hanswer : RetryAnswer r moment true r') (hnow : 0 ≤ moment.now)
    (hclose : moment.now ≤ time + ERROR_TIME_FOR_RETRY_SECS) :
    Forgets (some r) time moment.now := by
  cases hanswer with
  | noClock hclock => exact absurd hclock (by have := h.start; omega)
  | first hexpired hfirst => exact absurd (h.first.mpr hfirst) nofun
  | attempt delay hexpired hfirst hstarted hlate hdelay hpermits =>
    have hforgotten : r.lastConnect ≠ time := by omega
    have hreset := (h.last time rfl).resolve_left hforgotten
    have hzero : r.lastConnect = 0 := hreset.lastConnect
    refine ⟨hexpired, hstarted, hforgotten, by omega, hpermits.imp_right fun hlimit => ?_⟩
    omega

end Remembers

section Log
variable {evaluations : List Evaluation} {e : Evaluation}

theorem lastAttempt_append (evaluations : List Evaluation) (e : Evaluation) :
    lastAttempt (evaluations ++ [e]) =
      if e.result then some e.moment.now else lastAttempt evaluations := by
  rw [lastAttempt, lastAttempt, List.filter_append]
  cases hresult : e.result with
  | true => simp [List.filter, hresult]
  | false => simp [List.filter, hresult]

theorem Clocked.lastAttempt_le (h : Clocked evaluations) (hmem : e ∈ evaluations)
    (hresult : e.result = true) :
    ∃ time, lastAttempt evaluations = some time ∧ e.moment.now ≤ time := by
  induction evaluations using List.reverseRecOn with
  | nil => simp at hmem
  | append_singleton evaluations f ih =>
    rw [lastAttempt_append]
    rcases List.mem_append.mp hmem with hmem | hmem
    · obtain ⟨time, htime, hle⟩ := ih h.before hmem
      cases hf : f.result with
      | false => exact ⟨time, by simpa using htime, hle⟩
      | true =>
        have hbefore := (List.pairwise_append.mp h.ordered).2.2 e hmem f (List.mem_singleton_self f)
        have hread := (h.before.readings e hmem).2
        exact ⟨f.moment.now, by simp, by omega⟩
    · obtain rfl := List.mem_singleton.mp hmem
      exact ⟨e.moment.now, by simp [hresult], Int.le_refl _⟩

end Log

structure SpacedInv (s : State μ κ) : Prop where
  remembers : ∀ r, s.system.client.retryLogic = some r → Remembers r (lastAttempt s.evaluations)
  apart : Apart s.evaluations

theorem Changes.remembers {c d : Connection} {attempt : Option ℤ} (h : Changes c d)
    (hc : ∀ r, c.retryLogic = some r → Remembers r attempt) :
    ∀ r, d.retryLogic = some r → Remembers r attempt := by
  refine @Changes.invariant c d (fun d => ∀ r, d.retryLogic = some r → Remembers r attempt) h hc
    fun d change hd => ?_
  cases change with
  | accepted =>
    intro r hr
    obtain ⟨r', hr', rfl⟩ := Option.map_eq_some_iff.mp hr
    exact (hd r' hr').stopRetryTimer
  | _ => exact hd

theorem forgets_of_attempt {retryLogic after : Option RetryLogic} {moment : RetryMoment}
    {attempt : Option ℤ} {time : ℤ}
    (h : ∀ r, retryLogic = some r → Remembers r attempt) (htime : attempt = some time)
    (hanswer : canRetry retryLogic moment = some (true, after)) (hnow : 0 ≤ moment.now)
    (hclose : moment.now ≤ time + ERROR_TIME_FOR_RETRY_SECS) :
    Forgets retryLogic time moment.now := by
  cases retryLogic with
  | none => trivial
  | some r =>
    obtain ⟨r', -, hanswer⟩ := canRetry_answer hanswer
    exact RetryAnswer.forgets (htime ▸ h r rfl) hanswer hnow hclose

theorem canRetry_forgets_iff {retryLogic : Option RetryLogic} {moment : RetryMoment} {time : ℤ}
    (h : ∀ r, retryLogic = some r → Remembers r (some time)) (hnow : 0 ≤ moment.now)
    (hclose : moment.now ≤ time + ERROR_TIME_FOR_RETRY_SECS) :
    (∃ after, canRetry retryLogic moment = some (true, after)) ↔
      Forgets retryLogic time moment.now := by
  constructor
  · rintro ⟨after, hanswer⟩
    exact forgets_of_attempt h rfl hanswer hnow hclose
  · intro hforgets
    cases retryLogic with
    | none => exact ⟨none, rfl⟩
    | some r =>
      obtain ⟨hexpired, hstarted, hforgotten, hlate, hpermits⟩ := hforgets
      have hr := h r rfl
      have hreset := (hr.last time rfl).resolve_left hforgotten
      have hfirst : r.firstAttempt = false := Bool.eq_false_iff.mpr fun hfirst =>
        absurd (hr.first.mpr hfirst) nofun
      have hdiff : moment.now - r.lastConnect = moment.now := by
        rw [hreset.lastConnect]
        exact Int.sub_zero _
      have hclock : ¬ (moment.now < 0 ∨ r.start < 0) := by
        have hstart := hr.start
        omega
      have hdelay : r.evaluateDelay moment.now moment.now 0 = (true, (r.evaluateDelay moment.now
          moment.now 0).2) := by
        rw [RetryLogic.evaluateDelay, if_pos (show _ ∨ _ from hpermits),
          if_pos (.inl (Nat.zero_le _))]
      have hpolicy : retryPolicyExponentialBackOffWithJitter 0 moment.rand = some 0 := rfl
      refine ⟨some (r.evaluateDelay moment.now moment.now 0).2, ?_⟩
      rw [canRetry, if_neg hclock]
      simp only [hexpired, hfirst, hstarted, Bool.false_eq_true, if_false, if_true, hdiff,
        hreset.delay, hreset.retrycount, if_neg (Int.not_le.mpr hlate), Int.natCast_zero,
        if_neg (Int.not_lt.mpr hnow), hpolicy]
      rw [Option.bind_eq_bind, Option.bind_some, hdelay]

theorem SpacedInv.step (h : SpacedInv s) (hclock : Clocked t.evaluations)
    (hstep : Guarded Spaced (step tickModulus) s a t) : SpacedInv t := by
  obtain ⟨hspaced, hstep⟩ := hstep
  cases step_effect hstep with
  | quiet kept changes =>
    exact ⟨kept ▸ changes.remembers h.remembers, kept ▸ h.apart⟩
  | destroys d kept changes dropped =>
    have hd := changes.remembers h.remembers
    refine ⟨fun r hr => ?_, kept ▸ h.apart⟩
    rw [kept]
    exact hd r ((congrArg Connection.retryLogic dropped).symm.trans hr)
  | evaluates work result retryLogic is_dowork evaluates answer logged changes =>
    subst is_dowork
    rw [logged] at hclock
    refine ⟨?_, ?_⟩
    · rw [logged, lastAttempt_append]
      refine changes.remembers fun r' hr' => ?_
      obtain rfl : retryLogic = some r' := hr'
      obtain ⟨r, hr, hanswer⟩ := evaluation_answer answer
      exact (h.remembers r hr).answer hclock.last.1 hclock.last.2 hanswer
    · rw [logged]
      refine List.pairwise_append.mpr ⟨h.apart, List.pairwise_singleton _ _, fun f hf e he => ?_⟩
      obtain rfl := List.mem_singleton.mp he
      rintro hf' (rfl : result = true)
      obtain ⟨time, htime, hle⟩ := hclock.before.lastAttempt_le hf hf'
      have happart : time + ERROR_TIME_FOR_RETRY_SECS < work.moment.retry.now := by
        by_contra hclose
        refine hclose (hspaced evaluates time htime ?_)
        exact forgets_of_attempt h.remembers htime answer hclock.last.1 (Int.not_lt.mp hclose)
      simp only
      omega

def ClockedInv (s : State μ κ) : Prop := Clocked s.evaluations → SpacedInv s

/-- In every run with a clock that does not go back, and in which an attempt that the retry state
would forget is not made too early, all attempts are more than five seconds apart. Less than that
behind the last one, `CanRetry` allows one in the states that forget it, and in no other. -/
theorem attempts_apart {retryLogic : Option RetryLogic} {as : List Action}
    (hcreated : retryLogic = none ∨ ∃ limit, retryLogic = some (createRetryLogic limit))
    (hinit : Initial retryLogic s) (hrun : Run (Guarded Spaced (step tickModulus)) s as t)
    (hclock : Clocked t.evaluations) :
    Apart t.evaluations ∧
      ∀ (moment : RetryMoment) (time : ℤ), lastAttempt t.evaluations = some time →
        0 ≤ moment.now → moment.now ≤ time + ERROR_TIME_FOR_RETRY_SECS →
        ((∃ after, canRetry t.system.client.retryLogic moment = some (true, after)) ↔
          Forgets t.system.client.retryLogic time moment.now) := by
  have hinv : ClockedInv t := by
    refine hrun.invariant (fun _ => ⟨fun r hr => ?_, ?_⟩) fun x a y hx hxy hy => ?_
    · rw [hinit.retryLogic_eq] at hr
      rw [hinit.evaluations]
      obtain rfl | ⟨limit, rfl⟩ := hcreated
      · cases hr
      · obtain rfl := Option.some.inj hr
        exact remembers_createRetryLogic limit
    · rw [hinit.evaluations]
      exact List.Pairwise.nil
    · exact (hx (hy.of_effect (step_effect hxy.2))).step hy hxy
  refine ⟨(hinv hclock).apart, fun moment time hlast hnow hclose => ?_⟩
  exact canRetry_forgets_iff (hlast ▸ (hinv hclock).remembers) hnow hclose

def lostState : State Unit Unit :=
  { acceptedState with system := deliver acceptedState.system .error }

theorem lost_step : step (1 <<< 64) acceptedState (.callback .error) lostState := ⟨rfl, rfl⟩

def restartedAt (second : ℤ) : State Unit Unit :=
  (iothubMqttDowork (1 <<< 64) lostState (workAtSecond second)).getD lostState

def retriedAt (second : ℤ) : State Unit Unit :=
  (iothubMqttDowork (1 <<< 64) (restartedAt second) (workAtSecond (second + 1))).getD lostState

def acceptedAndLost (second : ℤ) : List Action :=
  [.dowork (workAtSecond 100), .callback (.operation (.connack .connectionAccepted)),
    .callback .error, .dowork (workAtSecond second), .dowork (workAtSecond (second + 1))]

theorem attempts_apart_later :
    Initial (some (createRetryLogic 0)) createdState ∧
    ∃ t, Run (Guarded Spaced (step (1 <<< 64))) createdState (acceptedAndLost 106) t ∧
      Clocked t.evaluations ∧ t.evaluations.map (·.result) = [true, false, true] ∧
      Apart t.evaluations := by
  have hconnect : Guarded Spaced (step (1 <<< 64)) createdState (.dowork (workAtSecond 100))
      connectingState := ⟨fun _ _ => nofun, connect_step⟩
  have hlate : ∀ attempt : ℤ, some (100 : ℤ) = some attempt → ∀ second : ℤ, 105 < second →
      attempt + ERROR_TIME_FOR_RETRY_SECS < second := by
    rintro attempt ⟨⟩ second hsecond
    exact hsecond
  have hrestarted : Guarded Spaced (step (1 <<< 64)) lostState (.dowork (workAtSecond 106))
      (restartedAt 106) := ⟨fun _ attempt hlast _ => hlate attempt hlast 106 (by decide), rfl, rfl⟩
  have hretried : Guarded Spaced (step (1 <<< 64)) (restartedAt 106) (.dowork (workAtSecond 107))
      (retriedAt 106) := ⟨fun _ attempt hlast _ => hlate attempt hlast 107 (by decide), rfl, rfl⟩
  have haccept : Guarded Spaced (step (1 <<< 64)) connectingState
      (.callback (.operation (.connack .connectionAccepted))) acceptedState :=
    ⟨trivial, accept_step⟩
  have hlost : Guarded Spaced (step (1 <<< 64)) acceptedState (.callback .error) lostState :=
    ⟨trivial, lost_step⟩
  have hrun := ((((Run.start.next hconnect).next haccept).next hlost).next hrestarted).next hretried
  have hclock : Clocked (retriedAt 106).evaluations := ⟨by decide, by decide⟩
  exact ⟨createdState_initial, _, hrun, hclock, rfl,
    (attempts_apart (.inr ⟨0, rfl⟩) createdState_initial hrun hclock).1⟩

theorem attempts_one_second_apart :
    Initial (some (createRetryLogic 0)) createdState ∧
    ∃ t, Run (step (1 <<< 64)) createdState (acceptedAndLost 100) t ∧ Clocked t.evaluations ∧
      ¬ Apart t.evaluations := by
  have hrestarted : step (1 <<< 64) lostState (.dowork (workAtSecond 100)) (restartedAt 100) :=
    ⟨rfl, rfl⟩
  have hretried : step (1 <<< 64) (restartedAt 100) (.dowork (workAtSecond 101))
      (retriedAt 100) := ⟨rfl, rfl⟩
  have hrun := ((((Run.start.next connect_step).next accept_step).next lost_step).next
    hrestarted).next hretried
  refine ⟨createdState_initial, _, hrun, ⟨by decide, by decide⟩, ?_⟩
  rw [Apart]
  decide

end IotEdgeAgent.Mqtt.Session
