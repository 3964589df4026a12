import IotEdgeAgent.Mqtt.Session

/-!
# The back-off is bounded

The delay doubles with each attempt and has to fit into the time limit of its episode. A limit of
at most `2 ^ 27` seconds therefore leaves room for thirty attempts, and the shift by the number of
attempts stays inside an `int`. Attempts are made within the limit, and none is made when the
retry has expired.
-/

namespace IotEdgeAgent.Mqtt.Session

open Runs Transport

variable {μ κ : Type*} {tickModulus limit : ℕ} {s t : State μ κ} {a : Action}

def halfDelta (retrycount : ℕ) : ℕ := ((1 <<< retrycount) - 1) / 4

def intOfSize (n : ℕ) : ℤ := (n : ℤ).bmod (1 <<< 32)

def MAX_ATTEMPTS : ℕ := 30

theorem shift_le {retrycount : ℕ} (h : retrycount ≤ MAX_ATTEMPTS) :
    1 <<< retrycount ≤ 1 <<< 30 := by
  rw [Nat.one_shiftLeft, Nat.one_shiftLeft]
  exact Nat.pow_le_pow_right (by decide) h

theorem halfDelta_lt {retrycount : ℕ} (h : retrycount ≤ MAX_ATTEMPTS) :
    halfDelta retrycount < 268435456 := by
  have hshift := shift_le h
  have hlast : (1 <<< 30 : ℕ) = 1073741824 := by decide
  rw [halfDelta]
  omega

theorem intOfSize_halfDelta {retrycount : ℕ} (h : retrycount ≤ MAX_ATTEMPTS) :
    intOfSize (halfDelta retrycount) = halfDelta retrycount := by
  have hsmall := halfDelta_lt h
  have hfits : (halfDelta retrycount : ℤ).bmod 4294967296 = halfDelta retrycount := by
    apply Int.bmod_eq_of_le
    · omega
    · omega
  exact hfits

theorem delay_ge {retrycount rand delay : ℕ}
    (h : retryPolicyExponentialBackOffWithJitter retrycount rand = some delay) :
    halfDelta retrycount ≤ delay := by
  unfold retryPolicyExponentialBackOffWithJitter at h
  split at h
  · cases h
  · obtain rfl := Option.some.inj h
    split
    · exact Nat.le_add_right _ _
    · exact Nat.le_refl _

theorem delay_exists {retrycount : ℕ} (h : retrycount ≤ MAX_ATTEMPTS) (rand : ℕ) :
    ∃ delay, retryPolicyExponentialBackOffWithJitter retrycount rand = some delay := by
  have hshift : ¬ 31 ≤ retrycount := Nat.not_le_of_lt (Nat.lt_succ_of_le h)
  rw [retryPolicyExponentialBackOffWithJitter, if_neg hshift]
  exact ⟨_, rfl⟩

theorem count_of_delay {retrycount : ℕ} (hlimit : limit ≤ 1 <<< 27)
    (hcount : retrycount ≤ MAX_ATTEMPTS) (h : halfDelta retrycount ≤ limit) :
    retrycount + 1 ≤ MAX_ATTEMPTS := by
  by_contra hlast
  obtain rfl : retrycount = MAX_ATTEMPTS := by omega
  exact absurd (h.trans hlimit) (by decide)

theorem canRetry_defined {r : RetryLogic} (h : r.retrycount ≤ MAX_ATTEMPTS)
    (moment : RetryMoment) : ∃ answer, canRetry (some r) moment = some answer := by
  obtain ⟨delay, hdelay⟩ := delay_exists h moment.rand
  rw [canRetry, hdelay]
  split_ifs
  · exact ⟨_, rfl⟩
  · exact ⟨_, rfl⟩
  · exact ⟨_, rfl⟩
  · simp only
    split_ifs
    · exact ⟨_, rfl⟩
    · exact ⟨_, rfl⟩
    · exact ⟨_, rfl⟩
  · exact ⟨_, rfl⟩

/-- `earliest` is a time that no later reading of the clock is before. -/
structure Bounded (limit : ℕ) (r : RetryLogic) (earliest : ℤ) : Prop where
  limit_eq : r.retryTimeoutLimitInSeconds = limit
  start : 0 ≤ r.start ∧ r.start ≤ earliest
  count : r.retrycount ≤ MAX_ATTEMPTS
  first : r.firstAttempt = true → r.retrycount = 0 ∧ r.retryStarted = false

section Bounded
variable {r r' : RetryLogic} {earliest : ℤ} {moment : RetryMoment} {result : Bool}

theorem bounded_createRetryLogic (limit : ℕ) : Bounded limit (createRetryLogic limit) 0 where
  limit_eq := rfl
  start := ⟨Int.le_refl _, Int.le_refl _⟩
  count := Nat.zero_le _
  first _ := ⟨rfl, rfl⟩

theorem Bounded.stopRetryTimer (h : Bounded limit r earliest) :
    Bounded limit r.stopRetryTimer earliest := by
  unfold RetryLogic.stopRetryTimer
  cases hstarted : r.retryStarted with
  | false => exact h
  | true => exact ⟨h.limit_eq, h.start, Nat.zero_le _, fun _ => ⟨rfl, rfl⟩⟩

theorem Bounded.startRetryTimer {time : ℤ} (h : Bounded limit r earliest) (hzero : 0 ≤ time)
    (hlate : earliest ≤ time) : Bounded limit (r.startRetryTimer time) time := by
  unfold RetryLogic.startRetryTimer
  cases r.retryStarted with
  | true => exact ⟨h.limit_eq, ⟨h.start.1, Int.le_trans h.start.2 hlate⟩, h.count, nofun⟩
  | false => exact ⟨h.limit_eq, ⟨hzero, Int.le_refl _⟩, h.count, nofun⟩

theorem Bounded.answer (hlimit : limit ≤ 1 <<< 27) (h : Bounded limit r earliest)
    (hnow : 0 ≤ moment.now) (hearliest : earliest ≤ moment.now)
    (hstart : moment.now ≤ moment.startTime) (hpositive : 0 < limit)
    (hanswer : RetryAnswer r moment result r') :
    Bounded limit r' moment.startTime ∧
      (result = true → moment.now - r'.start ≤ limit) ∧
      (r.retryExpired = true → result = false ∧ r'.retryExpired = true) := by
  have hlater : Bounded limit r moment.startTime :=
    ⟨h.limit_eq, ⟨h.start.1, by have := h.start.2; omega⟩, h.count, h.first⟩
  have hlimit_eq := h.limit_eq
  have hstarted := h.start
  cases hanswer with
  | noClock hclock => omega
  | expired hexpired => exact ⟨hlater, nofun, fun _ => ⟨rfl, hexpired⟩⟩
  | early => exact ⟨hlater, nofun, fun hexpired => ⟨rfl, hexpired⟩⟩
  | first hexpired hfirst =>
    obtain ⟨hcount, hstopped⟩ := h.first hfirst
    have hrestarted : Bounded limit (r.startRetryTimer moment.startTime) moment.startTime :=
      h.startRetryTimer (by omega) (by omega)
    refine ⟨⟨hrestarted.limit_eq, hrestarted.start, ?_, ?_⟩, fun _ => ?_, ?_⟩
    · show r.retrycount + 1 ≤ MAX_ATTEMPTS
      rw [hcount]
      decide
    · exact fun hagain => absurd hagain (by simp [RetryLogic.startRetryTimer])
    · have hepisode : (r.startRetryTimer moment.startTime).start = moment.startTime := by
        simp [RetryLogic.startRetryTimer, hstopped]
      show moment.now - (r.startRetryTimer moment.startTime).start ≤ limit
      omega
    · exact fun hagain => absurd (hexpired.symm.trans hagain) nofun
  | restart hexpired =>
    refine ⟨h.startRetryTimer (by omega) (by omega), nofun, fun hagain => ?_⟩
    exact absurd (hexpired.symm.trans hagain) nofun
  | attempt delay hexpired hfirst hstarted hlate hdelay hpermits =>
    have hfits : delay + (moment.now - r.start) ≤ limit := by
      rcases hpermits with hzero | hfits
      · omega
      · exact hlimit_eq ▸ hfits
    have hdelay_le : halfDelta r.retrycount ≤ limit := by
      have hhalf := delay_ge hdelay
      omega
    have hcount := count_of_delay hlimit h.count hdelay_le
    refine ⟨⟨h.limit_eq, hlater.start, hcount, ?_⟩, fun _ => ?_, ?_⟩
    · exact fun hagain => absurd (hfirst.symm.trans hagain) nofun
    · show moment.now - r.start ≤ limit
      omega
    · exact fun hagain => absurd (hexpired.symm.trans hagain) nofun
  | postponed delay =>
    exact ⟨⟨h.limit_eq, hlater.start, h.count, h.first⟩, nofun, fun hexpired => ⟨rfl, hexpired⟩⟩
  | giveUp delay =>
    have hexpired : Bounded limit { r with retryExpired := true } moment.startTime :=
      ⟨h.limit_eq, hlater.start, h.count, h.first⟩
    exact ⟨hexpired.stopRetryTimer, nofun, fun _ => ⟨rfl, stopRetryTimer_expired _⟩⟩

end Bounded

def lastReading (evaluations : List Evaluation) : ℤ :=
  (evaluations.getLast?.map (·.moment.startTime)).getD EPOCH_TIME_T_VALUE

def GivenUp (e : Evaluation) : Prop := ∃ r, e.after = some r ∧ r.retryExpired = true

/-- An attempt is made within the limit of its episode, and the delay is computed without an
overflow and with a positive divisor. -/
def WithinLimit (limit : ℕ) (e : Evaluation) : Prop :=
  ∃ r r', e.before = some r ∧ e.after = some r' ∧
    (e.result = true → e.moment.now - r'.start ≤ limit) ∧
    1 <<< r.retrycount < 1 <<< 31 ∧
    (0 < halfDelta r.retrycount → 0 < intOfSize (halfDelta r.retrycount))

theorem lastReading_append (evaluations : List Evaluation) (e : Evaluation) :
    lastReading (evaluations ++ [e]) = e.moment.startTime := by
  simp [lastReading]

theorem Clocked.lastReading_le {evaluations : List Evaluation} {e : Evaluation}
    (h : Clocked (evaluations ++ [e])) : lastReading evaluations ≤ e.moment.now := by
  induction evaluations using List.reverseRecOn with
  | nil => exact h.last.1
  | append_singleton evaluations f =>
    rw [lastReading_append]
    exact (List.pairwise_append.mp h.ordered).2.2 f
      (List.mem_append_right _ (List.mem_singleton_self f)) e (List.mem_singleton_self e)

theorem computes_of_count {retrycount : ℕ} (h : retrycount ≤ MAX_ATTEMPTS) :
    1 <<< retrycount < 1 <<< 31 ∧
      (0 < halfDelta retrycount → 0 < intOfSize (halfDelta retrycount)) := by
  refine ⟨Nat.lt_of_le_of_lt (shift_le h) (by decide), fun hpositive => ?_⟩
  rw [intOfSize_halfDelta h]
  exact Int.natCast_pos.mpr hpositive

def Keeps (limit : ℕ) (earliest : ℤ) (expired : Prop) (retryLogic : Option RetryLogic) : Prop :=
  ∃ r, retryLogic = some r ∧ Bounded limit r earliest ∧ (r.retryExpired = true ↔ expired)

theorem Changes.keeps {c d : Connection} {earliest : ℤ} {expired : Prop} (h : Changes c d)
    (hc : Keeps limit earliest expired c.retryLogic) :
    Keeps limit earliest expired d.retryLogic := by
  refine @Changes.invariant c d (fun d => Keeps limit earliest expired d.retryLogic) h hc
    fun d change hd => ?_
  cases change with
  | accepted =>
    obtain ⟨r, hr, hbounded, hexpired⟩ := hd
    refine ⟨r.stopRetryTimer, congrArg (Option.map _) hr, hbounded.stopRetryTimer, ?_⟩
    rw [stopRetryTimer_expired]
    exact hexpired
  | _ => exact hd

structure BackOffInv (limit : ℕ) (s : State μ κ) : Prop where
  keeps : Keeps limit (lastReading s.evaluations) (∃ e ∈ s.evaluations, GivenUp e)
    s.system.client.retryLogic
  within : ∀ e ∈ s.evaluations, WithinLimit limit e
  ended : s.evaluations.Pairwise fun e f => GivenUp e → f.result = false

theorem BackOffInv.step (hpositive : 0 < limit) (hlimit : limit ≤ 1 <<< 27) (h : BackOffInv limit s)
    (hclock : Clocked t.evaluations) (hstep : step tickModulus s a t) : BackOffInv limit t := by
  cases step_effect hstep with
  | quiet kept changes =>
    exact ⟨kept ▸ changes.keeps h.keeps, kept ▸ h.within, kept ▸ h.ended⟩
  | destroys d kept changes dropped =>
    refine ⟨?_, kept ▸ h.within, kept ▸ h.ended⟩
    have hdropped : t.system.client.retryLogic = d.retryLogic :=
      congrArg Connection.retryLogic dropped
    rw [kept, hdropped]
    exact changes.keeps h.keeps
  | evaluates work result retryLogic is_dowork evaluates answer logged changes =>
    obtain ⟨r, hr, hbounded, hexpired⟩ := h.keeps
    rw [hr] at answer logged
    obtain ⟨r', rfl, hanswer⟩ := canRetry_answer answer
    rw [logged] at hclock
    obtain ⟨hbounded', hwithin, hended⟩ := hbounded.answer hlimit hclock.last.1
      hclock.lastReading_le hclock.last.2 hpositive hanswer
    refine ⟨?_, ?_, ?_⟩
    · rw [logged, lastReading_append]
      refine changes.keeps ⟨r', rfl, hbounded', fun hgiven => ?_, ?_⟩
      · exact ⟨_, List.mem_append_right _ (List.mem_singleton_self _), r', rfl, hgiven⟩
      · rintro ⟨e, he, r'', hafter, hgiven⟩
        rcases List.mem_append.mp he with he | he
        · exact (hended (hexpired.mpr ⟨e, he, r'', hafter, hgiven⟩)).2
        · obtain rfl := List.mem_singleton.mp he
          exact Option.some.inj hafter ▸ hgiven
    · rw [logged]
      intro e he
      rcases List.mem_append.mp he with he | he
      · exact h.within e he
      · obtain rfl := List.mem_singleton.mp he
        exact ⟨r, r', rfl, rfl, hwithin, computes_of_count hbounded.count⟩
    · rw [logged]
      refine List.pairwise_append.mpr ⟨h.ended, List.pairwise_singleton _ _, fun e he f hf => ?_⟩
      obtain rfl := List.mem_singleton.mp hf
      exact fun hgiven => (hended (hexpired.mpr ⟨e, he, hgiven⟩)).1

theorem backOffInv_of_initial (h : Initial (some (createRetryLogic limit)) s) :
    BackOffInv limit s := by
  refine ⟨⟨createRetryLogic limit, h.retryLogic_eq, ?_, nofun, ?_⟩, ?_, ?_⟩
  · rw [h.evaluations]
    exact bounded_createRetryLogic limit
  · rw [h.evaluations]
    rintro ⟨e, he, -⟩
    exact absurd he List.not_mem_nil
  · rw [h.evaluations]
    exact List.forall_mem_nil _
  · rw [h.evaluations]
    exact List.Pairwise.nil

def ClockedBackOff (limit : ℕ) (s : State μ κ) : Prop := Clocked s.evaluations → BackOffInv limit s

/-- The back-off of every run with a clock that does not go back and a limit of at most `2 ^ 27`
seconds is bounded, from the first evaluation to the state the run ends in. -/
theorem back_off_bounded {as : List Action} (hpositive : 0 < limit) (hlimit : limit ≤ 1 <<< 27)
    (hinit : Initial (some (createRetryLogic limit)) s) (hrun : Run (step tickModulus) s as t)
    (hclock : Clocked t.evaluations) :
    (∀ e ∈ t.evaluations, WithinLimit limit e) ∧
    (t.evaluations.Pairwise fun e f => GivenUp e → f.result = false) ∧
    ∃ r, t.system.client.retryLogic = some r ∧
      (r.retryExpired = true ↔ ∃ e ∈ t.evaluations, GivenUp e) ∧
      r.retrycount ≤ MAX_ATTEMPTS ∧ 1 <<< r.retrycount < 1 <<< 31 ∧
      ∀ moment, ∃ answer, canRetry (some r) moment = some answer := by
  have hinv : ClockedBackOff limit t :=
    hrun.invariant (fun _ => backOffInv_of_initial hinit) fun _ _ _ hx hxy hy =>
      (hx (hy.of_effect (step_effect hxy))).step hpositive hlimit hy hxy
  obtain ⟨⟨r, hr, hbounded, hexpired⟩, hwithin, hended⟩ := hinv hclock
  exact ⟨hwithin, hended, r, hr, hexpired, hbounded.count,
    (computes_of_count hbounded.count).1, canRetry_defined hbounded.count⟩

def limitedState : State Unit Unit where
  system := { createdClient with
    client := initializeMqttClientHandle 3 (some (createRetryLogic 4)) none }
  evaluations := []

theorem limitedState_initial : Initial (some (createRetryLogic 4)) limitedState :=
  ⟨⟨⟨3, _, none, rfl⟩, rfl, rfl, rfl, rfl, rfl⟩, rfl, rfl⟩

def afterWork (s : State Unit Unit) (second : ℤ) : State Unit Unit :=
  (iothubMqttDowork (1 <<< 64) s (workAtSecond second)).getD s

def afterError (s : State Unit Unit) : State Unit Unit :=
  { s with system := deliver s.system .error }

def firstTry : State Unit Unit := afterWork limitedState 100

def secondTry : State Unit Unit := afterWork (afterError firstTry) 106

def thirdTry : State Unit Unit := afterWork secondTry 120

theorem back_off_bounded_gives_up :
    Initial (some (createRetryLogic 4)) limitedState ∧
    Run (step (1 <<< 64)) limitedState [.dowork (workAtSecond 100), .callback .error,
      .dowork (workAtSecond 106), .dowork (workAtSecond 120)] thirdTry ∧
    thirdTry.evaluations.map (·.result) = [true, false, false] ∧
    (∀ e ∈ thirdTry.evaluations, WithinLimit 4 e) ∧
    (∃ e ∈ thirdTry.evaluations, GivenUp e) ∧
    ∃ r, thirdTry.system.client.retryLogic = some r ∧ r.retryExpired = true := by
  have hfirst : step (1 <<< 64) limitedState (.dowork (workAtSecond 100)) firstTry := ⟨rfl, rfl⟩
  have herror : step (1 <<< 64) firstTry (.callback .error) (afterError firstTry) := ⟨rfl, rfl⟩
  have hsecond : step (1 <<< 64) (afterError firstTry) (.dowork (workAtSecond 106)) secondTry :=
    ⟨rfl, rfl⟩
  have hthird : step (1 <<< 64) secondTry (.dowork (workAtSecond 120)) thirdTry := ⟨rfl, rfl⟩
  have hrun := (((Run.start.next hfirst).next herror).next hsecond).next hthird
  have hclock : Clocked thirdTry.evaluations := ⟨by decide, by decide⟩
  obtain ⟨hwithin, -, r, hr, hexpired, -⟩ := back_off_bounded (by decide) (by decide)
    limitedState_initial hrun hclock
  have hgiven : r.retryExpired = true := by
    obtain rfl := Option.some.inj hr
    rfl
  exact ⟨limitedState_initial, hrun, rfl, hwithin, hexpired.mp hgiven, r, hr, hgiven⟩

end IotEdgeAgent.Mqtt.Session
