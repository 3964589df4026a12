import Mathlib.Data.Int.Notation
import Mathlib.Data.Nat.Notation

/-!
# When the client may connect again

The retry state of the MQTT client and the three functions that write it. Times are seconds of
`get_time`. Every policy a client can be created with is carried out by the same function, the
exponential back-off with jitter, so the state keeps no pointer to it. A call whose shift is
undefined in C has no result, `none`.
-/

namespace IotEdgeAgent.Mqtt

def EPOCH_TIME_T_VALUE : ℤ := 0
def ERROR_TIME_FOR_RETRY_SECS : ℕ := 5

structure RetryLogic where
  retryTimeoutLimitInSeconds : ℕ
  start : ℤ
  lastConnect : ℤ
  retryStarted : Bool
  retryExpired : Bool
  firstAttempt : Bool
  retrycount : ℕ
  delayFromLastConnectToRetry : ℕ
  deriving DecidableEq, Repr

def createRetryLogic (retryTimeoutLimitInSeconds : ℕ) : RetryLogic where
  retryTimeoutLimitInSeconds := retryTimeoutLimitInSeconds
  start := EPOCH_TIME_T_VALUE
  lastConnect := EPOCH_TIME_T_VALUE
  retryStarted := false
  retryExpired := false
  firstAttempt := true
  retrycount := 0
  delayFromLastConnectToRetry := 0

/-- The delay after `retrycount` failures. `1 << 31` and beyond is no `int` of the C code. -/
def retryPolicyExponentialBackOffWithJitter (retrycount rand : ℕ) : Option ℕ :=
  if 31 ≤ retrycount then none
  else
    let halfDelta := ((1 <<< retrycount) - 1) / 4
    some (if 0 < halfDelta then halfDelta + rand % halfDelta else halfDelta)

namespace RetryLogic

def startRetryTimer (retryLogic : RetryLogic) (time : ℤ) : RetryLogic :=
  { (if retryLogic.retryStarted then retryLogic
      else { retryLogic with
        start := time, delayFromLastConnectToRetry := 0, retryStarted := true })
    with firstAttempt := false }

def stopRetryTimer (retryLogic : RetryLogic) : RetryLogic :=
  if retryLogic.retryStarted then
    { retryLogic with
      retryStarted := false
      delayFromLastConnectToRetry := 0
      lastConnect := EPOCH_TIME_T_VALUE
      retrycount := 0 }
  else retryLogic

end RetryLogic

/-- What `CanRetry` reads of its surroundings: the time, the time as `StartRetryTimer` reads it
again, and what `rand` returns. -/
structure RetryMoment where
  now : ℤ
  startTime : ℤ
  rand : ℕ

/-- The part of `CanRetry` behind the policy, `diffTime` seconds after the last attempt. -/
def RetryLogic.evaluateDelay (retryLogic : RetryLogic) (now diffTime : ℤ) (delay : ℕ) :
    Bool × RetryLogic :=
  if retryLogic.retryTimeoutLimitInSeconds = 0 ∨
      delay + (now - retryLogic.start) ≤ retryLogic.retryTimeoutLimitInSeconds then
    let retryLogic := { retryLogic with delayFromLastConnectToRetry := delay }
    if delay ≤ ERROR_TIME_FOR_RETRY_SECS ∨ (delay : ℤ) ≤ diffTime then
      (true, { retryLogic with lastConnect := now, retrycount := retryLogic.retrycount + 1 })
    else (false, retryLogic)
  else (false, { retryLogic with retryExpired := true }.stopRetryTimer)

def canRetry (retryLogic : Option RetryLogic) (moment : RetryMoment) :
    Option (Bool × Option RetryLogic) :=
  match retryLogic with
  | none => some (true, none)
  | some retryLogic =>
    if moment.now < 0 ∨ retryLogic.start < 0 then some (true, some retryLogic)
    else if retryLogic.retryExpired then some (false, some retryLogic)
    else if retryLogic.firstAttempt then
      let retryLogic := retryLogic.startRetryTimer moment.startTime
      some (true, some { retryLogic with
        lastConnect := moment.now, retrycount := retryLogic.retrycount + 1 })
    else if retryLogic.retryStarted then
      let diffTime := moment.now - retryLogic.lastConnect
      if diffTime ≤ ERROR_TIME_FOR_RETRY_SECS then some (false, some retryLogic)
      else if diffTime < retryLogic.delayFromLastConnectToRetry then some (false, some retryLogic)
      else do
        let delay ← retryPolicyExponentialBackOffWithJitter retryLogic.retrycount moment.rand
        let (result, retryLogic) := retryLogic.evaluateDelay moment.now diffTime delay
        some (result, some retryLogic)
    else some (false, some (retryLogic.startRetryTimer moment.startTime))

theorem startRetryTimer_started (r : RetryLogic) (time : ℤ) :
    (r.startRetryTimer time).retryStarted = true := by
  unfold RetryLogic.startRetryTimer
  cases hstarted : r.retryStarted with
  | true => exact hstarted
  | false => rfl

theorem stopRetryTimer_stopped {r : RetryLogic} (h : r.retryStarted = false) :
    r.stopRetryTimer = r := by
  unfold RetryLogic.stopRetryTimer
  rw [h]
  rfl

theorem stopRetryTimer_expired (r : RetryLogic) :
    r.stopRetryTimer.retryExpired = r.retryExpired := by
  rw [RetryLogic.stopRetryTimer]
  split <;> rfl

def RetryLogic.Permits (retryLogic : RetryLogic) (now : ℤ) (delay : ℕ) : Prop :=
  retryLogic.retryTimeoutLimitInSeconds = 0 ∨
    delay + (now - retryLogic.start) ≤ retryLogic.retryTimeoutLimitInSeconds

inductive RetryAnswer (r : RetryLogic) (moment : RetryMoment) : Bool → RetryLogic → Prop
  | noClock (h : moment.now < 0 ∨ r.start < 0) : RetryAnswer r moment true r
  | expired (h : r.retryExpired = true) : RetryAnswer r moment false r
  | first (hexpired : r.retryExpired = false) (hfirst : r.firstAttempt = true) :
      RetryAnswer r moment true { r.startRetryTimer moment.startTime with
        lastConnect := moment.now, retrycount := r.retrycount + 1 }
  | restart (hexpired : r.retryExpired = false) (hfirst : r.firstAttempt = false)
      (hstarted : r.retryStarted = false) :
      RetryAnswer r moment false (r.startRetryTimer moment.startTime)
  | early (hstarted : r.retryStarted = true)
      (hearly : moment.now - r.lastConnect ≤ ERROR_TIME_FOR_RETRY_SECS ∨
        moment.now - r.lastConnect < r.delayFromLastConnectToRetry) :
      RetryAnswer r moment false r
  | attempt (delay : ℕ) (hexpired : r.retryExpired = false) (hfirst : r.firstAttempt = false)
      (hstarted : r.retryStarted = true)
      (hlate : (ERROR_TIME_FOR_RETRY_SECS : ℤ) < moment.now - r.lastConnect)
      (hdelay : retryPolicyExponentialBackOffWithJitter r.retrycount moment.rand = some delay)
      (hpermits : r.Permits moment.now delay) :
      RetryAnswer r moment true { r with
        delayFromLastConnectToRetry := delay, lastConnect := moment.now
        retrycount := r.retrycount + 1 }
  | postponed (delay : ℕ) (hstarted : r.retryStarted = true)
      (hdelay : retryPolicyExponentialBackOffWithJitter r.retrycount moment.rand = some delay)
      (hlong : ERROR_TIME_FOR_RETRY_SECS < delay) :
      RetryAnswer r moment false { r with delayFromLastConnectToRetry := delay }
  | giveUp (delay : ℕ) (hstarted : r.retryStarted = true)
      (hdelay : retryPolicyExponentialBackOffWithJitter r.retrycount moment.rand = some delay)
      (hexceeds : ¬ r.Permits moment.now delay) :
      RetryAnswer r moment false { r with retryExpired := true }.stopRetryTimer

section Answers
variable {r : RetryLogic} {moment : RetryMoment} {result : Bool} {after : Option RetryLogic}

theorem canRetry_answer (h : canRetry (some r) moment = some (result, after)) :
    ∃ r', after = some r' ∧ RetryAnswer r moment result r' := by
  rw [canRetry] at h
  by_cases hclock : moment.now < 0 ∨ r.start < 0
  · rw [if_pos hclock] at h
    cases h
    exact ⟨r, rfl, .noClock hclock⟩
  rw [if_neg hclock] at h
  cases hexpired : r.retryExpired with
  | true =>
    rw [hexpired] at h
    cases h
    exact ⟨r, rfl, .expired hexpired⟩
  | false =>
    cases hfirst : r.firstAttempt with
    | true =>
      simp only [hexpired, hfirst, Bool.false_eq_true, if_false, if_true, Option.some.injEq,
        Prod.mk.injEq] at h
      obtain ⟨rfl, rfl⟩ := h
      have hcount : (r.startRetryTimer moment.startTime).retrycount = r.retrycount := by
        rw [RetryLogic.startRetryTimer]
        split <;> rfl
      rw [hcount]
      exact ⟨_, rfl, .first hexpired hfirst⟩
    | false =>
      cases hstarted : r.retryStarted with
      | false =>
        simp only [hexpired, hfirst, hstarted, Bool.false_eq_true, if_false, Option.some.injEq,
          Prod.mk.injEq] at h
        obtain ⟨rfl, rfl⟩ := h
        exact ⟨_, rfl, .restart hexpired hfirst hstarted⟩
      | true =>
        simp only [hexpired, hfirst, hstarted, Bool.false_eq_true, if_false, if_true] at h
        by_cases hsoon : moment.now - r.lastConnect ≤ ERROR_TIME_FOR_RETRY_SECS
        · rw [if_pos hsoon] at h
          cases h
          exact ⟨r, rfl, .early hstarted (.inl hsoon)⟩
        rw [if_neg hsoon] at h
        by_cases hwait : moment.now - r.lastConnect < r.delayFromLastConnectToRetry
        · rw [if_pos hwait] at h
          cases h
          exact ⟨r, rfl, .early hstarted (.inr hwait)⟩
        rw [if_neg hwait] at h
        obtain ⟨delay, hdelay, hresult⟩ := Option.bind_eq_some_iff.mp h
        obtain ⟨rfl, rfl⟩ := Prod.mk.inj (Option.some.inj hresult)
        refine ⟨_, rfl, ?_⟩
        rw [RetryLogic.evaluateDelay]
        by_cases hpermits : r.Permits moment.now delay
        · rw [if_pos (show _ ∨ _ from hpermits)]
          by_cases hnow : delay ≤ ERROR_TIME_FOR_RETRY_SECS ∨
              (delay : ℤ) ≤ moment.now - r.lastConnect
          · rw [if_pos hnow]
            exact .attempt delay hexpired hfirst hstarted (Int.not_le.mp hsoon) hdelay hpermits
          · rw [if_neg hnow]
            exact .postponed delay hstarted hdelay (Nat.not_le.mp (not_or.mp hnow).1)
        · rw [if_neg (show ¬ (_ ∨ _) from hpermits)]
          exact .giveUp delay hstarted hdelay hpermits

theorem evaluation_answer {retryLogic : Option RetryLogic} {moment : RetryMoment} {result : Bool}
    {r' : RetryLogic} (h : canRetry retryLogic moment = some (result, some r')) :
    ∃ r, retryLogic = some r ∧ RetryAnswer r moment result r' := by
  cases retryLogic with
  | none => cases h
  | some r =>
    obtain ⟨r'', hr'', hanswer⟩ := canRetry_answer h
    obtain rfl := Option.some.inj hr''
    exact ⟨r, rfl, hanswer⟩

end Answers

end IotEdgeAgent.Mqtt
