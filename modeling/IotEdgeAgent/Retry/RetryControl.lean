import IotEdgeAgent.Library.Runs
import Mathlib.Data.Int.Notation
import Mathlib.Tactic.SplitIfs

/-!
# The retry control of the IoT Hub client

The policies of `iothub_client_retry_control.c` share one state and the function that decides
whether to retry. Each reading of `get_time` is an input of the call and may be `INDEFINITE_TIME`,
which is how the clock fails. Times are whole seconds, so that their differences are exact; the
wait time of a policy with a power or with a random factor is an input too.
-/

namespace IotEdgeAgent.Retry

inductive RetryPolicy
  | none | immediate | interval | linearBackoff | exponentialBackoff
  | exponentialBackoffWithJitter | random
  deriving DecidableEq, Repr

inductive RetryAction
  | retryNow | retryLater | stopRetrying
  deriving DecidableEq, Repr

def INDEFINITE_TIME : ℤ := -1

structure RetryControl where
  policy : RetryPolicy
  maxRetryTimeInSecs : UInt32
  initialWaitTimeInSecs : UInt32
  maxJitterPercent : UInt32
  retryCount : UInt32
  firstRetryTime : ℤ
  lastRetryTime : ℤ
  currentWaitTimeInSecs : UInt32
  deriving DecidableEq, Repr

/-- What a call reads of its surroundings, as far as it gets: the time of the first retry, the
time it compares with, the time it records, and the result of the policies in floating point. -/
structure Moment where
  first : ℤ
  current : ℤ
  recorded : ℤ
  scaled : UInt32

namespace RetryControl

def evaluateRetryAction (c : RetryControl) (m : Moment) : Option RetryAction :=
  if c.retryCount = 0 then some .retryNow
  else if c.lastRetryTime = INDEFINITE_TIME ∧ c.policy ≠ .immediate then none
  else if m.current = INDEFINITE_TIME then none
  else if 0 < c.maxRetryTimeInSecs ∧
      (c.maxRetryTimeInSecs.toNat : ℤ) ≤ m.current - c.firstRetryTime then some .stopRetrying
  else if c.policy = .immediate then some .retryNow
  else if m.current - c.lastRetryTime < c.currentWaitTimeInSecs.toNat then some .retryLater
  else some .retryNow

def calculateNextWaitTime (c : RetryControl) (m : Moment) : UInt32 :=
  match c.policy with
  | .interval => c.initialWaitTimeInSecs
  | .linearBackoff => c.initialWaitTimeInSecs * c.retryCount
  | .exponentialBackoff | .exponentialBackoffWithJitter | .random => m.scaled
  | .none | .immediate => 0

def reset (c : RetryControl) : RetryControl :=
  { c with
    retryCount := 0
    currentWaitTimeInSecs := 0
    firstRetryTime := INDEFINITE_TIME
    lastRetryTime := INDEFINITE_TIME }

def create (policy : RetryPolicy) (maxRetryTimeInSecs : UInt32) : RetryControl :=
  reset {
    policy := policy
    maxRetryTimeInSecs := maxRetryTimeInSecs
    initialWaitTimeInSecs :=
      if policy = .exponentialBackoff ∨ policy = .exponentialBackoffWithJitter then 1 else 5
    maxJitterPercent := 5
    retryCount := 0
    firstRetryTime := 0
    lastRetryTime := 0
    currentWaitTimeInSecs := 0 }

/-- The action is `none` where the source returns a failure. -/
def shouldRetry (c : RetryControl) (m : Moment) : Option RetryAction × RetryControl :=
  if c.policy = .none then (some .stopRetrying, c)
  else
    let c := if c.firstRetryTime = INDEFINITE_TIME then { c with firstRetryTime := m.first } else c
    if c.firstRetryTime = INDEFINITE_TIME then (none, c)
    else match c.evaluateRetryAction m with
      | none => (none, c)
      | some .retryNow =>
        let c := { c with retryCount := c.retryCount + 1 }
        if c.policy ≠ .immediate then
          -- this reading is not looked at
          let c := { c with lastRetryTime := m.recorded }
          (some .retryNow, { c with currentWaitTimeInSecs := c.calculateNextWaitTime m })
        else (some .retryNow, c)
      | some action => (some action, c)

end RetryControl

inductive RetryOption
  | initialWaitTimeInSecs | maxJitterPercent
  deriving DecidableEq, Repr

def RetryControl.setOption (c : RetryControl) (name : RetryOption) (value : UInt32) :
    Option RetryControl :=
  match name with
  | .initialWaitTimeInSecs =>
    if value < 1 then none else some { c with initialWaitTimeInSecs := value }
  | .maxJitterPercent => if 100 < value then none else some { c with maxJitterPercent := value }

namespace RetryControl

variable {c : RetryControl} {m : Moment}

def Waits (c : RetryControl) : Prop := c.policy ≠ .none ∧ c.policy ≠ .immediate

def startTime (c : RetryControl) (m : Moment) : ℤ :=
  if c.firstRetryTime = INDEFINITE_TIME then m.first else c.firstRetryTime

def Expired (c : RetryControl) (m : Moment) : Prop :=
  0 < c.maxRetryTimeInSecs ∧ (c.maxRetryTimeInSecs.toNat : ℤ) ≤ m.current - c.startTime m

instance : Decidable (c.Expired m) := inferInstanceAs (Decidable (_ ∧ _))

structure Retries (c : RetryControl) (m : Moment) : Prop where
  started : c.startTime m ≠ INDEFINITE_TIME
  due : c.retryCount = 0 ∨ c.lastRetryTime ≠ INDEFINITE_TIME ∧ m.current ≠ INDEFINITE_TIME ∧
    ¬ c.Expired m ∧ (c.currentWaitTimeInSecs.toNat : ℤ) ≤ m.current - c.lastRetryTime

def begun (c : RetryControl) (m : Moment) : RetryControl :=
  { c with firstRetryTime := c.startTime m }

def retried (c : RetryControl) (m : Moment) : RetryControl :=
  let c := { c.begun m with retryCount := c.retryCount + 1, lastRetryTime := m.recorded }
  { c with currentWaitTimeInSecs := c.calculateNextWaitTime m }

@[simp] theorem begun_policy : (c.begun m).policy = c.policy := rfl
@[simp] theorem begun_retryCount : (c.begun m).retryCount = c.retryCount := rfl
@[simp] theorem begun_initialWaitTimeInSecs :
    (c.begun m).initialWaitTimeInSecs = c.initialWaitTimeInSecs := rfl
@[simp] theorem begun_lastRetryTime : (c.begun m).lastRetryTime = c.lastRetryTime := rfl
@[simp] theorem begun_firstRetryTime : (c.begun m).firstRetryTime = c.startTime m := rfl
@[simp] theorem retried_policy : (c.retried m).policy = c.policy := rfl
@[simp] theorem retried_retryCount : (c.retried m).retryCount = c.retryCount + 1 := rfl
@[simp] theorem retried_initialWaitTimeInSecs :
    (c.retried m).initialWaitTimeInSecs = c.initialWaitTimeInSecs := rfl
@[simp] theorem retried_lastRetryTime : (c.retried m).lastRetryTime = m.recorded := rfl

theorem begun_eq : (if c.firstRetryTime = INDEFINITE_TIME then
    { c with firstRetryTime := m.first } else c) = c.begun m := by
  rw [begun, startTime]
  split_ifs
  · rfl
  · rfl

theorem evaluateRetryAction_eq (h : c.policy ≠ .immediate) :
    (c.begun m).evaluateRetryAction m =
      if c.retryCount = 0 then some .retryNow
      else if c.lastRetryTime = INDEFINITE_TIME ∨ m.current = INDEFINITE_TIME then none
      else if c.Expired m then some .stopRetrying
      else if m.current - c.lastRetryTime < c.currentWaitTimeInSecs.toNat then some .retryLater
      else some .retryNow := by
  have hexpired : c.Expired m ↔ 0 < (c.begun m).maxRetryTimeInSecs ∧
    ((c.begun m).maxRetryTimeInSecs.toNat : ℤ) ≤ m.current - (c.begun m).firstRetryTime := Iff.rfl
  by_cases hlast : c.lastRetryTime = INDEFINITE_TIME
  · simp [evaluateRetryAction, hlast, h]
  · simp only [evaluateRetryAction, ← hexpired, begun_retryCount, begun_lastRetryTime,
      begun_policy, hlast, h, false_and, false_or, if_false]
    rfl

theorem evaluateRetryAction_retryNow_iff (h : c.policy ≠ .immediate) :
    (c.begun m).evaluateRetryAction m = some .retryNow ↔
      c.retryCount = 0 ∨ c.lastRetryTime ≠ INDEFINITE_TIME ∧ m.current ≠ INDEFINITE_TIME ∧
        ¬ c.Expired m ∧ (c.currentWaitTimeInSecs.toNat : ℤ) ≤ m.current - c.lastRetryTime := by
  rw [evaluateRetryAction_eq h]
  split_ifs with hcount hclock hexpired hlater
  · simp [hcount]
  · rcases hclock with hclock | hclock <;> simp [hcount, hclock]
  · simp [hcount, hexpired]
  · simp [hcount, Int.not_le.mpr hlater]
  · obtain ⟨hlast, hcurrent⟩ := not_or.mp hclock
    simp [hlast, hcurrent, hexpired, Int.not_lt.mp hlater]

theorem evaluateRetryAction_isSome_iff (h : c.policy ≠ .immediate) :
    ((c.begun m).evaluateRetryAction m).isSome ↔
      c.retryCount = 0 ∨ c.lastRetryTime ≠ INDEFINITE_TIME ∧ m.current ≠ INDEFINITE_TIME := by
  rw [evaluateRetryAction_eq h]
  split_ifs with hcount hclock hexpired hlater
  · simp [hcount]
  · rcases hclock with hclock | hclock <;> simp [hcount, hclock]
  all_goals
    obtain ⟨hlast, hcurrent⟩ := not_or.mp hclock
    simp [hlast, hcurrent]

theorem shouldRetry_eq (h : c.Waits) : c.shouldRetry m =
    if c.startTime m = INDEFINITE_TIME then (none, c.begun m)
    else if (c.begun m).evaluateRetryAction m = some .retryNow then (some .retryNow, c.retried m)
    else ((c.begun m).evaluateRetryAction m, c.begun m) := by
  rw [shouldRetry, if_neg h.1, begun_eq]
  by_cases hstart : c.startTime m = INDEFINITE_TIME
  · have hbegun : (c.begun m).firstRetryTime = INDEFINITE_TIME := hstart
    rw [if_pos hstart]
    exact if_pos hbegun
  · have hbegun : (c.begun m).firstRetryTime ≠ INDEFINITE_TIME := hstart
    rw [if_neg hstart]
    refine (if_neg hbegun).trans ?_
    cases haction : (c.begun m).evaluateRetryAction m with
    | none => rfl
    | some action =>
      cases action with
      | retryNow => exact if_pos h.2
      | retryLater => rfl
      | stopRetrying => rfl

theorem shouldRetry_cases (h : c.Waits) (m : Moment) :
    (c.Retries m ∧ c.shouldRetry m = (some .retryNow, c.retried m)) ∨
    (¬ c.Retries m ∧ (c.shouldRetry m).1 ≠ some .retryNow ∧ (c.shouldRetry m).2 = c.begun m) := by
  rw [shouldRetry_eq h]
  split_ifs with hstart hnow
  · right
    exact ⟨fun hretries => hretries.started hstart, nofun, rfl⟩
  · left
    exact ⟨⟨hstart, (evaluateRetryAction_retryNow_iff h.2).mp hnow⟩, rfl⟩
  · right
    refine ⟨fun hretries => hnow ?_, hnow, rfl⟩
    exact (evaluateRetryAction_retryNow_iff h.2).mpr hretries.due

theorem shouldRetry_isSome_iff (h : c.Waits) (m : Moment) :
    (c.shouldRetry m).1.isSome ↔ c.startTime m ≠ INDEFINITE_TIME ∧
      (c.retryCount = 0 ∨ c.lastRetryTime ≠ INDEFINITE_TIME ∧ m.current ≠ INDEFINITE_TIME) := by
  rw [shouldRetry_eq h, ← evaluateRetryAction_isSome_iff h.2]
  split_ifs with hstart hnow
  · simp [hstart]
  · simp [hstart, hnow]
  · simp [hstart]

end RetryControl

inductive Call
  | shouldRetry (m : Moment)
  | reset
  | setOption (name : RetryOption) (value : UInt32)

def RetryControl.after (c : RetryControl) : Call → RetryControl
  | .shouldRetry m => (c.shouldRetry m).2
  | .reset => c.reset
  | .setOption name value => (c.setOption name value).getD c

def Step (c : RetryControl) (call : Call) (d : RetryControl) : Prop := d = c.after call

namespace RetryControl

variable {c d : RetryControl}

theorem setOption_keeps {name : RetryOption} {value : UInt32}
    (h : c.setOption name value = some d) : d.policy = c.policy ∧ d.retryCount = c.retryCount ∧
      d.lastRetryTime = c.lastRetryTime ∧
      (c.initialWaitTimeInSecs ≠ 0 → d.initialWaitTimeInSecs ≠ 0) := by
  cases name with
  | initialWaitTimeInSecs =>
    rw [setOption] at h
    split_ifs at h with hvalue
    obtain rfl := Option.some.inj h
    refine ⟨rfl, rfl, rfl, fun _ hzero => hvalue ?_⟩
    have hzero : value = 0 := hzero
    rw [hzero]
    decide
  | maxJitterPercent =>
    rw [setOption] at h
    split_ifs at h
    obtain rfl := Option.some.inj h
    exact ⟨rfl, rfl, rfl, id⟩

theorem after_induction {P : RetryControl → Prop} (h : c.Waits) (hc : P c) (call : Call)
    (hretried : ∀ m, call = .shouldRetry m → c.Retries m → P (c.retried m))
    (hbegun : ∀ m, P (c.begun m)) (hreset : P c.reset)
    (hset : ∀ name value d, c.setOption name value = some d → P d) : P (c.after call) := by
  cases call with
  | shouldRetry m =>
    rw [RetryControl.after]
    obtain ⟨hretries, hresult⟩ | ⟨_, _, hresult⟩ := shouldRetry_cases h m
    · rw [hresult]
      exact hretried m rfl hretries
    · rw [hresult]
      exact hbegun m
  | reset => exact hreset
  | setOption name value =>
    rw [RetryControl.after]
    cases hd : c.setOption name value with
    | none => exact hc
    | some d => exact hset name value d hd

/-- The policy is never changed, and no call makes the initial wait time 0. -/
structure Sound (policy : RetryPolicy) (c : RetryControl) : Prop where
  policy_eq : c.policy = policy
  positive : c.initialWaitTimeInSecs ≠ 0

theorem Sound.create (policy : RetryPolicy) (maxRetryTimeInSecs : UInt32) :
    Sound policy (create policy maxRetryTimeInSecs) := by
  refine ⟨rfl, ?_⟩
  change (if _ then (1 : UInt32) else 5) ≠ 0
  split_ifs
  · decide
  · decide

theorem Sound.waits {policy : RetryPolicy} (h : Sound policy c) (hnone : policy ≠ .none)
    (himmediate : policy ≠ .immediate) : c.Waits := by
  rw [← h.policy_eq] at hnone himmediate
  exact ⟨hnone, himmediate⟩

theorem Sound.after {policy : RetryPolicy} (h : Sound policy c) (hwaits : c.Waits) (call : Call) :
    Sound policy (c.after call) := by
  apply after_induction hwaits h
  · exact fun _ _ _ => ⟨h.policy_eq, h.positive⟩
  · exact fun _ => ⟨h.policy_eq, h.positive⟩
  · exact ⟨h.policy_eq, h.positive⟩
  · intro name value d hd
    obtain ⟨hpolicy, _, _, hpositive⟩ := setOption_keeps hd
    exact ⟨hpolicy.trans h.policy_eq, hpositive h.positive⟩

theorem Sound.run {policy : RetryPolicy} {calls : List Call} (h : Runs.Run Step c calls d)
    (hc : Sound policy c) (hnone : policy ≠ .none) (himmediate : policy ≠ .immediate) :
    Sound policy d := by
  apply h.invariant hc
  rintro x call y hx rfl
  exact hx.after (hx.waits hnone himmediate) call

end RetryControl

end IotEdgeAgent.Retry
