import IotEdgeAgent.Retry.RetryControl
import Mathlib.Algebra.Ring.Nat

/-!
# The wait times between retries

The linear policy multiplies the initial wait time by the number of retries in 32 bits. As long as
the product fits the wait times grow. The first product that does not fit leaves less than the
initial wait time.
-/

namespace IotEdgeAgent.Retry.RetryControl
open Runs

def waitTimes (c : RetryControl) : List Moment → List UInt32
  | [] => []
  | m :: ms =>
    let d := (c.shouldRetry m).2
    if (c.shouldRetry m).1 = some .retryNow then d.currentWaitTimeInSecs :: waitTimes d ms
    else waitTimes d ms

def EachCall (P : RetryControl → Moment → Prop) (c : RetryControl) : List Moment → Prop
  | [] => True
  | m :: ms => P c m ∧ EachCall P (c.shouldRetry m).2 ms

/-- The product of a linear back-off that retries now. -/
def Fits (c : RetryControl) (m : Moment) : Prop :=
  c.policy = .linearBackoff → c.Retries m →
    c.initialWaitTimeInSecs.toNat * (c.retryCount.toNat + 1) < 2 ^ 32

structure NeverShrinks (initial : UInt32) (times : List UInt32) : Prop where
  initial_le : ∀ w ∈ times, initial ≤ w
  sorted : times.Pairwise (· ≤ ·)

theorem NeverShrinks.nil (initial : UInt32) : NeverShrinks initial [] := ⟨nofun, .nil⟩

theorem NeverShrinks.cons {initial w : UInt32} {times : List UInt32} (hw : initial ≤ w)
    (h : NeverShrinks w times) : NeverShrinks initial (w :: times) := by
  constructor
  · intro v hv
    obtain rfl | hv := List.mem_cons.mp hv
    · exact hw
    · exact UInt32.le_trans hw (h.initial_le v hv)
  · exact List.pairwise_cons.mpr ⟨h.initial_le, h.sorted⟩

theorem NeverShrinks.tail {initial w : UInt32} {times : List UInt32}
    (h : NeverShrinks initial (w :: times)) : NeverShrinks initial times :=
  ⟨fun v hv => h.initial_le v (List.mem_cons_of_mem w hv), (List.pairwise_cons.mp h.sorted).2⟩

section
variable {c : RetryControl} {m : Moment} {ms : List Moment}

theorem waitTimes_retried (hwaits : c.Waits) (h : c.Retries m) : c.waitTimes (m :: ms) =
    (c.retried m).currentWaitTimeInSecs :: (c.retried m).waitTimes ms := by
  obtain ⟨_, hresult⟩ | ⟨hno, _⟩ := shouldRetry_cases hwaits m
  · rw [waitTimes, hresult]
    exact if_pos rfl
  · exact absurd h hno

theorem waitTimes_begun (hwaits : c.Waits) (h : ¬ c.Retries m) :
    c.waitTimes (m :: ms) = (c.begun m).waitTimes ms := by
  obtain ⟨hyes, _⟩ | ⟨_, haction, hresult⟩ := shouldRetry_cases hwaits m
  · exact absurd hyes h
  · rw [waitTimes, if_neg haction, hresult]

theorem eachCall_retried {P : RetryControl → Moment → Prop} (hwaits : c.Waits)
    (h : c.Retries m) : EachCall P c (m :: ms) ↔ P c m ∧ EachCall P (c.retried m) ms := by
  obtain ⟨_, hresult⟩ | ⟨hno, _⟩ := shouldRetry_cases hwaits m
  · rw [EachCall, hresult]
  · exact absurd h hno

theorem eachCall_begun {P : RetryControl → Moment → Prop} (hwaits : c.Waits)
    (h : ¬ c.Retries m) : EachCall P c (m :: ms) ↔ P c m ∧ EachCall P (c.begun m) ms := by
  obtain ⟨hyes, _⟩ | ⟨_, _, hresult⟩ := shouldRetry_cases hwaits m
  · exact absurd hyes h
  · rw [EachCall, hresult]

end

theorem neverShrinks_interval {c : RetryControl} (h : c.policy = .interval) (ms : List Moment) :
    NeverShrinks c.initialWaitTimeInSecs (c.waitTimes ms) := by
  have hwaits : c.Waits := by
    rw [Waits, h]
    decide
  induction ms generalizing c with
  | nil => exact NeverShrinks.nil _
  | cons m ms ih =>
    by_cases hretries : c.Retries m
    · have hwait : (c.retried m).currentWaitTimeInSecs = c.initialWaitTimeInSecs := by
        simp [retried, calculateNextWaitTime, h]
      rw [waitTimes_retried hwaits hretries, hwait]
      exact (ih (c := c.retried m) h hwaits).cons (UInt32.le_refl _)
    · rw [waitTimes_begun hwaits hretries]
      exact ih (c := c.begun m) h hwaits

theorem fits_interval {c : RetryControl} (h : c.policy = .interval) (ms : List Moment) :
    EachCall Fits c ms := by
  have hwaits : c.Waits := by
    rw [Waits, h]
    decide
  induction ms generalizing c with
  | nil => trivial
  | cons m ms ih =>
    have hfits : c.Fits m := fun hlinear => RetryPolicy.noConfusion (h.symm.trans hlinear)
    by_cases hretries : c.Retries m
    · apply (eachCall_retried hwaits hretries).mpr
      exact ⟨hfits, ih (c := c.retried m) h hwaits⟩
    · apply (eachCall_begun hwaits hretries).mpr
      exact ⟨hfits, ih (c := c.begun m) h hwaits⟩

section
variable {c : RetryControl} {m : Moment}

theorem linear_wait (h : c.policy = .linearBackoff) :
    (c.retried m).currentWaitTimeInSecs.toNat =
      c.initialWaitTimeInSecs.toNat * (c.retryCount.toNat + 1) % 2 ^ 32 := by
  have hwait : (c.retried m).currentWaitTimeInSecs =
      c.initialWaitTimeInSecs * (c.retryCount + 1) := by
    simp [retried, calculateNextWaitTime, h]
  rw [hwait, UInt32.toNat_mul, UInt32.toNat_add]
  exact Nat.mul_mod_mod _ _ _

theorem count_of_fits (hinitial : c.initialWaitTimeInSecs ≠ 0)
    (h : c.initialWaitTimeInSecs.toNat * (c.retryCount.toNat + 1) < 2 ^ 32) :
    (c.retried m).retryCount.toNat = c.retryCount.toNat + 1 := by
  have hpos : 0 < c.initialWaitTimeInSecs.toNat := UInt32.pos_iff_ne_zero.mpr hinitial
  have hcount : c.retryCount.toNat + 1 < 2 ^ 32 :=
    Nat.lt_of_le_of_lt (Nat.le_mul_of_pos_left _ hpos) h
  rw [retried_retryCount, UInt32.toNat_add]
  exact Nat.mod_eq_of_lt hcount

end

theorem neverShrinks_of_fits {c : RetryControl} (hpolicy : c.policy = .linearBackoff)
    (hinitial : c.initialWaitTimeInSecs ≠ 0) {floor : UInt32}
    (hfloor : floor.toNat ≤ c.initialWaitTimeInSecs.toNat * (c.retryCount.toNat + 1))
    {ms : List Moment} (h : EachCall Fits c ms) : NeverShrinks floor (c.waitTimes ms) := by
  have hwaits : c.Waits := by
    rw [Waits, hpolicy]
    decide
  induction ms generalizing c floor with
  | nil => exact NeverShrinks.nil _
  | cons m ms ih =>
    by_cases hretries : c.Retries m
    · obtain ⟨hfits, hrest⟩ := (eachCall_retried hwaits hretries).mp h
      have hproduct := hfits hpolicy hretries
      have hwait := linear_wait (m := m) hpolicy
      rw [Nat.mod_eq_of_lt hproduct] at hwait
      have hcount := count_of_fits (m := m) hinitial hproduct
      rw [waitTimes_retried hwaits hretries]
      have hle : floor.toNat ≤ (c.retried m).currentWaitTimeInSecs.toNat := hwait ▸ hfloor
      apply NeverShrinks.cons (UInt32.le_iff_toNat_le.mpr hle)
      apply ih (c := c.retried m) hpolicy hinitial _ hrest hwaits
      rw [hwait, hcount, retried_initialWaitTimeInSecs]
      exact Nat.mul_le_mul_left _ (Nat.le_succ _)
    · rw [waitTimes_begun hwaits hretries]
      exact ih (c := c.begun m) hpolicy hinitial hfloor
        ((eachCall_begun hwaits hretries).mp h).2 hwaits

theorem fits_of_initial_le {c : RetryControl} (hpolicy : c.policy = .linearBackoff)
    (hinitial : c.initialWaitTimeInSecs ≠ 0)
    (hlast : c.initialWaitTimeInSecs.toNat * c.retryCount.toNat < 2 ^ 32) {ms : List Moment}
    (h : ∀ w ∈ c.waitTimes ms, c.initialWaitTimeInSecs ≤ w) : EachCall Fits c ms := by
  have hwaits : c.Waits := by
    rw [Waits, hpolicy]
    decide
  induction ms generalizing c with
  | nil => trivial
  | cons m ms ih =>
    by_cases hretries : c.Retries m
    · rw [waitTimes_retried hwaits hretries] at h
      have hproduct : c.initialWaitTimeInSecs.toNat * (c.retryCount.toNat + 1) < 2 ^ 32 := by
        have hwait := UInt32.le_iff_toNat_le.mp (h _ (List.mem_cons_self ..))
        rw [linear_wait hpolicy] at hwait
        have hsmall := c.initialWaitTimeInSecs.toNat_lt
        rw [Nat.mul_succ] at hwait ⊢
        omega
      apply (eachCall_retried hwaits hretries).mpr
      refine ⟨fun _ _ => hproduct, ?_⟩
      apply ih (c := c.retried m) hpolicy hinitial _ _ hwaits
      · rw [count_of_fits hinitial hproduct]
        exact hproduct
      · exact fun w hw => h w (List.mem_cons_of_mem _ hw)
    · rw [waitTimes_begun hwaits hretries] at h
      apply (eachCall_begun hwaits hretries).mpr
      refine ⟨fun _ hyes => absurd hyes hretries, ?_⟩
      exact ih (c := c.begun m) hpolicy hinitial hlast h hwaits

/-- From every state that calls, resets and options can lead to, the wait times of the retries that
follow never shrink if each product of the linear back-off fits. If the last one did, and without
a retry it does, this is the only case. -/
theorem neverShrinks_iff {policy : RetryPolicy}
    (hpolicy : policy = .interval ∨ policy = .linearBackoff) {maxRetryTimeInSecs : UInt32}
    {calls : List Call} {c : RetryControl} (h : Run Step (create policy maxRetryTimeInSecs) calls c)
    (ms : List Moment) :
    (EachCall Fits c ms → NeverShrinks c.initialWaitTimeInSecs (c.waitTimes ms)) ∧
    (c.initialWaitTimeInSecs.toNat * c.retryCount.toNat < 2 ^ 32 →
      NeverShrinks c.initialWaitTimeInSecs (c.waitTimes ms) → EachCall Fits c ms) := by
  obtain rfl | rfl := hpolicy
  · have hsound := Sound.run h (Sound.create _ _) (by decide) (by decide)
    exact ⟨fun _ => neverShrinks_interval hsound.policy_eq ms,
      fun _ _ => fits_interval hsound.policy_eq ms⟩
  · have hsound := Sound.run h (Sound.create _ _) (by decide) (by decide)
    constructor
    · apply neverShrinks_of_fits hsound.policy_eq hsound.positive
      exact Nat.le_mul_of_pos_right _ (Nat.succ_pos _)
    · intro hlast hnever
      exact fits_of_initial_le hsound.policy_eq hsound.positive hlast hnever.initial_le

theorem neverShrinks_iff_linear : NeverShrinks 5
    (waitTimes (create .linearBackoff 0) [⟨10, 10, 10, 0⟩, ⟨70, 70, 70, 0⟩]) := by
  have hrun := @Run.start _ _ Step (create .linearBackoff 0)
  apply (neverShrinks_iff (.inr rfl) hrun _).1
  refine ⟨fun _ _ => ?_, fun _ _ => ?_, trivial⟩
  · decide
  · decide

/-- The second retry with an initial wait time of `2 ^ 31` seconds waits for nothing. -/
theorem waitTimes_shrink : ∃ c,
    (create .linearBackoff 0).setOption .initialWaitTimeInSecs 0x80000000 = some c ∧
    c.waitTimes [⟨10, 10, 10, 0⟩, ⟨10, 2147483658, 2147483658, 0⟩] = [0x80000000, 0] ∧
    ¬ NeverShrinks c.initialWaitTimeInSecs [0x80000000, 0] := by
  refine ⟨_, rfl, ?_, fun h => ?_⟩
  · decide
  · have hle := h.initial_le 0 (by decide)
    exact absurd hle (by decide)

end IotEdgeAgent.Retry.RetryControl
