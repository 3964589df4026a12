import IotEdgeAgent.Mqtt.Session

/-!
# The session invariant

While the client is connected its connection is not lost and the retry timer does not run; a timer
that does not run has counted no attempts. `CanRetry` is evaluated only for a client that is not
connected, so that nothing but an accepted CONNACK changes the retry state of the others.
-/

namespace IotEdgeAgent.Mqtt.Session

open Runs Transport

variable {μ κ : Type*} {tickModulus : ℕ} {s t : State μ κ} {a : Action}

def Idle (r : RetryLogic) : Prop := r.retryStarted = false → r.retrycount = 0

theorem idle_createRetryLogic (limit : ℕ) : Idle (createRetryLogic limit) := fun _ => rfl

theorem Idle.stopRetryTimer {r : RetryLogic} (h : Idle r) :
    r.stopRetryTimer.retryStarted = false ∧ r.stopRetryTimer.retrycount = 0 := by
  unfold RetryLogic.stopRetryTimer
  cases hstarted : r.retryStarted with
  | true => exact ⟨rfl, rfl⟩
  | false => exact ⟨hstarted, h hstarted⟩

theorem Idle.answer {r r' : RetryLogic} {moment : RetryMoment} {result : Bool} (h : Idle r)
    (hanswer : RetryAnswer r moment result r') : Idle r' := by
  cases hanswer with
  | noClock => exact h
  | expired => exact h
  | early => exact h
  | first => exact fun hstopped => absurd hstopped (by simp [startRetryTimer_started])
  | restart => exact fun hstopped => absurd hstopped (by simp [startRetryTimer_started])
  | attempt delay _ _ hstarted => exact fun hstopped => absurd (hstarted.symm.trans hstopped) nofun
  | postponed delay hstarted => exact fun hstopped => absurd (hstarted.symm.trans hstopped) nofun
  | giveUp =>
    have hidle : Idle { r with retryExpired := true } := h
    exact fun _ => hidle.stopRetryTimer.2

structure RetryInv (c : Connection) : Prop where
  created : ∃ r, c.retryLogic = some r ∧ Idle r ∧
    (c.mqttClientStatus = .connected → r.retryStarted = false)

def Alive (c : Connection) : Prop :=
  c.mqttClientStatus = .connected → c.isConnectionLost = false

theorem RetryInv.change {c : Connection} (change : Change) (h : RetryInv c) :
    RetryInv (change.apply c) := by
  obtain ⟨r, hr, hidle, hstopped⟩ := h.created
  cases change with
  | accepted =>
    have hstop := hidle.stopRetryTimer
    exact ⟨r.stopRetryTimer, congrArg (Option.map _) hr, fun _ => hstop.2, fun _ => hstop.1⟩
  | refused recoverable => exact ⟨r, hr, hidle, nofun⟩
  | error => exact ⟨r, hr, hidle, nofun⟩
  | disconnected => exact ⟨r, hr, hidle, nofun⟩
  | connecting => exact ⟨r, hr, hidle, nofun⟩
  | dropped => exact ⟨r, hr, hidle, nofun⟩
  | disconnect => exact ⟨r, hr, hidle, hstopped⟩

theorem Alive.change {c : Connection} (change : Change) (h : Alive c) : Alive (change.apply c) := by
  cases change with
  | accepted => exact fun _ => rfl
  | disconnect => exact h
  | _ => exact nofun

structure Inv (s : State μ κ) : Prop where
  retry : RetryInv (connection s.system.client)
  alive : Alive (connection s.system.client)
  logged : ∀ e ∈ s.evaluations, e.status = .notConnected

theorem inv_of_initial {limit : ℕ} (h : Initial (some (createRetryLogic limit)) s) : Inv s := by
  have hretry := h.retryLogic_eq
  obtain ⟨keepAliveInterval, retryLogic, persist, hclient⟩ := h.system.client
  have hstatus : s.system.client.mqttClientStatus = .notConnected := by
    rw [hclient]
    rfl
  refine ⟨⟨_, hretry, idle_createRetryLogic limit, fun _ => rfl⟩, fun hconnected => ?_, ?_⟩
  · exact absurd (hstatus.symm.trans hconnected) nofun
  · rw [h.evaluations]
    exact List.forall_mem_nil _

theorem RetryInv.evaluate {c : Connection} {moment : RetryMoment} {result : Bool}
    {retryLogic : Option RetryLogic} (h : RetryInv c) (hstatus : c.mqttClientStatus = .notConnected)
    (hanswer : canRetry c.retryLogic moment = some (result, retryLogic)) :
    RetryInv { c with retryLogic := retryLogic } := by
  obtain ⟨r, hr, hidle, -⟩ := h.created
  rw [hr] at hanswer
  obtain ⟨r', rfl, hcase⟩ := canRetry_answer hanswer
  exact ⟨r', rfl, hidle.answer hcase, fun hconnected =>
    absurd (hstatus.symm.trans hconnected) nofun⟩

theorem Inv.step (h : Inv s) (hstep : step tickModulus s a t) : Inv t := by
  cases step_effect hstep with
  | quiet kept changes =>
    exact ⟨changes.invariant h.retry fun _ => RetryInv.change,
      changes.invariant h.alive fun _ => Alive.change, kept ▸ h.logged⟩
  | evaluates work result retryLogic is_dowork evaluates answer logged changes =>
    have halive : Alive { connection s.system.client with retryLogic := retryLogic } :=
      fun hconnected => absurd (evaluates.2.2.symm.trans hconnected) nofun
    refine ⟨changes.invariant (h.retry.evaluate evaluates.2.2 answer) fun _ => RetryInv.change,
      changes.invariant halive fun _ => Alive.change, fun e he => ?_⟩
    rw [logged, List.mem_append, List.mem_singleton] at he
    rcases he with he | rfl
    · exact h.logged e he
    · rfl
  | destroys d kept changes dropped =>
    have hretry : RetryInv d := changes.invariant ⟨h.retry.created⟩ fun _ => RetryInv.change
    exact ⟨dropped ▸ hretry.change .dropped, dropped ▸ nofun, kept ▸ h.logged⟩

theorem stopRetryTimer_stopRetryTimer (r : RetryLogic) :
    r.stopRetryTimer.stopRetryTimer = r.stopRetryTimer := by
  apply stopRetryTimer_stopped
  unfold RetryLogic.stopRetryTimer
  cases hstarted : r.retryStarted with
  | true => rfl
  | false => exact hstarted

theorem Changes.retryLogic {c d : Connection} (h : Changes c d) :
    d.retryLogic = c.retryLogic ∨ d.retryLogic = c.retryLogic.map RetryLogic.stopRetryTimer := by
  refine @Changes.invariant c d (fun d => d.retryLogic = c.retryLogic ∨
    d.retryLogic = c.retryLogic.map RetryLogic.stopRetryTimer) h (.inl rfl) fun d change hd => ?_
  cases change with
  | accepted =>
    rcases hd with hd | hd
    · exact .inr (congrArg (Option.map RetryLogic.stopRetryTimer) hd)
    · refine .inr ((congrArg (Option.map RetryLogic.stopRetryTimer) hd).trans ?_)
      cases c.retryLogic with
      | none => rfl
      | some r => exact congrArg some (stopRetryTimer_stopRetryTimer r)
  | _ => exact hd

/-- In every reachable state the session invariant holds, `CanRetry` was evaluated for a client
that is not connected only, and a step from any other status evaluates nothing: it leaves the
retry state as it is, or stops its timer if the client was waiting for its CONNACK. -/
theorem session_invariant {limit : ℕ} {as : List Action}
    (hinit : Initial (some (createRetryLogic limit)) s) (hrun : Run (step tickModulus) s as t) :
    (∃ r, t.system.client.retryLogic = some r ∧
      (t.system.client.mqttClientStatus = .connected →
        t.system.client.isConnectionLost = false ∧ r.retryStarted = false ∧ r.retrycount = 0) ∧
      (r.retryStarted = false → r.retrycount = 0)) ∧
    (∀ e ∈ t.evaluations, e.status = .notConnected) ∧
    (∀ a u, step tickModulus t a u → t.system.client.mqttClientStatus ≠ .notConnected →
      u.evaluations = t.evaluations ∧
      (u.system.client.retryLogic = t.system.client.retryLogic ∨
        t.system.client.mqttClientStatus = .connecting ∧
          u.system.client.retryLogic =
            t.system.client.retryLogic.map RetryLogic.stopRetryTimer)) := by
  have hinv : Inv t := hrun.invariant (inv_of_initial hinit) fun _ _ _ h => h.step
  obtain ⟨r, hr, hidle, hstopped⟩ := hinv.retry.created
  refine ⟨⟨r, hr, fun hconnected => ?_, hidle⟩, hinv.logged, fun a u hstep hstatus => ?_⟩
  · exact ⟨hinv.alive hconnected, hstopped hconnected, hidle (hstopped hconnected)⟩
  · have hkeeps : u.evaluations = t.evaluations ∧
        (u.system.client.retryLogic = t.system.client.retryLogic ∨
          u.system.client.retryLogic =
            t.system.client.retryLogic.map RetryLogic.stopRetryTimer) := by
      cases step_effect hstep with
      | quiet kept changes => exact ⟨kept, changes.retryLogic⟩
      | evaluates work result retryLogic is_dowork evaluates => exact absurd evaluates.2.2 hstatus
      | destroys d kept changes dropped =>
        have hretry := changes.retryLogic
        have hchanged : (connection u.system.client).retryLogic = d.retryLogic :=
          (congrArg Connection.retryLogic dropped).trans rfl
        rw [← hchanged] at hretry
        exact ⟨kept, hretry⟩
    refine ⟨hkeeps.1, hkeeps.2.elim .inl fun hstop => ?_⟩
    cases hwas : t.system.client.mqttClientStatus with
    | notConnected => exact absurd hwas hstatus
    | connecting => exact .inr ⟨rfl, hstop⟩
    | connected =>
      have hretry : t.system.client.retryLogic = some r := hr
      rw [hretry, Option.map_some, stopRetryTimer_stopped (hstopped hwas)] at hstop
      exact .inl (hstop.trans hretry.symm)

theorem session_invariant_accepted :
    Initial (some (createRetryLogic 0)) createdState ∧
    ∃ t, Run (step (1 <<< 64)) createdState
        [.dowork (workAtSecond 100), .callback (.operation (.connack .connectionAccepted))] t ∧
      t.system.client.mqttClientStatus = .connected ∧
      ∃ r, t.system.client.retryLogic = some r ∧ r.retryStarted = false ∧ r.retrycount = 0 := by
  have hrun := (Run.start.next connect_step).next accept_step
  refine ⟨createdState_initial, _, hrun, rfl, ?_⟩
  obtain ⟨⟨r, hr, hconnected, -⟩, -⟩ := session_invariant createdState_initial hrun
  exact ⟨r, hr, (hconnected rfl).2⟩

end IotEdgeAgent.Mqtt.Session
