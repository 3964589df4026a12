import IotEdgeAgent.Mqtt.Connecting
import IotEdgeAgent.Mqtt.SessionInvariant

/-!
# A call that gives up

When `CanRetry` gives up, `iothub_mqtt_dowork` still calls umqtt and reports nothing. Whether the
client is connected or beyond recovery then depends on what umqtt calls back in this call, and in
every later one, as the retry stays expired.
-/

namespace IotEdgeAgent.Mqtt.Session

open Transport

variable {μ κ : Type*} {tickModulus : ℕ} {s t : System μ κ} {work : Work}

def Expired (retryLogic : Option RetryLogic) : Prop :=
  ∃ r, retryLogic = some r ∧ r.retryExpired = true

/-- `CanRetry` is called, and it sets `retryExpired` or finds it set. -/
def GivesUp (client : IotHubMqttClient μ κ) (work : Work) : Prop :=
  Evaluates client ∧ ∃ retryLogic,
    canRetry client.retryLogic work.moment.retry = some (false, retryLogic) ∧ Expired retryLogic

/-- The last CONNACK, error or disconnect that is heard accepts the connection, or the last one that
decides about recovery refuses it for good. -/
def Settles (s : System μ κ) (work : Work) : Prop :=
  ((heard s work).filterMap connects).getLast? = some true ∨
    ((heard s work).filterMap recovers).getLast? = some false

section Callbacks

theorem apply_not_connecting {client : IotHubMqttClient μ κ} (callback : Callback)
    (h : client.mqttClientStatus ≠ .connecting) :
    (callback.apply client).mqttClientStatus ≠ .connecting := by
  cases callback with
  | error => exact nofun
  | closed => exact h
  | operation event =>
    cases event with
    | connack returnCode => cases returnCode <;> exact nofun
    | disconnect => exact nofun
    | _ => exact h

theorem hear_not_connecting {client : IotHubMqttClient μ κ} (callbacks : List Callback)
    (h : client.mqttClientStatus ≠ .connecting) :
    (hear client callbacks).mqttClientStatus ≠ .connecting := by
  induction callbacks generalizing client with
  | nil => exact h
  | cons callback callbacks ih => exact ih (apply_not_connecting callback h)

end Callbacks

theorem dowork_refused {retryLogic : Option RetryLogic} (hevaluates : Evaluates s.client)
    (hanswer : canRetry s.client.retryLogic work.moment.retry = some (false, retryLogic)) :
    Transport.iothubMqttDowork tickModulus s work =
      some (mqttClientDowork
        (replayStore { s with client := { s.client with retryLogic := retryLogic } } work)
        work.callbacks) := by
  obtain ⟨hdestroy, hdisconnect, hstatus⟩ := hevaluates
  rw [Transport.iothubMqttDowork, Transport.initializeMqttConnection, hdestroy, hdisconnect,
    hstatus, hanswer]
  rfl

theorem Changes.expired {c d : Connection} (h : Changes c d) :
    Expired d.retryLogic ↔ Expired c.retryLogic := by
  rcases h.retryLogic with hsame | hstopped
  · rw [hsame]
  · rw [hstopped]
    cases c.retryLogic with
    | none => exact ⟨nofun, nofun⟩
    | some r =>
      constructor
      · rintro ⟨stopped, hr, hexpired⟩
        obtain rfl := Option.some.inj hr
        exact ⟨r, rfl, stopRetryTimer_expired r ▸ hexpired⟩
      · rintro ⟨r', hr, hexpired⟩
        obtain rfl := Option.some.inj hr
        exact ⟨_, rfl, (stopRetryTimer_expired r).trans hexpired⟩

theorem dowork_expired (h : ¬ Expired s.client.retryLogic)
    (hdowork : Transport.iothubMqttDowork tickModulus s work = some t) :
    Expired t.client.retryLogic ↔ GivesUp s.client work := by
  obtain hchanges | ⟨permitted, retryLogic, hevaluates, hanswer, hchanges⟩ :=
    dowork_changes hdowork
  · -- A call that evaluates nothing cannot have found the retry expired.
    have hkept : Expired t.client.retryLogic ↔ Expired s.client.retryLogic := hchanges.expired
    refine ⟨fun hexpired => absurd (hkept.mp hexpired) h, ?_⟩
    rintro ⟨hevaluates, retryLogic, hanswer, hexpired⟩
    rw [dowork_refused hevaluates hanswer] at hdowork
    obtain rfl := Option.some.inj hdowork
    have hgiven := mqttClientDowork_changes
      { s with client := { s.client with retryLogic := retryLogic } } work
    exact hgiven.expired.mpr hexpired
  · have hkept : Expired t.client.retryLogic ↔ Expired retryLogic := hchanges.expired
    rw [hkept]
    constructor
    · rintro ⟨r', rfl, hexpired⟩
      obtain ⟨r, hr, hcase⟩ := evaluation_answer hanswer
      have hrunning : ¬ r.retryExpired = true := fun hwas => h ⟨r, hr, hwas⟩
      cases hcase with
      | giveUp => exact ⟨hevaluates, _, hanswer, _, rfl, hexpired⟩
      | first | restart =>
        rw [RetryLogic.startRetryTimer] at hexpired
        split at hexpired <;> exact absurd hexpired hrunning
      | _ => exact absurd hexpired hrunning
    · rintro ⟨-, retryLogic', hgiven, hexpired⟩
      obtain ⟨-, rfl⟩ := Prod.mk.inj (Option.some.inj (hanswer.symm.trans hgiven))
      exact hexpired

theorem dowork_settles (h : s.client.isRecoverableError = true) (hgives : GivesUp s.client work)
    (hdowork : Transport.iothubMqttDowork tickModulus s work = some t) :
    t.client.mqttClientStatus ≠ .connecting ∧
      (Settles s work ↔
        t.client.mqttClientStatus = .connected ∨ t.client.isRecoverableError = false) := by
  obtain ⟨hevaluates, retryLogic, hanswer, -⟩ := hgives
  rw [dowork_refused hevaluates hanswer] at hdowork
  obtain rfl := Option.some.inj hdowork
  rw [mqttClientDowork_client]
  generalize hreplay : (publishPersisted work.outcome _).1 = client
  have hconnection : connection client = { connection s.client with retryLogic := retryLogic } :=
    hreplay ▸ publishPersisted_connection work.outcome { s.client with retryLogic := retryLogic }
  have hstatus : client.mqttClientStatus = .notConnected :=
    (congrArg Connection.mqttClientStatus hconnection).trans hevaluates.2.2
  have hrecoverable : client.isRecoverableError = true :=
    (congrArg Connection.isRecoverableError hconnection).trans h
  refine ⟨hear_not_connecting _ (by rw [hstatus]; exact nofun), ?_⟩
  have hconnected := hear_connects client (heard s work)
  have hrecovers := hear_recovers client (heard s work)
  rw [hstatus] at hconnected
  rw [hrecoverable] at hrecovers
  have hheard : heard { s with client := { s.client with retryLogic := retryLogic } } work =
    heard s work := rfl
  rw [hheard, ← decide_eq_true_iff (p := _ = MqttClientStatus.connected), hconnected, hrecovers,
    Settles]
  refine or_congr ?_ ?_
  · cases ((heard s work).filterMap connects).getLast? with
    | none => exact ⟨nofun, nofun⟩
    | some value => simp
  · cases ((heard s work).filterMap recovers).getLast? with
    | none => exact ⟨nofun, nofun⟩
    | some value => simp

theorem dowork_expired_repeats {r : RetryLogic} (hevaluates : Evaluates s.client)
    (hretry : s.client.retryLogic = some r) (hexpired : r.retryExpired = true)
    (hclock : 0 ≤ work.moment.retry.now ∧ 0 ≤ r.start) (hquiet : heard s work = []) :
    ∃ t, Transport.iothubMqttDowork tickModulus s work = some t ∧
      connection t.client = connection s.client := by
  have hanswer : canRetry s.client.retryLogic work.moment.retry = some (false, some r) := by
    rw [hretry, canRetry, if_neg (by omega), hexpired]
    rfl
  refine ⟨_, dowork_refused hevaluates hanswer, ?_⟩
  have hheard : heard { s with client := { s.client with retryLogic := some r } } work = [] :=
    hquiet
  rw [mqttClientDowork_client, hheard, hear, List.foldl_nil, publishPersisted_connection, ← hretry]

end IotEdgeAgent.Mqtt.Session
