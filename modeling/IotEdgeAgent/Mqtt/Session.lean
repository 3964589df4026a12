import IotEdgeAgent.Mqtt.Transport

/-!
# Sessions of the MQTT client

The events of a session in any order: calls of `iothub_mqtt_dowork` at any times, what umqtt calls
back, disconnecting and destroying the client. Each evaluation of `CanRetry` is logged with the
status of the client at that moment. What a session does to the flags and to the retry state of
the client is a sequence of small changes, `Change`, behind at most one evaluation for a call.
-/

namespace IotEdgeAgent.Mqtt.Session

open Runs Transport

variable {μ κ : Type*}

structure Evaluation where
  status : MqttClientStatus
  moment : RetryMoment
  before : Option RetryLogic
  after : Option RetryLogic
  result : Bool

structure State (μ κ : Type*) where
  system : System μ κ
  evaluations : List Evaluation

/-- `CanRetry` stands last in the condition, so it is called only if the others hold. -/
def Evaluates (client : IotHubMqttClient μ κ) : Prop :=
  client.isDestroyCalled = false ∧ client.isDisconnectCalled = false ∧
    client.mqttClientStatus = .notConnected

instance (client : IotHubMqttClient μ κ) : Decidable (Evaluates client) :=
  inferInstanceAs (Decidable (_ ∧ _))

def evaluated (client : IotHubMqttClient μ κ) (moment : RetryMoment) : List Evaluation :=
  if Evaluates client then
    ((canRetry client.retryLogic moment).map fun (result, retryLogic) =>
      ⟨client.mqttClientStatus, moment, client.retryLogic, retryLogic, result⟩).toList
  else []

def iothubMqttDowork (tickModulus : ℕ) (s : State μ κ) (work : Work) : Option (State μ κ) :=
  (Transport.iothubMqttDowork tickModulus s.system work).map fun system =>
    ⟨system, s.evaluations ++ evaluated s.system.client work.moment.retry⟩

def iothubMqttDestroy (s : System μ κ) (callbacks : List Callback) : System μ κ :=
  disconnectFromClient
    { s with client := { s.client with isDestroyCalled := true, isConnectionLost := true } }
    callbacks

inductive Action
  | dowork (work : Work)
  | callback (callback : Callback)
  | disconnect
  | destroy (callbacks : List Callback)

def step (tickModulus : ℕ) (s : State μ κ) (a : Action) (t : State μ κ) : Prop :=
  s.system.client.isDestroyCalled = false ∧
    match a with
    | .dowork work => iothubMqttDowork tickModulus s work = some t
    | .callback callback => t = { s with system := deliver s.system callback }
    | .disconnect => t = { s with system := Transport.iothubMqttDisconnect s.system }
    | .destroy callbacks => t = { s with system := iothubMqttDestroy s.system callbacks }

structure Initial (retryLogic : Option RetryLogic) (s : State μ κ) : Prop where
  system : Transport.Initial s.system
  retryLogic_eq : s.system.client.retryLogic = retryLogic
  evaluations : s.evaluations = []

structure Connection where
  mqttClientStatus : MqttClientStatus
  isDisconnectCalled : Bool
  isConnectionLost : Bool
  isDestroyCalled : Bool
  isRecoverableError : Bool
  retryLogic : Option RetryLogic

def connection (client : IotHubMqttClient μ κ) : Connection where
  mqttClientStatus := client.mqttClientStatus
  isDisconnectCalled := client.isDisconnectCalled
  isConnectionLost := client.isConnectionLost
  isDestroyCalled := client.isDestroyCalled
  isRecoverableError := client.isRecoverableError
  retryLogic := client.retryLogic

inductive Change
  | accepted
  | refused (recoverable : Bool)
  | error
  | disconnected
  | connecting
  | dropped
  | disconnect

def Change.apply (c : Connection) : Change → Connection
  | .accepted =>
    { c with
      isRecoverableError := true
      isConnectionLost := false
      mqttClientStatus := .connected
      retryLogic := c.retryLogic.map RetryLogic.stopRetryTimer }
  | .refused recoverable =>
    { c with
      isConnectionLost := true
      isRecoverableError := recoverable && c.isRecoverableError
      mqttClientStatus := .notConnected }
  | .error => { c with mqttClientStatus := .notConnected, isConnectionLost := true }
  | .disconnected => { c with mqttClientStatus := .notConnected, isDisconnectCalled := true }
  | .connecting => { c with mqttClientStatus := .connecting }
  | .dropped => { c with mqttClientStatus := .notConnected }
  | .disconnect => { c with isDisconnectCalled := true }

def Changes (c d : Connection) : Prop := ∃ changes : List Change, d = changes.foldl Change.apply c

section Changes
variable {c d e : Connection}

theorem Changes.refl (c : Connection) : Changes c c := ⟨[], rfl⟩

theorem Changes.one (c : Connection) (change : Change) : Changes c (change.apply c) :=
  ⟨[change], rfl⟩

theorem Changes.trans (h : Changes c d) (h' : Changes d e) : Changes c e := by
  obtain ⟨changes, rfl⟩ := h
  obtain ⟨changes', rfl⟩ := h'
  exact ⟨changes ++ changes', List.foldl_append.symm⟩

theorem Changes.invariant {inv : Connection → Prop} (h : Changes c d) (hinv : inv c)
    (hchange : ∀ c change, inv c → inv (Change.apply c change)) : inv d := by
  obtain ⟨changes, rfl⟩ := h
  induction changes generalizing c with
  | nil => exact hinv
  | cons change changes ih => exact ih (hchange c change hinv)

end Changes

section Effects
variable {s t : System μ κ} {moment : Moment}

theorem callback_changes (client : IotHubMqttClient μ κ) (callback : Callback) :
    Changes (connection client) (connection (callback.apply client)) := by
  cases callback with
  | error => exact .one _ .error
  | closed => exact .refl _
  | operation event =>
    cases event with
    | connack returnCode =>
      simp only [Callback.apply, onMqttOperationComplete, onConnack]
      by_cases haccepted : returnCode = .connectionAccepted
      · rw [if_pos haccepted]
        exact .one _ .accepted
      · rw [if_neg haccepted]
        cases returnCode with
        | connectionAccepted => exact absurd rfl haccepted
        | connRefusedUnacceptableVersion => exact .one _ (.refused false)
        | connRefusedBadUsernamePassword => exact .one _ (.refused false)
        | connRefusedNotAuthorized => exact .one _ (.refused false)
        | connRefusedIdRejected => exact .one _ (.refused true)
        | connRefusedServerUnavail => exact .one _ (.refused true)
        | connRefusedUnknown => exact .one _ (.refused true)
    | disconnect => exact .one _ .disconnected
    | _ => exact .refl _

theorem deliver_changes (s : System μ κ) (callback : Callback) :
    Changes (connection s.client) (connection (deliver s callback).client) := by
  unfold deliver
  split
  · exact .refl _
  · exact callback_changes s.client callback

theorem deliverAll_changes (s : System μ κ) (callbacks : List Callback) :
    Changes (connection s.client) (connection (deliverAll s callbacks).client) := by
  induction callbacks generalizing s with
  | nil => exact .refl _
  | cons callback callbacks ih => exact (deliver_changes s callback).trans (ih _)

theorem disconnectFromClient_changes (s : System μ κ) (callbacks : List Callback) :
    ∃ d, Changes (connection s.client) d ∧
      connection (disconnectFromClient s callbacks).client = Change.dropped.apply d :=
  ⟨_, deliverAll_changes { s with mqttClient := s.mqttClient.map mqttClientDisconnect } callbacks,
    rfl⟩

theorem createTransport_client (s : System μ κ) (transportCreated : Bool) :
    (createTransport s transportCreated).client = s.client := by
  unfold createTransport
  split_ifs <;> rfl

theorem sendMqttConnectMessage_changes (s : System μ κ) (moment : Moment) :
    Changes (connection s.client) (connection (sendMqttConnectMessage s moment).1.client) := by
  rw [sendMqttConnectMessage, ← createTransport_client s moment.transportCreated]
  generalize createTransport s moment.transportCreated = u
  simp only
  split
  · rename_i xio mqttClient htransport hclient
    have hdelivered := deliverAll_changes
      { u with mqttClient := some { mqttClient with xioHandle := some xio } } moment.callbacks
    split_ifs
    · exact hdelivered
    · exact hdelivered
  · exact .refl _

theorem connectAgain_changes (s : System μ κ) (moment : Moment) :
    Changes (connection s.client) (connection (connectAgain s moment).1.client) := by
  rw [connectAgain]
  split_ifs with hclock
  · exact .refl _
  · have hsent := sendMqttConnectMessage_changes (dropLostConnection s moment.initialized) moment
    rw [dropLostConnection_client] at hsent
    simp only
    split_ifs
    · exact hsent.trans (.one _ .connecting)
    · exact hsent

theorem persistOffline_connection {client client' : IotHubMqttClient μ κ}
    {message : MqttMessage μ} (h : persistOffline client message = some client') :
    connection client' = connection client := by
  rw [persistOffline] at h
  split_ifs at h
  · cases hpersist : client.persist with
    | none =>
      rw [hpersist] at h
      exact congrArg connection (Option.some.inj h).symm
    | some store =>
      rw [hpersist] at h
      obtain ⟨stored, -, rfl⟩ := Option.map_eq_some_iff.mp h
      rfl
  · exact congrArg connection (Option.some.inj h).symm

theorem sendMessage_connection (client : IotHubMqttClient μ κ) (message : MqttMessage μ)
    (pubCallback : Option κ) (outcome : PublishOutcome) :
    connection (sendMessage client message pubCallback outcome).client = connection client := by
  unfold sendMessage
  split
  · rfl
  · split
    · split_ifs <;> rfl
    · split_ifs <;> rfl
    · split_ifs <;> rfl

theorem publishMqttMessage_connection (client : IotHubMqttClient μ κ) (qosValue : QosValue)
    (content : μ) (pubCallback : Option κ) (outcome : PublishOutcome) :
    connection (publishMqttMessage client qosValue content pubCallback outcome).client =
      connection client := by
  rw [publishMqttMessage]
  split_ifs
  · rfl
  · cases hpersist : persistOffline client.drawPacketId ⟨client.nextId, qosValue, content⟩ with
    | none => simp only [hpersist]; rfl
    | some persisted =>
      simp only [hpersist, sendMessage_connection]
      exact (persistOffline_connection hpersist).trans rfl

theorem replayMessages_connection (outcome : ℕ → PublishOutcome) (i : ℕ)
    (client : IotHubMqttClient μ κ) (rows : List (PublishData μ)) :
    connection (replayMessages outcome i client rows).1 = connection client := by
  induction rows generalizing i client with
  | nil => rfl
  | cons row rows ih =>
    exact (ih _ _).trans (publishMqttMessage_connection client row.qos row.content none (outcome i))

theorem publishPersisted_connection (outcome : ℕ → PublishOutcome) (client : IotHubMqttClient μ κ) :
    connection (publishPersisted outcome client).1 = connection client := by
  rw [publishPersisted]
  split_ifs
  · cases hpersist : client.persist with
    | none => simp only; rfl
    | some store => exact replayMessages_connection outcome 0 _ store.rows
  · rfl

theorem mqttClientDowork_changes (s : System μ κ) (work : Work) :
    Changes (connection s.client)
      (connection (mqttClientDowork (replayStore s work) work.callbacks).client) := by
  have hreplay : Changes (connection s.client) (connection (replayStore s work).client) := by
    have hpersisted := deliverAll_changes
      { s with client := (publishPersisted work.outcome s.client).1 } work.replayed
    rw [publishPersisted_connection] at hpersisted
    exact hpersisted
  exact hreplay.trans (deliverAll_changes
    { replayStore s work with
      driven := (replayStore s work).driven ++
        [⟨held (replayStore s work), (replayStore s work).destroyed⟩] } work.callbacks)

end Effects

inductive Works (s : State μ κ) (work : Work) (t : State μ κ) : Prop
  | quiet (kept : t.evaluations = s.evaluations)
      (changes : Changes (connection s.system.client) (connection t.system.client))
  | evaluates (permitted : Bool) (retryLogic : Option RetryLogic)
      (evaluates : Evaluates s.system.client)
      (answer : canRetry s.system.client.retryLogic work.moment.retry =
        some (permitted, retryLogic))
      (logged : t.evaluations = s.evaluations ++
        [⟨.notConnected, work.moment.retry, s.system.client.retryLogic, retryLogic, permitted⟩])
      (changes : Changes { connection s.system.client with retryLogic := retryLogic }
        (connection t.system.client))

inductive Effect (s : State μ κ) (a : Action) (t : State μ κ) : Prop
  | quiet (kept : t.evaluations = s.evaluations)
      (changes : Changes (connection s.system.client) (connection t.system.client))
  | evaluates (work : Work) (result : Bool) (retryLogic : Option RetryLogic)
      (is_dowork : a = .dowork work) (evaluates : Evaluates s.system.client)
      (answer : canRetry s.system.client.retryLogic work.moment.retry = some (result, retryLogic))
      (logged : t.evaluations = s.evaluations ++
        [⟨.notConnected, work.moment.retry, s.system.client.retryLogic, retryLogic, result⟩])
      (changes : Changes { connection s.system.client with retryLogic := retryLogic }
        (connection t.system.client))
  | destroys (d : Connection) (kept : t.evaluations = s.evaluations)
      (changes : Changes
        { connection s.system.client with isDestroyCalled := true, isConnectionLost := true } d)
      (dropped : connection t.system.client = Change.dropped.apply d)

variable {tickModulus : ℕ} {s t : State μ κ} {a : Action} {work : Work}

theorem initializeMqttConnection_changes {s u : System μ κ} {moment : Moment} {result : Bool}
    (h : Transport.initializeMqttConnection tickModulus s moment = some (u, result)) :
    evaluated s.client moment.retry = [] ∧ Changes (connection s.client) (connection u.client) ∨
      ∃ permitted retryLogic, Evaluates s.client ∧
        canRetry s.client.retryLogic moment.retry = some (permitted, retryLogic) ∧
        evaluated s.client moment.retry =
          [⟨.notConnected, moment.retry, s.client.retryLogic, retryLogic, permitted⟩] ∧
        Changes { connection s.client with retryLogic := retryLogic } (connection u.client) := by
  have hsilent : ¬ Evaluates s.client → evaluated s.client moment.retry = [] := fun h => if_neg h
  have hevaluates : ∀ {permitted retryLogic}, Evaluates s.client →
      canRetry s.client.retryLogic moment.retry = some (permitted, retryLogic) →
      evaluated s.client moment.retry =
        [⟨.notConnected, moment.retry, s.client.retryLogic, retryLogic, permitted⟩] := by
    intro permitted retryLogic hevaluates hanswer
    rw [evaluated, if_pos hevaluates, hanswer, hevaluates.2.2]
    rfl
  have hother : s.client.mqttClientStatus ≠ .notConnected →
      evaluated s.client moment.retry = [] := fun h => hsilent fun he => h he.2.2
  cases initializeMqttConnection_cases h with
  | destroyed hdestroy =>
    exact .inl ⟨hsilent fun he => Bool.eq_false_iff.mp he.1 hdestroy, .refl _⟩
  | disconnected _ hdisconnect =>
    exact .inl ⟨hsilent fun he => Bool.eq_false_iff.mp he.2.1 hdisconnect, .refl _⟩
  | refused hdestroy hdisconnect hstatus hanswer =>
    have he : Evaluates s.client := ⟨hdestroy, hdisconnect, hstatus⟩
    exact .inr ⟨_, _, he, hanswer, hevaluates he hanswer, .refl _⟩
  | @attempts retryLogic _ _ hdestroy hdisconnect hstatus hanswer hconnect =>
    have he : Evaluates s.client := ⟨hdestroy, hdisconnect, hstatus⟩
    have hchanges := connectAgain_changes
      { s with client := { s.client with retryLogic := retryLogic } } moment
    rw [hconnect] at hchanges
    exact .inr ⟨_, _, he, hanswer, hevaluates he hanswer, hchanges⟩
  | clockless _ hstatus =>
    rw [hstatus] at hother
    exact .inl ⟨hother (fun h => by cases h), .refl _⟩
  | timedOut _ hstatus =>
    rw [hstatus] at hother
    obtain ⟨d, hchanges, hdropped⟩ := disconnectFromClient_changes s moment.callbacks
    exact .inl ⟨hother (fun h => by cases h), hdropped ▸ hchanges.trans (.one d .dropped)⟩
  | waits _ hstatus =>
    rw [hstatus] at hother
    exact .inl ⟨hother (fun h => by cases h), .refl _⟩
  | connected _ hstatus =>
    rw [hstatus] at hother
    exact .inl ⟨hother (fun h => by cases h), .refl _⟩

theorem iothubMqttDowork_changes {s t : System μ κ}
    (h : Transport.iothubMqttDowork tickModulus s work = some t) :
    evaluated s.client work.moment.retry = [] ∧ Changes (connection s.client) (connection t.client) ∨
      ∃ permitted retryLogic, Evaluates s.client ∧
        canRetry s.client.retryLogic work.moment.retry = some (permitted, retryLogic) ∧
        evaluated s.client work.moment.retry =
          [⟨.notConnected, work.moment.retry, s.client.retryLogic, retryLogic, permitted⟩] ∧
        Changes { connection s.client with retryLogic := retryLogic } (connection t.client) := by
  obtain ⟨⟨u, result⟩, hinit, hdone⟩ := Option.map_eq_some_iff.mp h
  have hrest : Changes (connection u.client) (connection t.client) := by
    cases result with
    | false =>
      cases hdone
      exact .refl _
    | true =>
      cases hdone
      exact mqttClientDowork_changes u work
  obtain ⟨hnone, hchanges⟩ | ⟨permitted, retryLogic, hevaluates, hanswer, hone, hchanges⟩ :=
    initializeMqttConnection_changes hinit
  · exact .inl ⟨hnone, hchanges.trans hrest⟩
  · exact .inr ⟨permitted, retryLogic, hevaluates, hanswer, hone, hchanges.trans hrest⟩

theorem iothubMqttDowork_effect (h : iothubMqttDowork tickModulus s work = some t) :
    Works s work t := by
  obtain ⟨u, hdowork, rfl⟩ := Option.map_eq_some_iff.mp h
  obtain ⟨hnone, hchanges⟩ | ⟨permitted, retryLogic, hevaluates, hanswer, hone, hchanges⟩ :=
    iothubMqttDowork_changes hdowork
  · refine .quiet ?_ hchanges
    rw [hnone, List.append_nil]
  · refine .evaluates permitted retryLogic hevaluates hanswer ?_ hchanges
    rw [hone]

theorem step_effect (h : step tickModulus s a t) : Effect s a t := by
  obtain ⟨-, h⟩ := h
  cases a with
  | dowork work =>
    cases iothubMqttDowork_effect h with
    | quiet hlog hchanges => exact .quiet hlog hchanges
    | evaluates permitted retryLogic hevaluates hanswer hlog hchanges =>
      exact .evaluates work permitted retryLogic rfl hevaluates hanswer hlog hchanges
  | callback callback =>
    subst h
    exact .quiet rfl (deliver_changes s.system callback)
  | disconnect =>
    subst h
    exact .quiet rfl (.one _ .disconnect)
  | destroy callbacks =>
    subst h
    obtain ⟨d, hchanges, hdropped⟩ := disconnectFromClient_changes
      { s.system with client :=
        { s.system.client with isDestroyCalled := true, isConnectionLost := true } } callbacks
    exact .destroys d rfl hchanges hdropped

/-- The clock is not negative and does not go back, within a call and from one to the next. -/
structure Clocked (evaluations : List Evaluation) : Prop where
  readings : ∀ e ∈ evaluations, 0 ≤ e.moment.now ∧ e.moment.now ≤ e.moment.startTime
  ordered : evaluations.Pairwise fun e f => e.moment.startTime ≤ f.moment.now

section Clock
variable {evaluations : List Evaluation} {e : Evaluation}

theorem Clocked.before (h : Clocked (evaluations ++ [e])) : Clocked evaluations :=
  ⟨fun f hf => h.readings f (List.mem_append_left _ hf), (List.pairwise_append.mp h.ordered).1⟩

theorem Clocked.last (h : Clocked (evaluations ++ [e])) :
    0 ≤ e.moment.now ∧ e.moment.now ≤ e.moment.startTime :=
  h.readings e (List.mem_append_right _ (List.mem_singleton_self e))

theorem Effect.log_append (h : Effect s a t) :
    t.evaluations = s.evaluations ∨ ∃ e, t.evaluations = s.evaluations ++ [e] := by
  cases h with
  | quiet kept => exact .inl kept
  | evaluates work result retryLogic is_dowork evaluates answer logged => exact .inr ⟨_, logged⟩
  | destroys d kept => exact .inl kept

theorem Clocked.of_effect (h : Clocked t.evaluations) (heffect : Effect s a t) :
    Clocked s.evaluations := by
  rcases heffect.log_append with hkept | ⟨e, hlogged⟩
  · exact hkept ▸ h
  · exact (hlogged ▸ h).before

end Clock

def createdState : State Unit Unit := ⟨createdClient, []⟩

theorem createdState_initial : Initial (some (createRetryLogic 0)) createdState :=
  ⟨createdClient_initial, rfl, rfl⟩

def workAtSecond (second : ℤ) : Work :=
  ⟨⟨⟨second, second, 0⟩, some 0, some 0, true, true, true, []⟩, fun _ => ⟨true, true, true⟩, [], []⟩

def connectingState : State Unit Unit :=
  ⟨connectingClient,
    [⟨.notConnected, ⟨100, 100, 0⟩, some (createRetryLogic 0), connectingClient.client.retryLogic,
      true⟩]⟩

theorem connect_step : step (1 <<< 64) createdState (.dowork (workAtSecond 100)) connectingState :=
  ⟨rfl, rfl⟩

def acceptedState : State Unit Unit :=
  { connectingState with
    system := deliver connectingState.system (.operation (.connack .connectionAccepted)) }

theorem accept_step : step (1 <<< 64) connectingState
    (.callback (.operation (.connack .connectionAccepted))) acceptedState := ⟨rfl, rfl⟩

end IotEdgeAgent.Mqtt.Session
