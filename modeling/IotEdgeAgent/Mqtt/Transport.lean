import IotEdgeAgent.Library.Custody
import IotEdgeAgent.Library.Runs
import IotEdgeAgent.Mqtt.Client

/-!
# The transport under the MQTT client

The client creates the transport and hands it to umqtt, which keeps it until the umqtt client is
initialised anew or disconnected while it is connected. Transports are numbered in the order of
their creation. What umqtt calls back while it connects or disconnects comes with the call, in
order; callbacks do not nest.
-/

namespace IotEdgeAgent.Mqtt.Transport

open Ledger Runs

variable {μ κ : Type*}

structure MqttClient where
  xioHandle : Option ℕ
  clientConnected : Bool
  deriving DecidableEq, Repr

structure Drive where
  xioHandle : Option ℕ
  destroyed : List ℕ
  deriving DecidableEq, Repr

structure System (μ κ : Type*) where
  client : IotHubMqttClient μ κ
  xioTransport : Option ℕ
  mqttClient : Option MqttClient
  created : ℕ
  destroyed : List ℕ
  driven : List Drive

def held (s : System μ κ) : Option ℕ := s.mqttClient.bind (·.xioHandle)

def mqttClientInit : MqttClient := ⟨none, false⟩

def mqttClientDisconnect (mqttClient : MqttClient) : MqttClient :=
  if mqttClient.clientConnected then { mqttClient with xioHandle := none }
  -- A client that is not connected closes its transport and keeps it.
  else mqttClient

inductive Callback
  | operation (event : MqttEvent)
  | error
  | closed

/-- What a callback does to the umqtt client. A CONNACK that refuses the connection and a PUBCOMP
are answered with `mqtt_client_disconnect`; `closed` is `on_connection_closed`. -/
def Callback.effect (mqttClient : MqttClient) : Callback → MqttClient
  | .operation (.connack returnCode) =>
    if returnCode = .connectionAccepted then { mqttClient with clientConnected := true }
    else mqttClientDisconnect mqttClient
  | .operation .publishComp => mqttClientDisconnect mqttClient
  | .operation _ => mqttClient
  | .error => mqttClient
  | .closed => { mqttClient with clientConnected := false }

def Callback.apply (client : IotHubMqttClient μ κ) : Callback → IotHubMqttClient μ κ
  | .operation event => (onMqttOperationComplete client event).1
  | .error => (onMqttErrorComplete client).1
  | .closed => client

def deliver (s : System μ κ) (callback : Callback) : System μ κ :=
  match s.mqttClient with
  | none => s
  | some mqttClient =>
    { s with client := callback.apply s.client, mqttClient := some (callback.effect mqttClient) }

def deliverAll (s : System μ κ) (callbacks : List Callback) : System μ κ :=
  callbacks.foldl deliver s

/-- What `initialize_mqtt_connection` meets: the times of the retry logic, the tick counter before
and after the connect, whether the umqtt client and the transport can be created, whether
`mqtt_client_connect` returns 0, and what umqtt calls back while it connects or disconnects. -/
structure Moment where
  retry : RetryMoment
  currentTime : Option ℕ
  connectTime : Option ℕ
  initialized : Bool
  transportCreated : Bool
  connected : Bool
  callbacks : List Callback

def destroyTransport (s : System μ κ) : System μ κ :=
  -- `xio_destroy` ignores a null handle.
  { s with xioTransport := none, destroyed := s.destroyed ++ s.xioTransport.toList }

def disconnectFromClient (s : System μ κ) (callbacks : List Callback) : System μ κ :=
  let s := deliverAll { s with mqttClient := s.mqttClient.map mqttClientDisconnect } callbacks
  let s := destroyTransport s
  { s with client := { s.client with mqttClientStatus := .notConnected } }

def createTransport (s : System μ κ) (transportCreated : Bool) : System μ κ :=
  if s.xioTransport.isNone ∧ transportCreated then
    { s with xioTransport := some s.created, created := s.created + 1 }
  else s

def mqttClientConnect (s : System μ κ) (mqttClient : MqttClient) (xio : ℕ) (moment : Moment) :
    System μ κ × Bool :=
  -- The transport is taken before anything can fail.
  (deliverAll { s with mqttClient := some { mqttClient with xioHandle := some xio } }
    moment.callbacks, moment.connected)

def sendMqttConnectMessage (s : System μ κ) (moment : Moment) : System μ κ × Bool :=
  let s := createTransport s moment.transportCreated
  match s.xioTransport, s.mqttClient with
  | some xio, some mqttClient =>
    let (s, connected) := mqttClientConnect s mqttClient xio moment
    if connected then
      ({ s with client := { s.client with
          mqttConnectTime := moment.connectTime.getD s.client.mqttConnectTime } }, true)
    else (s, false)
  | _, _ => (s, false)

def dropLostConnection (s : System μ κ) (initialized : Bool) : System μ κ :=
  if s.client.isConnectionLost ∧ s.client.isRecoverableError then
    { destroyTransport s with mqttClient := if initialized then some mqttClientInit else none }
  else s

def connackTimedOut (tickModulus : ℕ) (client : IotHubMqttClient μ κ) (currentTime : ℕ) : Prop :=
  client.keepAliveInterval.toNat <
    (((currentTime : ℤ) - client.mqttConnectTime) % tickModulus).toNat / 1000

instance (tickModulus : ℕ) (client : IotHubMqttClient μ κ) (currentTime : ℕ) :
    Decidable (connackTimedOut tickModulus client currentTime) :=
  inferInstanceAs (Decidable (_ < _))

def connectAgain (s : System μ κ) (moment : Moment) : System μ κ × Bool :=
  if moment.currentTime.isNone then (s, false)
  else
    let (s, sent) := sendMqttConnectMessage (dropLostConnection s moment.initialized) moment
    if sent then ({ s with client := { s.client with mqttClientStatus := .connecting } }, true)
    else (s, false)

def initializeMqttConnection (tickModulus : ℕ) (s : System μ κ) (moment : Moment) :
    Option (System μ κ × Bool) :=
  if s.client.isDestroyCalled then some (s, true)
  else
    match s.client.mqttClientStatus with
    | .notConnected =>
      if s.client.isDisconnectCalled then some (s, true)
      else
        (canRetry s.client.retryLogic moment.retry).map fun (permitted, retryLogic) =>
          let s := { s with client := { s.client with retryLogic := retryLogic } }
          if permitted then connectAgain s moment else (s, true)
    | .connecting =>
      match moment.currentTime with
      | none => some (s, false)
      | some currentTime =>
        if connackTimedOut tickModulus s.client currentTime then
          some (disconnectFromClient s moment.callbacks, false)
        else some (s, true)
    | .connected => some (s, moment.currentTime.isSome)

def mqttClientDowork (s : System μ κ) (callbacks : List Callback) : System μ κ :=
  deliverAll { s with driven := s.driven ++ [⟨held s, s.destroyed⟩] } callbacks

/-- One call of `iothub_mqtt_dowork`. `replayed` and `callbacks` are what umqtt calls back during
the replay of the store and during `mqtt_client_dowork`. -/
structure Work where
  moment : Moment
  outcome : ℕ → PublishOutcome
  replayed : List Callback
  callbacks : List Callback

def replayStore (s : System μ κ) (work : Work) : System μ κ :=
  deliverAll { s with client := (publishPersisted work.outcome s.client).1 } work.replayed

def iothubMqttDowork (tickModulus : ℕ) (s : System μ κ) (work : Work) : Option (System μ κ) :=
  (initializeMqttConnection tickModulus s work.moment).map fun (s, result) =>
    if result then mqttClientDowork (replayStore s work) work.callbacks else s

def iothubMqttDisconnect (s : System μ κ) : System μ κ :=
  { s with
    client := Mqtt.iothubMqttDisconnect s.client
    mqttClient := s.mqttClient.map mqttClientDisconnect }

structure Round where
  work : Work
  currentTime : ℕ

def elapsed (tickModulus lastSendTime currentTime : ℕ) : ℕ :=
  (((currentTime : ℤ) - lastSendTime) % tickModulus).toNat / 1000

def keepsConnecting (tickModulus lastSendTime timeout : ℕ) (client : IotHubMqttClient μ κ)
    (currentTime : ℕ) : Bool :=
  client.mqttClientStatus ≠ .connected && client.isRecoverableError &&
    elapsed tickModulus lastSendTime currentTime ≤ timeout

def iothubMqttDoconnect (tickModulus lastSendTime timeout : ℕ) :
    System μ κ → List Round → Option (System μ κ × Bool)
  | _, [] => none
  | s, round :: rounds =>
    match iothubMqttDowork tickModulus s round.work with
    | none => none
    | some s =>
      if keepsConnecting tickModulus lastSendTime timeout s.client round.currentTime then
        iothubMqttDoconnect tickModulus lastSendTime timeout s rounds
      else some (s, elapsed tickModulus lastSendTime round.currentTime ≤ timeout &&
        s.client.mqttClientStatus = .connected)

inductive Action
  | dowork (work : Work)
  | doconnect (lastSendTime timeout : ℕ) (rounds : List Round)
  | disconnect
  | callback (callback : Callback)

def step (tickModulus : ℕ) (s : System μ κ) (a : Action) (t : System μ κ) : Prop :=
  match a with
  | .dowork work => iothubMqttDowork tickModulus s work = some t
  | .doconnect lastSendTime timeout rounds =>
    ∃ result, iothubMqttDoconnect tickModulus lastSendTime timeout s rounds = some (t, result)
  | .disconnect => t = iothubMqttDisconnect s
  | .callback callback => t = deliver s callback

structure Initial (s : System μ κ) : Prop where
  client : ∃ keepAliveInterval retryLogic persist,
    s.client = initializeMqttClientHandle keepAliveInterval retryLogic persist
  xioTransport : s.xioTransport = none
  mqttClient : s.mqttClient = some mqttClientInit
  created : s.created = 0
  destroyed : s.destroyed = []
  driven : s.driven = []

/-- `mqtt_client_dowork` was never called on a transport that had been destroyed. -/
def Live (s : System μ κ) : Prop :=
  ∀ drive ∈ s.driven, ∀ xio, drive.xioHandle = some xio → xio ∉ drive.destroyed

def Idle (tickModulus : ℕ) (client : IotHubMqttClient μ κ) (moment : Moment) : Prop :=
  client.isDestroyCalled ∨
    match client.mqttClientStatus with
    | .notConnected => client.isDisconnectCalled ∨
        ∃ retryLogic, canRetry client.retryLogic moment.retry = some (false, retryLogic)
    | .connecting => ∃ currentTime, moment.currentTime = some currentTime ∧
        ¬ connackTimedOut tickModulus client currentTime
    | .connected => moment.currentTime.isSome

/-- After a CONNACK timeout, when the client has no transport but umqtt still has one, the client
tries to connect or fails. -/
def WorkRenews (tickModulus : ℕ) (s : System μ κ) (work : Work) : Prop :=
  s.xioTransport = none → held s ≠ none → ¬ Idle tickModulus s.client work.moment

def RoundsRenew (tickModulus lastSendTime timeout : ℕ) : System μ κ → List Round → Prop
  | _, [] => True
  | s, round :: rounds => WorkRenews tickModulus s round.work ∧
    ∀ t, iothubMqttDowork tickModulus s round.work = some t →
      keepsConnecting tickModulus lastSendTime timeout t.client round.currentTime →
      RoundsRenew tickModulus lastSendTime timeout t rounds

def Renews (tickModulus : ℕ) (s : System μ κ) : Action → Prop
  | .dowork work => WorkRenews tickModulus s work
  | .doconnect lastSendTime timeout rounds => RoundsRenew tickModulus lastSendTime timeout s rounds
  | _ => True

section Client
variable {s : System μ κ} {moment : Moment}

theorem sendMqttConnectMessage_client (s : System μ κ) (hquiet : moment.callbacks = []) :
    (sendMqttConnectMessage s moment).1.client =
      if (sendMqttConnectMessage s moment).2 then
        { s.client with mqttConnectTime := moment.connectTime.getD s.client.mqttConnectTime }
      else s.client := by
  have hcreate : (createTransport s moment.transportCreated).client = s.client := by
    unfold createTransport
    split_ifs <;> rfl
  rw [sendMqttConnectMessage]
  generalize createTransport s moment.transportCreated = u at hcreate ⊢
  simp only [mqttClientConnect, hquiet, deliverAll, List.foldl_nil, ← hcreate]
  split
  · cases moment.connected <;> rfl
  · rfl

theorem dropLostConnection_client (s : System μ κ) (initialized : Bool) :
    (dropLostConnection s initialized).client = s.client := by
  rw [dropLostConnection]
  by_cases hlost : s.client.isConnectionLost ∧ s.client.isRecoverableError
  · rw [if_pos hlost]
    rfl
  · rw [if_neg hlost]

theorem connectAgain_client (s : System μ κ) (hquiet : moment.callbacks = []) :
    ∃ connectSent, ((connectAgain s moment).1.client, (connectAgain s moment).2) =
      if moment.currentTime.isNone || !connectSent then (s.client, false)
      else
        ({ s.client with
            mqttClientStatus := .connecting
            mqttConnectTime := moment.connectTime.getD s.client.mqttConnectTime }, true) := by
  have hdrop := dropLostConnection_client s moment.initialized
  have hsend := sendMqttConnectMessage_client (dropLostConnection s moment.initialized) hquiet
  rw [hdrop] at hsend
  refine ⟨(sendMqttConnectMessage (dropLostConnection s moment.initialized) moment).2, ?_⟩
  simp only [connectAgain]
  cases moment.currentTime.isNone with
  | true => rfl
  | false =>
    cases hsent : (sendMqttConnectMessage (dropLostConnection s moment.initialized) moment).2 with
    | true => simp [hsend, hsent]
    | false => simp [hsend, hsent]

/-- While umqtt calls nothing back, the client goes through the states of the model that leaves
the transport out. -/
theorem initializeMqttConnection_client (tickModulus : ℕ) (s : System μ κ)
    (hquiet : moment.callbacks = []) :
    ∃ connectSent,
      (initializeMqttConnection tickModulus s moment).map (fun (s, result) => (s.client, result)) =
        Mqtt.initializeMqttConnection tickModulus s.client
          ⟨moment.retry, moment.currentTime, connectSent, moment.connectTime⟩ := by
  rw [initializeMqttConnection]
  by_cases hdestroy : s.client.isDestroyCalled = true
  · refine ⟨false, ?_⟩
    rw [Mqtt.initializeMqttConnection, if_pos hdestroy, if_pos hdestroy]
    rfl
  rw [if_neg hdestroy]
  simp only [Mqtt.initializeMqttConnection, if_neg hdestroy]
  cases hstatus : s.client.mqttClientStatus with
  | notConnected =>
    by_cases hdisconnect : s.client.isDisconnectCalled = true
    · refine ⟨false, ?_⟩
      simp only [if_pos hdisconnect]
      rfl
    simp only [if_neg hdisconnect]
    cases hretry : canRetry s.client.retryLogic moment.retry with
    | none => exact ⟨false, rfl⟩
    | some answer =>
      obtain ⟨permitted, retryLogic⟩ := answer
      cases permitted with
      | false => exact ⟨false, rfl⟩
      | true =>
        obtain ⟨connectSent, hagain⟩ := connectAgain_client
          { s with client := { s.client with retryLogic := retryLogic } } hquiet
        simp only [hstatus] at hagain
        exact ⟨connectSent, congrArg some hagain⟩
  | connecting =>
    refine ⟨false, ?_⟩
    cases moment.currentTime with
    | none => rfl
    | some currentTime =>
      simp only [connackTimedOut, disconnectFromClient, hquiet]
      split_ifs <;> rfl
  | connected => exact ⟨false, rfl⟩

theorem iothubMqttDowork_client (tickModulus : ℕ) (s : System μ κ) {work : Work}
    (hquiet : work.moment.callbacks = []) (hreplayed : work.replayed = [])
    (hcallbacks : work.callbacks = []) :
    ∃ connectSent, (iothubMqttDowork tickModulus s work).map (·.client) =
      (Mqtt.iothubMqttDowork tickModulus s.client
        ⟨work.moment.retry, work.moment.currentTime, connectSent, work.moment.connectTime⟩
        work.outcome).map Prod.fst := by
  obtain ⟨connectSent, hinit⟩ := initializeMqttConnection_client tickModulus s hquiet
  refine ⟨connectSent, ?_⟩
  rw [iothubMqttDowork, Mqtt.iothubMqttDowork, ← hinit]
  cases initializeMqttConnection tickModulus s work.moment with
  | none => rfl
  | some answer =>
    obtain ⟨t, result⟩ := answer
    cases result with
    | false => rfl
    | true => simp [replayStore, mqttClientDowork, deliverAll, hreplayed, hcallbacks]

end Client

/-- One constructor for each way through `initialize_mqtt_connection`. -/
inductive Initializes (tickModulus : ℕ) (s : System μ κ) (moment : Moment) :
    System μ κ → Bool → Prop
  | destroyed (destroy : s.client.isDestroyCalled = true) : Initializes tickModulus s moment s true
  | disconnected (destroy : s.client.isDestroyCalled = false)
      (disconnect : s.client.isDisconnectCalled = true)
      (status : s.client.mqttClientStatus = .notConnected) :
      Initializes tickModulus s moment s true
  | refused {retryLogic : Option RetryLogic} (destroy : s.client.isDestroyCalled = false)
      (disconnect : s.client.isDisconnectCalled = false)
      (status : s.client.mqttClientStatus = .notConnected)
      (answer : canRetry s.client.retryLogic moment.retry = some (false, retryLogic)) :
      Initializes tickModulus s moment
        { s with client := { s.client with retryLogic := retryLogic } } true
  | attempts {retryLogic : Option RetryLogic} {t : System μ κ} {result : Bool}
      (destroy : s.client.isDestroyCalled = false)
      (disconnect : s.client.isDisconnectCalled = false)
      (status : s.client.mqttClientStatus = .notConnected)
      (answer : canRetry s.client.retryLogic moment.retry = some (true, retryLogic))
      (connect : connectAgain { s with client := { s.client with retryLogic := retryLogic } } moment =
        (t, result)) : Initializes tickModulus s moment t result
  | clockless (destroy : s.client.isDestroyCalled = false)
      (status : s.client.mqttClientStatus = .connecting) (clock : moment.currentTime = none) :
      Initializes tickModulus s moment s false
  | timedOut {currentTime : ℕ} (destroy : s.client.isDestroyCalled = false)
      (status : s.client.mqttClientStatus = .connecting)
      (clock : moment.currentTime = some currentTime)
      (late : connackTimedOut tickModulus s.client currentTime) :
      Initializes tickModulus s moment (disconnectFromClient s moment.callbacks) false
  | waits {currentTime : ℕ} (destroy : s.client.isDestroyCalled = false)
      (status : s.client.mqttClientStatus = .connecting)
      (clock : moment.currentTime = some currentTime)
      (early : ¬ connackTimedOut tickModulus s.client currentTime) :
      Initializes tickModulus s moment s true
  | connected (destroy : s.client.isDestroyCalled = false)
      (status : s.client.mqttClientStatus = .connected) :
      Initializes tickModulus s moment s moment.currentTime.isSome

theorem initializeMqttConnection_cases {tickModulus : ℕ} {s t : System μ κ} {moment : Moment}
    {result : Bool} (h : initializeMqttConnection tickModulus s moment = some (t, result)) :
    Initializes tickModulus s moment t result := by
  rw [initializeMqttConnection] at h
  by_cases hdestroy : s.client.isDestroyCalled = true
  · rw [if_pos hdestroy] at h
    cases h
    exact .destroyed hdestroy
  rw [if_neg hdestroy] at h
  have hdestroy := Bool.eq_false_iff.mpr hdestroy
  cases hstatus : s.client.mqttClientStatus with
  | notConnected =>
    rw [hstatus] at h
    by_cases hdisconnect : s.client.isDisconnectCalled = true
    · rw [if_pos hdisconnect] at h
      cases h
      exact .disconnected hdestroy hdisconnect hstatus
    rw [if_neg hdisconnect] at h
    have hdisconnect := Bool.eq_false_iff.mpr hdisconnect
    obtain ⟨⟨permitted, retryLogic⟩, hanswer, hconnect⟩ := Option.map_eq_some_iff.mp h
    cases permitted with
    | false =>
      cases hconnect
      exact .refused hdestroy hdisconnect hstatus hanswer
    | true =>
      exact .attempts hdestroy hdisconnect hstatus hanswer hconnect
  | connecting =>
    rw [hstatus] at h
    cases hclock : moment.currentTime with
    | none =>
      simp only [hclock] at h
      cases h
      exact .clockless hdestroy hstatus hclock
    | some currentTime =>
      simp only [hclock] at h
      by_cases hlate : connackTimedOut tickModulus s.client currentTime
      · rw [if_pos hlate] at h
        cases h
        exact .timedOut hdestroy hstatus hclock hlate
      · rw [if_neg hlate] at h
        cases h
        exact .waits hdestroy hstatus hclock hlate
  | connected =>
    rw [hstatus] at h
    cases h
    exact .connected hdestroy hstatus

section Frames
variable {s : System μ κ}

structure SameTransport (s t : System μ κ) : Prop where
  xioTransport : t.xioTransport = s.xioTransport
  created : t.created = s.created
  destroyed : t.destroyed = s.destroyed
  driven : t.driven = s.driven
  held : ∀ xio, held t = some xio → held s = some xio

theorem SameTransport.refl (s : System μ κ) : SameTransport s s := ⟨rfl, rfl, rfl, rfl, fun _ => id⟩

theorem SameTransport.trans {t u : System μ κ} (h : SameTransport s t) (h' : SameTransport t u) :
    SameTransport s u where
  xioTransport := h'.xioTransport.trans h.xioTransport
  created := h'.created.trans h.created
  destroyed := h'.destroyed.trans h.destroyed
  driven := h'.driven.trans h.driven
  held xio hxio := h.held xio (h'.held xio hxio)

theorem mqttClientDisconnect_xioHandle {mqttClient : MqttClient} {xio : ℕ}
    (h : (mqttClientDisconnect mqttClient).xioHandle = some xio) :
    mqttClient.xioHandle = some xio := by
  unfold mqttClientDisconnect at h
  split_ifs at h
  exact h

theorem Callback.effect_xioHandle {mqttClient : MqttClient} {callback : Callback} {xio : ℕ}
    (h : (callback.effect mqttClient).xioHandle = some xio) : mqttClient.xioHandle = some xio := by
  cases callback with
  | error => exact h
  | closed => exact h
  | operation event =>
    cases event with
    | connack returnCode =>
      rw [Callback.effect] at h
      split_ifs at h
      · exact h
      · exact mqttClientDisconnect_xioHandle h
    | publishComp => exact mqttClientDisconnect_xioHandle h
    | _ => exact h

theorem deliver_sameTransport (s : System μ κ) (callback : Callback) :
    SameTransport s (deliver s callback) := by
  unfold deliver
  split
  · exact .refl s
  · rename_i mqttClient hclient
    refine ⟨rfl, rfl, rfl, rfl, fun xio hxio => ?_⟩
    rw [held, hclient]
    exact Callback.effect_xioHandle hxio

theorem deliverAll_sameTransport (s : System μ κ) (callbacks : List Callback) :
    SameTransport s (deliverAll s callbacks) := by
  induction callbacks generalizing s with
  | nil => exact .refl s
  | cons callback callbacks ih => exact (deliver_sameTransport s callback).trans (ih _)

theorem disconnect_sameTransport (s : System μ κ) :
    SameTransport s { s with mqttClient := s.mqttClient.map mqttClientDisconnect } := by
  refine ⟨rfl, rfl, rfl, rfl, fun xio hxio => ?_⟩
  obtain ⟨mqttClient, hclient, hhandle⟩ := Option.bind_eq_some_iff.mp hxio
  obtain ⟨before, hbefore, rfl⟩ := Option.map_eq_some_iff.mp hclient
  rw [held, hbefore]
  exact mqttClientDisconnect_xioHandle hhandle

theorem client_sameTransport (s : System μ κ) (client : IotHubMqttClient μ κ) :
    SameTransport s { s with client := client } := ⟨rfl, rfl, rfl, rfl, fun _ => id⟩

end Frames

def Attached (s : System μ κ) : Prop := ∀ xio, held s = some xio → s.xioTransport = some xio

/-- The transport of the client is the only one that is not destroyed, and umqtt has none or that
one, unless the client has dropped it. -/
structure Inv (s : System μ κ) : Prop where
  ledger : Balanced s.created s.xioTransport.toList s.destroyed
  attached : s.xioTransport ≠ none → Attached s
  live : Live s

section Invariant
variable {s t : System μ κ}

theorem inv_of_initial (h : Initial s) : Inv s where
  ledger := by
    rw [h.created, h.xioTransport, h.destroyed]
    exact balanced_zero
  attached hsome := absurd h.xioTransport hsome
  live := by
    intro drive hdrive
    rw [h.driven] at hdrive
    cases hdrive

theorem Attached.same (h : Attached s) (hsame : SameTransport s t) : Attached t := by
  intro xio hxio
  rw [hsame.xioTransport]
  exact h xio (hsame.held xio hxio)

theorem Inv.same (h : Inv s) (hsame : SameTransport s t) : Inv t where
  ledger := by
    rw [hsame.created, hsame.xioTransport, hsame.destroyed]
    exact h.ledger
  attached hsome := (h.attached (hsame.xioTransport ▸ hsome)).same hsame
  live := by
    rw [Live, hsame.driven]
    exact h.live

theorem Inv.destroyTransport (h : Inv s) : Inv (destroyTransport s) where
  ledger := h.ledger.release_all
  attached hsome := absurd rfl hsome
  live := h.live

theorem Inv.disconnectFromClient (h : Inv s) (callbacks : List Callback) :
    Inv (disconnectFromClient s callbacks) := by
  have hdelivered := (disconnect_sameTransport s).trans (deliverAll_sameTransport _ callbacks)
  exact (h.same hdelivered).destroyTransport.same (client_sameTransport _ _)

theorem Inv.dropLostConnection (h : Inv s) (initialized : Bool) :
    Inv (dropLostConnection s initialized) := by
  rw [Transport.dropLostConnection]
  by_cases hlost : s.client.isConnectionLost ∧ s.client.isRecoverableError
  · rw [if_pos hlost]
    exact ⟨h.ledger.release_all, fun hsome => absurd rfl hsome, h.live⟩
  · rw [if_neg hlost]
    exact h

theorem ledger_createTransport (h : Inv s) (transportCreated : Bool) :
    Balanced (createTransport s transportCreated).created
      (createTransport s transportCreated).xioTransport.toList
      (createTransport s transportCreated).destroyed := by
  unfold createTransport
  split_ifs with hcreate
  · have hempty : Balanced s.created ([] ++ []) s.destroyed := by
      have hledger := h.ledger
      rw [Option.isNone_iff_eq_none.mp hcreate.1] at hledger
      exact hledger
    exact hempty.issue
  · exact h.ledger

theorem attached_mqttClientConnect {xio : ℕ} (htransport : s.xioTransport = some xio)
    (mqttClient : MqttClient) (moment : Moment) :
    Attached (mqttClientConnect s mqttClient xio moment).1 := by
  refine Attached.same ?_ (deliverAll_sameTransport _ moment.callbacks)
  rintro other ⟨⟩
  exact htransport

theorem Inv.sendMqttConnectMessage (h : Inv s) (moment : Moment) :
    Inv (sendMqttConnectMessage s moment).1 ∧
      ((sendMqttConnectMessage s moment).2 = true →
        Attached (sendMqttConnectMessage s moment).1) := by
  have hledger := ledger_createTransport h moment.transportCreated
  have hlive : Live (createTransport s moment.transportCreated) := by
    unfold createTransport
    split_ifs
    · exact h.live
    · exact h.live
  rw [Transport.sendMqttConnectMessage]
  generalize createTransport s moment.transportCreated = u at hledger hlive ⊢
  simp only
  split
  · rename_i xio mqttClient htransport hclient
    have hattached := attached_mqttClientConnect htransport mqttClient moment
    have hsame := deliverAll_sameTransport
      { u with mqttClient := some { mqttClient with xioHandle := some xio } } moment.callbacks
    have hinv : Inv (mqttClientConnect u mqttClient xio moment).1 := by
      refine ⟨?_, fun _ => hattached, ?_⟩
      · rw [mqttClientConnect, hsame.created, hsame.xioTransport, hsame.destroyed]
        exact hledger
      · rw [Live, mqttClientConnect, hsame.driven]
        exact hlive
    split_ifs
    · exact ⟨hinv.same (client_sameTransport _ _),
        fun _ => hattached.same (client_sameTransport _ _)⟩
    · exact ⟨hinv, nofun⟩
  · rename_i hmissing
    refine ⟨⟨hledger, fun hsome => ?_, hlive⟩, nofun⟩
    intro xio hheld
    obtain ⟨mqttClient, hclient, -⟩ := Option.bind_eq_some_iff.mp hheld
    obtain ⟨transport, htransport⟩ := Option.ne_none_iff_exists'.mp hsome
    exact absurd hclient (hmissing transport mqttClient htransport)

theorem Inv.connectAgain (h : Inv s) (moment : Moment) :
    Inv (connectAgain s moment).1 ∧
      ((connectAgain s moment).2 = true → Attached (connectAgain s moment).1) := by
  obtain ⟨hinv, hattached⟩ :=
    (h.dropLostConnection moment.initialized).sendMqttConnectMessage moment
  simp only [Transport.connectAgain]
  split_ifs with hnotime hsent
  · exact ⟨h, nofun⟩
  · exact ⟨hinv.same (client_sameTransport _ _),
      fun _ => (hattached hsent).same (client_sameTransport _ _)⟩
  · exact ⟨hinv, nofun⟩

theorem Inv.initializeMqttConnection {tickModulus : ℕ} {moment : Moment} {result : Bool}
    (h : Inv s) (hinit : initializeMqttConnection tickModulus s moment = some (t, result)) :
    Inv t ∧ (result = true →
      Attached t ∨ (Idle tickModulus s.client moment ∧ SameTransport s t)) := by
  have hleft : ∀ client, Idle tickModulus s.client moment →
      Inv { s with client := client } ∧ (true = true → Attached { s with client := client } ∨
        (Idle tickModulus s.client moment ∧ SameTransport s { s with client := client })) :=
    fun client hidle => ⟨h.same (client_sameTransport s client),
      fun _ => .inr ⟨hidle, client_sameTransport s client⟩⟩
  cases initializeMqttConnection_cases hinit with
  | destroyed hdestroy => exact hleft s.client (.inl hdestroy)
  | disconnected _ hdisconnect hstatus =>
    exact hleft s.client (.inr (by simp [hstatus, hdisconnect]))
  | refused _ _ hstatus hanswer => exact hleft _ (.inr (by simp [hstatus, hanswer]))
  | attempts _ _ _ _ hconnect =>
    obtain ⟨hinv, hattached⟩ :=
      (h.same (client_sameTransport s { s.client with retryLogic := _ })).connectAgain moment
    rw [hconnect] at hinv hattached
    exact ⟨hinv, fun hresult => .inl (hattached hresult)⟩
  | clockless => exact ⟨h, nofun⟩
  | timedOut => exact ⟨h.disconnectFromClient moment.callbacks, nofun⟩
  | waits _ hstatus hclock hearly =>
    exact hleft s.client (.inr (by simp [hstatus, hclock, hearly]))
  | connected _ hstatus =>
    exact ⟨h, fun hclock => .inr ⟨.inr (by simpa [hstatus] using hclock), .refl s⟩⟩

theorem Inv.mqttClientDowork (h : Inv s) (hattached : Attached s) (callbacks : List Callback) :
    Inv (mqttClientDowork s callbacks) := by
  refine Inv.same ?_ (deliverAll_sameTransport _ callbacks)
  refine ⟨h.ledger, h.attached, ?_⟩
  intro drive hdrive xio hxio
  rcases List.mem_append.mp hdrive with hearlier | hlatest
  · exact h.live drive hearlier xio hxio
  · obtain rfl := List.mem_singleton.mp hlatest
    have htransport := hattached xio hxio
    apply h.ledger.not_released
    rw [htransport]
    exact List.mem_singleton_self xio

theorem Inv.iothubMqttDowork {tickModulus : ℕ} {work : Work} (h : Inv s)
    (hrenews : WorkRenews tickModulus s work)
    (hdowork : iothubMqttDowork tickModulus s work = some t) : Inv t := by
  obtain ⟨⟨u, result⟩, hinit, rfl⟩ := Option.map_eq_some_iff.mp hdowork
  obtain ⟨hinv, hresult⟩ := h.initializeMqttConnection hinit
  cases result with
  | false => exact hinv
  | true =>
    have hattached : Attached u := by
      rcases hresult rfl with hattached | ⟨hidle, hsame⟩
      · exact hattached
      · intro xio hxio
        by_cases hnone : s.xioTransport = none
        · have hheld : held s ≠ none := by
            rw [hsame.held xio hxio]
            exact Option.some_ne_none xio
          exact absurd hidle (hrenews hnone hheld)
        · exact ((h.attached hnone).same hsame) xio hxio
    have hreplayed : SameTransport u (replayStore u work) :=
      (client_sameTransport u _).trans (deliverAll_sameTransport _ work.replayed)
    exact (hinv.same hreplayed).mqttClientDowork (hattached.same hreplayed) work.callbacks

theorem Inv.iothubMqttDoconnect {tickModulus lastSendTime timeout : ℕ} {rounds : List Round}
    {result : Bool} (h : Inv s) (hrenew : RoundsRenew tickModulus lastSendTime timeout s rounds)
    (hdoconnect : iothubMqttDoconnect tickModulus lastSendTime timeout s rounds =
      some (t, result)) : Inv t := by
  induction rounds generalizing s with
  | nil => cases hdoconnect
  | cons round rounds ih =>
    obtain ⟨hfirst, hrest⟩ := hrenew
    rw [Transport.iothubMqttDoconnect] at hdoconnect
    cases hdowork : Transport.iothubMqttDowork tickModulus s round.work with
    | none =>
      rw [hdowork] at hdoconnect
      cases hdoconnect
    | some u =>
      have hinv := h.iothubMqttDowork hfirst hdowork
      simp only [hdowork] at hdoconnect
      split_ifs at hdoconnect with hkeeps
      · exact ih hinv (hrest u hdowork hkeeps) hdoconnect
      · cases hdoconnect
        exact hinv

theorem Inv.step {tickModulus : ℕ} {a : Action} (h : Inv s)
    (hstep : Guarded (Renews tickModulus) (step tickModulus) s a t) : Inv t := by
  obtain ⟨hrenews, hstep⟩ := hstep
  cases a with
  | dowork work => exact h.iothubMqttDowork hrenews hstep
  | doconnect lastSendTime timeout rounds =>
    obtain ⟨result, hdoconnect⟩ := hstep
    exact h.iothubMqttDoconnect hrenews hdoconnect
  | disconnect =>
    obtain rfl := hstep
    exact (h.same (disconnect_sameTransport s)).same (client_sameTransport _ _)
  | callback callback =>
    obtain rfl := hstep
    exact h.same (deliver_sameTransport s callback)

end Invariant

/-- In every run in which the client connects again after a CONNACK timeout before it does
anything else, umqtt never drives a transport that was destroyed. -/
theorem live_of_renews {tickModulus : ℕ} {s t : System μ κ} {as : List Action}
    (hinit : Initial s) (hrun : Run (Guarded (Renews tickModulus) (step tickModulus)) s as t) :
    Live t := by
  have hinv : Inv t := hrun.invariant (inv_of_initial hinit) fun _ _ _ => Inv.step
  exact hinv.live

def createdClient : System Unit Unit where
  client := initializeMqttClientHandle 3 (some (createRetryLogic 0)) none
  xioTransport := none
  mqttClient := some mqttClientInit
  created := 0
  destroyed := []
  driven := []

theorem createdClient_initial : Initial createdClient :=
  ⟨⟨3, some (createRetryLogic 0), none, rfl⟩, rfl, rfl, rfl, rfl, rfl⟩

def workAt (second : ℤ) (tick : ℕ) : Action :=
  .dowork ⟨⟨⟨second, second, 0⟩, some tick, some tick, true, true, true, []⟩,
    fun _ => ⟨true, true, true⟩, [], []⟩

def connectingClient : System Unit Unit where
  client :=
    { createdClient.client with
      mqttClientStatus := .connecting
      retryLogic := some { createRetryLogic 0 with
        start := 100, lastConnect := 100, retryStarted := true, firstAttempt := false
        retrycount := 1 } }
  xioTransport := some 0
  mqttClient := some ⟨some 0, false⟩
  created := 1
  destroyed := []
  driven := [⟨some 0, []⟩]

def timedOutClient : System Unit Unit :=
  { connectingClient with
    client := { connectingClient.client with mqttClientStatus := .notConnected }
    xioTransport := none
    destroyed := [0] }

theorem connect_step : step (1 <<< 64) createdClient (workAt 100 0) connectingClient := rfl

theorem timeout_step : step (1 <<< 64) connectingClient (workAt 104 4000) timedOutClient := rfl

theorem live_of_renews_retried :
    Initial createdClient ∧
    ∃ t, Run (Guarded (Renews (1 <<< 64)) (step (1 <<< 64))) createdClient
        [workAt 100 0, workAt 104 4000, workAt 106 6000] t ∧
      t.destroyed = [0] ∧ held t = some 1 ∧ Live t := by
  have hconnect : Guarded (Renews (1 <<< 64)) (step (1 <<< 64)) createdClient (workAt 100 0)
      connectingClient := ⟨fun _ hheld => absurd rfl hheld, connect_step⟩
  have htimeout : Guarded (Renews (1 <<< 64)) (step (1 <<< 64)) connectingClient
      (workAt 104 4000) timedOutClient := ⟨nofun, timeout_step⟩
  have hrenews : Renews (1 <<< 64) timedOutClient (workAt 106 6000) := by
    rintro - - (hdestroy | hdisconnect | ⟨retryLogic, hretry⟩)
    · cases hdestroy
    · cases hdisconnect
    · cases hretry
  have hrun := ((Run.start.next hconnect).next htimeout).next ⟨hrenews, rfl⟩
  exact ⟨createdClient_initial, _, hrun, rfl, rfl, live_of_renews createdClient_initial hrun⟩

/-- Four seconds after the connect the transport is destroyed, and as the client may not retry
yet, the next call drives it. -/
theorem destroyed_transport_driven :
    Initial createdClient ∧
    ∃ t, Run (step (1 <<< 64)) createdClient
        [workAt 100 0, workAt 104 4000, workAt 104 4010] t ∧
      t.driven = [⟨some 0, []⟩, ⟨some 0, [0]⟩] ∧ ¬ Live t := by
  have htimedOut := (Run.start.next connect_step).next timeout_step
  refine ⟨createdClient_initial, _, htimedOut.next rfl, rfl, fun hlive => ?_⟩
  exact hlive ⟨some 0, [0]⟩ (List.mem_cons_of_mem _ List.mem_cons_self) 0 rfl List.mem_cons_self

end IotEdgeAgent.Mqtt.Transport
