import IotEdgeAgent.Library.Keys
import IotEdgeAgent.Mqtt.RetryLogic

/-!
# The MQTT client

The session state of the client, its two queues of operations that wait for an
acknowledgement, and the store that outlives a connection. The topic and the payload of a
message are handed on unread, so they are a parameter `μ`; a callback together with its
context is a parameter `κ`. The umqtt client and the allocator answer through the outcomes
that each call is given, and what umqtt calls back is an event of its own.
-/

namespace IotEdgeAgent.Mqtt

inductive QosValue
  | deliverAtMostOnce
  | deliverAtLeastOnce
  | deliverExactlyOnce
  | deliverFailure
  deriving DecidableEq, Repr

inductive MqttClientStatus
  | notConnected
  | connecting
  | connected
  deriving DecidableEq, Repr

inductive MqttPubStatus
  | success
  | failed
  deriving DecidableEq, Repr

inductive ConnectReturnCode
  | connectionAccepted
  | connRefusedUnacceptableVersion
  | connRefusedIdRejected
  | connRefusedServerUnavail
  | connRefusedBadUsernamePassword
  | connRefusedNotAuthorized
  | connRefusedUnknown
  deriving DecidableEq, Repr

structure MqttMessage (μ : Type*) where
  packetId : UInt16
  qos : QosValue
  content : μ

structure PublishData (μ : Type*) where
  messageId : UInt16
  qos : QosValue
  content : μ

abbrev PersistStore (μ : Type*) := Table fun row : PublishData μ => row.messageId

structure MqttPubCallbackInfo (μ κ : Type*) where
  packetId : UInt16
  pubCallback : κ
  msgHandle : MqttMessage μ
  id_eq : msgHandle.packetId = packetId

structure MqttSubCallbackInfo (κ : Type*) where
  packetId : UInt16
  subCallback : κ

inductive Notice (κ : Type*)
  | pub (pubCallback : κ) (status : MqttPubStatus)
  | sub (subCallback : κ) (qosReturn : Option (List QosValue))

structure IotHubMqttClient (μ κ : Type*) where
  packetId : UInt16
  mqttClientStatus : MqttClientStatus
  isDisconnectCalled : Bool
  isConnectionLost : Bool
  isDestroyCalled : Bool
  isRecoverableError : Bool
  mqttConnectTime : ℕ
  keepAliveInterval : UInt16
  retryLogic : Option RetryLogic
  pubAckWaitingQueue : List (MqttPubCallbackInfo μ κ)
  subAckWaitingQueue : List (MqttSubCallbackInfo κ)
  needPublishPersistMsg : Bool
  persist : Option (PersistStore μ)

variable {μ κ : Type*}

def initializeMqttClientHandle (keepAliveInterval : UInt16) (retryLogic : Option RetryLogic)
    (persist : Option (PersistStore μ)) : IotHubMqttClient μ κ where
  packetId := 0
  mqttClientStatus := .notConnected
  isDisconnectCalled := false
  isConnectionLost := false
  isDestroyCalled := false
  isRecoverableError := true
  mqttConnectTime := 0
  keepAliveInterval := keepAliveInterval
  retryLogic := retryLogic
  pubAckWaitingQueue := []
  subAckWaitingQueue := []
  needPublishPersistMsg := false
  persist := persist

def getNextPacketId (packetId : UInt16) : UInt16 :=
  if packetId.toNat + 1 ≥ 65535 then 1 else packetId + 1

namespace IotHubMqttClient

def nextId (client : IotHubMqttClient μ κ) : UInt16 := getNextPacketId client.packetId

def drawPacketId (client : IotHubMqttClient μ κ) : IotHubMqttClient μ κ :=
  { client with packetId := client.nextId }

end IotHubMqttClient

/-- Whether `mqttmessage_create`, the allocation of the queue entry, and `mqtt_client_publish`
succeed. -/
structure PublishOutcome where
  messageCreated : Bool
  entryAllocated : Bool
  published : Bool
  deriving DecidableEq, Repr

structure Published (μ κ : Type*) where
  client : IotHubMqttClient μ κ
  result : Bool
  notified : List (Notice κ)

section Publish
variable (client : IotHubMqttClient μ κ) (message : MqttMessage μ)

/-- The row that is written while the client is not connected, `none` when it is refused. -/
def persistOffline : Option (IotHubMqttClient μ κ) :=
  if message.qos = .deliverAtLeastOnce ∧ client.mqttClientStatus = .notConnected then
    match client.persist with
    | none => some client
    | some store =>
      (store.insert ⟨message.packetId, message.qos, message.content⟩).map fun store =>
        { client with persist := some store }
  else some client

def sendMessage (pubCallback : Option κ) (outcome : PublishOutcome) : Published μ κ :=
  if !outcome.messageCreated then ⟨client, false, []⟩
  else
    match message.qos, pubCallback with
    | .deliverAtLeastOnce, some pubCallback =>
      if !outcome.entryAllocated then ⟨client, false, []⟩
      else if outcome.published then
        ⟨{ client with
            pubAckWaitingQueue :=
              client.pubAckWaitingQueue ++ [⟨message.packetId, pubCallback, message, rfl⟩] },
          true, []⟩
      -- The entry was put at the tail before the send and is taken out again.
      else ⟨client, false, [.pub pubCallback .failed]⟩
    | .deliverAtMostOnce, some pubCallback =>
      if outcome.published then ⟨client, true, [.pub pubCallback .success]⟩
      else ⟨client, false, [.pub pubCallback .failed]⟩
    | _, pubCallback =>
      if outcome.published then ⟨client, true, []⟩
      else ⟨client, false, pubCallback.toList.map (.pub · .failed)⟩

end Publish

def publishMqttMessage (client : IotHubMqttClient μ κ) (qosValue : QosValue) (content : μ)
    (pubCallback : Option κ) (outcome : PublishOutcome) : Published μ κ :=
  if qosValue = .deliverExactlyOnce then ⟨client, false, []⟩
  else
    let message : MqttMessage μ := ⟨client.nextId, qosValue, content⟩
    match persistOffline client.drawPacketId message with
    | none => ⟨client.drawPacketId, false, []⟩
    | some client => sendMessage client message pubCallback outcome

/-- The client, whether 0 is returned. `allocated` and `subscribed` are the answers of the
allocator and of `mqtt_client_subscribe`. -/
def subscribeMqttTopics (client : IotHubMqttClient μ κ) (subPayloads : List QosValue)
    (subCallback : Option κ) (allocated subscribed : Bool) : IotHubMqttClient μ κ × Bool :=
  if subPayloads = [] ∨ QosValue.deliverExactlyOnce ∈ subPayloads then (client, false)
  else
    let client := client.drawPacketId
    match subCallback with
    | none => (client, subscribed)
    | some subCallback =>
      if !allocated then (client, false)
      else
        ({ client with
            subAckWaitingQueue :=
              client.subAckWaitingQueue ++ [⟨client.packetId, subCallback⟩] }, subscribed)

def unsubscribeMqttTopics (client : IotHubMqttClient μ κ) (unsubscribeList : List String)
    (unsubscribed : Bool) : IotHubMqttClient μ κ × Bool :=
  if unsubscribeList = [] then (client, false) else (client.drawPacketId, unsubscribed)

inductive MqttEvent
  | connack (returnCode : ConnectReturnCode)
  | subscribeAck (packetId : UInt16) (qosReturn : List QosValue)
  | publishAck (packetId : UInt16)
  | publishRecv
  | publishRel
  | publishComp
  | disconnect
  | unsubscribeAck
  | pingResponse

section Events
variable (client : IotHubMqttClient μ κ)

def onConnack (returnCode : ConnectReturnCode) : IotHubMqttClient μ κ :=
  if returnCode = .connectionAccepted then
    { client with
      isRecoverableError := true
      isConnectionLost := false
      needPublishPersistMsg := true
      mqttClientStatus := .connected
      retryLogic := client.retryLogic.map RetryLogic.stopRetryTimer }
  else
    { client with
      isConnectionLost := true
      isRecoverableError :=
        match returnCode with
        | .connRefusedBadUsernamePassword => false
        | .connRefusedNotAuthorized => false
        | .connRefusedUnacceptableVersion => false
        | _ => client.isRecoverableError
      mqttClientStatus := .notConnected }

def onSubscribeAck (packetId : UInt16) (qosReturn : List QosValue) :
    IotHubMqttClient μ κ × List (Notice κ) :=
  ({ client with
      subAckWaitingQueue := client.subAckWaitingQueue.eraseP (·.packetId == packetId) },
    (client.subAckWaitingQueue.find? (·.packetId == packetId)).toList.map
      fun entry => .sub entry.subCallback (some qosReturn))

def onPublishAck (packetId : UInt16) : IotHubMqttClient μ κ × List (Notice κ) :=
  ({ client with
      pubAckWaitingQueue := client.pubAckWaitingQueue.eraseP (·.packetId == packetId) },
    (client.pubAckWaitingQueue.find? (·.packetId == packetId)).toList.map
      fun entry => .pub entry.pubCallback .success)

def onMqttOperationComplete : MqttEvent → IotHubMqttClient μ κ × List (Notice κ)
  | .connack returnCode => (onConnack client returnCode, [])
  | .subscribeAck packetId qosReturn => onSubscribeAck client packetId qosReturn
  | .publishAck packetId => onPublishAck client packetId
  | .disconnect =>
    ({ client with mqttClientStatus := .notConnected, isDisconnectCalled := true }, [])
  | .publishRecv | .publishRel | .publishComp | .unsubscribeAck | .pingResponse => (client, [])

def notifySubscribeAckFailure : IotHubMqttClient μ κ × List (Notice κ) :=
  ({ client with subAckWaitingQueue := [] },
    client.subAckWaitingQueue.map fun entry => .sub entry.subCallback none)

/-- A row that the store refuses is only logged. -/
def persistUnacked (store : PersistStore μ) (entry : MqttPubCallbackInfo μ κ) : PersistStore μ :=
  (store.insert ⟨entry.msgHandle.packetId, entry.msgHandle.qos, entry.msgHandle.content⟩).getD store

def notifyPublishAckFailure : IotHubMqttClient μ κ × List (Notice κ) :=
  ({ client with
      pubAckWaitingQueue := []
      persist := client.persist.map (client.pubAckWaitingQueue.foldl persistUnacked) },
    client.pubAckWaitingQueue.map fun entry => .pub entry.pubCallback .failed)

def onMqttErrorComplete : IotHubMqttClient μ κ × List (Notice κ) :=
  let client := { client with mqttClientStatus := .notConnected, isConnectionLost := true }
  let (client, subNotices) := notifySubscribeAckFailure client
  let (client, pubNotices) := notifyPublishAckFailure client
  (client, subNotices ++ pubNotices)

end Events

/-- What `initialize_mqtt_connection` reads: the times of the retry logic, the tick counter,
whether `SendMqttConnectMessage` succeeds, and the tick counter once more after it. -/
structure ConnectMoment where
  retry : RetryMoment
  currentTime : Option ℕ
  connectSent : Bool
  connectTime : Option ℕ

/-- The client, and whether 0 is returned; `none` when `CanRetry` is undefined. -/
def initializeMqttConnection (tickModulus : ℕ) (client : IotHubMqttClient μ κ)
    (moment : ConnectMoment) : Option (IotHubMqttClient μ κ × Bool) :=
  if client.isDestroyCalled then some (client, true)
  else
    match client.mqttClientStatus with
    | .notConnected =>
      if client.isDisconnectCalled then some (client, true)
      else
        (canRetry client.retryLogic moment.retry).map fun (permitted, retryLogic) =>
          let client := { client with retryLogic := retryLogic }
          if !permitted then (client, true)
          else if moment.currentTime.isNone || !moment.connectSent then (client, false)
          else
            ({ client with
                mqttClientStatus := .connecting
                mqttConnectTime := moment.connectTime.getD client.mqttConnectTime }, true)
    | .connecting =>
      match moment.currentTime with
      | none => some (client, false)
      | some currentTime =>
        if client.keepAliveInterval.toNat <
            (((currentTime : ℤ) - client.mqttConnectTime) % tickModulus).toNat / 1000 then
          some ({ client with mqttClientStatus := .notConnected }, false)
        else some (client, true)
    | .connected => some (client, moment.currentTime.isSome)

theorem initializeMqttConnection_frame {tickModulus : ℕ} {client client' : IotHubMqttClient μ κ}
    {moment : ConnectMoment} {result : Bool}
    (h : initializeMqttConnection tickModulus client moment = some (client', result)) :
    ∃ mqttClientStatus retryLogic mqttConnectTime, client' =
      { client with
        mqttClientStatus := mqttClientStatus
        retryLogic := retryLogic
        mqttConnectTime := mqttConnectTime } := by
  unfold initializeMqttConnection at h
  split at h
  · cases h
    exact ⟨_, _, _, rfl⟩
  split at h
  · split at h
    · cases h
      exact ⟨_, _, _, rfl⟩
    · obtain ⟨⟨permitted, retryLogic⟩, -, h⟩ := Option.map_eq_some_iff.mp h
      dsimp only at h
      split_ifs at h <;> cases h <;> exact ⟨_, _, _, rfl⟩
  · split at h
    · cases h
      exact ⟨_, _, _, rfl⟩
    · split_ifs at h <;> cases h <;> exact ⟨_, _, _, rfl⟩
  · cases h
    exact ⟨_, _, _, rfl⟩

structure PublishCall (μ : Type*) where
  packetId : UInt16
  qos : QosValue
  content : μ
  result : Bool

/-- The row is published without a callback and then deleted, whatever the publish returned. -/
def replayMessage (client : IotHubMqttClient μ κ) (row : PublishData μ)
    (outcome : PublishOutcome) : IotHubMqttClient μ κ × PublishCall μ :=
  let published := publishMqttMessage client row.qos row.content none outcome
  ({ published.client with
      persist := published.client.persist.map (·.delete row.messageId) },
    ⟨published.client.packetId, row.qos, row.content, published.result⟩)

def replayMessages (outcome : ℕ → PublishOutcome) :
    ℕ → IotHubMqttClient μ κ → List (PublishData μ) → IotHubMqttClient μ κ × List (PublishCall μ)
  | _, client, [] => (client, [])
  | i, client, row :: rows =>
    let replayed := replayMessage client row (outcome i)
    let rest := replayMessages outcome (i + 1) replayed.1 rows
    (rest.1, replayed.2 :: rest.2)

def publishPersisted (outcome : ℕ → PublishOutcome) (client : IotHubMqttClient μ κ) :
    IotHubMqttClient μ κ × List (PublishCall μ) :=
  if client.needPublishPersistMsg then
    let client := { client with needPublishPersistMsg := false }
    match client.persist with
    | none => (client, [])
    | some store => replayMessages outcome 0 client store.rows
  else (client, [])

/-- `outcome i` is how the publish of the i-th row turns out. -/
def iothubMqttDowork (tickModulus : ℕ) (client : IotHubMqttClient μ κ) (moment : ConnectMoment)
    (outcome : ℕ → PublishOutcome) : Option (IotHubMqttClient μ κ × List (PublishCall μ)) :=
  (initializeMqttConnection tickModulus client moment).map fun (client, result) =>
    if result then publishPersisted outcome client else (client, [])

theorem iothubMqttDowork_keeps {ν : Type*} (get : IotHubMqttClient μ κ → ν) {tickModulus : ℕ}
    {client client' : IotHubMqttClient μ κ} {moment : ConnectMoment}
    {outcome : ℕ → PublishOutcome} {calls : List (PublishCall μ)}
    (hconnect : ∀ mqttClientStatus retryLogic mqttConnectTime,
      get { client with
        mqttClientStatus := mqttClientStatus
        retryLogic := retryLogic
        mqttConnectTime := mqttConnectTime } = get client)
    (hneed : ∀ client, get { client with needPublishPersistMsg := false } = get client)
    (hreplay : ∀ client rows, get (replayMessages outcome 0 client rows).1 = get client)
    (h : iothubMqttDowork tickModulus client moment outcome = some (client', calls)) :
    get client' = get client := by
  obtain ⟨⟨connected, result⟩, hinit, hdone⟩ := Option.map_eq_some_iff.mp h
  obtain ⟨mqttClientStatus, retryLogic, mqttConnectTime, hframe⟩ :=
    initializeMqttConnection_frame hinit
  rw [← hconnect mqttClientStatus retryLogic mqttConnectTime, ← hframe]
  cases result with
  | false =>
    obtain rfl : connected = client' := congrArg Prod.fst hdone
    rfl
  | true =>
    obtain rfl : (publishPersisted outcome connected).1 = client' := congrArg Prod.fst hdone
    rw [publishPersisted]
    split
    · rw [← hneed connected]
      cases connected.persist with
      | none => rfl
      | some store => exact hreplay _ store.rows
    · rfl

def iothubMqttDisconnect (client : IotHubMqttClient μ κ) : IotHubMqttClient μ κ :=
  { client with isDisconnectCalled := true }

inductive Event (κ : Type*)
  | complete (event : MqttEvent)
  | error
  | dowork (moment : ConnectMoment) (outcome : ℕ → PublishOutcome)
  | subscribe (subPayloads : List QosValue) (subCallback : Option κ) (allocated subscribed : Bool)
  | unsubscribe (unsubscribeList : List String) (unsubscribed : Bool)
  | disconnect

structure Done (μ κ : Type*) where
  client : IotHubMqttClient μ κ
  calls : List (PublishCall μ)
  notices : List (Notice κ)

def Event.perform (tickModulus : ℕ) (client : IotHubMqttClient μ κ) : Event κ → Option (Done μ κ)
  | .complete event =>
    some ⟨(onMqttOperationComplete client event).1, [], (onMqttOperationComplete client event).2⟩
  | .error => some ⟨(onMqttErrorComplete client).1, [], (onMqttErrorComplete client).2⟩
  | .dowork moment outcome =>
    -- The replay publishes without a callback.
    (iothubMqttDowork tickModulus client moment outcome).map fun (client, calls) =>
      ⟨client, calls, []⟩
  | .subscribe subPayloads subCallback allocated subscribed =>
    some ⟨(subscribeMqttTopics client subPayloads subCallback allocated subscribed).1, [], []⟩
  | .unsubscribe unsubscribeList unsubscribed =>
    some ⟨(unsubscribeMqttTopics client unsubscribeList unsubscribed).1, [], []⟩
  | .disconnect => some ⟨iothubMqttDisconnect client, [], []⟩

end IotEdgeAgent.Mqtt
