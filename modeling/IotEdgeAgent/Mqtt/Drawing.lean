import IotEdgeAgent.Library.Runs
import IotEdgeAgent.Mqtt.PublishCallbacks

/-!
# The packet ids that a client draws

Publishing, subscribing and unsubscribing share one counter. Each draw is logged with the ids that
were taken at that moment, by entries of the two queues and by rows of the store. A callback is
told apart by the draw of its message, so that an acknowledgement can be followed to the message it
was sent for.
-/

namespace IotEdgeAgent.Mqtt.PacketIds

open Runs

variable {μ : Type*}

structure Draft where
  draw : ℕ
  stored : Bool
  deriving DecidableEq

structure Drawn where
  packetId : UInt16
  pending : List UInt16

/-- An acknowledgement for the message of a draw: whether the message waits for it, and the draw of
the message that it resolves. -/
structure Ack where
  draw : ℕ
  waiting : Bool
  resolved : Option ℕ

structure State (μ : Type*) where
  client : IotHubMqttClient μ Draft
  drawn : List Drawn
  acks : List Ack
  refused : List UInt16

def pendingIds {κ : Type*} (client : IotHubMqttClient μ κ) : List UInt16 :=
  client.pubAckWaitingQueue.map (·.packetId) ++ client.subAckWaitingQueue.map (·.packetId) ++
    (storedRows client).map (·.messageId)

def logDraw (s : State μ) : List Drawn := s.drawn ++ [⟨s.client.nextId, pendingIds s.client⟩]

def Offline {κ : Type*} (client : IotHubMqttClient μ κ) (qosValue : QosValue) : Bool :=
  qosValue = .deliverAtLeastOnce ∧ client.mqttClientStatus = .notConnected ∧ client.persist.isSome

def refusedRow (client : IotHubMqttClient μ Draft) (message : MqttMessage μ) : List UInt16 :=
  if (persistOffline client message).isNone then [message.packetId] else []

def publish (s : State μ) (qosValue : QosValue) (content : μ) (withCallback : Bool)
    (outcome : PublishOutcome) : State μ :=
  if qosValue = .deliverExactlyOnce then s
  else
    let draft : Draft := ⟨s.drawn.length, Offline s.client qosValue⟩
    { s with
      client := (publishMqttMessage s.client qosValue content
        (if withCallback then some draft else none) outcome).client
      drawn := logDraw s
      refused := s.refused ++
        refusedRow s.client.drawPacketId ⟨s.client.nextId, qosValue, content⟩ }

def Subscribes (subPayloads : List QosValue) : Prop :=
  ¬ (subPayloads = [] ∨ QosValue.deliverExactlyOnce ∈ subPayloads)

instance (subPayloads : List QosValue) : Decidable (Subscribes subPayloads) := instDecidableNot

def subscribe (s : State μ) (subPayloads : List QosValue)
    (withCallback allocated subscribed : Bool) : State μ :=
  { s with
    client := (subscribeMqttTopics s.client subPayloads
      (if withCallback then some ⟨s.drawn.length, false⟩ else none) allocated subscribed).1
    drawn := if Subscribes subPayloads then logDraw s else s.drawn }

def unsubscribe (s : State μ) (unsubscribeList : List String) (unsubscribed : Bool) : State μ :=
  { s with
    client := (unsubscribeMqttTopics s.client unsubscribeList unsubscribed).1
    drawn := if unsubscribeList = [] then s.drawn else logDraw s }

def publishAck (s : State μ) (draw : ℕ) (packetId : UInt16) : State μ :=
  { s with
    client := (onPublishAck s.client packetId).1
    acks := s.acks ++
      [⟨draw, s.client.pubAckWaitingQueue.any (·.pubCallback.draw == draw),
        (s.client.pubAckWaitingQueue.find? (·.packetId == packetId)).map (·.pubCallback.draw)⟩] }

def subscribeAck (s : State μ) (draw : ℕ) (packetId : UInt16) (qosReturn : List QosValue) :
    State μ :=
  { s with
    client := (onSubscribeAck s.client packetId qosReturn).1
    acks := s.acks ++
      [⟨draw, s.client.subAckWaitingQueue.any (·.subCallback.draw == draw),
        (s.client.subAckWaitingQueue.find? (·.packetId == packetId)).map (·.subCallback.draw)⟩] }

def refusedUnacked (store : PersistStore μ) : List (MqttPubCallbackInfo μ Draft) → List UInt16
  | [] => []
  | entry :: queue =>
    (if (store.insert (rowOf entry)).isNone then [entry.packetId] else []) ++
      refusedUnacked (persistUnacked store entry) queue

def error (s : State μ) : State μ :=
  { s with
    client := (onMqttErrorComplete s.client).1
    refused := s.refused ++
      s.client.persist.elim [] (refusedUnacked · s.client.pubAckWaitingQueue) }

def deleteRow (s : State μ) (messageId : UInt16) : State μ :=
  { s with client := { s.client with persist := s.client.persist.map (·.delete messageId) } }

def replayRows (outcome : ℕ → PublishOutcome) : ℕ → State μ → List (PublishData μ) → State μ
  | _, s, [] => s
  | i, s, row :: rows =>
    replayRows outcome (i + 1)
      (deleteRow (publish s row.qos row.content false (outcome i)) row.messageId) rows

def replayed (outcome : ℕ → PublishOutcome) (s : State μ) : State μ :=
  if s.client.needPublishPersistMsg then
    let s := { s with client := { s.client with needPublishPersistMsg := false } }
    s.client.persist.elim s fun store => replayRows outcome 0 s store.rows
  else s

/-- `puback` and `suback` are the acknowledgements that are sent for the message of a draw,
`complete` is any event of umqtt. -/
inductive Action (μ : Type*)
  | publish (qosValue : QosValue) (content : μ) (withCallback : Bool) (outcome : PublishOutcome)
  | subscribe (subPayloads : List QosValue) (withCallback allocated subscribed : Bool)
  | unsubscribe (unsubscribeList : List String) (unsubscribed : Bool)
  | puback (draw : ℕ)
  | suback (draw : ℕ) (qosReturn : List QosValue)
  | complete (event : MqttEvent)
  | error
  | dowork (moment : ConnectMoment) (outcome : ℕ → PublishOutcome)
  | disconnect

def step (tickModulus : ℕ) (s : State μ) (a : Action μ) (t : State μ) : Prop :=
  match a with
  | .publish qosValue content withCallback outcome =>
    t = PacketIds.publish s qosValue content withCallback outcome
  | .subscribe subPayloads withCallback allocated subscribed =>
    t = PacketIds.subscribe s subPayloads withCallback allocated subscribed
  | .unsubscribe unsubscribeList unsubscribed =>
    t = PacketIds.unsubscribe s unsubscribeList unsubscribed
  | .puback draw => ∃ d, s.drawn[draw]? = some d ∧ t = publishAck s draw d.packetId
  | .suback draw qosReturn => ∃ d, s.drawn[draw]? = some d ∧
      t = subscribeAck s draw d.packetId qosReturn
  | .complete event => t = { s with client := (onMqttOperationComplete s.client event).1 }
  | .error => t = PacketIds.error s
  | .dowork moment outcome => ∃ client result,
      initializeMqttConnection tickModulus s.client moment = some (client, result) ∧
      t = if result then replayed outcome { s with client := client }
        else { s with client := client }
  | .disconnect => t = { s with client := iothubMqttDisconnect s.client }

structure Initial (s : State μ) : Prop where
  client : ∃ keepAliveInterval retryLogic persist,
    s.client = initializeMqttClientHandle keepAliveInterval retryLogic persist
  drawn : s.drawn = []
  acks : s.acks = []
  refused : s.refused = []

theorem publish_client (s : State μ) (qosValue : QosValue) (content : μ)
    (outcome : PublishOutcome) :
    (publish s qosValue content false outcome).client =
      (publishMqttMessage s.client qosValue content none outcome).client := by
  rw [publish]
  by_cases hqos : qosValue = .deliverExactlyOnce
  · rw [if_pos hqos, publishMqttMessage, if_pos hqos]
  · rw [if_neg hqos]
    rfl

theorem replayRows_client (outcome : ℕ → PublishOutcome) (i : ℕ) (s : State μ)
    (rows : List (PublishData μ)) :
    (replayRows outcome i s rows).client = (replayMessages outcome i s.client rows).1 := by
  induction rows generalizing i s with
  | nil => rfl
  | cons row rows ih =>
    rw [replayRows, ih, deleteRow, publish_client]
    rfl

theorem replayed_client (outcome : ℕ → PublishOutcome) (s : State μ) :
    (replayed outcome s).client = (publishPersisted outcome s.client).1 := by
  rw [replayed, publishPersisted]
  by_cases hneed : s.client.needPublishPersistMsg = true
  · rw [if_pos hneed, if_pos hneed]
    cases hpersist : s.client.persist with
    | none =>
      simp only [hpersist]
      rfl
    | some store =>
      simp only [hpersist]
      exact replayRows_client outcome 0 _ store.rows
  · rw [if_neg hneed, if_neg hneed]

theorem dowork_client {tickModulus : ℕ} {s t : State μ} {moment : ConnectMoment}
    {outcome : ℕ → PublishOutcome} (h : step tickModulus s (.dowork moment outcome) t) :
    ∃ calls, iothubMqttDowork tickModulus s.client moment outcome = some (t.client, calls) := by
  obtain ⟨client, result, hinit, rfl⟩ := h
  rw [iothubMqttDowork, hinit]
  cases result with
  | false => exact ⟨_, rfl⟩
  | true =>
    exact ⟨(publishPersisted outcome client).2,
      congrArg some (Prod.ext (replayed_client outcome { s with client := client }).symm rfl)⟩

end IotEdgeAgent.Mqtt.PacketIds
