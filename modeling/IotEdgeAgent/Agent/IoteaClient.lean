import IotEdgeAgent.Mqtt.PublishCallbacks

/-!
# The client of the agent

The handle of the agent over its MQTT client: it subscribes its topics once the client is
connected and asks for the list of devices once they are subscribed. A subscription is told apart
by the number of the connection that it was made on. What umqtt calls back is an event of its own,
and the allocator answers where its answer decides something.
-/

namespace IotEdgeAgent.Agent

open Mqtt

structure Publication where
  topicName : String
  appMsg : String
  deriving DecidableEq, Repr

structure IoteaClient where
  subscribed : Bool
  subscribeSentTimestamp : ℤ
  devname : String
  proType : String
  reqAns : Bool
  reqCount : ℕ
  lastReqSendTime : ℕ
  mqttClient : IotHubMqttClient Publication ℕ

def getSubscription (handle : IoteaClient) : List String :=
  ["/ModelManager/get/reponse/" ++ handle.proType ++ "/Southmodel",
    "/devMgr/get/response/" ++ handle.proType ++ "/dev",
    "/devMgr/get/response/" ++ handle.proType ++ "/devlist"]

def queryPrefix : String :=
  -- `\x7b` and `\x7d` are the braces of the JSON text.
  "\x7b\"token\": \"1245sfvhjkklm\",\"fsn\": \"123\",            \"flat\": \"123\"," ++
    "\"timestamp\": \"2019-07-09T09:30:08.230Z\","

def deviceQuery (handle : IoteaClient) (isSendForList : Bool) : Publication :=
  if isSendForList then
    ⟨"/" ++ handle.proType ++ "/get/request/devMgr/devlist", queryPrefix ++ "\"body\":\"\"\x7d"⟩
  else
    ⟨"/" ++ handle.proType ++ "/get/request/devMgr/dev",
      queryPrefix ++ "            \"body\":[\x7b\"dev\":\"" ++ handle.devname ++ "\"\x7d]\x7d"⟩

def publishQuery (handle : IoteaClient) (content : Publication) (outcome : PublishOutcome) :
    IoteaClient :=
  { handle with mqttClient :=
      (publishMqttMessage handle.mqttClient .deliverAtLeastOnce content none outcome).client }

def sendDeviceQueryReq (handle : IoteaClient) (isSendForList : Bool) (outcome : PublishOutcome) :
    IoteaClient :=
  publishQuery handle (deviceQuery handle isSendForList) outcome

/-- What `iotea_client_dowork` meets: the time as it is read before and behind the subscription, the
answers of the allocator and of `mqtt_client_subscribe`, the tick counter, how a request turns out,
and what `iothub_mqtt_dowork` meets. -/
structure Visit where
  current : ℤ
  sent : ℤ
  topicsAllocated : Bool
  entryAllocated : Bool
  subscribed : Bool
  currentTime : ℕ
  request : PublishOutcome
  moment : ConnectMoment
  outcome : ℕ → PublishOutcome

inductive DoworkResult
  | stopped
  | failure
  | success
  deriving DecidableEq, Repr

def subscribeTopics (connection : ℕ) (handle : IoteaClient) (visit : Visit) : IoteaClient × Bool :=
  if handle.mqttClient.mqttClientStatus = .connected ∧ handle.subscribed = false ∧
      10 < visit.current - handle.subscribeSentTimestamp then
    if !visit.topicsAllocated then (handle, false)
    else
      let subscribe := (getSubscription handle).map fun _ => QosValue.deliverAtLeastOnce
      let (client, result) := subscribeMqttTopics handle.mqttClient subscribe (some connection)
        visit.entryAllocated visit.subscribed
      if result then
        ({ handle with mqttClient := client, subscribeSentTimestamp := visit.sent }, true)
      else ({ handle with mqttClient := client }, false)
  else (handle, true)

def requestAgain (tickModulus : ℕ) (handle : IoteaClient) (visit : Visit) : IoteaClient :=
  if 3 < (((visit.currentTime : ℤ) - handle.lastReqSendTime) % tickModulus).toNat / 1000 ∧
      handle.reqAns = false ∧ handle.reqCount < 3 then
    { sendDeviceQueryReq handle true visit.request with
      lastReqSendTime := visit.currentTime
      reqCount := handle.reqCount + 1 }
  else handle

def forgetSubscription (handle : IoteaClient) : IoteaClient :=
  if handle.mqttClient.isConnectionLost then
    { handle with subscribed := false, subscribeSentTimestamp := 0 }
  else handle

def ioteaClientDowork (tickModulus connection : ℕ) (handle : IoteaClient) (visit : Visit) :
    Option (IoteaClient × DoworkResult) :=
  if handle.mqttClient.isDestroyCalled ∨ handle.mqttClient.isDisconnectCalled then
    some (handle, .stopped)
  else
    match subscribeTopics connection (forgetSubscription handle) visit with
    | (handle, false) => some (handle, .failure)
    | (handle, true) =>
      let handle := requestAgain tickModulus handle visit
      (iothubMqttDowork tickModulus handle.mqttClient visit.moment visit.outcome).map
        fun (client, _) => ({ handle with mqttClient := client }, .success)

structure CallbackMoment where
  tick : ℕ
  request : PublishOutcome

def onSubAckCallback (handle : IoteaClient) (qosReturn : List QosValue) (moment : CallbackMoment) :
    IoteaClient :=
  if QosValue.deliverFailure ∈ qosReturn then handle
  else
    sendDeviceQueryReq { handle with subscribed := true, lastReqSendTime := moment.tick } true
      moment.request

def subscriptionOf (handle : IoteaClient) (packetId : UInt16) : Option (MqttSubCallbackInfo ℕ) :=
  handle.mqttClient.subAckWaitingQueue.find? (·.packetId == packetId)

def onSubscribeAck (handle : IoteaClient) (packetId : UInt16) (qosReturn : List QosValue)
    (moment : CallbackMoment) : IoteaClient :=
  match subscriptionOf handle packetId with
  | none => handle
  | some _ =>
    onSubAckCallback
      { handle with mqttClient := (Mqtt.onSubscribeAck handle.mqttClient packetId qosReturn).1 }
      qosReturn moment

/-- Each callback is called with no return codes, and its entry is taken out behind it. -/
def notifySubscribeAckFailure (moment : ℕ → CallbackMoment) :
    ℕ → IoteaClient → List (MqttSubCallbackInfo ℕ) → IoteaClient
  | _, handle, [] => handle
  | i, handle, _ :: entries =>
    let handle := onSubAckCallback handle [] (moment i)
    notifySubscribeAckFailure moment (i + 1)
      { handle with mqttClient := { handle.mqttClient with subAckWaitingQueue := entries } } entries

def onMqttErrorComplete (handle : IoteaClient) (moment : ℕ → CallbackMoment) : IoteaClient :=
  let handle := { handle with
    mqttClient := { handle.mqttClient with
      mqttClientStatus := .notConnected, isConnectionLost := true } }
  let handle :=
    notifySubscribeAckFailure moment 0 handle handle.mqttClient.subAckWaitingQueue
  { handle with mqttClient := (notifyPublishAckFailure handle.mqttClient).1 }

def onMqttOperationComplete (handle : IoteaClient) (event : MqttEvent) (moment : CallbackMoment) :
    IoteaClient :=
  match event with
  | .subscribeAck packetId qosReturn => onSubscribeAck handle packetId qosReturn moment
  | event => { handle with mqttClient := (Mqtt.onMqttOperationComplete handle.mqttClient event).1 }

section Frame
variable {handle : IoteaClient} {tickModulus connection : ℕ}

structure SubscribedAlike (handle handle' : IoteaClient) : Prop where
  subscribed : handle'.subscribed = handle.subscribed
  queue : handle'.mqttClient.subAckWaitingQueue = handle.mqttClient.subAckWaitingQueue

theorem SubscribedAlike.refl (handle : IoteaClient) : SubscribedAlike handle handle := ⟨rfl, rfl⟩

theorem SubscribedAlike.trans {handle' handle'' : IoteaClient} (h : SubscribedAlike handle handle')
    (h' : SubscribedAlike handle' handle'') : SubscribedAlike handle handle'' :=
  ⟨h'.subscribed.trans h.subscribed, h'.queue.trans h.queue⟩

theorem publishQuery_alike (handle : IoteaClient) (content : Publication)
    (outcome : PublishOutcome) : SubscribedAlike handle (publishQuery handle content outcome) :=
  ⟨rfl, (PublishCallbacks.publishMqttMessage_sub _ _ _ _ _).1⟩

theorem requestAgain_alike (handle : IoteaClient) (visit : Visit) :
    SubscribedAlike handle (requestAgain tickModulus handle visit) := by
  rw [requestAgain]
  split
  · have hsent := publishQuery_alike handle (deviceQuery handle true) visit.request
    exact ⟨hsent.subscribed, hsent.queue⟩
  · exact .refl handle

end Frame

end IotEdgeAgent.Agent
