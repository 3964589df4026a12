import IotEdgeAgent.Umqtt.Packets

/-!
# What umqtt makes of the packets it receives

`recvCompleteCallback` is called with each packet that the codec completes. A read behind the end of
the buffer has no value. What the callbacks of the application do in turn is not part of this.
-/

namespace IotEdgeAgent.Umqtt

open Feed Strings

inductive MqttClientEvent
  | connack (isSessionPresent : Bool) (returnCode : UInt8)
  | publishAck (packetId : UInt16)
  | publishRecv (packetId : UInt16)
  | publishRel (packetId : UInt16)
  | publishComp (packetId : UInt16)
  | subscribeAck (packetId : UInt16) (qosReturn : List UInt8)
  | unsubscribeAck (packetId : UInt16)
  | pingResponse
  deriving DecidableEq

inductive MqttClientEventError
  | connectionError
  | parseError
  | memoryError
  | communicationError
  | noPingResponse
  deriving DecidableEq, Repr

/-- A call of `fnOperationCallback`, `fnMessageRecv`, `xio_send` or `set_error_callback`, which
also closes the connection. -/
inductive Effect
  | operation (event : MqttClientEvent)
  | message (message : MqttMessage)
  | sent (bytes : List UInt8)
  | error (errorType : MqttClientEventError)
  deriving DecidableEq

/-- The part of the client that packets change. Times are readings of the tick counter. -/
structure MqttClient where
  packetRecvTimeMs : ℕ
  timeSincePing : ℕ
  clientConnected : Bool
  deriving DecidableEq, Repr

/-- Nothing is read when fewer than two bytes are left. -/
def byteutilReadUint16 : List UInt8 → UInt16 × List UInt8
  | a :: b :: buffer => (256 * a.toUInt16 + b.toUInt16, buffer)
  | buffer => (0, buffer)

/-- The copy of the string, unless its length is 0. -/
def byteutilReadUTF (buffer : List UInt8) : Option (Option (List UInt8) × List UInt8) :=
  let (len, buffer) := byteutilReadUint16 buffer
  if len = 0 then some (none, buffer)
  else if len.toNat ≤ buffer.length then
    some (some (buffer.take len.toNat), buffer.drop len.toNat)
  else none

def byteutilReadByte : List UInt8 → Option (UInt8 × List UInt8)
  | a :: buffer => some (a, buffer)
  | [] => none

def perform (effects : List Effect) (client : MqttClient) : Logged Effect MqttClient :=
  ⟨effects, some client⟩

def receivedQos (flags : UInt8) : QosValue :=
  if flags = 0 then .deliverAtMostOnce
  else if flags &&& 0x2 ≠ 0 then .deliverAtLeastOnce
  else .deliverExactlyOnce

def publishReply (qosValue : QosValue) (packetId : UInt16) : List Effect :=
  match qosValue with
  | .deliverExactlyOnce => [.sent (mqttCodecPublishReceived packetId)]
  | .deliverAtLeastOnce => [.sent (mqttCodecPublishAck packetId)]
  | _ => []

def receivedMessage (flags : UInt8) (topicName : List UInt8) (buffer : List UInt8) : MqttMessage :=
  let qosValue := receivedQos flags
  let (packetId, buffer) :=
    if qosValue = .deliverAtMostOnce then (0, buffer) else byteutilReadUint16 buffer
  ⟨packetId, qosValue, cString topicName, buffer, flags &&& 0x8 ≠ 0, flags &&& 0x1 ≠ 0⟩

def recvPublish (flags : UInt8) (data : List UInt8) : Option (List Effect) :=
  (byteutilReadUTF data).map fun (topicName, buffer) =>
    match topicName with
    | none => [.error .parseError]
    | some topicName =>
      let message := receivedMessage flags topicName buffer
      .message message :: publishReply message.qosInfo message.packetId

def recvConnack (data : List UInt8) : Option (Bool × UInt8) := do
  let (sessionPresent, buffer) ← byteutilReadByte data
  let (returnCode, _) ← byteutilReadByte buffer
  return (sessionPresent = 0x1, returnCode)

def recvSuback (data : List UInt8) : List Effect :=
  let (packetId, buffer) := byteutilReadUint16 data
  -- For a single byte the length of the rest wraps around, and the allocation fails.
  if data.length < 2 then [.error .memoryError] else [.operation (.subscribeAck packetId buffer)]

def recvPacket (client : MqttClient) (packet : ControlPacketType) (flags : UInt8)
    (data : List UInt8) : Logged Effect MqttClient :=
  let packetId := (byteutilReadUint16 data).1
  match packet with
  | .connack => do
    let (isSessionPresent, returnCode) ← Logged.holding (recvConnack data)
    perform [.operation (.connack isSessionPresent returnCode)]
      { client with clientConnected := client.clientConnected || returnCode = 0 }
  | .publish => do
    let effects ← Logged.holding (recvPublish flags data)
    perform effects client
  | .puback => perform [.operation (.publishAck packetId)] client
  | .pubrec =>
    perform [.operation (.publishRecv packetId), .sent (mqttCodecPublishRelease packetId)] client
  | .pubrel =>
    perform [.operation (.publishRel packetId), .sent (mqttCodecPublishComplete packetId)] client
  | .pubcomp => perform [.operation (.publishComp packetId)] client
  | .suback => perform (recvSuback data) client
  | .unsuback => perform [.operation (.unsubscribeAck packetId)] client
  | .pingresp => perform [.operation .pingResponse] { client with timeSincePing := 0 }
  | _ => perform [] client

/-- A packet without a body is dropped unless it is a PINGRESP, and so is every packet for which
the tick counter fails. -/
def recvCompleteCallback (now : Option ℕ) (client : MqttClient) (event : PacketComplete) :
    Logged Effect MqttClient :=
  if event.headerData = none ∧ event.packet ≠ .pingresp then pure client
  else match now with
    | none => pure client
    | some now => recvPacket { client with packetRecvTimeMs := now } event.packet event.flags
        ((event.headerData.map (·.bytes)).getD [])

def recvAll : MqttClient → List (PacketComplete × Option ℕ) → Logged Effect MqttClient
  | client, [] => pure client
  | client, (event, now) :: events => do recvAll (← recvCompleteCallback now client event) events

end IotEdgeAgent.Umqtt
