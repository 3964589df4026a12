import IotEdgeAgent.Library.Strings
import IotEdgeAgent.Umqtt.Codec

/-!
# The packets that umqtt writes

Outgoing packets as bytes. A constructor that returns null has the value `none`; around it stands
another `Option`, which has no value where memory behind an array is written. Strings of C are
those without a NUL. Allocations succeed, and the text of the trace is left out.
-/

namespace IotEdgeAgent.Umqtt

open Strings

inductive QosValue
  | deliverAtMostOnce
  | deliverAtLeastOnce
  | deliverExactlyOnce
  | deliverFailure
  deriving DecidableEq, Repr

def QosValue.toByte : QosValue → UInt8
  | deliverAtMostOnce => 0x00
  | deliverAtLeastOnce => 0x01
  | deliverExactlyOnce => 0x02
  | deliverFailure => 0x80

def USHRT_MAX : ℕ := 65535

def byteutilWriteInt (value : UInt16) : List UInt8 := [(value / 256).toUInt8, (value % 256).toUInt8]

def byteutilWriteUTF (stringData : List UInt8) : List UInt8 :=
  byteutilWriteInt (UInt16.ofNat stringData.length) ++ stringData

structure MqttMessage where
  packetId : UInt16
  qosInfo : QosValue
  topicName : CText
  appPayload : List UInt8
  isDuplicateMsg : Bool
  isMessageRetained : Bool
  deriving DecidableEq

def publishFlags (qosValue : QosValue) (duplicateMsg serverRetain : Bool) : UInt8 :=
  (if duplicateMsg then 0x8 else 0) ||| (if serverRetain then 0x1 else 0) |||
    match qosValue with
    | .deliverAtMostOnce => 0
    | .deliverAtLeastOnce => 0x2
    | _ => 0x4

def MqttMessage.flags (message : MqttMessage) : UInt8 :=
  publishFlags message.qosInfo message.isDuplicateMsg message.isMessageRetained

def constructPublishVariableHeader (message : MqttMessage) : Option (List UInt8) :=
  if USHRT_MAX < message.topicName.bytes.length then none
  else some (byteutilWriteUTF message.topicName.bytes ++
    if message.qosInfo = .deliverAtMostOnce then [] else byteutilWriteInt message.packetId)

def MAX_SEND_SIZE : ℕ := 0xFFFFFF7F

def mqttCodecPublish (message : MqttMessage) : Option (Option (List UInt8)) :=
  if MAX_SEND_SIZE < message.appPayload.length then some none
  else match constructPublishVariableHeader message with
    | none => some none
    | some header =>
      (constructFixedHeader (header ++ message.appPayload) .publish message.flags).map some

def constructPublishReply (packetType : ControlPacketType) (flags : UInt8) (packetId : UInt16) :
    List UInt8 :=
  (packetType.toByte ||| flags) :: 0x2 :: byteutilWriteInt packetId

def mqttCodecPublishAck (packetId : UInt16) : List UInt8 := constructPublishReply .puback 0 packetId

def mqttCodecPublishReceived (packetId : UInt16) : List UInt8 :=
  constructPublishReply .pubrec 0 packetId

def mqttCodecPublishRelease (packetId : UInt16) : List UInt8 :=
  constructPublishReply .pubrel 2 packetId

def mqttCodecPublishComplete (packetId : UInt16) : List UInt8 :=
  constructPublishReply .pubcomp 0 packetId

structure SubscribePayload where
  subscribeTopic : CText
  qosReturn : QosValue
  deriving DecidableEq

def addListItemsToSubscribePacket : List SubscribePayload → Option (List UInt8)
  | [] => some []
  | payload :: payloadList =>
    if USHRT_MAX < payload.subscribeTopic.bytes.length then none
    else (addListItemsToSubscribePacket payloadList).map
      (byteutilWriteUTF payload.subscribeTopic.bytes ++ payload.qosReturn.toByte :: ·)

def addListItemsToUnsubscribePacket : List CText → Option (List UInt8)
  | [] => some []
  | topic :: payloadList =>
    if USHRT_MAX < topic.bytes.length then none
    else (addListItemsToUnsubscribePacket payloadList).map (byteutilWriteUTF topic.bytes ++ ·)

def mqttCodecSubscribe (packetId : UInt16) (subscribeList : List SubscribePayload) :
    Option (Option (List UInt8)) :=
  if subscribeList = [] then some none
  else match addListItemsToSubscribePacket subscribeList with
    | none => some none
    | some items =>
      (constructFixedHeader (byteutilWriteInt packetId ++ items) .subscribe 0x2).map some

def mqttCodecUnsubscribe (packetId : UInt16) (unsubscribeList : List CText) :
    Option (Option (List UInt8)) :=
  if unsubscribeList = [] then some none
  else match addListItemsToUnsubscribePacket unsubscribeList with
    | none => some none
    | some items =>
      (constructFixedHeader (byteutilWriteInt packetId ++ items) .unsubscribe 0x2).map some

def mqttCodecPing : List UInt8 := [ControlPacketType.pingreq.toByte, 0]

end IotEdgeAgent.Umqtt
