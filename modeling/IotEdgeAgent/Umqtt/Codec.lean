import IotEdgeAgent.Library.Base128
import IotEdgeAgent.Library.Feed

/-!
# The packet codec of umqtt

`mqtt_codec_bytesReceived` takes the bytes of a connection as they arrive, in chunks of any size,
and calls back with every packet that is complete. A step has no value when it writes behind an
array. Allocations succeed.
-/

namespace IotEdgeAgent.Umqtt

open Feed

inductive ControlPacketType
  | connect
  | connack
  | publish
  | puback
  | pubrec
  | pubrel
  | pubcomp
  | subscribe
  | suback
  | unsubscribe
  | unsuback
  | pingreq
  | pingresp
  | disconnect
  | packetTypeError
  | unknown
  /-- 0x00 and 0xF0, for which the enumeration has no name. -/
  | reserved (high : Bool)
  deriving DecidableEq, Repr

def ControlPacketType.toByte : ControlPacketType → UInt8
  | connect => 0x10
  | connack => 0x20
  | publish => 0x30
  | puback => 0x40
  | pubrec => 0x50
  | pubrel => 0x60
  | pubcomp => 0x70
  | subscribe => 0x80
  | suback => 0x90
  | unsubscribe => 0xA0
  | unsuback => 0xB0
  | pingreq => 0xC0
  | pingresp => 0xD0
  | disconnect => 0xE0
  | packetTypeError => 0xE1
  | unknown => 0xE2
  | reserved high => if high then 0xF0 else 0x00

def ControlPacketType.OnWire (packetType : ControlPacketType) : Prop :=
  packetType ≠ packetTypeError ∧ packetType ≠ unknown

instance (packetType : ControlPacketType) : Decidable packetType.OnWire :=
  inferInstanceAs (Decidable (_ ∧ _))

def processControlPacketType (pktByte : UInt8) : ControlPacketType × UInt8 :=
  (match (pktByte &&& 0xf0).toNat with
    | 0x10 => .connect
    | 0x20 => .connack
    | 0x30 => .publish
    | 0x40 => .puback
    | 0x50 => .pubrec
    | 0x60 => .pubrel
    | 0x70 => .pubcomp
    | 0x80 => .subscribe
    | 0x90 => .suback
    | 0xA0 => .unsubscribe
    | 0xB0 => .unsuback
    | 0xC0 => .pingreq
    | 0xD0 => .pingresp
    | 0xE0 => .disconnect
    | 0xF0 => .reserved true
    | _ => .reserved false,
  pktByte &&& 0xf)

theorem processControlPacketType_or {packetType : ControlPacketType} {flags : UInt8}
    (htype : packetType.OnWire) (hflags : flags ≤ 0xf) :
    processControlPacketType (packetType.toByte ||| flags) = (packetType, flags) := by
  have hflags' : flags = UInt8.ofNat (Fin.ofNat 16 flags.toNat).val := by
    rw [UInt8.le_iff_toNat_le] at hflags
    have hsmall : flags.toNat < 16 := Nat.lt_succ_of_le hflags
    rw [Fin.val_ofNat, Nat.mod_eq_of_lt hsmall, UInt8.ofNat_toNat]
  rw [hflags']
  generalize Fin.ofNat 16 flags.toNat = low
  revert low htype
  cases packetType with
  | reserved high => cases high <;> decide
  | _ => decide

inductive CodecState
  | fixedHeader
  | varHeader
  | payload
  deriving DecidableEq, Repr

structure Buffer where
  length : ℕ
  bytes : List UInt8
  deriving DecidableEq, Repr

/-- `storeRemainLen` is filled up to `remainLenIndex`; `bufferOffset` is the number of bytes in
`headerData`. -/
structure MqttCodec where
  currPacket : ControlPacketType
  codecState : CodecState
  headerFlags : UInt8
  headerData : Option Buffer
  storeRemainLen : List UInt8
  deriving DecidableEq, Repr

structure PacketComplete where
  packet : ControlPacketType
  flags : UInt8
  headerData : Option Buffer
  deriving DecidableEq, Repr

def mqttCodecCreate : MqttCodec := ⟨.unknown, .fixedHeader, 0, none, []⟩

def remainLenLoop : ℕ → ℕ → List UInt8 → Bool × ℕ
  | _, totalLen, [] => (true, totalLen)
  | multiplier, totalLen, encodeByte :: bytes =>
    let totalLen := totalLen + (encodeByte &&& 127).toNat * multiplier
    let multiplier := multiplier * 0x80
    if 128 * 128 * 128 < multiplier then (false, totalLen)
    else if encodeByte &&& 0x80 ≠ 0 then remainLenLoop multiplier totalLen bytes
    else (true, totalLen)

def prepareheaderDataInfo (codec : MqttCodec) (remainLen : UInt8) : Option (Bool × MqttCodec) :=
  -- `storeRemainLen` has four bytes.
  if codec.storeRemainLen.length = 4 then none
  else
    let stored := codec.storeRemainLen ++ [remainLen]
    if remainLen ≤ 0x7f then
      let (ended, totalLen) := remainLenLoop 1 0 stored
      some (ended, { codec with
        codecState := .varHeader
        storeRemainLen := []
        headerData := if 0 < totalLen then some ⟨totalLen, []⟩ else codec.headerData })
    else some (true, { codec with storeRemainLen := stored })

def completePacketData (codec : MqttCodec) : Logged PacketComplete MqttCodec :=
  .doing ⟨codec.currPacket, codec.headerFlags, codec.headerData⟩ <| some { codec with
    currPacket := .unknown, codecState := .fixedHeader, headerFlags := 0, headerData := none }

def completeIf (complete : Prop) [Decidable complete] (codec : MqttCodec) :
    Logged PacketComplete MqttCodec :=
  if complete then completePacketData codec else pure codec

def markError (prepared : Bool) (codec : MqttCodec) : MqttCodec :=
  if prepared then codec else { codec with currPacket := .packetTypeError }

def receiveLength (codec : MqttCodec) (remainLen : UInt8) :
    Logged PacketComplete (Bool × MqttCodec) := do
  let (prepared, codec) ← Logged.holding (prepareheaderDataInfo codec remainLen)
  let codec := markError prepared codec
  return (prepared, ← completeIf (codec.currPacket = .pingresp) codec)

def receiveBody (codec : MqttCodec) (headerData : Buffer) (byte : UInt8) :
    Logged PacketComplete (Bool × MqttCodec) := do
  let headerData := { headerData with bytes := headerData.bytes ++ [byte] }
  let codec := { codec with headerData := some headerData }
  return (true, ← completeIf (headerData.length ≤ headerData.bytes.length) codec)

def receiveByte (codec : MqttCodec) (byte : UInt8) : Logged PacketComplete (Bool × MqttCodec) :=
  match codec.codecState with
  | .fixedHeader =>
    if codec.currPacket = .unknown then
      let (currPacket, headerFlags) := processControlPacketType byte
      pure (true, { codec with currPacket, headerFlags })
    else receiveLength codec byte
  | .varHeader =>
    match codec.headerData with
    | none => pure (true, { codec with codecState := .payload })
    | some headerData => receiveBody codec headerData byte
  | .payload => pure (false, { codec with currPacket := .packetTypeError })

def mqttCodecBytesReceived (codec : MqttCodec) (buffer : List UInt8) :
    Logged PacketComplete (Bool × MqttCodec) :=
  if buffer = [] then pure (false, { codec with currPacket := .packetTypeError })
  else feed receiveByte codec buffer

def constructFixedHeader (ctrlPacket : List UInt8) (packetType : ControlPacketType)
    (flags : UInt8) : Option (List UInt8) :=
  -- `remainSize` has four bytes.
  (Base128.encode 4 ctrlPacket.length).map fun remainSize =>
    (packetType.toByte ||| flags) :: remainSize ++ ctrlPacket

end IotEdgeAgent.Umqtt
