import IotEdgeAgent.Umqtt.Reception

/-!
# From one umqtt client to another

What a client publishes, another one receives, however the bytes are cut on their way: exactly the
messages for which nothing is lost in the packet, each with the reply that its quality of service
asks for.
-/

namespace IotEdgeAgent.Umqtt

open Feed Strings

def publishBody (message : MqttMessage) : List UInt8 :=
  byteutilWriteUTF message.topicName.bytes ++
    (if message.qosInfo = .deliverAtMostOnce then [] else byteutilWriteInt message.packetId) ++
    message.appPayload

/-- A message of quality of service 0 is sent without its packet id. -/
def asSent (message : MqttMessage) : MqttMessage :=
  if message.qosInfo = .deliverAtMostOnce then { message with packetId := 0 } else message

/-- The topic is not empty, the packet is shorter than two megabytes, and the flags tell the
quality of service: with quality of service 0 they have to be 0. -/
def Faithful (message : MqttMessage) : Prop :=
  message.topicName.bytes ≠ [] ∧ (publishBody message).length < 128 ^ 3 ∧
    message.qosInfo ≠ .deliverFailure ∧
    (message.qosInfo = .deliverAtMostOnce →
      message.isDuplicateMsg = false ∧ message.isMessageRetained = false)

def reception (message : MqttMessage) : List Effect :=
  .message (asSent message) :: publishReply message.qosInfo message.packetId

def publishedStream : List MqttMessage → Option (List UInt8)
  | [] => some []
  | message :: messages =>
    match mqttCodecPublish message with
    | some (some bytes) => (publishedStream messages).map (bytes ++ ·)
    | _ => none

section
variable {value : UInt16} {buffer text : List UInt8}

theorem byteutilReadUint16_writeInt (value : UInt16) (buffer : List UInt8) :
    byteutilReadUint16 (byteutilWriteInt value ++ buffer) = (value, buffer) := by
  refine Prod.ext ?_ rfl
  have hvalue := value.toNat_lt
  rw [byteutilWriteInt, List.cons_append, List.cons_append, byteutilReadUint16, ← UInt16.toNat_inj]
  simp only [UInt16.toNat_add, UInt16.toNat_mul, UInt8.toNat_toUInt16, UInt16.toNat_toUInt8,
    UInt16.toNat_div, UInt16.toNat_mod, UInt16.reduceToNat]
  omega

theorem byteutilReadUTF_writeUTF (htext : text.length ≤ USHRT_MAX) (hne : text ≠ [])
    (buffer : List UInt8) :
    byteutilReadUTF (byteutilWriteUTF text ++ buffer) = some (some text, buffer) := by
  have hlen : (UInt16.ofNat text.length).toNat = text.length := by
    rw [UInt16.toNat_ofNat']
    exact Nat.mod_eq_of_lt (Nat.lt_succ_of_le htext)
  have hpos := List.length_pos_iff.mpr hne
  rw [byteutilReadUTF, byteutilWriteUTF, List.append_assoc, byteutilReadUint16_writeInt]
  dsimp only
  rw [if_neg, hlen, if_pos, List.take_left, List.drop_left]
  · rw [List.length_append]
    exact Nat.le_add_right ..
  · rw [← UInt16.toNat_inj, hlen]
    exact hpos.ne'

theorem byteutilReadUTF_empty (buffer : List UInt8) :
    byteutilReadUTF (byteutilWriteUTF [] ++ buffer) = some (none, buffer) := by
  rw [byteutilReadUTF, byteutilWriteUTF, List.append_assoc, byteutilReadUint16_writeInt]
  rfl

end

section
variable {message : MqttMessage} {messages : List MqttMessage} {bytes stream : List UInt8}
  {client : MqttClient} {now : ℕ}

theorem publishFlags_le (qosValue : QosValue) (duplicateMsg serverRetain : Bool) :
    publishFlags qosValue duplicateMsg serverRetain ≤ 0xf := by
  cases qosValue <;> cases duplicateMsg <;> cases serverRetain <;> decide

theorem publishFlags_bits (qosValue : QosValue) (duplicateMsg serverRetain : Bool) :
    (publishFlags qosValue duplicateMsg serverRetain &&& 0x8 ≠ 0 ↔ duplicateMsg) ∧
      (publishFlags qosValue duplicateMsg serverRetain &&& 0x1 ≠ 0 ↔ serverRetain) := by
  cases qosValue <;> cases duplicateMsg <;> cases serverRetain <;> decide

theorem receivedQos_publishFlags (qosValue : QosValue) (duplicateMsg serverRetain : Bool) :
    receivedQos (publishFlags qosValue duplicateMsg serverRetain) = qosValue ↔
      qosValue ≠ .deliverFailure ∧
        (qosValue = .deliverAtMostOnce → duplicateMsg = false ∧ serverRetain = false) := by
  cases qosValue <;> cases duplicateMsg <;> cases serverRetain <;> decide

def publishPacket (message : MqttMessage) : Packet :=
  ⟨.publish, message.flags, publishBody message, by decide, publishFlags_le ..⟩

theorem mqttCodecPublish_eq (h : mqttCodecPublish message = some (some bytes)) :
    message.topicName.bytes.length ≤ USHRT_MAX ∧ (publishPacket message).bytes = some bytes := by
  rw [mqttCodecPublish, constructPublishVariableHeader] at h
  split at h
  · cases h
  · split at h
    · cases h
    · rename_i header hheader
      split at hheader
      · cases hheader
      · rename_i htopic
        cases hheader
        obtain ⟨bytes', hbytes, hsome⟩ := Option.map_eq_some_iff.mp h
        cases hsome
        exact ⟨Nat.le_of_not_lt htopic, hbytes⟩

theorem publishBody_ne_nil (message : MqttMessage) : publishBody message ≠ [] :=
  List.cons_ne_nil _ _

theorem deliverable_publishPacket :
    (publishPacket message).Deliverable ↔ (publishBody message).length < 128 ^ 3 :=
  and_iff_right (publishBody_ne_nil message)

def behindTopic (message : MqttMessage) : List UInt8 :=
  (if message.qosInfo = .deliverAtMostOnce then [] else byteutilWriteInt message.packetId) ++
    message.appPayload

theorem asSent_qosInfo (message : MqttMessage) : (asSent message).qosInfo = message.qosInfo := by
  rw [asSent]
  split <;> rfl

theorem receivedMessage_eq_iff :
    receivedMessage message.flags message.topicName.bytes (behindTopic message) = asSent message ↔
      receivedQos message.flags = message.qosInfo := by
  obtain ⟨packetId, qosInfo, topicName, appPayload, duplicate, retained⟩ := message
  obtain ⟨hduplicate, hretained⟩ := publishFlags_bits qosInfo duplicate retained
  constructor
  · intro h
    rw [← asSent_qosInfo, ← h]
    rfl
  · intro h
    rw [receivedMessage, h, cString_bytes, behindTopic, asSent]
    dsimp only [MqttMessage.flags] at hduplicate hretained ⊢
    simp only [hduplicate, hretained, Bool.decide_eq_true]
    by_cases hqos : qosInfo = .deliverAtMostOnce
    · rw [if_pos hqos, if_pos hqos, if_pos hqos, List.nil_append]
    · rw [if_neg hqos, if_neg hqos, if_neg hqos, byteutilReadUint16_writeInt]

theorem recvPublish_publishBody (htopic : message.topicName.bytes.length ≤ USHRT_MAX) :
    recvPublish message.flags (publishBody message) = some (
      if message.topicName.bytes = [] then [.error .parseError]
      else
        let received := receivedMessage message.flags message.topicName.bytes (behindTopic message)
        .message received :: publishReply received.qosInfo received.packetId) := by
  rw [recvPublish, publishBody, List.append_assoc, ← behindTopic]
  split
  · rename_i hempty
    rw [hempty, byteutilReadUTF_empty]
    rfl
  · rename_i hne
    rw [byteutilReadUTF_writeUTF htopic hne]
    rfl

theorem publishedStream_cons (h : publishedStream (message :: messages) = some stream) :
    ∃ bytes rest, mqttCodecPublish message = some (some bytes) ∧
      publishedStream messages = some rest ∧ stream = bytes ++ rest := by
  rw [publishedStream] at h
  split at h
  · rename_i bytes hbytes
    obtain ⟨rest, hrest, rfl⟩ := Option.map_eq_some_iff.mp h
    exact ⟨bytes, rest, hbytes, hrest, rfl⟩
  · cases h

theorem streamOf_publishPacket (h : publishedStream messages = some stream) :
    streamOf (messages.map publishPacket) = some stream := by
  induction messages generalizing stream with
  | nil => exact h
  | cons message messages ih =>
    obtain ⟨bytes, rest, hbytes, hrest, rfl⟩ := publishedStream_cons h
    rw [List.map_cons, streamOf, (mqttCodecPublish_eq hbytes).2, ih hrest]
    rfl

theorem topic_le_of_published (h : publishedStream messages = some stream) :
    ∀ message ∈ messages, message.topicName.bytes.length ≤ USHRT_MAX := by
  induction messages generalizing stream with
  | nil => nofun
  | cons message messages ih =>
    obtain ⟨bytes, rest, hbytes, hrest, -⟩ := publishedStream_cons h
    exact List.forall_mem_cons.mpr ⟨(mqttCodecPublish_eq hbytes).1, ih hrest⟩

def performed (message : MqttMessage) : List Effect :=
  if message.topicName.bytes = [] then [.error .parseError]
  else
    let received := receivedMessage message.flags message.topicName.bytes (behindTopic message)
    .message received :: publishReply received.qosInfo received.packetId

theorem recvAll_published {events : List (PacketComplete × Option ℕ)}
    (htopics : ∀ message ∈ messages, message.topicName.bytes.length ≤ USHRT_MAX)
    (hpackets : ∀ message ∈ messages, (publishPacket message).Deliverable)
    (hevents : Stamps ((messages.map publishPacket).map Packet.complete) events)
    (client : MqttClient) :
    ∃ client', recvAll client events = ⟨messages.flatMap performed, some client'⟩ := by
  induction messages generalizing client events with
  | nil =>
    cases List.map_eq_nil_iff.mp hevents.1
    exact ⟨client, rfl⟩
  | cons message messages ih =>
    obtain ⟨now, rest, rfl, hrest⟩ := hevents.of_cons
    obtain ⟨client', hclient'⟩ := ih (fun m hm => htopics m (List.mem_cons_of_mem _ hm))
      (fun m hm => hpackets m (List.mem_cons_of_mem _ hm)) hrest { client with packetRecvTimeMs := now }
    have hfirst : recvCompleteCallback (some now) client (publishPacket message).complete =
        ⟨performed message, some { client with packetRecvTimeMs := now }⟩ := by
      rw [recvCompleteCallback_complete (hpackets message List.mem_cons_self)]
      change (Logged.holding (recvPublish message.flags (publishBody message)) >>= _) = _
      rw [recvPublish_publishBody (htopics message List.mem_cons_self)]
      rfl
    refine ⟨client', ?_⟩
    rw [recvAll, hfirst, Logged.bind_done, hclient', List.flatMap_cons]

theorem publishReply_asSent (message : MqttMessage) :
    publishReply (asSent message).qosInfo (asSent message).packetId =
      publishReply message.qosInfo message.packetId := by
  rw [asSent]
  split
  · rename_i hqos
    dsimp only
    rw [hqos]
    rfl
  · rfl

theorem performed_eq_reception (htopic : message.topicName.bytes ≠ [])
    (hqos : receivedQos message.flags = message.qosInfo) :
    performed message = reception message := by
  rw [performed, if_neg htopic, receivedMessage_eq_iff.mpr hqos, reception]
  exact congrArg _ (publishReply_asSent message)

theorem qos_of_head {effects effects' : List Effect}
    (h : performed message ++ effects = reception message ++ effects') :
    message.topicName.bytes ≠ [] ∧ receivedQos message.flags = message.qosInfo := by
  rw [performed] at h
  split at h
  · cases h
  · rename_i htopic
    rw [reception, List.cons_append, List.cons_append] at h
    exact ⟨htopic, receivedMessage_eq_iff.mp (Effect.message.inj (List.head_eq_of_cons_eq h))⟩

theorem faithful_of_performed
    (hshort : ∀ message ∈ messages, (publishBody message).length < 128 ^ 3)
    (h : messages.flatMap performed = messages.flatMap reception) :
    ∀ message ∈ messages, Faithful message := by
  induction messages with
  | nil => nofun
  | cons message messages ih =>
    rw [List.flatMap_cons, List.flatMap_cons] at h
    obtain ⟨htopic, hqos⟩ := qos_of_head h
    rw [performed_eq_reception htopic hqos] at h
    refine List.forall_mem_cons.mpr ⟨⟨htopic, hshort message List.mem_cons_self,
      (receivedQos_publishFlags ..).mp hqos⟩, ?_⟩
    exact ih (fun m hm => hshort m (List.mem_cons_of_mem _ hm)) (List.append_cancel_left h)

theorem short_of_feed {codec : MqttCodec} {log : List PacketComplete} {tail : List UInt8}
    (hstream : publishedStream messages = some stream)
    (hfeed : feed receiveByte mqttCodecCreate (stream ++ tail) = ⟨log, some (true, codec)⟩) :
    ∀ message ∈ messages, (publishBody message).length < 128 ^ 3 := by
  induction messages generalizing stream log with
  | nil => nofun
  | cons message messages ih =>
    obtain ⟨bytes, rest, hbytes, hrest, rfl⟩ := publishedStream_cons hstream
    have hpacket := (mqttCodecPublish_eq hbytes).2
    have hshort : (publishBody message).length < 128 ^ 3 := by
      by_contra hlong
      obtain ⟨length, hlength, rfl⟩ := bytes_eq hpacket
      rw [List.append_assoc, ← List.cons_append, List.append_assoc] at hfeed
      exact feed_long ControlPacketType.noConfusion hlength (Nat.le_of_not_lt hlong) hfeed
    rw [List.append_assoc, feed_append_of
      (feed_packet (deliverable_publishPacket.mpr hshort) hpacket)] at hfeed
    have hrests : feed receiveByte mqttCodecCreate (rest ++ tail) =
        ⟨(feed receiveByte mqttCodecCreate (rest ++ tail)).log, some (true, codec)⟩ :=
      congrArg (Logged.mk _) (congrArg Logged.value hfeed)
    exact List.forall_mem_cons.mpr ⟨hshort, ih hrest hrests⟩

theorem reception_no_error : .error .parseError ∉ messages.flatMap reception := by
  intro h
  obtain ⟨message, -, h⟩ := List.mem_flatMap.mp h
  obtain h | h := List.mem_cons.mp h
  · cases h
  · unfold publishReply at h
    split at h <;> simp at h

/-- The receiver does for each message what it should do for it, and nothing else, if and only if
every message is one that the packet format of the two clients carries unchanged. -/
theorem messages_received_iff {tail : List UInt8} {arrivals : List Arrival}
    (hstream : publishedStream messages = some stream) (htail : Unfinished tail)
    (harrivals : (arrivals.map (·.buffer)).flatten = stream ++ tail)
    (hne : ∀ arrival ∈ arrivals, arrival.buffer ≠ [])
    (hclock : ∀ arrival ∈ arrivals, ∀ n, arrival.clock n ≠ none) (client : MqttClient) :
    (∃ s, receiveAll ⟨mqttCodecCreate, client⟩ arrivals =
        ⟨messages.flatMap reception, some s⟩) ↔
      ∀ message ∈ messages, Faithful message := by
  have hdelivered : (∀ message ∈ messages, (publishBody message).length < 128 ^ 3) →
      ∃ s, receiveAll ⟨mqttCodecCreate, client⟩ arrivals =
        ⟨messages.flatMap performed, some s⟩ := by
    intro hshort
    have hpackets : ∀ p ∈ messages.map publishPacket, p.Deliverable :=
      List.forall_mem_map.mpr fun m hm => deliverable_publishPacket.mpr (hshort m hm)
    obtain ⟨codec, hunfinished⟩ := feed_unfinished htail
    have hfeed := feed_append_eq (feed_stream (streamOf_publishPacket hstream) hpackets) hunfinished
    rw [← harrivals, List.append_nil] at hfeed
    obtain ⟨events, hevents, hrun⟩ := receiveAll_eq hne hclock hfeed
    obtain ⟨client', hclient'⟩ := recvAll_published (topic_le_of_published hstream)
      (fun m hm => deliverable_publishPacket.mpr (hshort m hm)) hevents client
    refine ⟨⟨codec, client'⟩, ?_⟩
    rw [hrun, hclient', Logged.bind_pure]
    rfl
  constructor
  · rintro ⟨s, hs⟩
    obtain ⟨log, hfeed⟩ := feed_of_receiveAll hne hs reception_no_error
    rw [harrivals] at hfeed
    have hshort := short_of_feed hstream hfeed
    obtain ⟨s', hs'⟩ := hdelivered hshort
    rw [hs] at hs'
    exact faithful_of_performed hshort (Logged.mk.inj hs').1.symm
  · intro hfaithful
    obtain ⟨s, hs⟩ := hdelivered fun m hm => (hfaithful m hm).2.1
    have heffects : messages.flatMap performed = messages.flatMap reception := by
      refine List.flatMap_congr fun m hm => ?_
      exact performed_eq_reception (hfaithful m hm).1
        ((receivedQos_publishFlags ..).mpr (hfaithful m hm).2.2)
    exact ⟨s, heffects ▸ hs⟩

end

def greeting : MqttMessage :=
  ⟨7, .deliverAtLeastOnce, ⟨[116], by decide⟩, [104, 105], true, false⟩

def parting : MqttMessage := ⟨8, .deliverExactlyOnce, ⟨[116], by decide⟩, [98], false, true⟩

/-- Two messages, and a CONNACK that is cut off, in three pieces. -/
theorem greeting_received : ∃ s, receiveAll ⟨mqttCodecCreate, idleClient⟩
      [⟨[0x3A, 7, 0], fun _ => some 1⟩,
        ⟨[1, 116, 0, 7, 104, 105, 0x35, 6, 0, 1], fun _ => some 2⟩,
        ⟨[116, 0, 8, 98, 0x20, 2], fun _ => some 3⟩] =
    ⟨[.message greeting, .sent [0x40, 2, 0, 7], .message parting, .sent [0x50, 2, 0, 8]],
      some s⟩ := by
  refine (@messages_received_iff [greeting, parting] _ _ _ rfl unfinished_connack rfl (by decide) ?_
    idleClient).mpr ?_
  · rintro arrival harrival n
    simp only [List.mem_cons, List.not_mem_nil, or_false] at harrival
    obtain rfl | rfl | rfl := harrival <;> exact Option.some_ne_none _
  · exact List.forall_mem_cons.mpr ⟨⟨by decide, by decide, by decide, nofun⟩,
      List.forall_mem_singleton.mpr ⟨by decide, by decide, by decide, nofun⟩⟩

end IotEdgeAgent.Umqtt
