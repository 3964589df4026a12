import IotEdgeAgent.Library.Items
import IotEdgeAgent.Umqtt.Publishing

/-!
# SUBSCRIBE and UNSUBSCRIBE on the wire

The two packets of a client that name topics, and what a server reads from them.
-/

namespace IotEdgeAgent.Umqtt

open Feed Items Strings

inductive TopicRequest
  | subscribe (subscribeList : List SubscribePayload)
  | unsubscribe (unsubscribeList : List CText)

namespace TopicRequest

def packetType : TopicRequest → ControlPacketType
  | subscribe _ => .subscribe
  | unsubscribe _ => .unsubscribe

def topics : TopicRequest → List CText
  | subscribe subscribeList => subscribeList.map (·.subscribeTopic)
  | unsubscribe unsubscribeList => unsubscribeList

def encode (packetId : UInt16) : TopicRequest → Option (Option (List UInt8))
  | subscribe subscribeList => mqttCodecSubscribe packetId subscribeList
  | unsubscribe unsubscribeList => mqttCodecUnsubscribe packetId unsubscribeList

end TopicRequest

def readText (buffer : List UInt8) : Option (List UInt8 × List UInt8) :=
  let (len, buffer) := byteutilReadUint16 buffer
  if len.toNat ≤ buffer.length then some (buffer.take len.toNat, buffer.drop len.toNat) else none

def readFilter (buffer : List UInt8) : Option ((List UInt8 × UInt8) × List UInt8) := do
  let (topic, buffer) ← readText buffer
  let (qos, buffer) ← byteutilReadByte buffer
  return ((topic, qos), buffer)

inductive ServerRequest
  | subscribe (packetId : UInt16) (filters : List (List UInt8 × UInt8))
  | unsubscribe (packetId : UInt16) (filters : List (List UInt8))
  deriving DecidableEq

def readRequest (event : PacketComplete) : Option ServerRequest := do
  let buffer ← event.headerData
  let (packetId, filters) := byteutilReadUint16 buffer.bytes
  match event.packet with
  | .subscribe => return .subscribe packetId (← readAll readFilter filters.length filters)
  | .unsubscribe => return .unsubscribe packetId (← readAll readText filters.length filters)
  | _ => none

/-- The request as the server should read it. -/
def TopicRequest.meant (packetId : UInt16) : TopicRequest → ServerRequest
  | subscribe subscribeList => .subscribe packetId
      (subscribeList.map fun payload => (payload.subscribeTopic.bytes, payload.qosReturn.toByte))
  | unsubscribe unsubscribeList => .unsubscribe packetId (unsubscribeList.map (·.bytes))

section
variable {text buffer : List UInt8} {payloads : List SubscribePayload} {unsubscribeList : List CText}
  {bytes : List UInt8} {packetId : UInt16} {request : TopicRequest}

theorem readText_writeUTF (htext : text.length ≤ USHRT_MAX) (buffer : List UInt8) :
    readText (byteutilWriteUTF text ++ buffer) = some (text, buffer) := by
  have hlen : (UInt16.ofNat text.length).toNat = text.length := by
    rw [UInt16.toNat_ofNat']
    exact Nat.mod_eq_of_lt (Nat.lt_succ_of_le htext)
  rw [readText, byteutilWriteUTF, List.append_assoc, byteutilReadUint16_writeInt]
  dsimp only
  rw [hlen, if_pos, List.take_left, List.drop_left]
  rw [List.length_append]
  exact Nat.le_add_right ..

def writeFilter (filter : List UInt8 × UInt8) : List UInt8 :=
  byteutilWriteUTF filter.1 ++ [filter.2]

theorem readText_delimits (htext : text.length ≤ USHRT_MAX) :
    Delimits readText byteutilWriteUTF text :=
  ⟨readText_writeUTF htext, List.cons_ne_nil _ _⟩

theorem readFilter_delimits {filter : List UInt8 × UInt8} (htext : filter.1.length ≤ USHRT_MAX) :
    Delimits readFilter writeFilter filter := by
  refine ⟨fun rest => ?_, List.cons_ne_nil _ _⟩
  rw [readFilter, writeFilter, List.append_assoc, readText_writeUTF htext]
  rfl

def filterOf (payload : SubscribePayload) : List UInt8 × UInt8 :=
  (payload.subscribeTopic.bytes, payload.qosReturn.toByte)

theorem addListItemsToSubscribePacket_eq :
    addListItemsToSubscribePacket payloads =
      if ∃ payload ∈ payloads, USHRT_MAX < payload.subscribeTopic.bytes.length then none
      else some ((payloads.map filterOf).flatMap writeFilter) := by
  induction payloads with
  | nil => rfl
  | cons payload payloads ih =>
    rw [addListItemsToSubscribePacket, ih]
    by_cases hlong : USHRT_MAX < payload.subscribeTopic.bytes.length
    · rw [if_pos hlong, if_pos ⟨payload, List.mem_cons_self, hlong⟩]
    · simp only [hlong, if_false, List.exists_mem_cons_iff, false_or]
      split
      · rfl
      · simp [writeFilter, filterOf]

theorem addListItemsToUnsubscribePacket_eq :
    addListItemsToUnsubscribePacket unsubscribeList =
      if ∃ topic ∈ unsubscribeList, USHRT_MAX < topic.bytes.length then none
      else some ((unsubscribeList.map (·.bytes)).flatMap byteutilWriteUTF) := by
  induction unsubscribeList with
  | nil => rfl
  | cons topic unsubscribeList ih =>
    rw [addListItemsToUnsubscribePacket, ih]
    by_cases hlong : USHRT_MAX < topic.bytes.length
    · rw [if_pos hlong, if_pos ⟨topic, List.mem_cons_self, hlong⟩]
    · simp only [hlong, if_false, List.exists_mem_cons_iff, false_or]
      split
      · rfl
      · simp

def TopicRequest.items : TopicRequest → List UInt8
  | subscribe subscribeList => (subscribeList.map filterOf).flatMap writeFilter
  | unsubscribe unsubscribeList => (unsubscribeList.map (·.bytes)).flatMap byteutilWriteUTF

theorem encode_eq (packetId : UInt16) (request : TopicRequest) :
    request.encode packetId =
      if request.topics = [] ∨ ∃ topic ∈ request.topics, USHRT_MAX < topic.bytes.length then some none
      else (constructFixedHeader (byteutilWriteInt packetId ++ request.items)
        request.packetType 0x2).map some := by
  cases request with
  | subscribe payloads =>
    have htopics : (∃ topic ∈ payloads.map (·.subscribeTopic), USHRT_MAX < topic.bytes.length) ↔
        ∃ payload ∈ payloads, USHRT_MAX < payload.subscribeTopic.bytes.length := by simp
    rw [TopicRequest.encode, mqttCodecSubscribe, addListItemsToSubscribePacket_eq,
      TopicRequest.topics]
    simp only [htopics, List.map_eq_nil_iff]
    by_cases hnil : payloads = []
    · rw [if_pos hnil, if_pos (.inl hnil)]
    · simp only [hnil, if_false, false_or]
      by_cases hlong : ∃ payload ∈ payloads, USHRT_MAX < payload.subscribeTopic.bytes.length
      · simp only [hlong, if_true]
      · simp only [hlong, if_false]
        rfl
  | unsubscribe topics =>
    rw [TopicRequest.encode, mqttCodecUnsubscribe, addListItemsToUnsubscribePacket_eq,
      TopicRequest.topics]
    by_cases hnil : topics = []
    · rw [if_pos hnil, if_pos (.inl hnil)]
    · simp only [hnil, if_false, false_or]
      by_cases hlong : ∃ topic ∈ topics, USHRT_MAX < topic.bytes.length
      · simp only [hlong, if_true]
      · simp only [hlong, if_false]
        rfl

theorem readRequest_items
    (hshort : ¬ ∃ topic ∈ request.topics, USHRT_MAX < topic.bytes.length) {flags : UInt8} {n : ℕ} :
    readRequest ⟨request.packetType, flags,
      some ⟨n, byteutilWriteInt packetId ++ request.items⟩⟩ = some (request.meant packetId) := by
  rw [readRequest, Option.bind_eq_bind, Option.bind_some, byteutilReadUint16_writeInt]
  cases request with
  | subscribe payloads =>
    have hitems : ∀ filter ∈ payloads.map filterOf, Delimits readFilter writeFilter filter := by
      refine List.forall_mem_map.mpr fun payload hpayload => readFilter_delimits ?_
      refine Nat.le_of_not_lt fun hlong => hshort ?_
      exact ⟨payload.subscribeTopic, List.mem_map_of_mem hpayload, hlong⟩
    dsimp only [TopicRequest.packetType, TopicRequest.items]
    rw [readAll_write hitems (length_le_flatMap hitems)]
    rfl
  | unsubscribe topics =>
    have hitems : ∀ text ∈ topics.map (·.bytes), Delimits readText byteutilWriteUTF text := by
      refine List.forall_mem_map.mpr fun topic htopic => readText_delimits ?_
      exact Nat.le_of_not_lt fun hlong => hshort ⟨topic, htopic, hlong⟩
    dsimp only [TopicRequest.packetType, TopicRequest.items]
    rw [readAll_write hitems (length_le_flatMap hitems)]
    rfl

theorem packetType_onWire (request : TopicRequest) : request.packetType.OnWire := by
  cases request <;> exact ⟨ControlPacketType.noConfusion, ControlPacketType.noConfusion⟩

theorem constructFixedHeader_isSome {ctrlPacket : List UInt8} (h : ctrlPacket.length < 128 ^ 3)
    (packetType : ControlPacketType) (flags : UInt8) :
    (constructFixedHeader ctrlPacket packetType flags).isSome := by
  rw [constructFixedHeader, Option.isSome_map, Base128.encode_isSome]
  exact ⟨Nat.lt_trans h (by decide), by decide⟩

/-- A request is refused when it names no topic or one that is too long. Any other one of less than
two megabytes becomes a packet and arrives as one, in which the server reads exactly what was asked
for. -/
theorem request_read_back (packetId : UInt16) (request : TopicRequest) :
    (request.encode packetId = some none ↔
        request.topics = [] ∨ ∃ topic ∈ request.topics, USHRT_MAX < topic.bytes.length) ∧
      (request.topics ≠ [] → (∀ topic ∈ request.topics, topic.bytes.length ≤ USHRT_MAX) →
        request.items.length + 2 < 128 ^ 3 →
        ∃ bytes event, request.encode packetId = some (some bytes) ∧
          feed receiveByte mqttCodecCreate bytes = ⟨[event], some (true, mqttCodecCreate)⟩ ∧
          readRequest event = some (request.meant packetId)) := by
  rw [encode_eq]
  constructor
  · constructor
    · intro h
      by_contra hfits
      rw [if_neg hfits] at h
      obtain ⟨bytes, -, h⟩ := Option.map_eq_some_iff.mp h
      cases h
    · exact fun h => if_pos h
  · intro hsome hshort hsize
    have hlong : ¬ ∃ topic ∈ request.topics, USHRT_MAX < topic.bytes.length := by
      rintro ⟨topic, htopic, hlong⟩
      exact Nat.not_lt.mpr (hshort topic htopic) hlong
    have hbodysize : (byteutilWriteInt packetId ++ request.items).length < 128 ^ 3 := by
      rw [List.length_append, Nat.add_comm]
      exact hsize
    obtain ⟨bytes, hbytes⟩ := Option.isSome_iff_exists.mp
      (constructFixedHeader_isSome hbodysize request.packetType 0x2)
    let p : Packet := ⟨request.packetType, 0x2, byteutilWriteInt packetId ++ request.items,
      packetType_onWire request, by decide⟩
    have hping : request.packetType ≠ .pingresp := by
      cases request <;> exact ControlPacketType.noConfusion
    have hbody : p.body ≠ [] := List.cons_ne_nil _ _
    have hp : p.Deliverable := (if_neg hping).mpr ⟨hbody, hbodysize⟩
    refine ⟨bytes, p.complete, ?_, feed_packet hp hbytes, ?_⟩
    · rw [if_neg (not_or.mpr ⟨hsome, hlong⟩), hbytes]
      rfl
    · rw [Packet.complete, if_neg hbody]
      exact readRequest_items hlong

end

def twoFilters : TopicRequest :=
  .subscribe [⟨⟨[97], by decide⟩, .deliverAtLeastOnce⟩, ⟨⟨[98, 99], by decide⟩, .deliverAtMostOnce⟩]

theorem two_filters_read_back : ∃ bytes event,
    twoFilters.encode 7 = some (some bytes) ∧
    feed receiveByte mqttCodecCreate bytes = ⟨[event], some (true, mqttCodecCreate)⟩ ∧
    readRequest event = some (.subscribe 7 [([97], 1), ([98, 99], 0)]) :=
  (request_read_back 7 twoFilters).2 (List.cons_ne_nil _ _) (by decide) (by decide)

end IotEdgeAgent.Umqtt
