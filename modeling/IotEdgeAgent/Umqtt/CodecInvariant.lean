import IotEdgeAgent.Umqtt.Codec

/-!
# What the codec never does

Whatever arrives, in whatever chunks, and whatever the calls return: a body is called back with
only when it is complete, and what is called back with was received, in this order, once.
-/

namespace IotEdgeAgent.Umqtt

open Feed Logged

structure MqttCodec.Valid (codec : MqttCodec) : Prop where
  started : codec.currPacket = .unknown → codec.codecState = .fixedHeader
  unread : codec.codecState = .fixedHeader → codec.headerData = none
  open_ : ∀ headerData, codec.headerData = some headerData →
    headerData.bytes.length < headerData.length

def Whole (event : PacketComplete) : Prop :=
  event.packet = .pingresp ∨
    ∃ headerData, event.headerData = some headerData ∧
      headerData.bytes.length = headerData.length

def received (event : PacketComplete) : List UInt8 := (event.headerData.map (·.bytes)).getD []

def MqttCodec.held (codec : MqttCodec) : List UInt8 := (codec.headerData.map (·.bytes)).getD []

theorem mqttCodecCreate_valid : mqttCodecCreate.Valid :=
  ⟨fun _ => rfl, fun _ => rfl, nofun⟩

theorem processControlPacketType_ne_unknown (pktByte : UInt8) :
    (processControlPacketType pktByte).1 ≠ .unknown := by
  rw [processControlPacketType]
  split <;> exact ControlPacketType.noConfusion

variable {codec codec' : MqttCodec} {byte : UInt8} {prepared : Bool} {headerData : Buffer}

theorem complete_eq (codec : MqttCodec) :
    (completePacketData codec >>= fun codec => pure (prepared, codec)) =
      ⟨[⟨codec.currPacket, codec.headerFlags, codec.headerData⟩],
        some (prepared, { mqttCodecCreate with storeRemainLen := codec.storeRemainLen })⟩ := rfl

theorem completeIf_keeps {complete : Prop} [Decidable complete]
    (hwhole : complete → Whole ⟨codec.currPacket, codec.headerFlags, codec.headerData⟩)
    (hvalid : ¬ complete → codec.Valid) (prepared : Bool) :
    Keeps MqttCodec.Valid Whole
      (completeIf complete codec >>= fun codec => pure (prepared, codec)) := by
  rw [completeIf]
  split
  · rename_i hcomplete
    rw [complete_eq]
    refine ⟨.doing (hwhole hcomplete) (none : Option Unit), ?_⟩
    rintro r hr
    cases hr
    exact ⟨fun _ => rfl, fun _ => rfl, nofun⟩
  · rename_i hcomplete
    exact .pure (hvalid hcomplete)

theorem completeIf_yield {complete : Prop} [Decidable complete] (prepared : Bool) :
    yield received MqttCodec.held
      (completeIf complete codec >>= fun codec => pure (prepared, codec)) = codec.held := by
  rw [completeIf]
  split
  · rw [complete_eq, yield]
    simp [received, MqttCodec.held, mqttCodecCreate]
  · rfl

theorem prepareheaderDataInfo_valid (hcodec : codec.codecState = .fixedHeader)
    (hknown : codec.currPacket ≠ .unknown) (hv : codec.Valid)
    (h : prepareheaderDataInfo codec byte = some (prepared, codec')) :
    codec'.currPacket ≠ .unknown ∧ codec'.Valid := by
  have hnone := hv.unread hcodec
  rw [prepareheaderDataInfo] at h
  split at h
  · cases h
  · split at h
    · cases h
      refine ⟨hknown, fun h => absurd h hknown, nofun, ?_⟩
      intro headerData hdata
      split at hdata
      · cases hdata
        assumption
      · rw [hnone] at hdata
        cases hdata
    · cases h
      exact ⟨hknown, hv.started, hv.unread, hv.open_⟩

theorem prepareheaderDataInfo_held
    (h : prepareheaderDataInfo codec byte = some (prepared, codec')) :
    codec'.held.Sublist codec.held := by
  rw [prepareheaderDataInfo] at h
  split at h
  · cases h
  · split at h
    · cases h
      rw [MqttCodec.held]
      dsimp only
      split
      · exact List.nil_sublist _
      · exact .refl _
    · cases h
      exact .refl _

theorem receiveLength_eq (h : prepareheaderDataInfo codec byte = some (prepared, codec')) :
    receiveLength codec byte =
      completeIf ((markError prepared codec').currPacket = .pingresp) (markError prepared codec') >>=
        fun codec => pure (prepared, codec) := by
  rw [receiveLength, h]
  exact Logged.pure_bind (prepared, codec') _

theorem receiveLength_keeps (hcodec : codec.codecState = .fixedHeader)
    (hknown : codec.currPacket ≠ .unknown) (hv : codec.Valid) :
    Keeps MqttCodec.Valid Whole (receiveLength codec byte) := by
  rcases hprepared : prepareheaderDataInfo codec byte with _ | ⟨prepared, codec'⟩
  · rw [receiveLength, hprepared]
    exact ⟨nofun, nofun⟩
  · obtain ⟨-, hvalid⟩ := prepareheaderDataInfo_valid hcodec hknown hv hprepared
    rw [receiveLength_eq hprepared]
    refine completeIf_keeps .inl (fun _ => ?_) _
    cases prepared with
    | false => exact ⟨nofun, hvalid.unread, hvalid.open_⟩
    | true => exact hvalid

theorem receiveBody_keeps (hcodec : codec.codecState = .varHeader) (hv : codec.Valid)
    (hdata : codec.headerData = some headerData) :
    Keeps MqttCodec.Valid Whole (receiveBody codec headerData byte) := by
  have hroom := hv.open_ headerData hdata
  refine completeIf_keeps (fun hfull => .inr ⟨_, rfl, ?_⟩) (fun hfull => ⟨?_, ?_, ?_⟩) _
  · rw [List.length_append, List.length_singleton] at hfull ⊢
    exact Nat.le_antisymm hroom hfull
  · exact hv.started
  · intro h
    cases hcodec.symm.trans h
  · rintro _ ⟨⟩
    exact Nat.lt_of_not_le hfull

theorem receiveByte_keeps (codec : MqttCodec) (byte : UInt8) (hv : codec.Valid) :
    Keeps MqttCodec.Valid Whole (receiveByte codec byte) := by
  rw [receiveByte]
  cases hcodec : codec.codecState with
  | fixedHeader =>
    dsimp only
    split
    · refine .pure ⟨fun h => ?_, fun _ => hv.unread hcodec, hv.open_⟩
      exact absurd h (processControlPacketType_ne_unknown byte)
    · rename_i hknown
      exact receiveLength_keeps hcodec hknown hv
  | varHeader =>
    dsimp only
    split
    · rename_i hdata
      refine .pure ⟨fun h => ?_, nofun, hv.open_⟩
      cases hcodec.symm.trans (hv.started h)
    · rename_i headerData hdata
      exact receiveBody_keeps hcodec hv hdata
  | payload => exact .pure ⟨nofun, nofun, hv.open_⟩

theorem receiveByte_yield (codec : MqttCodec) (byte : UInt8) :
    (yield received MqttCodec.held (receiveByte codec byte)).Sublist (codec.held ++ [byte]) := by
  rw [receiveByte]
  cases codec.codecState with
  | fixedHeader =>
    dsimp only
    split
    · exact List.sublist_append_left ..
    · refine List.Sublist.trans ?_ (List.sublist_append_left ..)
      rcases hprepared : prepareheaderDataInfo codec byte with _ | ⟨prepared, codec'⟩
      · rw [receiveLength, hprepared]
        exact List.nil_sublist _
      · have hheld : (markError prepared codec').held = codec'.held := by cases prepared <;> rfl
        rw [receiveLength_eq hprepared, completeIf_yield, hheld]
        exact prepareheaderDataInfo_held hprepared
  | varHeader =>
    dsimp only
    split
    · exact List.sublist_append_left ..
    · rename_i headerData hdata
      rw [receiveBody, completeIf_yield, MqttCodec.held, MqttCodec.held, hdata]
      exact .refl _
  | payload => exact List.sublist_append_left ..

theorem mqttCodecBytesReceived_keeps (codec : MqttCodec) (buffer : List UInt8)
    (hv : codec.Valid) : Keeps MqttCodec.Valid Whole (mqttCodecBytesReceived codec buffer) := by
  rw [mqttCodecBytesReceived]
  split
  · exact .pure ⟨nofun, hv.unread, hv.open_⟩
  · exact feed_keeps receiveByte_keeps hv buffer

theorem mqttCodecBytesReceived_yield (codec : MqttCodec) (buffer : List UInt8) :
    (yield received MqttCodec.held (mqttCodecBytesReceived codec buffer)).Sublist
      (codec.held ++ buffer) := by
  rw [mqttCodecBytesReceived]
  split
  · exact List.sublist_append_left ..
  · exact feed_yield receiveByte_yield codec buffer

theorem completed_whole_and_received (chunks : List (List UInt8)) :
    (feedChunks mqttCodecBytesReceived mqttCodecCreate chunks).Every Whole ∧
      ((feedChunks mqttCodecBytesReceived mqttCodecCreate chunks).log.flatMap received).Sublist
        chunks.flatten := by
  refine ⟨(feedChunks_keeps mqttCodecBytesReceived_keeps mqttCodecCreate_valid chunks).1, ?_⟩
  exact (List.sublist_append_left ..).trans
    (feedChunks_yield mqttCodecBytesReceived_yield mqttCodecCreate chunks)

end IotEdgeAgent.Umqtt
