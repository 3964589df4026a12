import IotEdgeAgent.Umqtt.CodecInvariant
import Mathlib.Data.List.Infix
import Mathlib.Tactic.Ring

/-!
# Packets on a stream

Which packets that umqtt's own fixed header announces come out of its codec again, wherever the
stream is cut.
-/

namespace IotEdgeAgent.Umqtt

open Feed

structure Packet where
  packetType : ControlPacketType
  flags : UInt8
  body : List UInt8
  onWire : packetType.OnWire
  halfByte : flags ≤ 0xf

theorem zero_le_halfByte : (0 : UInt8) ≤ 0xf := by decide

namespace Packet

def bytes (p : Packet) : Option (List UInt8) := constructFixedHeader p.body p.packetType p.flags

def complete (p : Packet) : PacketComplete :=
  ⟨p.packetType, p.flags, if p.body = [] then none else some ⟨p.body.length, p.body⟩⟩

/-- A PINGRESP has no body, every other packet has one, of less than two megabytes. -/
def Deliverable (p : Packet) : Prop :=
  if p.packetType = .pingresp then p.body = [] else p.body ≠ [] ∧ p.body.length < 128 ^ 3

instance (p : Packet) : Decidable p.Deliverable :=
  inferInstanceAs (Decidable (if p.packetType = .pingresp then p.body = []
    else p.body ≠ [] ∧ p.body.length < 128 ^ 3))

end Packet

/-- The beginning of a packet that the codec would deliver. -/
def Unfinished (stream : List UInt8) : Prop :=
  ∃ p : Packet, p.Deliverable ∧ ∃ bytes, p.bytes = some bytes ∧ stream <+: bytes ∧ stream ≠ bytes

section
variable {bytes : List UInt8} {multiplier totalLen : ℕ}

theorem remainLenLoop_delimited (hdelimited : Base128.Delimited bytes)
    (hroom : multiplier * 128 ^ bytes.length ≤ 128 ^ 3) :
    remainLenLoop multiplier totalLen bytes =
      (true, totalLen + multiplier * Base128.value bytes) := by
  induction bytes generalizing multiplier totalLen with
  | nil => exact (Base128.not_delimited_nil hdelimited).elim
  | cons b bytes ih =>
    rw [List.length_cons, pow_succ' _ bytes.length, ← mul_assoc] at hroom
    have hpos : 0 < 128 ^ bytes.length := Nat.pow_pos (by decide)
    have hnext : multiplier * 128 ≤ 128 ^ 3 := (Nat.le_mul_of_pos_right _ hpos).trans hroom
    rw [remainLenLoop, if_neg (by omega), Base128.value]
    obtain ⟨rfl, hb⟩ | ⟨hb, hbytes⟩ := Base128.delimited_cons.mp hdelimited
    · rw [if_neg (not_not_intro ((Base128.topBit_eq_zero b).mpr hb)), Base128.value,
        Nat.mul_comm multiplier, Nat.mul_zero, Nat.add_zero]
    · rw [if_pos (mt (Base128.topBit_eq_zero b).mp (UInt8.not_le.mpr hb)), ih hbytes hroom]
      refine congrArg (Prod.mk true) ?_
      ring

theorem remainLenLoop_long (hdelimited : Base128.Delimited bytes)
    (hroom : 128 ^ 3 < multiplier * 128 ^ bytes.length) :
    (remainLenLoop multiplier totalLen bytes).1 = false := by
  induction bytes generalizing multiplier totalLen with
  | nil => exact (Base128.not_delimited_nil hdelimited).elim
  | cons b bytes ih =>
    rw [List.length_cons, pow_succ' _ bytes.length, ← mul_assoc] at hroom
    rw [remainLenLoop]
    split
    · rfl
    · obtain ⟨rfl, hb⟩ | ⟨hb, hbytes⟩ := Base128.delimited_cons.mp hdelimited
      · rw [List.length_nil, pow_zero, Nat.mul_one] at hroom
        omega
      · rw [if_pos (mt (Base128.topBit_eq_zero b).mp (UInt8.not_le.mpr hb)), ih hbytes hroom]

end

section
variable {packetType : ControlPacketType} {flags b : UInt8} {stored bytes written : List UInt8}
  {n : ℕ}

def inHeader (packetType : ControlPacketType) (flags : UInt8) (stored : List UInt8) : MqttCodec :=
  ⟨packetType, .fixedHeader, flags, none, stored⟩

def inBody (packetType : ControlPacketType) (flags : UInt8) (n : ℕ) (written : List UInt8) :
    MqttCodec :=
  ⟨packetType, .varHeader, flags, some ⟨n, written⟩, []⟩

def behindLength (packetType : ControlPacketType) (flags : UInt8) (length : Bool × ℕ) : MqttCodec :=
  ⟨packetType, .varHeader, flags, if 0 < length.2 then some ⟨length.2, []⟩ else none, []⟩

theorem receiveByte_type (p : Packet) :
    receiveByte mqttCodecCreate (p.packetType.toByte ||| p.flags) =
      pure (true, inHeader p.packetType p.flags []) := by
  rw [receiveByte, mqttCodecCreate]
  simp only [if_true, processControlPacketType_or p.onWire p.halfByte]
  rfl

theorem receiveByte_inHeader (hknown : packetType ≠ .unknown) :
    receiveByte (inHeader packetType flags stored) b =
      receiveLength (inHeader packetType flags stored) b := by
  rw [receiveByte]
  exact if_neg hknown

theorem prepareheaderDataInfo_continued (hroom : stored.length < 4) (hb : 0x7f < b) :
    prepareheaderDataInfo (inHeader packetType flags stored) b =
      some (true, inHeader packetType flags (stored ++ [b])) :=
  (if_neg hroom.ne).trans (if_neg (UInt8.not_le.mpr hb))

theorem prepareheaderDataInfo_last (hroom : stored.length < 4) (hb : b ≤ 0x7f) :
    prepareheaderDataInfo (inHeader packetType flags stored) b =
      some ((remainLenLoop 1 0 (stored ++ [b])).1,
        behindLength packetType flags (remainLenLoop 1 0 (stored ++ [b]))) :=
  (if_neg hroom.ne).trans (if_pos hb)

theorem receiveByte_continued (hknown : packetType ≠ .unknown) (hping : packetType ≠ .pingresp)
    (hroom : stored.length < 4) (hb : 0x7f < b) :
    receiveByte (inHeader packetType flags stored) b =
      pure (true, inHeader packetType flags (stored ++ [b])) := by
  rw [receiveByte_inHeader hknown, receiveLength_eq (prepareheaderDataInfo_continued hroom hb),
    completeIf]
  exact congrArg (· >>= _) (if_neg hping)

theorem receiveByte_lastLength (hknown : packetType ≠ .unknown) (hping : packetType ≠ .pingresp)
    (hroom : stored.length < 4) (hb : b ≤ 0x7f) :
    receiveByte (inHeader packetType flags stored) b =
      pure ((remainLenLoop 1 0 (stored ++ [b])).1,
        markError (remainLenLoop 1 0 (stored ++ [b])).1
          (behindLength packetType flags (remainLenLoop 1 0 (stored ++ [b])))) := by
  rw [receiveByte_inHeader hknown, receiveLength_eq (prepareheaderDataInfo_last hroom hb)]
  generalize remainLenLoop 1 0 (stored ++ [b]) = length
  obtain ⟨_ | _, n⟩ := length
  · rfl
  · rw [completeIf]
    exact congrArg (· >>= _) (if_neg hping)

theorem feed_length (hknown : packetType ≠ .unknown) (hping : packetType ≠ .pingresp)
    (hroom : stored.length + bytes.length ≤ 4) (hbytes : Base128.Delimited bytes) :
    feed receiveByte (inHeader packetType flags stored) bytes =
      pure ((remainLenLoop 1 0 (stored ++ bytes)).1,
        markError (remainLenLoop 1 0 (stored ++ bytes)).1
          (behindLength packetType flags (remainLenLoop 1 0 (stored ++ bytes)))) := by
  induction bytes generalizing stored with
  | nil => exact (Base128.not_delimited_nil hbytes).elim
  | cons b bytes ih =>
    rw [List.length_cons] at hroom
    obtain ⟨rfl, hb⟩ | ⟨hb, hbytes⟩ := Base128.delimited_cons.mp hbytes
    · rw [feed, receiveByte_lastLength hknown hping (by omega) hb, Logged.pure_bind]
      dsimp only
      split
      · rename_i hended
        rw [hended]
        rfl
      · rename_i hended
        rw [Bool.not_eq_true] at hended
        rw [hended]
    · rw [feed_cons_pure (receiveByte_continued hknown hping (by omega) hb),
        ih (by rw [List.length_append, List.length_singleton]; omega) hbytes,
        List.append_cons stored b bytes]

theorem receiveByte_body (hroom : written.length + 1 < n) :
    receiveByte (inBody packetType flags n written) b =
      pure (true, inBody packetType flags n (written ++ [b])) := by
  rw [receiveByte, inBody]
  dsimp only
  rw [receiveBody, completeIf, if_neg]
  · rfl
  · dsimp only
    rw [List.length_append, List.length_singleton]
    omega

theorem receiveByte_lastBody (hroom : written.length + 1 = n) :
    receiveByte (inBody packetType flags n written) b =
      ⟨[⟨packetType, flags, some ⟨n, written ++ [b]⟩⟩], some (true, mqttCodecCreate)⟩ := by
  rw [receiveByte, inBody]
  dsimp only
  rw [receiveBody, completeIf, if_pos]
  · rfl
  · dsimp only
    rw [List.length_append, List.length_singleton]
    omega

theorem feed_body (hroom : written.length + bytes.length = n) (hne : bytes ≠ []) :
    feed receiveByte (inBody packetType flags n written) bytes =
      ⟨[⟨packetType, flags, some ⟨n, written ++ bytes⟩⟩], some (true, mqttCodecCreate)⟩ := by
  induction bytes generalizing written with
  | nil => exact absurd rfl hne
  | cons b bytes ih =>
    rw [List.length_cons] at hroom
    by_cases hbytes : bytes = []
    · subst hbytes
      rw [feed_cons (receiveByte_lastBody hroom), feed_nil]
      rfl
    · have hpos := List.length_pos_iff.mpr hbytes
      rw [feed_cons_pure (receiveByte_body (by omega)),
        ih (by rw [List.length_append, List.length_singleton]; omega) hbytes,
        List.append_cons written b bytes]

theorem receiveByte_pingresp (flags b : UInt8) :
    ∃ headerData stored, receiveByte (inHeader .pingresp flags []) b =
        ⟨[⟨.pingresp, flags, headerData⟩],
          some (true, { mqttCodecCreate with storeRemainLen := stored })⟩ ∧
      received ⟨.pingresp, flags, headerData⟩ = [] ∧
      (b = 0 → headerData = none ∧ stored = []) := by
  have hroom : ([] : List UInt8).length < 4 := by decide
  rw [receiveByte_inHeader ControlPacketType.noConfusion]
  by_cases hb : b ≤ 0x7f
  · have hloop : remainLenLoop 1 0 ([] ++ [b]) = (true, (b &&& 127).toNat) := by
      rw [List.nil_append, remainLenLoop, if_neg (by decide), if_neg]
      · rw [Nat.zero_add, Nat.mul_one]
      · exact not_not_intro ((Base128.topBit_eq_zero b).mpr hb)
    rw [receiveLength_eq (prepareheaderDataInfo_last hroom hb), hloop]
    refine ⟨_, [], rfl, ?_, ?_⟩
    · rw [received]
      dsimp only [markError, behindLength]
      rw [if_pos rfl]
      split <;> rfl
    · rintro rfl
      exact ⟨rfl, rfl⟩
  · rw [receiveLength_eq (prepareheaderDataInfo_continued hroom (UInt8.not_le.mp hb))]
    refine ⟨none, [b], rfl, rfl, ?_⟩
    rintro rfl
    exact absurd (by decide) hb

end

section
variable {p : Packet} {bytes rest : List UInt8} {log : List PacketComplete} {codec : MqttCodec}

theorem bytes_eq (h : p.bytes = some bytes) :
    ∃ length, Base128.encode 4 p.body.length = some length ∧
      bytes = (p.packetType.toByte ||| p.flags) :: (length ++ p.body) := by
  obtain ⟨length, hlength, rfl⟩ := Option.map_eq_some_iff.mp h
  exact ⟨length, hlength, rfl⟩

theorem feed_fixedHeader {length : List UInt8} (hping : p.packetType ≠ .pingresp)
    (hlength : Base128.encode 4 p.body.length = some length) :
    feed receiveByte mqttCodecCreate ((p.packetType.toByte ||| p.flags) :: length) =
      pure ((remainLenLoop 1 0 length).1,
        markError (remainLenLoop 1 0 length).1
          (behindLength p.packetType p.flags (remainLenLoop 1 0 length))) := by
  have hroom : length.length ≤ 4 :=
    (Base128.length_encode_le hlength).mpr (Base128.encode_isSome.mp (by rw [hlength]; rfl)).1
  rw [feed_cons_pure (receiveByte_type p), feed_length p.onWire.2 hping
    (by rwa [List.length_nil, Nat.zero_add]) (Base128.delimited_encode hlength), List.nil_append]

theorem encode_ne_nil {length : List UInt8} {n : ℕ} (hlength : Base128.encode 4 n = some length) :
    length ≠ [] := by
  rintro rfl
  exact Base128.not_delimited_nil (Base128.delimited_encode hlength)

theorem remainLenLoop_encode {length : List UInt8} {n : ℕ} (hlength : Base128.encode 4 n = some length)
    (hn : n < 128 ^ 3) : remainLenLoop 1 0 length = (true, n) := by
  have hroom : 1 * 128 ^ length.length ≤ 128 ^ 3 := by
    rw [Nat.one_mul]
    exact Nat.pow_le_pow_right (by decide) ((Base128.length_encode_le hlength).mpr hn)
  rw [remainLenLoop_delimited (Base128.delimited_encode hlength) hroom,
    Base128.value_encode hlength, Nat.one_mul, Nat.zero_add]

theorem feed_packet (hp : p.Deliverable) (h : p.bytes = some bytes) :
    feed receiveByte mqttCodecCreate bytes = ⟨[p.complete], some (true, mqttCodecCreate)⟩ := by
  obtain ⟨length, hlength, rfl⟩ := bytes_eq h
  rw [Packet.Deliverable] at hp
  split at hp
  · rename_i hping
    rw [hp] at hlength
    cases hlength
    obtain ⟨headerData, stored, hbyte, -, hzero⟩ := receiveByte_pingresp p.flags 0
    obtain ⟨rfl, rfl⟩ := hzero rfl
    rw [feed_cons_pure (receiveByte_type p), hp, Packet.complete, if_pos hp, hping]
    exact feed_cons hbyte
  · rename_i hping
    have hloop := remainLenLoop_encode hlength hp.2
    have hpos := List.length_pos_iff.mpr hp.1
    have hheader : feed receiveByte mqttCodecCreate
        ((p.packetType.toByte ||| p.flags) :: length) =
        ⟨[], some (true, inBody p.packetType p.flags p.body.length [])⟩ := by
      rw [feed_fixedHeader hping hlength, hloop, markError, if_pos rfl, behindLength, if_pos hpos]
      rfl
    have hbody : feed receiveByte (inBody p.packetType p.flags p.body.length []) p.body =
        ⟨[p.complete], some (true, mqttCodecCreate)⟩ := by
      rw [feed_body (Nat.zero_add _) hp.1, Packet.complete, if_neg hp.1, List.nil_append]
    exact feed_append_eq hheader hbody

theorem feed_long {length : List UInt8} (hping : p.packetType ≠ .pingresp)
    (hlength : Base128.encode 4 p.body.length = some length) (hlong : 128 ^ 3 ≤ p.body.length) :
    feed receiveByte mqttCodecCreate
        (((p.packetType.toByte ||| p.flags) :: length) ++ (p.body ++ rest)) ≠
      ⟨log, some (true, codec)⟩ := by
  have hbytes : 128 ^ 3 < 1 * 128 ^ length.length := by
    rw [Nat.one_mul]
    refine Nat.pow_lt_pow_right (by decide) (Nat.lt_of_not_le fun hshort => ?_)
    exact Nat.not_lt_of_le hlong ((Base128.length_encode_le hlength).mp hshort)
  have hheader := feed_fixedHeader hping hlength
  rw [remainLenLoop_long (Base128.delimited_encode hlength) hbytes] at hheader
  rw [feed_append, hheader]
  intro hfeed
  cases hfeed

theorem feed_unopened {flags : UInt8} {packetType : ControlPacketType}
    (hfeed : feed receiveByte (behindLength packetType flags (true, 0)) rest =
      ⟨log, some (true, codec)⟩) : log = [] := by
  rcases rest with _ | ⟨b, _ | ⟨b', rest⟩⟩
  · exact (congrArg Logged.log hfeed).symm
  · exact (congrArg Logged.log hfeed).symm
  · cases hfeed

theorem feed_undeliverable (hp : ¬ p.Deliverable) (h : p.bytes = some bytes)
    (hfeed : feed receiveByte mqttCodecCreate (bytes ++ rest) = ⟨log, some (true, codec)⟩) :
    log.head? ≠ some p.complete := by
  obtain ⟨length, hlength, rfl⟩ := bytes_eq h
  rw [Packet.Deliverable] at hp
  split at hp
  · rename_i hping
    -- The packet is complete behind the first byte of its length.
    obtain ⟨b, length, rfl⟩ := List.exists_cons_of_ne_nil (encode_ne_nil hlength)
    obtain ⟨headerData, stored, hbyte, hnothing, -⟩ := receiveByte_pingresp p.flags b
    rw [List.cons_append, feed_cons_pure (receiveByte_type p), hping, List.cons_append,
      List.cons_append, feed_cons hbyte] at hfeed
    have hlog := congrArg Logged.log hfeed
    dsimp only at hlog
    rw [← hlog]
    intro hhead
    have hbody : received p.complete = p.body := by
      rw [Packet.complete, if_neg hp]
      rfl
    rw [← hbody, ← Option.some.inj hhead] at hp
    exact hp hnothing
  · rename_i hping
    rw [List.cons_append, List.append_assoc, ← List.cons_append] at hfeed
    by_cases hbody : p.body = []
    · rw [hbody] at hlength hfeed
      have hheader := feed_fixedHeader hping (hbody ▸ hlength)
      cases hlength
      rw [feed_append, hheader, Logged.pure_bind] at hfeed
      rw [feed_unopened hfeed]
      nofun
    · refine absurd hfeed (feed_long hping hlength ?_)
      exact Nat.le_of_not_lt fun hshort => hp ⟨hbody, hshort⟩

end

section
variable {codec codec' : MqttCodec} {b : UInt8} {bytes : List UInt8} {succeeded : Bool}

theorem completeIf_silent {complete : Prop} [Decidable complete] {prepared : Bool}
    (h : (completeIf complete codec >>= fun codec => pure (prepared, codec)) =
      ⟨[], some (succeeded, codec')⟩) : codec' = codec := by
  rw [completeIf] at h
  split at h
  · cases h
  · cases h
    rfl

theorem receiveByte_silent (hv : codec.Valid)
    (h : receiveByte codec b = ⟨[], some (succeeded, codec')⟩) :
    codec'.currPacket ≠ .unknown := by
  rw [receiveByte] at h
  cases hcodec : codec.codecState with
  | fixedHeader =>
    rw [hcodec] at h
    dsimp only at h
    split at h
    · cases h
      exact processControlPacketType_ne_unknown b
    · rename_i hknown
      rcases hprepared : prepareheaderDataInfo codec b with _ | ⟨prepared, codec''⟩
      · rw [receiveLength, hprepared] at h
        cases h
      · rw [receiveLength_eq hprepared] at h
        rw [completeIf_silent h]
        cases prepared with
        | false => exact ControlPacketType.noConfusion
        | true => exact (prepareheaderDataInfo_valid hcodec hknown hv hprepared).1
  | varHeader =>
    have hknown : codec.currPacket ≠ .unknown := by
      intro hunknown
      cases hcodec.symm.trans (hv.started hunknown)
    rw [hcodec] at h
    dsimp only at h
    split at h
    · cases h
      exact hknown
    · rw [receiveBody] at h
      rw [completeIf_silent h]
      exact hknown
  | payload =>
    rw [hcodec] at h
    cases h
    exact ControlPacketType.noConfusion

theorem feed_silent (hv : codec.Valid)
    (h : feed receiveByte codec bytes = ⟨[], some (true, codec')⟩) (hne : bytes ≠ []) :
    codec'.currPacket ≠ .unknown := by
  induction bytes generalizing codec with
  | nil => exact absurd rfl hne
  | cons b bytes ih =>
    rw [← List.singleton_append] at h
    obtain ⟨log₁, log₂, next, hbyte, hbytes, hlog⟩ := feed_of_append h
    obtain ⟨rfl, rfl⟩ := List.append_eq_nil_iff.mp hlog.symm
    rw [feed_singleton] at hbyte
    by_cases hrest : bytes = []
    · rw [hrest] at hbytes
      cases hbytes
      exact receiveByte_silent hv hbyte
    · have hnext := (receiveByte_keeps codec b hv).2
      rw [hbyte] at hnext
      exact ih (hnext _ rfl) hbytes hrest

theorem feed_unfinished (h : Unfinished bytes) :
    ∃ codec, feed receiveByte mqttCodecCreate bytes = ⟨[], some (true, codec)⟩ := by
  obtain ⟨p, hp, whole, hwhole, ⟨rest, rfl⟩, hne⟩ := h
  obtain ⟨log₁, log₂, codec, hbytes, hrest, hlog⟩ := feed_of_append (feed_packet hp hwhole)
  obtain ⟨rfl, -⟩ | ⟨rfl, rfl⟩ := List.append_eq_singleton_iff.mp hlog.symm
  · exact ⟨codec, hbytes⟩
  · have hcodec := (feed_keeps receiveByte_keeps mqttCodecCreate_valid bytes).2
    rw [hbytes] at hcodec
    have hrestne : rest ≠ [] := by
      rintro rfl
      exact hne (List.append_nil bytes).symm
    exact absurd rfl (feed_silent (hcodec _ rfl) hrest hrestne)

end

def streamOf : List Packet → Option (List UInt8)
  | [] => some []
  | p :: packets => do return (← p.bytes) ++ (← streamOf packets)

section
variable {packets : List Packet} {stream tail : List UInt8} {chunks : List (List UInt8)}

theorem streamOf_cons {p : Packet} (h : streamOf (p :: packets) = some stream) :
    ∃ bytes rest, p.bytes = some bytes ∧ streamOf packets = some rest ∧ stream = bytes ++ rest := by
  rw [streamOf] at h
  obtain ⟨bytes, hbytes, h⟩ := Option.bind_eq_some_iff.mp h
  obtain ⟨rest, hrest, h⟩ := Option.bind_eq_some_iff.mp h
  exact ⟨bytes, rest, hbytes, hrest, (Option.some.inj h).symm⟩

theorem feed_stream (hstream : streamOf packets = some stream)
    (hpackets : ∀ p ∈ packets, p.Deliverable) :
    feed receiveByte mqttCodecCreate stream =
      ⟨packets.map Packet.complete, some (true, mqttCodecCreate)⟩ := by
  induction packets generalizing stream with
  | nil =>
    cases hstream
    rfl
  | cons p packets ih =>
    obtain ⟨bytes, rest, hbytes, hrest, rfl⟩ := streamOf_cons hstream
    exact feed_append_eq (feed_packet (hpackets p List.mem_cons_self) hbytes)
      (ih hrest fun q hq => hpackets q (List.mem_cons_of_mem _ hq))

theorem deliverable_of_feed {codec : MqttCodec} (hstream : streamOf packets = some stream)
    (hfeed : feed receiveByte mqttCodecCreate (stream ++ tail) =
      ⟨packets.map Packet.complete, some (true, codec)⟩) : ∀ p ∈ packets, p.Deliverable := by
  induction packets generalizing stream with
  | nil => nofun
  | cons p packets ih =>
    obtain ⟨bytes, rest, hbytes, hrest, rfl⟩ := streamOf_cons hstream
    rw [List.append_assoc] at hfeed
    have hp : p.Deliverable := by
      by_contra hp
      exact feed_undeliverable hp hbytes hfeed rfl
    rw [feed_append_of (feed_packet hp hbytes)] at hfeed
    obtain ⟨hlog, hvalue⟩ := Logged.mk.inj hfeed
    have hrests : feed receiveByte mqttCodecCreate (rest ++ tail) =
        ⟨packets.map Packet.complete, some (true, codec)⟩ :=
      congrArg₂ Logged.mk (List.cons_injective hlog) hvalue
    rintro q (_ | ⟨_, hq⟩)
    · exact hp
    · exact ih hrest hrests q hq

theorem mqttCodecBytesReceived_eq_feed (hne : [] ∉ chunks) :
    ∀ chunk ∈ chunks, ∀ codec,
      mqttCodecBytesReceived codec chunk = feed receiveByte codec chunk := by
  intro chunk hchunk codec
  rw [mqttCodecBytesReceived, if_neg]
  rintro rfl
  exact hne hchunk

/-- However the stream is cut, every call returns 0 and each packet is called back with, and
nothing else, if and only if the codec can deliver each of them. -/
theorem packets_delivered_iff (hstream : streamOf packets = some stream)
    (htail : Unfinished tail) (hchunks : chunks.flatten = stream ++ tail) (hne : [] ∉ chunks) :
    (∃ codec, feedChunks mqttCodecBytesReceived mqttCodecCreate chunks =
        ⟨packets.map Packet.complete, some (List.replicate chunks.length true, codec)⟩) ↔
      ∀ p ∈ packets, p.Deliverable := by
  have hcall := mqttCodecBytesReceived_eq_feed hne
  constructor
  · rintro ⟨codec, hcodec⟩
    have hfeed := feed_of_feedChunks hcall hcodec
    rw [hchunks] at hfeed
    exact deliverable_of_feed hstream hfeed
  · intro hpackets
    obtain ⟨codec, hunfinished⟩ := feed_unfinished htail
    refine ⟨codec, feedChunks_of_feed hcall ?_⟩
    rw [hchunks, feed_append_eq (feed_stream hstream hpackets) hunfinished, List.append_nil]

end

def puback : Packet := ⟨.puback, 0, [0, 5], by decide, zero_le_halfByte⟩

def pingresp : Packet := ⟨.pingresp, 0, [], by decide, zero_le_halfByte⟩

def connack : Packet := ⟨.connack, 0, [0, 0], by decide, zero_le_halfByte⟩

theorem unfinished_connack : Unfinished [0x20, 2] :=
  ⟨connack, by decide, [0x20, 2, 0, 0], rfl, ⟨[0, 0], rfl⟩, by decide⟩

theorem two_packets_delivered : ∃ codec,
    feedChunks mqttCodecBytesReceived mqttCodecCreate
        [[0x40, 2, 0], [5, 0xD0], [0, 0x20, 2]] =
      ⟨[puback.complete, pingresp.complete], some ([true, true, true], codec)⟩ :=
  (@packets_delivered_iff [puback, pingresp] _ _ _ rfl unfinished_connack rfl (by decide)).mpr
    (by decide)

end IotEdgeAgent.Umqtt
