import IotEdgeAgent.Umqtt.Subscribing

/-!
# CONNECT on the wire

The packet is given room for every string of the options that is not null, and then gets those that
are not empty, the client id always. Where the two differ the packet ends with memory that nobody
wrote, or the last string is written behind its end.
-/

namespace IotEdgeAgent.Umqtt

open Feed Strings

structure MqttClientOptions where
  clientId : Option CText
  willTopic : Option CText
  willMessage : Option CText
  username : Option CText
  password : Option CText
  keepAliveInterval : UInt16
  messageRetain : Bool
  useCleanSession : Bool
  qualityOfServiceValue : QosValue

def textOf (text : Option CText) : List UInt8 := (text.map (·.bytes)).getD []

def spaceFor : Option CText → ℕ
  | none => 0
  | some text => 2 + text.bytes.length

def totalLen (options : MqttClientOptions) : ℕ :=
  spaceFor options.clientId + spaceFor options.username + spaceFor options.password +
    spaceFor options.willMessage + spaceFor options.willTopic

def hasWill (options : MqttClientOptions) : Prop :=
  textOf options.willMessage ≠ [] ∧ textOf options.willTopic ≠ []

instance (options : MqttClientOptions) : Decidable (hasWill options) :=
  inferInstanceAs (Decidable (_ ∧ _))

def flagsByte (will : Bool) (qosValue : QosValue) (retain username password clean : Bool) : UInt8 :=
  (if will then (0x04 : UInt8) ||| (qosValue.toByte <<< 3) ||| (if retain then 0x20 else 0) else 0)
    ||| (if username then 0x80 else 0) ||| (if password then 0x40 else 0) |||
    (if clean then 0x02 else 0)

def connectFlags (options : MqttClientOptions) : UInt8 :=
  flagsByte (hasWill options) options.qualityOfServiceValue options.messageRetain
    (textOf options.username ≠ []) (textOf options.password ≠ []) options.useCleanSession

def constructConnectVariableHeader (options : MqttClientOptions) (flags : UInt8) : List UInt8 :=
  byteutilWriteUTF [77, 81, 84, 84] ++ [4, flags] ++ byteutilWriteInt options.keepAliveInterval

def writeNonempty (text : List UInt8) : List UInt8 := if text = [] then [] else byteutilWriteUTF text

def connPayload (options : MqttClientOptions) : List UInt8 :=
  byteutilWriteUTF (textOf options.clientId) ++
    (if hasWill options then byteutilWriteUTF (textOf options.willTopic) ++
      byteutilWriteUTF (textOf options.willMessage) else []) ++
    writeNonempty (textOf options.username) ++ writeNonempty (textOf options.password)

def refusesPayload (options : MqttClientOptions) : Prop :=
  USHRT_MAX < (textOf options.clientId).length ∨
    textOf options.username = [] ∧ textOf options.password ≠ [] ∨
    textOf options.willMessage ≠ [] ∧ textOf options.willTopic = [] ∨
    textOf options.willTopic ≠ [] ∧ textOf options.willMessage = [] ∨
    -- `BUFFER_enlarge` fails for 0.
    totalLen options = 0 ∨
    USHRT_MAX < (textOf options.willMessage).length ∨ USHRT_MAX < (textOf options.willTopic).length ∨
    USHRT_MAX < (textOf options.username).length ∨ USHRT_MAX < (textOf options.password).length

instance (options : MqttClientOptions) : Decidable (refusesPayload options) :=
  inferInstanceAs (Decidable (_ ∨ _))

def constructConnPayload (options : MqttClientOptions) (memory : ℕ → UInt8) :
    Option (Option (List UInt8)) :=
  if refusesPayload options then some none
  else
    let written := connPayload options
    if totalLen options < written.length then none
    else some (some (written ++
      (List.range (totalLen options - written.length)).map fun i => memory (written.length + i)))

def mqttCodecConnect (options : MqttClientOptions) (memory : ℕ → UInt8) :
    Option (Option (List UInt8)) :=
  match constructConnPayload options memory with
  | none => none
  | some none => some none
  | some (some payload) =>
    (constructFixedHeader
      (constructConnectVariableHeader options (connectFlags options) ++ payload) .connect 0).map some

structure Will where
  topic : List UInt8
  message : List UInt8
  qos : UInt8
  retain : Bool
  deriving DecidableEq

structure ServerConnect where
  clientId : List UInt8
  will : Option Will
  username : Option (List UInt8)
  password : Option (List UInt8)
  keepAlive : UInt16
  cleanSession : Bool
  deriving DecidableEq

def readIf {β : Type} (present : Bool) (read : List UInt8 → Option (β × List UInt8))
    (buffer : List UInt8) : Option (Option β × List UInt8) :=
  if present then (read buffer).map fun (b, rest) => (some b, rest) else some (none, buffer)

def readWill (flags : UInt8) (buffer : List UInt8) : Option (Will × List UInt8) := do
  let (topic, buffer) ← readText buffer
  let (message, buffer) ← readText buffer
  return (⟨topic, message, flags >>> 3 &&& 0x3, flags &&& 0x20 ≠ 0⟩, buffer)

/-- The payload has to end with its last field. -/
def readPayload (flags : UInt8) (keepAlive : UInt16) (buffer : List UInt8) :
    Option ServerConnect := do
  let (clientId, buffer) ← readText buffer
  let (will, buffer) ← readIf (flags &&& 0x4 ≠ 0) (readWill flags) buffer
  let (username, buffer) ← readIf (flags &&& 0x80 ≠ 0) readText buffer
  let (password, buffer) ← readIf (flags &&& 0x40 ≠ 0) readText buffer
  if buffer = [] then
    some ⟨clientId, will, username, password, keepAlive, flags &&& 0x2 ≠ 0⟩
  else none

def readConnect (event : PacketComplete) : Option ServerConnect := do
  let buffer ← event.headerData
  let (name, buffer) ← readText buffer.bytes
  let (level, buffer) ← byteutilReadByte buffer
  let (flags, buffer) ← byteutilReadByte buffer
  let (keepAlive, buffer) := byteutilReadUint16 buffer
  if event.packet = .connect ∧ name = [77, 81, 84, 84] ∧ level = 4 then
    readPayload flags keepAlive buffer
  else none

def nonempty (text : Option CText) : Option (List UInt8) :=
  if textOf text = [] then none else some (textOf text)

/-- The connection as the server should read it. -/
def meantConnect (options : MqttClientOptions) : ServerConnect where
  clientId := textOf options.clientId
  will := if hasWill options then some ⟨textOf options.willTopic, textOf options.willMessage,
    options.qualityOfServiceValue.toByte, options.messageRetain⟩ else none
  username := nonempty options.username
  password := nonempty options.password
  keepAlive := options.keepAliveInterval
  cleanSession := options.useCleanSession

def emptyText (text : Option CText) : ℕ := if text.isSome ∧ textOf text = [] then 1 else 0

/-- The strings that get room and are not written. -/
def emptyTexts (options : MqttClientOptions) : ℕ :=
  emptyText options.username + emptyText options.password + emptyText options.willMessage +
    emptyText options.willTopic

section
variable {options : MqttClientOptions} {memory : ℕ → UInt8} {bytes text : List UInt8}

theorem flagsByte_bits (will : Bool) (qosValue : QosValue) (retain username password clean : Bool) :
    let flags := flagsByte will qosValue retain username password clean
    (flags &&& 0x4 ≠ 0 ↔ will) ∧ (flags &&& 0x80 ≠ 0 ↔ username) ∧
      (flags &&& 0x40 ≠ 0 ↔ password) ∧ (flags &&& 0x2 ≠ 0 ↔ clean) ∧
      (will → (flags &&& 0x20 ≠ 0 ↔ retain) ∧
        (flags >>> 3 &&& 0x3 = qosValue.toByte ↔ qosValue ≠ .deliverFailure)) := by
  cases qosValue <;> cases will <;> cases retain <;> cases username <;> cases password <;>
    cases clean <;> decide

theorem spaceFor_eq (text : Option CText) :
    spaceFor text = (writeNonempty (textOf text)).length + 2 * emptyText text := by
  cases text with
  | none => rfl
  | some text =>
    rw [spaceFor, emptyText, textOf, Option.map_some, Option.getD_some, writeNonempty]
    by_cases hempty : text.bytes = []
    · simp [hempty]
    · simp [hempty, byteutilWriteUTF, byteutilWriteInt]
      omega

theorem will_of_accepted (h : ¬ refusesPayload options) :
    (if hasWill options then byteutilWriteUTF (textOf options.willTopic) ++
      byteutilWriteUTF (textOf options.willMessage) else []) =
      writeNonempty (textOf options.willTopic) ++ writeNonempty (textOf options.willMessage) := by
  unfold refusesPayload at h
  unfold hasWill writeNonempty
  by_cases htopic : textOf options.willTopic = []
  · by_cases hmessage : textOf options.willMessage = []
    · simp [htopic, hmessage]
    · exact absurd (.inr (.inr (.inl ⟨hmessage, htopic⟩))) h
  · by_cases hmessage : textOf options.willMessage = []
    · exact absurd (.inr (.inr (.inr (.inl ⟨htopic, hmessage⟩)))) h
    · simp [htopic, hmessage]

theorem totalLen_eq (h : ¬ refusesPayload options) :
    totalLen options + (if options.clientId = none then 2 else 0) =
      (connPayload options).length + 2 * emptyTexts options := by
  have hclient : spaceFor options.clientId + (if options.clientId = none then 2 else 0) =
      (byteutilWriteUTF (textOf options.clientId)).length := by
    cases options.clientId with
    | none => rfl
    | some text =>
      simp [spaceFor, textOf, byteutilWriteUTF, byteutilWriteInt]
      omega
  rw [connPayload, will_of_accepted h, totalLen, emptyTexts, spaceFor_eq options.username,
    spaceFor_eq options.password, spaceFor_eq options.willMessage, spaceFor_eq options.willTopic]
  simp only [List.length_append]
  omega

theorem readIf_nonempty {flag : Prop} [Decidable flag] {text rest : List UInt8}
    (htext : text.length ≤ USHRT_MAX) (hflag : flag ↔ text ≠ []) :
    readIf flag readText (writeNonempty text ++ rest) =
      some (if text = [] then none else some text, rest) := by
  rw [readIf, writeNonempty]
  by_cases hempty : text = []
  · simp [hflag, hempty]
  · simp [hflag, hempty, readText_writeUTF htext]

theorem connectFlags_bits (options : MqttClientOptions) :
    (connectFlags options &&& 0x4 ≠ 0 ↔ hasWill options) ∧
      (connectFlags options &&& 0x80 ≠ 0 ↔ textOf options.username ≠ []) ∧
      (connectFlags options &&& 0x40 ≠ 0 ↔ textOf options.password ≠ []) ∧
      (connectFlags options &&& 0x2 ≠ 0 ↔ options.useCleanSession) ∧
      (hasWill options → (connectFlags options &&& 0x20 ≠ 0 ↔ options.messageRetain) ∧
        (connectFlags options >>> 3 &&& 0x3 = options.qualityOfServiceValue.toByte ↔
          options.qualityOfServiceValue ≠ .deliverFailure)) := by
  have hbits := flagsByte_bits (hasWill options) options.qualityOfServiceValue
    options.messageRetain (textOf options.username ≠ []) (textOf options.password ≠ [])
    options.useCleanSession
  simp only [decide_eq_true_iff] at hbits
  exact hbits

def sentWill (options : MqttClientOptions) : Option Will :=
  if hasWill options then some ⟨textOf options.willTopic, textOf options.willMessage,
    connectFlags options >>> 3 &&& 0x3, options.messageRetain⟩ else none

theorem readIf_will (h : ¬ refusesPayload options) (rest : List UInt8) :
    readIf (connectFlags options &&& 0x4 ≠ 0) (readWill (connectFlags options))
        ((if hasWill options then byteutilWriteUTF (textOf options.willTopic) ++
          byteutilWriteUTF (textOf options.willMessage) else []) ++ rest) =
      some (sentWill options, rest) := by
  unfold refusesPayload at h
  obtain ⟨hflag, -, -, -, hwill⟩ := connectFlags_bits options
  rw [readIf, sentWill]
  by_cases hhas : hasWill options
  · have htopic : (textOf options.willTopic).length ≤ USHRT_MAX := by omega
    have hmessage : (textOf options.willMessage).length ≤ USHRT_MAX := by omega
    simp only [hflag, hhas, decide_true, if_true, readWill, List.append_assoc,
      readText_writeUTF htopic, readText_writeUTF hmessage, (hwill hhas).1, Bool.decide_eq_true,
      Option.bind_eq_bind, Option.bind_some]
    rfl
  · simp only [hflag, hhas, decide_false, if_false, List.nil_append]
    rfl

theorem readPayload_connPayload (h : ¬ refusesPayload options) (trailing : List UInt8) :
    readPayload (connectFlags options) options.keepAliveInterval
        (connPayload options ++ trailing) =
      if trailing = [] then some { meantConnect options with will := sentWill options }
      else none := by
  obtain ⟨-, husername, hpassword, hclean, -⟩ := connectFlags_bits options
  have hwill := readIf_will h
  unfold refusesPayload at h
  have hclientLen : (textOf options.clientId).length ≤ USHRT_MAX := by omega
  have huserLen : (textOf options.username).length ≤ USHRT_MAX := by omega
  have hpassLen : (textOf options.password).length ≤ USHRT_MAX := by omega
  rw [readPayload, connPayload]
  simp only [List.append_assoc, readText_writeUTF hclientLen, hwill, Option.bind_eq_bind,
    Option.bind_some, readIf_nonempty huserLen husername, readIf_nonempty hpassLen hpassword,
    hclean, Bool.decide_eq_true]
  rfl

theorem sentWill_eq_iff : sentWill options = (meantConnect options).will ↔
    (hasWill options → options.qualityOfServiceValue ≠ .deliverFailure) := by
  obtain ⟨-, -, -, -, hwill⟩ := connectFlags_bits options
  rw [sentWill, meantConnect]
  by_cases hhas : hasWill options
  · simp [hhas, ← (hwill hhas).2]
  · simp [hhas]

theorem readConnect_eq (h : ¬ refusesPayload options) (trailing : List UInt8) (n : ℕ) :
    readConnect ⟨.connect, 0, some ⟨n, constructConnectVariableHeader options (connectFlags options) ++
        (connPayload options ++ trailing)⟩⟩ =
      if trailing = [] then some { meantConnect options with will := sentWill options }
      else none := by
  have hname : readText (byteutilWriteUTF [77, 81, 84, 84] ++ (4 :: connectFlags options ::
      (byteutilWriteInt options.keepAliveInterval ++ (connPayload options ++ trailing)))) = some
      ([77, 81, 84, 84], 4 :: connectFlags options ::
        (byteutilWriteInt options.keepAliveInterval ++ (connPayload options ++ trailing))) :=
    readText_writeUTF (by decide) _
  rw [readConnect, constructConnectVariableHeader, Option.bind_eq_bind, Option.bind_some]
  simp only [List.append_assoc, List.cons_append, List.nil_append, hname, Option.bind_eq_bind,
    Option.bind_some, byteutilReadByte, byteutilReadUint16_writeInt]
  exact (if_pos ⟨trivial, trivial, trivial⟩).trans (readPayload_connPayload h trailing)

theorem totalLen_le (h : ¬ refusesPayload options) : totalLen options ≤ 5 * (USHRT_MAX + 2) := by
  have hspace : ∀ text : Option CText, (textOf text).length ≤ USHRT_MAX →
      spaceFor text ≤ USHRT_MAX + 2 := by
    intro text htext
    cases text with
    | none => exact Nat.zero_le _
    | some text => exact (Nat.add_comm ..).le.trans (Nat.add_le_add_right htext 2)
  unfold refusesPayload at h
  have hclient := hspace options.clientId (by omega)
  have husername := hspace options.username (by omega)
  have hpassword := hspace options.password (by omega)
  have hmessage := hspace options.willMessage (by omega)
  have htopic := hspace options.willTopic (by omega)
  rw [totalLen]
  omega

def connectPacket (options : MqttClientOptions) (trailing : List UInt8) : Packet :=
  ⟨.connect, 0, constructConnectVariableHeader options (connectFlags options) ++
    (connPayload options ++ trailing), by decide, zero_le_halfByte⟩

def unwritten (options : MqttClientOptions) (memory : ℕ → UInt8) : List UInt8 :=
  (List.range (totalLen options - (connPayload options).length)).map
    fun i => memory ((connPayload options).length + i)

theorem unwritten_eq_nil (h : ¬ refusesPayload options)
    (hroom : ¬ totalLen options < (connPayload options).length) :
    unwritten options memory = [] ↔
      emptyTexts options = if options.clientId = none then 1 else 0 := by
  have htotal := totalLen_eq h
  rw [unwritten, List.map_eq_nil_iff, List.range_eq_nil]
  split at htotal
  · simp only [*, if_true]
    omega
  · simp only [*, if_false]
    omega

theorem connectPacket_length (hroom : ¬ totalLen options < (connPayload options).length) :
    (connectPacket options (unwritten options memory)).body.length = 10 + totalLen options := by
  simp only [connectPacket, unwritten, List.length_append, List.length_map, List.length_range]
  rw [Nat.add_sub_of_le (Nat.le_of_not_lt hroom)]
  rfl

theorem mqttCodecConnect_eq : mqttCodecConnect options memory =
    if refusesPayload options then some none
    else if totalLen options < (connPayload options).length then none
    else (connectPacket options (unwritten options memory)).bytes.map some := by
  have hpayload : constructConnPayload options memory =
      if refusesPayload options then some none
      else if totalLen options < (connPayload options).length then none
      else some (some (connPayload options ++ unwritten options memory)) := rfl
  rw [mqttCodecConnect, hpayload]
  by_cases hrefused : refusesPayload options
  · simp only [hrefused, if_true]
  · by_cases hroom : totalLen options < (connPayload options).length
    · simp only [hrefused, hroom, if_true, if_false]
    · simp only [hrefused, hroom, if_false]
      rfl

/-- Exactly when no client id is given, and no other string is empty, the last string is written
behind the memory. Otherwise one packet arrives, in which the server reads what was meant if and
only if what was written fills the packet and the quality of service of a will can be told. -/
theorem connect_read_back (h : ¬ refusesPayload options) (memory : ℕ → UInt8) :
    (mqttCodecConnect options memory = none ↔
        options.clientId = none ∧ emptyTexts options = 0) ∧
      ∀ bytes, mqttCodecConnect options memory = some (some bytes) →
        ∃ event, feed receiveByte mqttCodecCreate bytes = ⟨[event], some (true, mqttCodecCreate)⟩ ∧
          (readConnect event = some (meantConnect options) ↔
            emptyTexts options = (if options.clientId = none then 1 else 0) ∧
              (hasWill options → options.qualityOfServiceValue ≠ .deliverFailure)) := by
  have htotal := totalLen_eq h
  have hle := totalLen_le h
  rw [mqttCodecConnect_eq, if_neg h]
  by_cases hroom : totalLen options < (connPayload options).length
  · rw [if_pos hroom]
    refine ⟨iff_of_true rfl ?_, fun bytes hbytes => (by cases hbytes)⟩
    split at htotal
    · exact ⟨‹_›, by omega⟩
    · omega
  · have hlength : (connectPacket options (unwritten options memory)).body.length =
        10 + totalLen options := connectPacket_length hroom
    rw [if_neg hroom]
    rw [USHRT_MAX] at hle
    have hbody : (connectPacket options (unwritten options memory)).body ≠ [] := List.cons_ne_nil _ _
    have hdeliverable : (connectPacket options (unwritten options memory)).Deliverable :=
      (if_neg ControlPacketType.noConfusion).mpr ⟨hbody, by omega⟩
    constructor
    · refine iff_of_false ?_ ?_
      · rw [Option.map_eq_none_iff, Packet.bytes, constructFixedHeader, Option.map_eq_none_iff,
          ← Option.not_isSome_iff_eq_none, Base128.encode_isSome]
        omega
      · rintro ⟨hclient, hempty⟩
        rw [if_pos hclient] at htotal
        omega
    · intro bytes hbytes
      obtain ⟨bytes, hbytes, ⟨⟩⟩ := Option.map_eq_some_iff.mp hbytes
      refine ⟨_, feed_packet hdeliverable hbytes, ?_⟩
      rw [Packet.complete, if_neg hbody, ← sentWill_eq_iff, ← unwritten_eq_nil h hroom]
      refine (Eq.congr (readConnect_eq h _ _) rfl).trans ?_
      split
      · rename_i hnothing
        rw [Option.some.injEq]
        constructor
        · exact fun hmeant => ⟨hnothing, congrArg ServerConnect.will hmeant⟩
        · intro hwill
          rw [hwill.2]
      · rename_i hsomething
        exact iff_of_false (Option.some_ne_none _).symm fun hwill => hsomething hwill.1

end

def namedClient : MqttClientOptions where
  clientId := some ⟨[99], by decide⟩
  willTopic := some ⟨[119], by decide⟩
  willMessage := some ⟨[109], by decide⟩
  username := some ⟨[117], by decide⟩
  password := some ⟨[112], by decide⟩
  keepAliveInterval := 60
  messageRetain := true
  useCleanSession := true
  qualityOfServiceValue := .deliverAtLeastOnce

theorem named_client_read_back : ∃ event,
    feed receiveByte mqttCodecCreate
        [0x10, 25, 0, 4, 77, 81, 84, 84, 4, 0xEE, 0, 60, 0, 1, 99, 0, 1, 119, 0, 1, 109, 0, 1, 117,
          0, 1, 112] =
      ⟨[event], some (true, mqttCodecCreate)⟩ ∧
    readConnect event = some (meantConnect namedClient) := by
  obtain ⟨event, hfeed, hread⟩ := (connect_read_back (by decide) fun _ => 0).2 _
    (rfl : mqttCodecConnect namedClient (fun _ => 0) = _)
  exact ⟨event, hfeed, hread.mpr (by decide)⟩

end IotEdgeAgent.Umqtt
