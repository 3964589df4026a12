import IotEdgeAgent.Umqtt.Receive
import IotEdgeAgent.Umqtt.Stream

/-!
# The receiving half of the umqtt client

`onBytesReceived` gives what arrives to the codec, whose callback is `recvCompleteCallback`. Once
the codec accepts a stream, only its packets matter and not how it arrived.
-/

namespace IotEdgeAgent.Umqtt

open Feed

structure Connection where
  codec : MqttCodec
  client : MqttClient

/-- A call of `onBytesReceived`, with what the tick counter returns for each packet that is
completed meanwhile. -/
structure Arrival where
  buffer : List UInt8
  clock : ℕ → Option ℕ

def stamped (clock : ℕ → Option ℕ) (events : List PacketComplete) :
    List (PacketComplete × Option ℕ) :=
  events.zipIdx.map fun (event, n) => (event, clock n)

def onBytesReceived (s : Connection) (arrival : Arrival) : Logged Effect Connection := do
  let run := mqttCodecBytesReceived s.codec arrival.buffer
  let client ← recvAll s.client (stamped arrival.clock run.log)
  let (succeeded, codec) ← Logged.holding run.value
  if succeeded then pure ⟨codec, client⟩ else ⟨[.error .parseError], some ⟨codec, client⟩⟩

def receiveAll : Connection → List Arrival → Logged Effect Connection
  | s, [] => pure s
  | s, arrival :: arrivals => do receiveAll (← onBytesReceived s arrival) arrivals

section
variable {s t : Connection} {arrival : Arrival} {arrivals : List Arrival} {client : MqttClient}
  {codec codec' : MqttCodec} {log : List PacketComplete} {effects : List Effect}
  {events later : List (PacketComplete × Option ℕ)}

theorem recvAll_append : recvAll client (events ++ later) =
    recvAll client events >>= fun client => recvAll client later := by
  induction events generalizing client with
  | nil => rw [List.nil_append, recvAll, Logged.pure_bind]
  | cons event events ih =>
    rw [List.cons_append, recvAll, recvAll, Logged.bind_assoc]
    exact congrArg _ (funext fun client => ih)

def Stamps (log : List PacketComplete) (events : List (PacketComplete × Option ℕ)) : Prop :=
  events.map Prod.fst = log ∧ ∀ event ∈ events, event.2 ≠ none

theorem Stamps.append {log' : List PacketComplete} {events' : List (PacketComplete × Option ℕ)}
    (h : Stamps log events) (h' : Stamps log' events') :
    Stamps (log ++ log') (events ++ events') := by
  refine ⟨by rw [List.map_append, h.1, h'.1], fun event hevent => ?_⟩
  exact (List.mem_append.mp hevent).elim (h.2 event) (h'.2 event)

theorem Stamps.of_cons {event : PacketComplete} (h : Stamps (event :: log) events) :
    ∃ now rest, events = (event, some now) :: rest ∧ Stamps log rest := by
  rcases events with _ | ⟨⟨event', now⟩, rest⟩
  · cases h.1
  · obtain ⟨rfl, hrest⟩ := List.cons_eq_cons.mp h.1
    obtain ⟨now, rfl⟩ := Option.ne_none_iff_exists'.mp (h.2 _ List.mem_cons_self)
    exact ⟨now, rest, rfl, hrest, fun event hevent => h.2 event (List.mem_cons_of_mem _ hevent)⟩

theorem stamps_stamped {clock : ℕ → Option ℕ} (hclock : ∀ n, clock n ≠ none)
    (log : List PacketComplete) : Stamps log (stamped clock log) := by
  constructor
  · rw [stamped, List.map_map]
    exact List.zipIdx_map_fst 0 log
  · intro event hevent
    obtain ⟨⟨packet, n⟩, -, rfl⟩ := List.mem_map.mp hevent
    exact hclock n

theorem receiveAll_eq (hne : ∀ arrival ∈ arrivals, arrival.buffer ≠ [])
    (hclock : ∀ arrival ∈ arrivals, ∀ n, arrival.clock n ≠ none)
    (hfeed : feed receiveByte codec (arrivals.map (·.buffer)).flatten =
      ⟨log, some (true, codec')⟩) :
    ∃ events, Stamps log events ∧ ∀ client, receiveAll ⟨codec, client⟩ arrivals =
      recvAll client events >>= fun client => pure ⟨codec', client⟩ := by
  induction arrivals generalizing codec log with
  | nil =>
    cases hfeed
    exact ⟨[], ⟨rfl, nofun⟩, fun client =>
      (Logged.pure_bind client fun client => pure (⟨codec', client⟩ : Connection)).symm⟩
  | cons arrival arrivals ih =>
    rw [List.map_cons, List.flatten_cons] at hfeed
    obtain ⟨log₁, log₂, next, hbuffer, hrest, rfl⟩ := feed_of_append hfeed
    have hcall : mqttCodecBytesReceived codec arrival.buffer = ⟨log₁, some (true, next)⟩ :=
      (if_neg (hne arrival List.mem_cons_self)).trans hbuffer
    obtain ⟨events, hevents, hrun⟩ := ih (fun a ha => hne a (List.mem_cons_of_mem _ ha))
      (fun a ha => hclock a (List.mem_cons_of_mem _ ha)) hrest
    refine ⟨stamped arrival.clock log₁ ++ events,
      (stamps_stamped (hclock arrival List.mem_cons_self) log₁).append hevents, fun client => ?_⟩
    have hfirst : onBytesReceived ⟨codec, client⟩ arrival =
        recvAll client (stamped arrival.clock log₁) >>= fun client => pure ⟨next, client⟩ := by
      rw [onBytesReceived, hcall]
      rfl
    rw [receiveAll, hfirst, Logged.bind_assoc, recvAll_append, Logged.bind_assoc]
    refine congrArg _ (funext fun client => ?_)
    rw [Logged.pure_bind, hrun]

theorem feed_of_receiveAll (hne : ∀ arrival ∈ arrivals, arrival.buffer ≠ [])
    (hrun : receiveAll s arrivals = ⟨effects, some t⟩)
    (herror : .error .parseError ∉ effects) :
    ∃ log, feed receiveByte s.codec (arrivals.map (·.buffer)).flatten =
      ⟨log, some (true, t.codec)⟩ := by
  induction arrivals generalizing s effects with
  | nil =>
    cases hrun
    exact ⟨[], rfl⟩
  | cons arrival arrivals ih =>
    rw [receiveAll, onBytesReceived] at hrun
    have hcall : mqttCodecBytesReceived s.codec arrival.buffer =
        feed receiveByte s.codec arrival.buffer := if_neg (hne arrival List.mem_cons_self)
    rw [hcall] at hrun
    obtain ⟨effects₁, next, effects₂, hfirst, hrest, rfl⟩ := Logged.of_bind hrun
    obtain ⟨log₁, client, rest, -, hcodec, rfl⟩ := Logged.of_bind hfirst
    obtain ⟨log₂, ⟨succeeded, codec⟩, reported, hvalue, hend, rfl⟩ := Logged.of_bind hcodec
    have hbuffer : feed receiveByte s.codec arrival.buffer =
        ⟨(feed receiveByte s.codec arrival.buffer).log, some (succeeded, codec)⟩ :=
      congrArg (Logged.mk _) (congrArg Logged.value hvalue)
    cases succeeded with
    | false =>
      cases hend
      simp at herror
    | true =>
      cases hend
      obtain ⟨log, hlog⟩ := ih (fun a ha => hne a (List.mem_cons_of_mem _ ha)) hrest
        fun h => herror (List.mem_append_right _ h)
      exact ⟨_, feed_append_eq hbuffer hlog⟩

end

/-- What the client reads of the packet is inside the packet. -/
def Packet.Readable (p : Packet) : Prop :=
  match p.packetType with
  | .connack => 2 ≤ p.body.length
  | .publish => (byteutilReadUint16 p.body).1.toNat ≤ (byteutilReadUint16 p.body).2.length
  | _ => True

section
variable {p : Packet} {packets : List Packet} {stream tail : List UInt8} {client : MqttClient}
  {arrivals : List Arrival} {events : List (PacketComplete × Option ℕ)} {data : List UInt8}

theorem byteutilReadUTF_isSome : (byteutilReadUTF data).isSome ↔
    (byteutilReadUint16 data).1.toNat ≤ (byteutilReadUint16 data).2.length := by
  rw [byteutilReadUTF]
  generalize byteutilReadUint16 data = read
  obtain ⟨len, buffer⟩ := read
  dsimp only
  split
  · rename_i hlen
    simp [hlen]
  · split
    · rename_i hfits
      simpa using hfits
    · rename_i hfits
      simpa using hfits

theorem recvConnack_isSome : (recvConnack data).isSome ↔ 2 ≤ data.length := by
  rcases data with _ | ⟨a, _ | ⟨b, data⟩⟩
  · decide
  · simp [recvConnack, byteutilReadByte]
  · simp [recvConnack, byteutilReadByte]

theorem holding_isSome {ε β γ : Type} {value : Option β} {f : β → Logged ε γ}
    (hf : ∀ b, (f b).value.isSome) : (Logged.holding value >>= f).value.isSome ↔ value.isSome := by
  rw [Logged.bind_value, Logged.holding_value]
  cases value with
  | none => rfl
  | some b => exact iff_of_true (hf b) rfl

theorem recvPacket_isSome :
    (recvPacket client p.packetType p.flags p.body).value.isSome ↔ p.Readable := by
  unfold recvPacket Packet.Readable
  cases p.packetType with
  | connack =>
    refine (holding_isSome ?_).trans recvConnack_isSome
    exact fun _ => rfl
  | publish =>
    refine (holding_isSome ?_).trans ?_
    · exact fun _ => rfl
    · rw [recvPublish, Option.isSome_map]
      exact byteutilReadUTF_isSome
  | _ => exact iff_of_true rfl trivial

theorem complete_body (hp : p.Deliverable) :
    ¬ (p.complete.headerData = none ∧ p.complete.packet ≠ .pingresp) ∧
      (p.complete.headerData.map (·.bytes)).getD [] = p.body := by
  rw [Packet.complete]
  by_cases hbody : p.body = []
  · have hping : p.packetType = .pingresp := by
      by_contra hping
      rw [Packet.Deliverable, if_neg hping] at hp
      exact hp.1 hbody
    rw [if_pos hbody, hbody]
    exact ⟨fun h => h.2 hping, rfl⟩
  · rw [if_neg hbody]
    exact ⟨fun h => (by cases h.1), rfl⟩

theorem recvCompleteCallback_complete (hp : p.Deliverable) (now : ℕ) :
    recvCompleteCallback (some now) client p.complete =
      recvPacket { client with packetRecvTimeMs := now } p.packetType p.flags p.body := by
  obtain ⟨hheld, hdata⟩ := complete_body hp
  rw [recvCompleteCallback, if_neg hheld, hdata]
  rfl

theorem recvAll_isSome (hpackets : ∀ p ∈ packets, p.Deliverable)
    (hevents : Stamps (packets.map Packet.complete) events) :
    (recvAll client events).value.isSome ↔ ∀ p ∈ packets, p.Readable := by
  induction packets generalizing client events with
  | nil =>
    cases List.map_eq_nil_iff.mp hevents.1
    exact iff_of_true rfl nofun
  | cons p packets ih =>
    obtain ⟨now, rest, rfl, hrest⟩ := hevents.of_cons
    rw [recvAll, recvCompleteCallback_complete (hpackets p List.mem_cons_self), List.forall_mem_cons,
      ← @recvPacket_isSome p { client with packetRecvTimeMs := now }, Logged.bind_value]
    cases (recvPacket { client with packetRecvTimeMs := now } p.packetType p.flags p.body).value with
    | none => simp
    | some client =>
      rw [Option.bind_some, ih (fun q hq => hpackets q (List.mem_cons_of_mem _ hq)) hrest]
      exact (and_iff_right rfl).symm

/-- For packets that the codec delivers, the client reads nothing behind the end of a buffer if
and only if each packet is long enough for what it reads of it. -/
theorem reads_inside_iff (hstream : streamOf packets = some stream)
    (hpackets : ∀ p ∈ packets, p.Deliverable) (htail : Unfinished tail)
    (harrivals : (arrivals.map (·.buffer)).flatten = stream ++ tail)
    (hne : ∀ arrival ∈ arrivals, arrival.buffer ≠ [])
    (hclock : ∀ arrival ∈ arrivals, ∀ n, arrival.clock n ≠ none) (client : MqttClient) :
    (receiveAll ⟨mqttCodecCreate, client⟩ arrivals).value.isSome ↔
      ∀ p ∈ packets, p.Readable := by
  obtain ⟨codec, hunfinished⟩ := feed_unfinished htail
  have hfeed := feed_append_eq (feed_stream hstream hpackets) hunfinished
  rw [← harrivals, List.append_nil] at hfeed
  obtain ⟨events, hevents, hrun⟩ := receiveAll_eq hne hclock hfeed
  rw [hrun, Logged.bind_value, ← recvAll_isSome hpackets hevents]
  cases (recvAll client events).value <;> rfl

end

def shortConnack : Packet := { connack with body := [0] }

def idleClient : MqttClient := ⟨0, 0, false⟩

theorem short_connack_read_behind :
    ¬ (receiveAll ⟨mqttCodecCreate, idleClient⟩
      [⟨[0x20, 1], fun _ => some 7⟩, ⟨[0, 0x20, 2], fun _ => some 8⟩]).value.isSome := by
  refine mt (@reads_inside_iff [shortConnack] _ _ _ rfl (by decide) unfinished_connack rfl
    (by decide) ?_ idleClient).mp fun h => absurd (h _ List.mem_cons_self) (by decide : ¬ 2 ≤ 1)
  rintro arrival harrival n
  simp only [List.mem_cons, List.not_mem_nil, or_false] at harrival
  obtain rfl | rfl := harrival <;> exact Option.some_ne_none _

end IotEdgeAgent.Umqtt
