import IotEdgeAgent.Mqtt.Drawing
import IotEdgeAgent.Mqtt.Replay

/-!
# Packet ids are drawn again after a cycle

The counter runs through 65534 ids and begins again. An id is not taken when it is drawn as long as
nothing stays pending for a whole cycle of draws, and rows that an earlier client left in the store
are gone when the counter comes to their ids. Then an acknowledgement resolves the message it was
sent for, and the store refuses a row only if the message was already stored when it was published.
-/

namespace IotEdgeAgent.Mqtt.PacketIds

open Runs

variable {μ : Type*} {s t : State μ} {tickModulus : ℕ} {a : Action μ}

def CYCLE : ℕ := 65534

def idOf (draw : ℕ) : ℕ := draw % CYCLE + 1

theorem getNextPacketId_toNat {packetId : UInt16} {draw : ℕ} (h : packetId.toNat = idOf draw) :
    (getNextPacketId packetId).toNat = idOf (draw + 1) := by
  have hdef : packetId.toNat = draw % 65534 + 1 := h
  have hgoal : idOf (draw + 1) = (draw + 1) % 65534 + 1 := rfl
  rw [hgoal, getNextPacketId]
  by_cases hlast : packetId.toNat + 1 ≥ 65535
  · rw [if_pos hlast]
    have hone : (1 : UInt16).toNat = 1 := rfl
    omega
  · rw [if_neg hlast, UInt16.toNat_add]
    have hone : (1 : UInt16).toNat = 1 := rfl
    omega

theorem idOf_inj {i j : ℕ} (hid : idOf i = idOf j) (hi : i < j + CYCLE) (hj : j < i + CYCLE) :
    i = j := by
  have hmod : i % 65534 = j % 65534 := Nat.succ.inj hid
  have hcycle : CYCLE = 65534 := rfl
  omega

structure Counted (s : State μ) : Prop where
  next : s.client.nextId.toNat = idOf s.drawn.length
  ids : ∀ i d, s.drawn[i]? = some d → d.packetId.toNat = idOf i

theorem counted_of_initial (h : Initial s) : Counted s := by
  obtain ⟨keepAliveInterval, retryLogic, persist, hclient⟩ := h.client
  refine ⟨?_, fun i d hd => ?_⟩
  · rw [hclient, h.drawn]
    rfl
  · rw [h.drawn] at hd
    cases hd

structure Draws (s : State μ) (client : IotHubMqttClient μ Draft) : Prop where
  packetId : client.packetId = s.client.nextId
  queue : client.pubAckWaitingQueue = s.client.pubAckWaitingQueue ∨ ∃ entry,
    client.pubAckWaitingQueue = s.client.pubAckWaitingQueue ++ [entry] ∧
      entry.packetId = s.client.nextId ∧ entry.pubCallback.draw = s.drawn.length ∧
      (entry.pubCallback.stored = false → storedRows client = storedRows s.client)
  sub : client.subAckWaitingQueue = s.client.subAckWaitingQueue ∨ ∃ entry,
    client.subAckWaitingQueue = s.client.subAckWaitingQueue ++ [entry] ∧
      entry.packetId = s.client.nextId ∧ entry.subCallback.draw = s.drawn.length
  rows : ∀ row ∈ storedRows client, row ∈ storedRows s.client ∨ row.messageId = s.client.nextId

structure Keeps (client client' : IotHubMqttClient μ Draft) : Prop where
  packetId : client'.packetId = client.packetId
  queue : client'.pubAckWaitingQueue.Sublist client.pubAckWaitingQueue
  sub : client'.subAckWaitingQueue.Sublist client.subAckWaitingQueue
  rows : client'.pubAckWaitingQueue = [] ∨ ∀ row ∈ storedRows client', row ∈ storedRows client

section Effects
variable {client client' : IotHubMqttClient μ Draft}

theorem publish_draws {qosValue : QosValue} {content : μ} {withCallback : Bool}
    {outcome : PublishOutcome} (hqos : qosValue ≠ .deliverExactlyOnce) :
    Draws s (publish s qosValue content withCallback outcome).client := by
  rw [publish, if_neg hqos]
  simp only
  rw [PublishCallbacks.publishMqttMessage_eq hqos]
  cases hoffline : persistOffline s.client.drawPacketId ⟨s.client.nextId, qosValue, content⟩ with
  | none => exact ⟨rfl, .inl rfl, .inl rfl, fun row hrow => .inl hrow⟩
  | some written =>
    obtain ⟨hqueue, hsub, hid⟩ := PublishCallbacks.persistOffline_frame hoffline
    have hrows : storedRows written = storedRows s.client ++
        if qosValue = .deliverAtLeastOnce ∧ s.client.mqttClientStatus = .notConnected ∧
          s.client.persist.isSome then [⟨s.client.nextId, qosValue, content⟩] else [] :=
      (persistOffline_written hoffline).rows
    have hmem : ∀ row ∈ storedRows written,
        row ∈ storedRows s.client ∨ row.messageId = s.client.nextId := by
      intro row hrow
      rw [hrows] at hrow
      rcases List.mem_append.mp hrow with hrow | hrow
      · exact .inl hrow
      · split at hrow
        · obtain rfl := List.mem_singleton.mp hrow
          exact .inr rfl
        · cases hrow
    rw [Option.elim_some]
    rcases sendMessage_cases rfl with ⟨hclient, -⟩ | ⟨hleast, -, draft, hcallback, hclient⟩
    · rw [hclient]
      exact ⟨hid, .inl hqueue, .inl hsub, hmem⟩
    · rw [hclient]
      refine ⟨hid, .inr ⟨_, congrArg (· ++ [_]) hqueue, rfl, ?_, fun hstored => ?_⟩, .inl hsub,
        hmem⟩
      · split at hcallback
        · exact congrArg Draft.draw (Option.some.inj hcallback).symm
        · cases hcallback
      · split at hcallback
        · obtain rfl := Option.some.inj hcallback
          have honline := of_decide_eq_false hstored
          exact hrows.trans (by rw [if_neg honline, List.append_nil])
        · cases hcallback

theorem subscribe_draws {subPayloads : List QosValue} {withCallback allocated subscribed : Bool}
    (h : Subscribes subPayloads) :
    Draws s (subscribe s subPayloads withCallback allocated subscribed).client := by
  rw [subscribe]
  simp only
  rw [subscribeMqttTopics, if_neg h]
  cases withCallback with
  | false => exact ⟨rfl, .inl rfl, .inl rfl, fun row hrow => .inl hrow⟩
  | true =>
    cases allocated with
    | false => exact ⟨rfl, .inl rfl, .inl rfl, fun row hrow => .inl hrow⟩
    | true => exact ⟨rfl, .inl rfl, .inr ⟨_, rfl, rfl, rfl⟩, fun row hrow => .inl hrow⟩

theorem unsubscribe_draws {unsubscribeList : List String} {unsubscribed : Bool}
    (h : unsubscribeList ≠ []) : Draws s (unsubscribe s unsubscribeList unsubscribed).client := by
  rw [unsubscribe]
  simp only
  rw [unsubscribeMqttTopics, if_neg h]
  exact ⟨rfl, .inl rfl, .inl rfl, fun row hrow => .inl hrow⟩

theorem Keeps.refl (client : IotHubMqttClient μ Draft) : Keeps client client :=
  ⟨rfl, .refl _, .refl _, .inr fun _ hrow => hrow⟩

theorem onMqttOperationComplete_keeps (client : IotHubMqttClient μ Draft) (event : MqttEvent) :
    Keeps client (onMqttOperationComplete client event).1 := by
  cases event with
  | connack returnCode =>
    show Keeps client (onConnack client returnCode)
    unfold onConnack
    split
    · exact ⟨rfl, .refl _, .refl _, .inr fun _ hrow => hrow⟩
    · exact ⟨rfl, .refl _, .refl _, .inr fun _ hrow => hrow⟩
  | subscribeAck packetId qosReturn =>
    exact ⟨rfl, .refl _, List.eraseP_sublist, .inr fun _ hrow => hrow⟩
  | publishAck packetId => exact ⟨rfl, List.eraseP_sublist, .refl _, .inr fun _ hrow => hrow⟩
  | disconnect => exact ⟨rfl, .refl _, .refl _, .inr fun _ hrow => hrow⟩
  | _ => exact .refl client

theorem onMqttErrorComplete_keeps (client : IotHubMqttClient μ Draft) :
    Keeps client (onMqttErrorComplete client).1 :=
  ⟨rfl, List.nil_sublist _, List.nil_sublist _, .inl rfl⟩

theorem deleteRow_keeps (s : State μ) (messageId : UInt16) :
    Keeps s.client (deleteRow s messageId).client :=
  ⟨rfl, .refl _, .refl _, .inr fun _ hrow => (mem_storedRows_delete.mp hrow).1⟩

theorem initializeMqttConnection_keeps {moment : ConnectMoment} {result : Bool}
    (h : initializeMqttConnection tickModulus client moment = some (client', result)) :
    Keeps client client' := by
  obtain ⟨mqttClientStatus, retryLogic, mqttConnectTime, rfl⟩ := initializeMqttConnection_frame h
  exact ⟨rfl, .refl _, .refl _, .inr fun _ hrow => hrow⟩

end Effects

/-- The id is one of those that were drawn last, less than a cycle ago. -/
def Recent (drawn : List Drawn) (packetId : UInt16) : Prop :=
  ∃ i d, drawn[i]? = some d ∧ d.packetId = packetId ∧ drawn.length < i + CYCLE

/-- Everything that is pending was drawn recently, or is a row of an earlier client that the
counter has not come to and does not come to now. -/
def DrawsInTime (s : State μ) : Prop :=
  ∀ packetId ∈ pendingIds s.client, Recent s.drawn packetId ∨
    ((∀ d ∈ s.drawn, d.packetId ≠ packetId) ∧ packetId.toNat ≠ s.drawn.length + 1)

def ReplayInTime (outcome : ℕ → PublishOutcome) : ℕ → State μ → List (PublishData μ) → Prop
  | _, _, [] => True
  | i, s, row :: rows =>
    (row.qos ≠ .deliverExactlyOnce → DrawsInTime s) ∧
    ReplayInTime outcome (i + 1)
      (deleteRow (publish s row.qos row.content false (outcome i)) row.messageId) rows

/-- Draws come in time, acknowledgements before the id of their message is drawn again, and an
error when no waiting message is still stored from its publish. -/
def InTime (tickModulus : ℕ) (s : State μ) : Action μ → Prop
  | .publish qosValue _ _ _ => qosValue ≠ .deliverExactlyOnce → DrawsInTime s
  | .subscribe subPayloads _ _ _ => Subscribes subPayloads → DrawsInTime s
  | .unsubscribe unsubscribeList _ => unsubscribeList ≠ [] → DrawsInTime s
  | .puback draw => s.drawn.length ≤ draw + CYCLE
  | .suback draw _ => s.drawn.length ≤ draw + CYCLE
  | .error => ∀ entry ∈ s.client.pubAckWaitingQueue, entry.pubCallback.stored = true →
      entry.packetId ∉ (storedRows s.client).map (·.messageId)
  | .dowork moment outcome => ∀ client,
      initializeMqttConnection tickModulus s.client moment = some (client, true) →
      client.needPublishPersistMsg →
        ReplayInTime outcome 0
          { s with client := { client with needPublishPersistMsg := false } } (storedRows client)
  | _ => True

theorem Counted.fresh (h : Counted s) (htime : DrawsInTime s) :
    s.client.nextId ∉ pendingIds s.client := by
  intro hpending
  rcases htime _ hpending with ⟨i, d, hd, hid, hrecent⟩ | ⟨hnever, hfirst⟩
  · have hi : i < s.drawn.length := (List.getElem?_eq_some_iff.mp hd).1
    have hsame : idOf i = idOf s.drawn.length := by
      rw [← h.ids i d hd, hid, h.next]
    have := idOf_inj hsame (by omega) hrecent
    omega
  · by_cases hcycle : s.drawn.length < CYCLE
    · have hnext := h.next
      rw [idOf, Nat.mod_eq_of_lt hcycle] at hnext
      exact hfirst hnext
    · -- The id was drawn a cycle ago.
      have hlt : s.drawn.length - CYCLE < s.drawn.length := by
        have hpositive : CYCLE = 65534 := rfl
        omega
      have hget := List.getElem?_eq_getElem hlt
      refine hnever _ (List.getElem_mem hlt) (UInt16.toNat_inj.mp ?_)
      rw [h.ids _ _ hget, h.next, idOf, idOf, Nat.mod_eq_sub_mod (Nat.not_lt.mp hcycle)]

structure InCycle (drawn : ℕ) (packetId : UInt16) (draw : ℕ) : Prop where
  id : packetId.toNat = idOf draw
  lt : draw < drawn
  cycle : drawn ≤ draw + CYCLE

def Right (ack : Ack) : Prop := ack.resolved = if ack.waiting then some ack.draw else none

structure Inv (s : State μ) : Prop where
  counted : Counted s
  fresh : ∀ d ∈ s.drawn, d.packetId ≠ 0 ∧ d.packetId ∉ d.pending
  queue : ∀ entry ∈ s.client.pubAckWaitingQueue,
    InCycle s.drawn.length entry.packetId entry.pubCallback.draw
  sub : ∀ entry ∈ s.client.subAckWaitingQueue,
    InCycle s.drawn.length entry.packetId entry.subCallback.draw
  nodup : (s.client.pubAckWaitingQueue.map (·.packetId)).Nodup
  unstored : ∀ entry ∈ s.client.pubAckWaitingQueue, entry.pubCallback.stored = false →
    entry.packetId ∉ (storedRows s.client).map (·.messageId)
  acks : ∀ ack ∈ s.acks, Right ack
  refused : s.refused = []

theorem inv_of_initial (h : Initial s) : Inv s := by
  have hcounted := counted_of_initial h
  obtain ⟨keepAliveInterval, retryLogic, persist, hclient⟩ := h.client
  have hqueue : s.client.pubAckWaitingQueue = [] := by rw [hclient]; rfl
  have hsub : s.client.subAckWaitingQueue = [] := by rw [hclient]; rfl
  refine ⟨hcounted, ?_, ?_, ?_, ?_, ?_, ?_, h.refused⟩
  · rw [h.drawn]
    exact List.forall_mem_nil _
  · rw [hqueue]
    exact List.forall_mem_nil _
  · rw [hsub]
    exact List.forall_mem_nil _
  · rw [hqueue]
    exact List.nodup_nil
  · rw [hqueue]
    exact List.forall_mem_nil _
  · rw [h.acks]
    exact List.forall_mem_nil _

theorem Counted.draws (h : Counted s) {client : IotHubMqttClient μ Draft} (hdraws : Draws s client)
    (acks : List Ack) (refused : List UInt16) :
    Counted ⟨client, logDraw s, acks, refused⟩ := by
  refine ⟨?_, fun i d hd => ?_⟩
  · have hnext : client.nextId = getNextPacketId s.client.nextId :=
      congrArg getNextPacketId hdraws.packetId
    simp only [hnext, logDraw, List.length_append, List.length_singleton]
    exact getNextPacketId_toNat h.next
  · rcases Nat.lt_or_ge i s.drawn.length with hi | hi
    · exact h.ids i d ((List.getElem?_append_left hi).symm.trans hd)
    · have hlast : i = s.drawn.length := by
        have hlt := (List.getElem?_eq_some_iff.mp hd).1
        simp only [logDraw, List.length_append, List.length_singleton] at hlt
        omega
      subst hlast
      obtain rfl := Option.some.inj (List.getElem?_concat_length.symm.trans hd)
      exact h.next

theorem InCycle.next (h : Counted s) {packetId : UInt16} {draw : ℕ}
    (hcycle : InCycle s.drawn.length packetId draw) (hne : packetId ≠ s.client.nextId) :
    InCycle (s.drawn.length + 1) packetId draw := by
  refine ⟨hcycle.id, Nat.lt_succ_of_lt hcycle.lt, ?_⟩
  by_contra hover
  have hround : s.drawn.length = draw + CYCLE := by
    have hle := hcycle.cycle
    omega
  refine hne (UInt16.toNat_inj.mp ?_)
  rw [hcycle.id, h.next, hround, idOf, idOf, Nat.add_mod_right]

theorem mem_of_appended {α : Type*} {before after : List α} {P : α → Prop} {entry : α}
    (h : after = before ∨ ∃ new, after = before ++ [new] ∧ P new) (hentry : entry ∈ after) :
    entry ∈ before ∨ P entry := by
  rcases h with hkept | ⟨new, happended, hnew⟩
  · exact .inl (hkept ▸ hentry)
  · rw [happended] at hentry
    rcases List.mem_append.mp hentry with hentry | hentry
    · exact .inl hentry
    · obtain rfl := List.mem_singleton.mp hentry
      exact .inr hnew

theorem Draws.mem_queue {client : IotHubMqttClient μ Draft} (h : Draws s client)
    {entry : MqttPubCallbackInfo μ Draft} (hentry : entry ∈ client.pubAckWaitingQueue) :
    entry ∈ s.client.pubAckWaitingQueue ∨
      entry.packetId = s.client.nextId ∧ entry.pubCallback.draw = s.drawn.length ∧
        (entry.pubCallback.stored = false → storedRows client = storedRows s.client) :=
  mem_of_appended h.queue hentry

theorem Draws.mem_sub {client : IotHubMqttClient μ Draft} (h : Draws s client)
    {entry : MqttSubCallbackInfo Draft} (hentry : entry ∈ client.subAckWaitingQueue) :
    entry ∈ s.client.subAckWaitingQueue ∨
      entry.packetId = s.client.nextId ∧ entry.subCallback.draw = s.drawn.length :=
  mem_of_appended h.sub hentry

theorem Draws.not_mem_rows {client : IotHubMqttClient μ Draft} (h : Draws s client)
    {packetId : UInt16} (hfree : packetId ∉ (storedRows s.client).map (·.messageId))
    (hne : packetId ≠ s.client.nextId) : packetId ∉ (storedRows client).map (·.messageId) := by
  intro hmem
  obtain ⟨row, hrow, rfl⟩ := List.mem_map.mp hmem
  rcases h.rows row hrow with hrow | hid
  · exact hfree (List.mem_map_of_mem hrow)
  · exact hne hid

theorem Inv.draws (h : Inv s) (htime : DrawsInTime s) {client : IotHubMqttClient μ Draft}
    (hdraws : Draws s client) : Inv { s with client := client, drawn := logDraw s } := by
  have hfresh := h.counted.fresh htime
  have hlength : (logDraw s).length = s.drawn.length + 1 := by simp [logDraw]
  have hnew : InCycle (s.drawn.length + 1) s.client.nextId s.drawn.length :=
    ⟨h.counted.next, Nat.lt_succ_self _, Nat.add_le_add_left (by decide) _⟩
  have hqueue : s.client.nextId ∉ s.client.pubAckWaitingQueue.map (·.packetId) :=
    fun hmem => hfresh (List.mem_append_left _ (List.mem_append_left _ hmem))
  have hsub : s.client.nextId ∉ s.client.subAckWaitingQueue.map (·.packetId) :=
    fun hmem => hfresh (List.mem_append_left _ (List.mem_append_right _ hmem))
  have hrows : s.client.nextId ∉ (storedRows s.client).map (·.messageId) :=
    fun hmem => hfresh (List.mem_append_right _ hmem)
  have hold : ∀ entry ∈ s.client.pubAckWaitingQueue, entry.packetId ≠ s.client.nextId :=
    fun entry hentry heq => hqueue (heq ▸ List.mem_map_of_mem hentry)
  have holdSub : ∀ entry ∈ s.client.subAckWaitingQueue, entry.packetId ≠ s.client.nextId :=
    fun entry hentry heq => hsub (heq ▸ List.mem_map_of_mem hentry)
  refine ⟨h.counted.draws hdraws s.acks s.refused, ?_, ?_, ?_, ?_, ?_, h.acks, h.refused⟩
  · intro d hd
    rcases List.mem_append.mp hd with hd | hd
    · exact h.fresh d hd
    · obtain rfl := List.mem_singleton.mp hd
      refine ⟨fun hzero => ?_, hfresh⟩
      have hid := h.counted.next
      rw [show s.client.nextId = 0 from hzero] at hid
      exact absurd hid (Nat.succ_ne_zero _).symm
  · intro entry hentry
    simp only [hlength]
    rcases hdraws.mem_queue hentry with hentry | ⟨hid, hdraw, -⟩
    · exact (h.queue entry hentry).next h.counted (hold entry hentry)
    · rw [hid, hdraw]
      exact hnew
  · intro entry hentry
    simp only [hlength]
    rcases hdraws.mem_sub hentry with hentry | ⟨hid, hdraw⟩
    · exact (h.sub entry hentry).next h.counted (holdSub entry hentry)
    · rw [hid, hdraw]
      exact hnew
  · rcases hdraws.queue with hkept | ⟨new, hkept, hid, -⟩
    · simp only [hkept]
      exact h.nodup
    · simp only [hkept, List.map_append, List.map_singleton, hid]
      refine h.nodup.append (List.nodup_singleton _) fun packetId hmem hlast => ?_
      exact hqueue (List.mem_singleton.mp hlast ▸ hmem)
  · intro entry hentry hstored
    rcases hdraws.mem_queue hentry with hentry | ⟨hid, -, hunstored⟩
    · exact hdraws.not_mem_rows (h.unstored entry hentry hstored) (hold entry hentry)
    · rw [hid, hunstored hstored]
      exact hrows

theorem Inv.keeps (h : Inv s) {client : IotHubMqttClient μ Draft} (hkeeps : Keeps s.client client) :
    Inv { s with client := client } := by
  have hnext : client.nextId = s.client.nextId := congrArg getNextPacketId hkeeps.packetId
  refine ⟨⟨(congrArg UInt16.toNat hnext).trans h.counted.next, h.counted.ids⟩, h.fresh,
    fun entry hentry => h.queue entry (hkeeps.queue.subset hentry),
    fun entry hentry => h.sub entry (hkeeps.sub.subset hentry),
    h.nodup.sublist (hkeeps.queue.map _), fun entry hentry hstored hmem => ?_, h.acks, h.refused⟩
  rcases hkeeps.rows with hnone | hrows
  · rw [hnone] at hentry
    cases hentry
  · obtain ⟨row, hrow, hid⟩ := List.mem_map.mp hmem
    exact h.unstored entry (hkeeps.queue.subset hentry) hstored
      (List.mem_map.mpr ⟨row, hrows row hrow, hid⟩)

theorem resolved_eq {ε : Type*} {entries : List ε} {id : ε → UInt16} {draw : ε → ℕ}
    {packetId : UInt16} {drawn k : ℕ}
    (hentries : ∀ entry ∈ entries, InCycle drawn (id entry) (draw entry))
    (hk : InCycle drawn packetId k) :
    (entries.find? (id · == packetId)).map draw =
      if entries.any (draw · == k) then some k else none := by
  have hsame : ∀ entry ∈ entries, id entry = packetId ↔ draw entry = k := by
    intro entry hentry
    have hcycle := hentries entry hentry
    constructor
    · rintro hid
      have hids : idOf (draw entry) = idOf k := by rw [← hcycle.id, hid, hk.id]
      have hlt := hcycle.lt
      have hover := hcycle.cycle
      have hlt' := hk.lt
      have hover' := hk.cycle
      exact idOf_inj hids (by omega) (by omega)
    · rintro rfl
      exact UInt16.toNat_inj.mp (hcycle.id.trans hk.id.symm)
  cases hfind : entries.find? (id · == packetId) with
  | none =>
    have hnone : entries.any (draw · == k) = false := by
      refine List.any_eq_false.mpr fun entry hentry hdraw => ?_
      have hid := (hsame entry hentry).mpr (beq_iff_eq.mp hdraw)
      exact List.find?_eq_none.mp hfind entry hentry (beq_iff_eq.mpr hid)
    rw [hnone]
    rfl
  | some entry =>
    have hentry := List.mem_of_find?_eq_some hfind
    have hfound := List.find?_some hfind
    have hdraw := (hsame entry hentry).mp (beq_iff_eq.mp hfound)
    have hany : entries.any (draw · == k) = true :=
      List.any_eq_true.mpr ⟨entry, hentry, beq_iff_eq.mpr hdraw⟩
    rw [hany, Option.map_some, hdraw]
    rfl

theorem Inv.logAck (h : Inv s) {ack : Ack} (hright : Right ack) :
    Inv { s with acks := s.acks ++ [ack] } := by
  refine ⟨⟨h.counted.next, h.counted.ids⟩, h.fresh, h.queue, h.sub, h.nodup, h.unstored, ?_,
    h.refused⟩
  intro other hother
  rcases List.mem_append.mp hother with hother | hother
  · exact h.acks other hother
  · exact List.mem_singleton.mp hother ▸ hright

theorem Inv.inCycle (h : Inv s) {draw : ℕ} {d : Drawn} (hd : s.drawn[draw]? = some d)
    (htime : s.drawn.length ≤ draw + CYCLE) : InCycle s.drawn.length d.packetId draw :=
  ⟨h.counted.ids draw d hd, (List.getElem?_eq_some_iff.mp hd).1, htime⟩

theorem Inv.publishAck (h : Inv s) {draw : ℕ} {d : Drawn} (hd : s.drawn[draw]? = some d)
    (htime : s.drawn.length ≤ draw + CYCLE) : Inv (publishAck s draw d.packetId) := by
  have hkeeps := h.keeps (onMqttOperationComplete_keeps s.client (.publishAck d.packetId))
  exact hkeeps.logAck (resolved_eq h.queue (h.inCycle hd htime))

theorem Inv.subscribeAck (h : Inv s) {draw : ℕ} {d : Drawn} {qosReturn : List QosValue}
    (hd : s.drawn[draw]? = some d) (htime : s.drawn.length ≤ draw + CYCLE) :
    Inv (subscribeAck s draw d.packetId qosReturn) := by
  have hkeeps := h.keeps
    (onMqttOperationComplete_keeps s.client (.subscribeAck d.packetId qosReturn))
  exact hkeeps.logAck (resolved_eq h.sub (h.inCycle hd htime))

theorem refusedRow_eq_nil {client : IotHubMqttClient μ Draft} {message : MqttMessage μ}
    (h : message.packetId ∉ (storedRows client).map (·.messageId)) :
    refusedRow client message = [] := by
  rw [refusedRow, if_neg]
  intro hnone
  exact h ((persistOffline_eq_none_iff client message).mp (Option.isNone_iff_eq_none.mp hnone)).2.2

theorem refusedUnacked_eq_nil {store : PersistStore μ}
    {queue : List (MqttPubCallbackInfo μ Draft)} (hnodup : (queue.map (·.packetId)).Nodup)
    (hfree : ∀ entry ∈ queue, entry.packetId ∉ store.keys) : refusedUnacked store queue = [] := by
  induction queue generalizing store with
  | nil => rfl
  | cons entry queue ih =>
    rw [List.map_cons, List.nodup_cons] at hnodup
    rcases persistUnacked_cases store entry with ⟨htaken, -⟩ | ⟨-, hrows⟩
    · exact absurd htaken (hfree entry List.mem_cons_self)
    · have hid : entry.msgHandle.packetId ∉ store.keys :=
        entry.id_eq.symm ▸ hfree entry List.mem_cons_self
      obtain ⟨stored, hinsert, -⟩ :=
        Table.exists_insert (show (rowOf entry).messageId ∉ store.keys from hid)
      rw [refusedUnacked, hinsert, if_neg (by simp), List.nil_append]
      refine ih hnodup.2 fun other hother hmem => ?_
      rw [Table.keys, hrows, List.map_append] at hmem
      rcases List.mem_append.mp hmem with hmem | hmem
      · exact hfree other (List.mem_cons_of_mem _ hother) hmem
      · have hsame : other.packetId = entry.packetId :=
          (List.mem_singleton.mp hmem).trans entry.id_eq
        exact hnodup.1 (hsame ▸ List.mem_map_of_mem hother)

theorem Inv.error (h : Inv s)
    (hstored : ∀ entry ∈ s.client.pubAckWaitingQueue, entry.pubCallback.stored = true →
      entry.packetId ∉ (storedRows s.client).map (·.messageId)) : Inv (error s) := by
  have hrefused : s.client.persist.elim [] (refusedUnacked · s.client.pubAckWaitingQueue) = [] := by
    cases hpersist : s.client.persist with
    | none => rfl
    | some store =>
      refine refusedUnacked_eq_nil h.nodup fun entry hentry => ?_
      have hrows : storedRows s.client = store.rows := by rw [storedRows, hpersist]; rfl
      have hfree : entry.packetId ∉ (storedRows s.client).map (·.messageId) := by
        cases hwas : entry.pubCallback.stored with
        | true => exact hstored entry hentry hwas
        | false => exact h.unstored entry hentry hwas
      rw [hrows] at hfree
      exact hfree
  rw [PacketIds.error, hrefused, List.append_nil]
  exact h.keeps (onMqttErrorComplete_keeps s.client)

theorem Inv.publish (h : Inv s) {qosValue : QosValue} {content : μ} {withCallback : Bool}
    {outcome : PublishOutcome} (htime : qosValue ≠ .deliverExactlyOnce → DrawsInTime s) :
    Inv (publish s qosValue content withCallback outcome) := by
  by_cases hqos : qosValue = .deliverExactlyOnce
  · rw [PacketIds.publish, if_pos hqos]
    exact h
  · have hinv := h.draws (htime hqos) (@publish_draws _ s _ content withCallback outcome hqos)
    have hfresh := h.counted.fresh (htime hqos)
    have hrefused : refusedRow s.client.drawPacketId ⟨s.client.nextId, qosValue, content⟩ = [] :=
      refusedRow_eq_nil fun hmem => hfresh (List.mem_append_right _ hmem)
    rw [PacketIds.publish, if_neg hqos] at hinv ⊢
    rw [hrefused, List.append_nil]
    exact hinv

theorem Inv.replayRows {outcome : ℕ → PublishOutcome} {i : ℕ} {rows : List (PublishData μ)}
    (h : Inv s) (htime : ReplayInTime outcome i s rows) : Inv (replayRows outcome i s rows) := by
  induction rows generalizing i s with
  | nil => exact h
  | cons row rows ih =>
    have hpublished := @Inv.publish _ s h _ row.content false (outcome i) htime.1
    exact ih (hpublished.keeps (deleteRow_keeps _ row.messageId)) htime.2

theorem Inv.replayed {outcome : ℕ → PublishOutcome} (h : Inv s)
    (htime : s.client.needPublishPersistMsg → ReplayInTime outcome 0
      { s with client := { s.client with needPublishPersistMsg := false } } (storedRows s.client)) :
    Inv (replayed outcome s) := by
  have hrows : ∀ u : State μ, Inv u → ReplayInTime outcome 0 u (storedRows u.client) →
      Inv (u.client.persist.elim u fun store => PacketIds.replayRows outcome 0 u store.rows) := by
    intro u hu hreplay
    unfold storedRows at hreplay
    cases hpersist : u.client.persist with
    | none => exact hu
    | some store =>
      rw [hpersist] at hreplay
      exact hu.replayRows hreplay
  rw [PacketIds.replayed]
  by_cases hneed : s.client.needPublishPersistMsg = true
  · rw [if_pos hneed]
    have hstarted : Inv { s with client := { s.client with needPublishPersistMsg := false } } :=
      h.keeps ⟨rfl, .refl _, .refl _, .inr fun _ hrow => hrow⟩
    exact hrows _ hstarted (htime hneed)
  · rw [if_neg hneed]
    exact h

theorem Inv.step (h : Inv s) (hstep : Guarded (InTime tickModulus) (step tickModulus) s a t) :
    Inv t := by
  obtain ⟨htime, hstep⟩ := hstep
  cases a with
  | publish qosValue content withCallback outcome =>
    subst hstep
    exact h.publish htime
  | subscribe subPayloads withCallback allocated subscribed =>
    subst hstep
    by_cases hsubscribes : Subscribes subPayloads
    · have hinv := h.draws (htime hsubscribes)
        (@subscribe_draws _ s _ withCallback allocated subscribed hsubscribes)
      rw [PacketIds.subscribe, if_pos hsubscribes]
      exact hinv
    · rw [PacketIds.subscribe, if_neg hsubscribes, subscribeMqttTopics,
        if_pos (not_not.mp hsubscribes)]
      exact h
  | unsubscribe unsubscribeList unsubscribed =>
    subst hstep
    by_cases hnone : unsubscribeList = []
    · rw [PacketIds.unsubscribe, if_pos hnone, unsubscribeMqttTopics, if_pos hnone]
      exact h
    · have hinv := h.draws (htime hnone) (@unsubscribe_draws _ s _ unsubscribed hnone)
      rw [PacketIds.unsubscribe, if_neg hnone]
      exact hinv
  | puback draw =>
    obtain ⟨d, hd, rfl⟩ := hstep
    exact h.publishAck hd htime
  | suback draw qosReturn =>
    obtain ⟨d, hd, rfl⟩ := hstep
    exact h.subscribeAck hd htime
  | complete event =>
    subst hstep
    exact h.keeps (onMqttOperationComplete_keeps s.client event)
  | error =>
    subst hstep
    exact h.error htime
  | dowork moment outcome =>
    obtain ⟨client, result, hinit, rfl⟩ := hstep
    have hinv : Inv { s with client := client } := h.keeps (initializeMqttConnection_keeps hinit)
    cases result with
    | false => exact hinv
    | true => exact hinv.replayed (htime client hinit)
  | disconnect =>
    subst hstep
    exact h.keeps ⟨rfl, .refl _, .refl _, .inr fun _ hrow => hrow⟩

/-- In every run whose steps come in time, no id is 0 or taken when it is drawn, every
acknowledgement resolves the message it was sent for, and the store refuses no row. -/
theorem packet_ids_fresh {as : List (Action μ)} (hinit : Initial s)
    (hrun : Run (Guarded (InTime tickModulus) (step tickModulus)) s as t) :
    (∀ d ∈ t.drawn, d.packetId ≠ 0 ∧ d.packetId ∉ d.pending) ∧
    (∀ ack ∈ t.acks, Right ack) ∧ t.refused = [] := by
  have hinv : Inv t := hrun.invariant (inv_of_initial hinit) fun _ _ _ => Inv.step
  exact ⟨hinv.fresh, hinv.acks, hinv.refused⟩

def createdState (persist : Option (PersistStore Unit)) : State Unit :=
  ⟨initializeMqttClientHandle 3 none persist, [], [], []⟩

theorem createdState_initial (persist : Option (PersistStore Unit)) :
    Initial (createdState persist) := ⟨⟨3, none, persist, rfl⟩, rfl, rfl, rfl⟩

def publishOne : Action Unit := .publish .deliverAtLeastOnce () true ⟨true, true, true⟩

def unsubscribeOne : Action Unit := .unsubscribe ["alarm"] true

def publishedOne (s : State Unit) : State Unit :=
  publish s .deliverAtLeastOnce () true ⟨true, true, true⟩

theorem publishedOne_draws (s : State Unit) : Draws s (publishedOne s).client :=
  publish_draws (show QosValue.deliverAtLeastOnce ≠ .deliverExactlyOnce from nofun)

theorem packet_ids_fresh_acknowledged :
    Initial (createdState (some ∅)) ∧
    ∃ t, Run (Guarded (InTime (1 <<< 64)) (step (1 <<< 64))) (createdState (some ∅))
        [publishOne, .puback 0, publishOne] t ∧
      t.drawn.map (·.packetId) = [1, 2] ∧ t.acks = [⟨0, true, some 0⟩] ∧ t.refused = [] ∧
      ∀ d ∈ t.drawn, d.packetId ≠ 0 ∧ d.packetId ∉ d.pending := by
  have hfirst : Guarded (InTime (1 <<< 64)) (step (1 <<< 64)) (createdState (some ∅)) publishOne
      (publishedOne (createdState (some ∅))) :=
    ⟨fun _ _ hpending => absurd hpending List.not_mem_nil, rfl⟩
  have hack : Guarded (InTime (1 <<< 64)) (step (1 <<< 64)) (publishedOne (createdState (some ∅)))
      (.puback 0) (publishAck (publishedOne (createdState (some ∅))) 0 1) :=
    ⟨show 1 ≤ 0 + CYCLE from by decide, ⟨1, []⟩, rfl, rfl⟩
  -- The row that was written at the first publish is pending still.
  have hrecent : DrawsInTime (publishAck (publishedOne (createdState (some ∅))) 0 1) :=
    fun packetId hpending =>
      .inl ⟨0, ⟨1, []⟩, rfl, (List.mem_singleton.mp hpending).symm, by decide⟩
  have hsecond : Guarded (InTime (1 <<< 64)) (step (1 <<< 64))
      (publishAck (publishedOne (createdState (some ∅))) 0 1) publishOne
      (publishedOne (publishAck (publishedOne (createdState (some ∅))) 0 1)) :=
    ⟨fun _ => hrecent, rfl⟩
  have hrun := ((Run.start.next hfirst).next hack).next hsecond
  obtain ⟨hfresh, -, hrefused⟩ := packet_ids_fresh (createdState_initial (some ∅)) hrun
  exact ⟨createdState_initial _, _, hrun, rfl, rfl, hrefused, hfresh⟩

def unsubscribed (s : State Unit) : ℕ → State Unit
  | 0 => s
  | n + 1 => unsubscribe (unsubscribed s n) ["alarm"] true

theorem unsubscribed_run {as : List (Action Unit)} {s t : State Unit}
    (h : Run (step tickModulus) s as t) (n : ℕ) :
    Run (step tickModulus) s (as ++ List.replicate n unsubscribeOne) (unsubscribed t n) := by
  induction n with
  | zero =>
    rw [List.replicate_zero, List.append_nil]
    exact h
  | succ n ih =>
    rw [List.replicate_succ', ← List.append_assoc]
    exact ih.next rfl

theorem unsubscribed_counted {s : State Unit} (h : Counted s) (n : ℕ) :
    Counted (unsubscribed s n) ∧ (unsubscribed s n).drawn.length = s.drawn.length + n ∧
      (unsubscribed s n).client.pubAckWaitingQueue = s.client.pubAckWaitingQueue := by
  induction n with
  | zero => exact ⟨h, rfl, rfl⟩
  | succ n ih =>
    obtain ⟨hcounted, hlength, hqueue⟩ := ih
    refine ⟨?_, ?_, hqueue⟩
    · exact hcounted.draws
        (@unsubscribe_draws _ (unsubscribed s n) ["alarm"] true (List.cons_ne_nil _ _)) _ _
    · have hlog : (unsubscribed s (n + 1)).drawn.length = (unsubscribed s n).drawn.length + 1 :=
        List.length_append
      omega

def connectFirst : List (Action Unit) :=
  [.dowork sessionMoment fun _ => ⟨true, true, true⟩, .complete (.connack .connectionAccepted)]

def connectedState : State Unit :=
  { createdState none with
    client := onConnack { (createdState none).client with mqttClientStatus := .connecting }
      .connectionAccepted }

theorem connectFirst_run :
    Run (step (1 <<< 64)) (createdState none) connectFirst connectedState := by
  have hdowork : step (1 <<< 64) (createdState none) (.dowork sessionMoment fun _ => ⟨true, true, true⟩)
      { createdState none with
        client := { (createdState none).client with mqttClientStatus := .connecting } } :=
    ⟨_, true, rfl, rfl⟩
  exact (Run.start.next hdowork).next rfl

theorem connectedState_counted : Counted connectedState := ⟨rfl, fun i d hd => by cases hd⟩

def waitForCycle : List (Action Unit) :=
  connectFirst ++ [publishOne] ++ List.replicate 65533 unsubscribeOne ++ [publishOne] ++
    [.puback 65534]

/-- The second message of a connected client draws the id of the first, which still waits, and its
PUBACK resolves the first. -/
theorem packet_id_drawn_again :
    Initial (createdState none) ∧ connectedState.client.mqttClientStatus = .connected ∧
    Run (step (1 <<< 64)) (createdState none) connectFirst connectedState ∧
    ∃ t, Run (step (1 <<< 64)) (createdState none) waitForCycle t ∧
      (∃ d ∈ t.drawn, d.packetId ∈ d.pending) ∧ ∃ ack ∈ t.acks, ¬ Right ack := by
  have hpublished : Counted (publishedOne connectedState) :=
    connectedState_counted.draws (publishedOne_draws _) [] []
  have hfirst : step (1 <<< 64) connectedState publishOne (publishedOne connectedState) := rfl
  have hunsubscribed := unsubscribed_run (connectFirst_run.next hfirst) 65533
  obtain ⟨hcounted, hlength, hqueue⟩ := unsubscribed_counted hpublished 65533
  generalize unsubscribed (publishedOne connectedState) 65533 = u at *
  have hlength : u.drawn.length = 65534 := hlength
  have hid : u.client.nextId = 1 := by
    refine UInt16.toNat_inj.mp ?_
    rw [hcounted.next, hlength]
    rfl
  have hdraws := publishedOne_draws u
  have hdrawn : (publishedOne u).drawn = u.drawn ++ [⟨1, pendingIds u.client⟩] := by
    rw [← hid]
    rfl
  have hsecond : step (1 <<< 64) u publishOne (publishedOne u) := rfl
  have hget : (publishedOne u).drawn[65534]? = some ⟨1, pendingIds u.client⟩ := by
    rw [hdrawn, ← hlength]
    exact List.getElem?_concat_length
  have hack : step (1 <<< 64) (publishedOne u) (.puback 65534)
      (publishAck (publishedOne u) 65534 1) := ⟨_, hget, rfl⟩
  refine ⟨createdState_initial none, rfl, connectFirst_run, _,
    (hunsubscribed.next hsecond).next hack, ?_, ?_⟩
  · refine ⟨⟨1, pendingIds u.client⟩, List.mem_of_getElem? hget, ?_⟩
    refine List.mem_append_left _ (List.mem_append_left _ ?_)
    rw [hqueue]
    exact List.mem_singleton_self _
  · refine ⟨_, List.mem_append_right _ (List.mem_singleton_self _), fun hright => ?_⟩
    -- The first entry of the queue is still that of draw 0.
    obtain ⟨entries, hentries⟩ : ∃ entries, (publishedOne u).client.pubAckWaitingQueue =
        (publishedOne connectedState).client.pubAckWaitingQueue ++ entries := by
      rcases hdraws.queue with hkept | ⟨entry, hkept, -⟩
      · exact ⟨[], by rw [hkept, hqueue, List.append_nil]⟩
      · exact ⟨[entry], by rw [hkept, hqueue]⟩
    rw [Right, hentries] at hright
    have hresolved : some 0 = if _ then some 65534 else none := hright
    split at hresolved
    · cases hresolved
    · cases hresolved

end IotEdgeAgent.Mqtt.PacketIds
