import IotEdgeAgent.Library.Runs
import IotEdgeAgent.Mqtt.QueueAndStore

/-!
# What the client keeps of a message

A QoS 1 message is to be kept, in the waiting queue or in the store, until it is acknowledged.
Each call of `publish_mqtt_message` from outside gets a number, which the message carries
through the queue and the store, so that two messages with the same topic and payload are told
apart. A PUBACK acknowledges the message that was last sent under its packet id.
-/

namespace IotEdgeAgent.Mqtt.Retention
open Runs

variable {μ κ : Type*}

structure Post where
  call : ℕ
  topicName : String
  appMsg : List UInt8

/-- The client, the number of the next call, the calls of `publish_mqtt_message` that were made
so far with the latest first, and the numbers of the messages that were acknowledged. -/
structure System (κ : Type*) where
  client : IotHubMqttClient Post κ
  calls : ℕ
  history : List (PublishCall Post)
  pubacked : List ℕ

inductive Action (κ : Type*)
  | publish (qosValue : QosValue) (topicName : String) (appMsg : List UInt8)
      (pubCallback : Option κ) (outcome : PublishOutcome)
  | event (event : Event κ)

def Accepted (call : PublishCall μ) : Prop := call.qos = .deliverAtLeastOnce ∧ call.result = true

instance (call : PublishCall μ) : Decidable (Accepted call) := instDecidableAnd

def lastSent (history : List (PublishCall Post)) (packetId : UInt16) : Option ℕ :=
  (history.find? fun call => Accepted call ∧ call.packetId = packetId).map (·.content.call)

def acknowledged (history : List (PublishCall Post)) : Event κ → List ℕ
  | .complete (.publishAck packetId) => (lastSent history packetId).toList
  | _ => []

def step (tickModulus : ℕ) (s : System κ) (a : Action κ) (t : System κ) : Prop :=
  match a with
  | .publish qosValue topicName appMsg pubCallback outcome =>
    let post : Post := ⟨s.calls, topicName, appMsg⟩
    let published := publishMqttMessage s.client qosValue post pubCallback outcome
    t = { s with
      client := published.client
      calls := s.calls + 1
      history := ⟨published.client.packetId, qosValue, post, published.result⟩ :: s.history }
  | .event event => ∃ done, event.perform tickModulus s.client = some done ∧
      t = { s with
        client := done.client
        history := done.calls.reverse ++ s.history
        pubacked := acknowledged s.history event ++ s.pubacked }

structure Initial (s : System κ) : Prop where
  client : ∃ keepAliveInterval retryLogic store,
    s.client = initializeMqttClientHandle keepAliveInterval retryLogic (some store) ∧
    ∀ row ∈ store.rows, row.qos = .deliverAtLeastOnce ∧ row.content.call < s.calls
  history : s.history = []
  pubacked : s.pubacked = []

/-- Every QoS 1 message that was taken and not acknowledged waits in the queue or is stored. -/
def Retained (s : System κ) : Prop :=
  ∀ call ∈ s.history, Accepted call → call.content.call ∉ s.pubacked →
    Waiting s.client call.content ∨ Stored s.client call.content

/-- Replayed rows draw fresh ids, and those that are not acknowledged are published while the
client is not connected, so that they are stored anew before they are deleted. -/
def ReplaySafe (pubacked : List ℕ) (outcome : ℕ → PublishOutcome) :
    ℕ → IotHubMqttClient Post κ → List (PublishData Post) → Prop
  | _, _, [] => True
  | i, client, row :: rows =>
    FreshId client ∧
    (client.mqttClientStatus = .notConnected ∨ row.content.call ∈ pubacked) ∧
    ReplaySafe pubacked outcome (i + 1) (replayMessage client row (outcome i)).1 rows

/-- A QoS 1 publish draws a fresh id, and it has a callback if it is sent in a session. What
`iothub_mqtt_dowork` replays is replayed safely. -/
def Retaining (tickModulus : ℕ) (s : System κ) : Action κ → Prop
  | .publish qosValue _ _ pubCallback outcome =>
    qosValue = .deliverAtLeastOnce →
      FreshId s.client ∧
      (outcome.messageCreated ∧ outcome.published → s.client.mqttClientStatus ≠ .notConnected →
        pubCallback.isSome)
  | .event (.dowork moment outcome) => ∀ client,
      initializeMqttConnection tickModulus s.client moment = some (client, true) →
      client.needPublishPersistMsg →
        ReplaySafe s.pubacked outcome 0 { client with needPublishPersistMsg := false }
          (storedRows client)
  | _ => True

/-- An entry and a row with the same id hold the same message, the ids of the queue are
different, and each waiting message is the one last sent under its id. -/
structure Inv (s : System κ) : Prop where
  persist : s.client.persist.isSome
  rows_qos : ∀ row ∈ storedRows s.client, row.qos = .deliverAtLeastOnce
  queue_qos : ∀ entry ∈ s.client.pubAckWaitingQueue, entry.msgHandle.qos = .deliverAtLeastOnce
  ids_nodup : (s.client.pubAckWaitingQueue.map (·.packetId)).Nodup
  agree : ∀ entry ∈ s.client.pubAckWaitingQueue, ∀ row ∈ storedRows s.client,
    row.messageId = entry.packetId → row.content = entry.msgHandle.content
  carried : ∀ entry ∈ s.client.pubAckWaitingQueue,
    lastSent s.history entry.packetId = some entry.msgHandle.content.call
  retained : Retained s

theorem lastSent_cons (call : PublishCall Post) (history : List (PublishCall Post))
    (packetId : UInt16) :
    lastSent (call :: history) packetId =
      if Accepted call ∧ call.packetId = packetId then some call.content.call
      else lastSent history packetId := by
  unfold lastSent
  rw [List.find?_cons]
  split <;> simp_all

section Steps
variable {s t : System κ}

theorem inv_of_initial (h : Initial s) : Inv s := by
  obtain ⟨⟨keepAliveInterval, retryLogic, store, hclient, hrows⟩, hhistory, -⟩ := h
  constructor
  · simp [hclient, initializeMqttClientHandle]
  · intro row hrow
    rw [storedRows, hclient] at hrow
    exact (hrows row hrow).1
  · simp [hclient, initializeMqttClientHandle]
  · simp [hclient, initializeMqttClientHandle]
  · simp [hclient, initializeMqttClientHandle]
  · simp [hclient, initializeMqttClientHandle]
  · intro call hcall
    rw [hhistory] at hcall
    cases hcall

theorem Inv.frame (h : Inv s)
    (hqueue : t.client.pubAckWaitingQueue = s.client.pubAckWaitingQueue)
    (hpersist : t.client.persist = s.client.persist)
    (hsent : ∀ packetId, lastSent t.history packetId = lastSent s.history packetId)
    (hhistory : ∀ call ∈ t.history, Accepted call → call ∈ s.history)
    (hacked : s.pubacked ⊆ t.pubacked) : Inv t := by
  have hrows : storedRows t.client = storedRows s.client := by rw [storedRows, hpersist, storedRows]
  constructor
  · rw [hpersist]
    exact h.persist
  · rw [hrows]
    exact h.rows_qos
  · rw [hqueue]
    exact h.queue_qos
  · rw [hqueue]
    exact h.ids_nodup
  · rw [hqueue, hrows]
    exact h.agree
  · intro entry hentry
    rw [hsent]
    exact h.carried entry (hqueue ▸ hentry)
  · intro call hcall haccepted hunacked
    have hkept := h.retained call (hhistory call hcall haccepted) haccepted
      (fun hmem => hunacked (hacked hmem))
    simpa only [Waiting, Stored, hqueue, hrows] using hkept

section Effect
variable {client' : IotHubMqttClient Post κ} {content : Post} {pubCallback : Option κ}
  {result : Bool}

theorem Inv.effect (h : Inv s) (hfresh : FreshId s.client)
    (e : PublishEffect s.client client' content pubCallback result)
    (hkept : result = true → content.call ∈ s.pubacked ∨
      pubCallback ≠ none ∨ s.client.mqttClientStatus = .notConnected) (calls : ℕ) :
    Inv ⟨client', calls, ⟨client'.packetId, .deliverAtLeastOnce, content, result⟩ :: s.history,
      s.pubacked⟩ := by
  -- No id of an old entry or row is the new one.
  have hentry_ne : ∀ entry ∈ s.client.pubAckWaitingQueue, entry.packetId ≠ s.client.nextId :=
    fun entry hentry heq => hfresh.queue (heq ▸ List.mem_map_of_mem hentry)
  have hrow_ne : ∀ row ∈ storedRows s.client, row.messageId ≠ s.client.nextId :=
    fun row hrow heq => hfresh.store (heq ▸ List.mem_map_of_mem hrow)
  constructor
  · exact e.persist
  · intro row hrow
    rcases e.mem_rows hrow with hrow | rfl
    · exact h.rows_qos row hrow
    · rfl
  · intro entry hentry
    rcases e.mem_queue hentry with hentry | ⟨-, hmessage⟩
    · exact h.queue_qos entry hentry
    · rw [hmessage]
  · rcases e.queue with ⟨hqueue, -⟩ | ⟨-, callback, -, hqueue⟩
    · exact hqueue ▸ h.ids_nodup
    · dsimp only
      rw [hqueue]
      exact Table.insert_nodup h.ids_nodup hfresh.queue
  · intro entry hentry row hrow hid
    rcases e.mem_queue hentry with hentry | ⟨-, hmessage⟩ <;>
      rcases e.mem_rows hrow with hrow | rfl
    · exact h.agree entry hentry row hrow hid
    · exact absurd hid.symm (hentry_ne entry hentry)
    · rw [← entry.id_eq, hmessage] at hid
      exact absurd hid (hrow_ne row hrow)
    · rw [hmessage]
  · intro entry hentry
    rw [lastSent_cons, e.packetId]
    rcases e.mem_queue hentry with hentry | ⟨hresult, hmessage⟩
    · rw [if_neg fun hif => hentry_ne entry hentry hif.2.symm]
      exact h.carried entry hentry
    · have hid : s.client.nextId = entry.packetId := by rw [← entry.id_eq, hmessage]
      rw [if_pos ⟨⟨rfl, hresult⟩, hid⟩, hmessage]
  · intro call hcall haccepted hunacked
    rcases List.mem_cons.mp hcall with rfl | hcall
    · exact e.kept haccepted.2 ((hkept haccepted.2).resolve_left hunacked)
    · exact (h.retained call hcall haccepted hunacked).imp e.waiting e.stored

end Effect

theorem Inv.publish (h : Inv s) {qosValue : QosValue} {content : Post} {pubCallback : Option κ}
    {outcome : PublishOutcome} {p : Published Post κ}
    (hp : publishMqttMessage s.client qosValue content pubCallback outcome = p)
    (hfresh : qosValue = .deliverAtLeastOnce → FreshId s.client)
    (hkept : qosValue = .deliverAtLeastOnce → p.result = true → content.call ∈ s.pubacked ∨
      pubCallback ≠ none ∨ s.client.mqttClientStatus = .notConnected) (calls : ℕ) :
    Inv ⟨p.client, calls, ⟨p.client.packetId, qosValue, content, p.result⟩ :: s.history,
      s.pubacked⟩ := by
  subst hp
  by_cases hqos : qosValue = .deliverAtLeastOnce
  · subst hqos
    exact h.effect (hfresh rfl) (publishMqttMessage_effect h.persist (hfresh rfl)) (hkept rfl) calls
  · have hnot : ∀ id result, ¬ Accepted (⟨id, qosValue, content, result⟩ : PublishCall Post) :=
      fun _ _ haccepted => hqos haccepted.1
    apply h.frame (publishMqttMessage_other hqos).1 (publishMqttMessage_other hqos).2
    · intro id
      rw [lastSent_cons, if_neg fun hif => hnot _ _ hif.1]
    · intro call hcall haccepted
      rcases List.mem_cons.mp hcall with rfl | hcall
      · exact absurd haccepted (hnot _ _)
      · exact hcall
    · exact List.Subset.refl _

theorem Inv.publishAck (h : Inv s) (packetId : UInt16) :
    Inv { s with
      client := (onPublishAck s.client packetId).1
      pubacked := (lastSent s.history packetId).toList ++ s.pubacked } := by
  have hsublist : (s.client.pubAckWaitingQueue.eraseP (·.packetId == packetId)).Sublist
      s.client.pubAckWaitingQueue := List.eraseP_sublist
  constructor
  · exact h.persist
  · exact h.rows_qos
  · exact fun entry hentry => h.queue_qos entry (hsublist.subset hentry)
  · exact h.ids_nodup.sublist (hsublist.map _)
  · exact fun entry hentry => h.agree entry (hsublist.subset hentry)
  · exact fun entry hentry => h.carried entry (hsublist.subset hentry)
  · intro call hcall haccepted hunacked
    rw [List.mem_append, not_or] at hunacked
    refine (h.retained call hcall haccepted hunacked.2).imp_left ?_
    rintro ⟨entry, hentry, hcontent⟩
    refine ⟨entry, ?_, hcontent⟩
    -- An entry with the id of the PUBACK is acknowledged by it.
    have hne : entry.packetId ≠ packetId := by
      rintro rfl
      apply hunacked.1
      rw [h.carried entry hentry, hcontent]
      exact List.mem_singleton_self _
    exact (List.mem_eraseP_of_neg (by simpa using hne)).mpr hentry

theorem Inv.error (h : Inv s) : Inv { s with client := (onMqttErrorComplete s.client).1 } := by
  obtain ⟨store, hstore⟩ := Option.isSome_iff_exists.mp h.persist
  have hrows : storedRows s.client = store.rows := by rw [storedRows, hstore]; rfl
  have hrows' : storedRows (onMqttErrorComplete s.client).1 =
      (s.client.pubAckWaitingQueue.foldl persistUnacked store).rows := by
    simp [storedRows, onMqttErrorComplete, notifySubscribeAckFailure, notifyPublishAckFailure,
      hstore]
  have hqueue : (onMqttErrorComplete s.client).1.pubAckWaitingQueue = [] := rfl
  constructor
  · simp [onMqttErrorComplete, notifySubscribeAckFailure, notifyPublishAckFailure, hstore]
  · intro row hrow
    rw [hrows'] at hrow
    rcases mem_foldl_persistUnacked hrow with hrow | ⟨entry, hentry, rfl⟩
    · exact h.rows_qos row (hrows ▸ hrow)
    · exact h.queue_qos entry hentry
  · simp [hqueue]
  · simp [hqueue]
  · simp [hqueue]
  · simp [hqueue]
  · intro call hcall haccepted hunacked
    right
    rw [Stored, hrows']
    rcases h.retained call hcall haccepted hunacked with ⟨entry, hentry, hcontent⟩ | hstored
    · rw [← hcontent]
      exact exists_mem_foldl_persistUnacked h.ids_nodup (hrows ▸ h.agree) hentry
    · obtain ⟨row, hrow, hcontent⟩ := hstored
      exact ⟨row, mem_foldl_persistUnacked_of_mem (hrows ▸ hrow), hcontent⟩

theorem Inv.delete (h : Inv s) (messageId : UInt16)
    (hkept : ∀ row ∈ storedRows s.client, row.messageId = messageId →
      row.content.call ∈ s.pubacked ∨
        ∃ other ∈ storedRows s.client, other.messageId ≠ messageId ∧ other.content = row.content) :
    Inv { s with
      client := { s.client with persist := s.client.persist.map (·.delete messageId) } } := by
  constructor
  · simpa using h.persist
  · exact fun row hrow => h.rows_qos row (mem_storedRows_delete.mp hrow).1
  · exact h.queue_qos
  · exact h.ids_nodup
  · exact fun entry hentry row hrow =>
      h.agree entry hentry row (mem_storedRows_delete.mp hrow).1
  · exact h.carried
  · intro call hcall haccepted hunacked
    refine (h.retained call hcall haccepted hunacked).imp_right ?_
    rintro ⟨row, hrow, hcontent⟩
    by_cases hid : row.messageId = messageId
    · rcases hkept row hrow hid with hacked | ⟨other, hother, hne, hsame⟩
      · exact absurd (hcontent ▸ hacked) hunacked
      · exact ⟨other, mem_storedRows_delete.mpr ⟨hother, hne⟩, hsame.trans hcontent⟩
    · exact ⟨row, mem_storedRows_delete.mpr ⟨hrow, hid⟩, hcontent⟩

section ReplayMessage
variable {row : PublishData Post} (outcome : PublishOutcome)

theorem Inv.replayMessage_effect (h : Inv s) (hrow : row ∈ storedRows s.client)
    (hfresh : FreshId s.client) :
    PublishEffect s.client (publishMqttMessage s.client row.qos row.content none outcome).client
      row.content none (publishMqttMessage s.client row.qos row.content none outcome).result := by
  rw [h.rows_qos row hrow]
  exact publishMqttMessage_effect h.persist hfresh

theorem Inv.mem_replayMessage (h : Inv s) (hrow : row ∈ storedRows s.client)
    (hfresh : FreshId s.client) {other : PublishData Post} (hother : other ∈ storedRows s.client)
    (hne : other.messageId ≠ row.messageId) :
    other ∈ storedRows (replayMessage s.client row outcome).1 := by
  refine mem_storedRows_delete.mpr ⟨?_, hne⟩
  rw [(h.replayMessage_effect outcome hrow hfresh).rows]
  exact List.mem_append_left _ hother

theorem Inv.replay_row (h : Inv s) (hrow : row ∈ storedRows s.client)
    (hfresh : FreshId s.client)
    (hkept : s.client.mqttClientStatus = .notConnected ∨ row.content.call ∈ s.pubacked) :
    Inv { s with
      client := (replayMessage s.client row outcome).1
      history := (replayMessage s.client row outcome).2 :: s.history } := by
  have e := h.replayMessage_effect outcome hrow hfresh
  obtain ⟨p, hp⟩ : ∃ p, publishMqttMessage s.client row.qos row.content none outcome = p := ⟨_, rfl⟩
  have hpublished := h.publish hp (fun _ => hfresh)
    (fun _ _ => hkept.symm.imp_right Or.inr) s.calls
  rw [Mqtt.replayMessage, hp]
  rw [hp] at e
  refine hpublished.delete row.messageId ?_
  intro other hother hid
  -- The row deleted is the one replayed; the id of its new row is fresh.
  have hrow' : row ∈ storedRows p.client := by
    rw [e.rows]
    exact List.mem_append_left _ hrow
  obtain rfl := storedRows_inj hother hrow' hid
  rcases hkept with hstatus | hacked
  · right
    refine ⟨⟨s.client.nextId, .deliverAtLeastOnce, other.content⟩, ?_, ?_, rfl⟩
    · rw [e.rows, if_pos hstatus]
      exact List.mem_append_right _ (List.mem_singleton_self _)
    · intro heq
      exact hfresh.store (List.mem_map.mpr ⟨other, hrow, heq.symm⟩)
  · exact .inl hacked

end ReplayMessage

theorem Inv.replay_rows {outcome : ℕ → PublishOutcome} {rows : List (PublishData Post)} {i : ℕ}
    (h : Inv s) (hmem : ∀ row ∈ rows, row ∈ storedRows s.client)
    (hnodup : (rows.map (·.messageId)).Nodup)
    (hsafe : ReplaySafe s.pubacked outcome i s.client rows) :
    Inv { s with
      client := (replayMessages outcome i s.client rows).1
      history := (replayMessages outcome i s.client rows).2.reverse ++ s.history } := by
  induction rows generalizing s i with
  | nil => exact h
  | cons row rows ih =>
    rw [List.map_cons, List.nodup_cons] at hnodup
    obtain ⟨hfresh, hkept, hrest⟩ := hsafe
    have hrow := hmem row List.mem_cons_self
    have hstep := h.replay_row (outcome i) hrow hfresh hkept
    have hmem' : ∀ other ∈ rows,
        other ∈ storedRows (replayMessage s.client row (outcome i)).1 := by
      intro other hother
      apply h.mem_replayMessage (outcome i) hrow hfresh (hmem other (List.mem_cons_of_mem _ hother))
      exact fun hid => hnodup.1 (hid ▸ List.mem_map_of_mem hother)
    have hfinal := ih hstep hmem' hnodup.2 hrest
    simpa only [replayMessages, List.reverse_cons, List.append_assoc, List.cons_append,
      List.nil_append] using hfinal

theorem Inv.untouched (h : Inv s) {client' : IotHubMqttClient Post κ}
    (hsame : Untouched s.client client') : Inv { s with client := client' } :=
  h.frame hsame.queue hsame.persist (fun _ => rfl) (fun _ hcall _ => hcall) (List.Subset.refl _)

theorem Inv.persisted (h : Inv s) {outcome : ℕ → PublishOutcome}
    (hsafe : s.client.needPublishPersistMsg →
      ReplaySafe s.pubacked outcome 0 { s.client with needPublishPersistMsg := false }
        (storedRows s.client)) :
    Inv { s with
      client := (publishPersisted outcome s.client).1
      history := (publishPersisted outcome s.client).2.reverse ++ s.history } := by
  unfold publishPersisted
  split_ifs with hneed
  · have hframe : Inv { s with client := { s.client with needPublishPersistMsg := false } } :=
      h.untouched ⟨rfl, rfl⟩
    obtain ⟨store, hstore⟩ := Option.isSome_iff_exists.mp h.persist
    have hrows : storedRows s.client = store.rows := by rw [storedRows, hstore]; rfl
    simp only [hstore]
    rw [← hrows, ← hstore]
    exact hframe.replay_rows (fun _ hrow => hrow) (storedRows_nodup s.client) (hsafe hneed)
  · exact h

theorem Inv.event {tickModulus : ℕ} {event : Event κ} {done : Done Post κ} (h : Inv s)
    (hsafe : Retaining tickModulus s (.event event))
    (hdone : event.perform tickModulus s.client = some done) :
    Inv { s with
      client := done.client
      history := done.calls.reverse ++ s.history
      pubacked := acknowledged s.history event ++ s.pubacked } := by
  cases event with
  | complete event =>
    cases hdone
    cases event with
    | publishAck packetId => exact h.publishAck packetId
    | connack returnCode => exact h.untouched (onConnack_untouched returnCode)
    | _ => exact h.untouched ⟨rfl, rfl⟩
  | error =>
    cases hdone
    exact h.error
  | dowork moment outcome =>
    obtain ⟨⟨client, calls⟩, hdowork, rfl⟩ := Option.map_eq_some_iff.mp hdone
    obtain ⟨⟨client', result⟩, hconnect, hdowork⟩ := Option.map_eq_some_iff.mp hdowork
    have hconnected := h.untouched (initializeMqttConnection_untouched hconnect)
    dsimp only at hdowork
    split_ifs at hdowork with hresult
    · have hpersisted := hconnected.persisted fun hneed =>
        hsafe client' (hresult ▸ hconnect) hneed
      rwa [hdowork] at hpersisted
    · cases hdowork
      exact hconnected
  | subscribe subPayloads subCallback allocated subscribed =>
    cases hdone
    exact h.untouched (subscribeMqttTopics_untouched subPayloads subCallback allocated subscribed)
  | unsubscribe unsubscribeList unsubscribed =>
    cases hdone
    exact h.untouched (unsubscribeMqttTopics_untouched unsubscribeList unsubscribed)
  | disconnect =>
    cases hdone
    exact h.untouched ⟨rfl, rfl⟩

theorem Inv.step {tickModulus : ℕ} {a : Action κ} (h : Inv s)
    (hstep : Guarded (Retaining tickModulus) (step tickModulus) s a t) : Inv t := by
  obtain ⟨hsafe, hstep⟩ := hstep
  cases a with
  | publish qosValue topicName appMsg pubCallback outcome =>
    subst hstep
    refine h.publish rfl (fun hqos => (hsafe hqos).1) ?_ (s.calls + 1)
    intro hqos hresult
    right
    by_cases hstatus : s.client.mqttClientStatus = .notConnected
    · exact .inr hstatus
    · have hsome := (hsafe hqos).2 (publishMqttMessage_sent hresult) hstatus
      exact .inl (Option.isSome_iff_ne_none.mp hsome)
  | event event =>
    obtain ⟨done, hdone, rfl⟩ := hstep
    exact h.event hsafe hdone

end Steps

/-- In a run of steps that lose no message, every QoS 1 message that was taken is kept until it is
acknowledged. -/
theorem retained_of_retaining {tickModulus : ℕ} {s t : System κ} {as : List (Action κ)}
    (hinit : Initial s) (hrun : Run (Guarded (Retaining tickModulus) (step tickModulus)) s as t) :
    Retained t := by
  have hinv : Inv t := hrun.invariant (inv_of_initial hinit) fun _ _ _ => Inv.step
  exact hinv.retained

def createdSystem : System Unit where
  client := initializeMqttClientHandle 10 (some (createRetryLogic 300)) (some ∅)
  calls := 0
  history := []
  pubacked := []

theorem createdSystem_initial : Initial createdSystem where
  client := ⟨10, some (createRetryLogic 300), ∅, rfl, by simp⟩
  history := rfl
  pubacked := rfl

def allGood : PublishOutcome := ⟨true, true, true⟩

def connectAt (now : ℤ) : ConnectMoment := ⟨⟨now, now, 0⟩, some 0, true, some 0⟩

def connectingSystem : System Unit :=
  { createdSystem with
    client :=
      { createdSystem.client with
        mqttClientStatus := .connecting
        retryLogic := some
          { createRetryLogic 300 with
            start := 1, lastConnect := 1, retryStarted := true, firstAttempt := false
            retrycount := 1 } } }

def onlineSystem : System Unit :=
  { connectingSystem with client := onConnack connectingSystem.client .connectionAccepted }

def goOnline : List (Action Unit) :=
  [.event (.dowork (connectAt 1) fun _ => allGood),
    .event (.complete (.connack .connectionAccepted))]

theorem goOnline_run (tickModulus : ℕ) :
    Run (Guarded (Retaining tickModulus) (step tickModulus)) createdSystem goOnline
      onlineSystem := by
  have hsafe : Retaining tickModulus createdSystem
      (.event (.dowork (connectAt 1) fun _ => allGood)) := by
    intro client hclient hneed
    obtain rfl := (Prod.mk.inj (Option.some.inj hclient)).1
    cases hneed
  have hconnect : Guarded (Retaining tickModulus) (step tickModulus) createdSystem
      (.event (.dowork (connectAt 1) fun _ => allGood)) connectingSystem :=
    ⟨hsafe, _, rfl, rfl⟩
  have hconnack : Guarded (Retaining tickModulus) (step tickModulus) connectingSystem
      (.event (.complete (.connack .connectionAccepted))) onlineSystem :=
    ⟨trivial, _, rfl, rfl⟩
  exact (Run.start.next hconnect).next hconnack

def publishReading (pubCallback : Option Unit) : Action Unit :=
  .publish .deliverAtLeastOnce "meter/reading" [0x31] pubCallback allGood

def publishedSystem (pubCallback : Option Unit) : System Unit :=
  let post : Post := ⟨0, "meter/reading", [0x31]⟩
  { onlineSystem with
    client :=
      (publishMqttMessage onlineSystem.client .deliverAtLeastOnce post pubCallback allGood).client
    calls := 1
    history := [⟨1, .deliverAtLeastOnce, post, true⟩] }

theorem publishReading_step (tickModulus : ℕ) (pubCallback : Option Unit) :
    step tickModulus onlineSystem (publishReading pubCallback) (publishedSystem pubCallback) := by
  cases pubCallback <;> rfl

def brokenSystem : System Unit :=
  { publishedSystem (some ()) with
    client := (onMqttErrorComplete (publishedSystem (some ())).client).1 }

theorem retained_of_retaining_broken :
    (∃ as, Run (Guarded (Retaining 18446744073709551616) (step 18446744073709551616))
      createdSystem as brokenSystem) ∧
    (∃ call ∈ brokenSystem.history, Accepted call ∧ call.content.call ∉ brokenSystem.pubacked) ∧
    Retained brokenSystem := by
  have hfresh : FreshId onlineSystem.client := ⟨List.not_mem_nil, List.not_mem_nil⟩
  have hpublish : Guarded (Retaining 18446744073709551616) (step 18446744073709551616)
      onlineSystem (publishReading (some ())) (publishedSystem (some ())) :=
    ⟨fun _ => ⟨hfresh, fun _ _ => rfl⟩, publishReading_step _ _⟩
  have herror : Guarded (Retaining 18446744073709551616) (step 18446744073709551616)
      (publishedSystem (some ())) (.event .error) brokenSystem := ⟨trivial, _, rfl, rfl⟩
  have hrun := ((goOnline_run 18446744073709551616).next hpublish).next herror
  exact ⟨⟨_, hrun⟩, ⟨_, List.mem_singleton_self _, ⟨rfl, rfl⟩, List.not_mem_nil⟩,
    retained_of_retaining createdSystem_initial hrun⟩

/-- Without a callback the reading is taken in the session and then kept nowhere. -/
theorem reading_without_callback_lost :
    Initial createdSystem ∧
    Run (step 18446744073709551616) createdSystem (goOnline ++ [publishReading none])
      (publishedSystem none) ∧
    ¬ Retained (publishedSystem none) := by
  refine ⟨createdSystem_initial, (goOnline_run _).unguard.next (publishReading_step _ _), ?_⟩
  intro hretained
  rcases hretained _ (List.mem_singleton_self _) ⟨rfl, rfl⟩ List.not_mem_nil with
    ⟨entry, hentry, -⟩ | ⟨row, hrow, -⟩
  · exact List.not_mem_nil hentry
  · exact List.not_mem_nil hrow

end IotEdgeAgent.Mqtt.Retention
