import IotEdgeAgent.Mqtt.Client

/-!
# The waiting queue and the store

What the operations of the client do to the two places in which it keeps a message. A publish
whose packet id is fresh is described by one effect, the move of the queue into the store by
what becomes of each entry, and all other operations leave both places untouched.
-/

namespace IotEdgeAgent.Mqtt

variable {μ κ : Type*}

def storedRows (client : IotHubMqttClient μ κ) : List (PublishData μ) :=
  client.persist.elim [] Table.rows

def Waiting (client : IotHubMqttClient μ κ) (content : μ) : Prop :=
  ∃ entry ∈ client.pubAckWaitingQueue, entry.msgHandle.content = content

def Stored (client : IotHubMqttClient μ κ) (content : μ) : Prop :=
  ∃ row ∈ storedRows client, row.content = content

structure FreshId (client : IotHubMqttClient μ κ) : Prop where
  queue : client.nextId ∉ client.pubAckWaitingQueue.map (·.packetId)
  store : client.nextId ∉ (storedRows client).map (·.messageId)

theorem storedRows_inj {client : IotHubMqttClient μ κ} {row other : PublishData μ}
    (hrow : row ∈ storedRows client) (hother : other ∈ storedRows client)
    (hid : row.messageId = other.messageId) : row = other := by
  cases hpersist : client.persist with
  | none =>
    rw [storedRows, hpersist] at hrow
    cases hrow
  | some store =>
    rw [storedRows, hpersist] at hrow hother
    exact Table.eq_of_key_eq hrow hother hid

theorem storedRows_nodup (client : IotHubMqttClient μ κ) :
    ((storedRows client).map (·.messageId)).Nodup := by
  cases hpersist : client.persist with
  | none => simp [storedRows, hpersist]
  | some store => simpa [storedRows, hpersist] using store.keys_nodup

theorem mem_storedRows_delete {client : IotHubMqttClient μ κ} {messageId : UInt16}
    {row : PublishData μ} :
    row ∈ storedRows { client with persist := client.persist.map (·.delete messageId) } ↔
      row ∈ storedRows client ∧ row.messageId ≠ messageId := by
  cases hpersist : client.persist with
  | none => simp [storedRows, hpersist]
  | some store => simp [storedRows, hpersist]

section Publish
variable {client : IotHubMqttClient μ κ} {message : MqttMessage μ} {qosValue : QosValue}
  {content : μ} {pubCallback : Option κ} {outcome : PublishOutcome}

theorem sendMessage_cases {p : Published μ κ}
    (hp : sendMessage client message pubCallback outcome = p) :
    (p.client = client ∧
      (p.result = true → message.qos = .deliverAtLeastOnce → pubCallback = none)) ∨
    (message.qos = .deliverAtLeastOnce ∧ p.result = true ∧ ∃ callback,
      pubCallback = some callback ∧ p.client = { client with
        pubAckWaitingQueue :=
          client.pubAckWaitingQueue ++ [⟨message.packetId, callback, message, rfl⟩] }) := by
  subst hp
  unfold sendMessage
  split
  · simp
  split
  · next callback hqos => split_ifs <;> simp [hqos]
  · next callback hqos => split_ifs <;> simp [hqos]
  · next hne _ =>
    refine .inl ⟨by split_ifs <;> rfl, ?_⟩
    intro _ hqos
    by_contra hcallback
    obtain ⟨callback, hcallback⟩ := Option.ne_none_iff_exists'.mp hcallback
    exact hne callback hqos hcallback

theorem sendMessage_sent (h : (sendMessage client message pubCallback outcome).result = true) :
    outcome.messageCreated ∧ outcome.published := by
  unfold sendMessage at h
  split at h
  · cases h
  · next hcreated =>
    refine ⟨by simpa using hcreated, ?_⟩
    split at h <;> split_ifs at h <;> assumption

structure PublishEffect (client client' : IotHubMqttClient μ κ) (content : μ)
    (pubCallback : Option κ) (result : Bool) : Prop where
  packetId : client'.packetId = client.nextId
  status : client'.mqttClientStatus = client.mqttClientStatus
  persist : client'.persist.isSome
  rows : storedRows client' = storedRows client ++
    if client.mqttClientStatus = .notConnected
      then [⟨client.nextId, .deliverAtLeastOnce, content⟩] else []
  queue : (client'.pubAckWaitingQueue = client.pubAckWaitingQueue ∧
      (result = true → pubCallback = none)) ∨
    result = true ∧ ∃ callback, pubCallback = some callback ∧
      client'.pubAckWaitingQueue = client.pubAckWaitingQueue ++
        [⟨client.nextId, callback, ⟨client.nextId, .deliverAtLeastOnce, content⟩, rfl⟩]

theorem persistOffline_fresh (content : μ) (hpersist : client.persist.isSome)
    (hfresh : FreshId client) :
    ∃ client', persistOffline client.drawPacketId
        ⟨client.nextId, .deliverAtLeastOnce, content⟩ = some client' ∧
      client'.packetId = client.nextId ∧
      client'.mqttClientStatus = client.mqttClientStatus ∧
      client'.pubAckWaitingQueue = client.pubAckWaitingQueue ∧
      client'.persist.isSome ∧
      storedRows client' = storedRows client ++
        if client.mqttClientStatus = .notConnected
          then [⟨client.nextId, .deliverAtLeastOnce, content⟩] else [] := by
  obtain ⟨store, hstore⟩ := Option.isSome_iff_exists.mp hpersist
  by_cases hstatus : client.mqttClientStatus = .notConnected
  · let row : PublishData μ := ⟨client.nextId, .deliverAtLeastOnce, content⟩
    have hfree : row.messageId ∉ store.keys := by
      simpa [storedRows, hstore, Table.keys] using hfresh.store
    obtain ⟨store', hinsert, hrows⟩ := Table.exists_insert hfree
    refine ⟨{ client.drawPacketId with persist := some store' }, ?_, rfl, rfl, rfl, rfl, ?_⟩
    · simpa [persistOffline, IotHubMqttClient.drawPacketId, hstatus, hstore] using hinsert
    · simp [storedRows, hstore, hrows, hstatus, row]
  · refine ⟨client.drawPacketId, ?_, rfl, rfl, rfl, hpersist, ?_⟩
    · simp [persistOffline, IotHubMqttClient.drawPacketId, hstatus]
    · simp [storedRows, IotHubMqttClient.drawPacketId, hstatus]

theorem publishMqttMessage_effect (hpersist : client.persist.isSome) (hfresh : FreshId client) :
    PublishEffect client
      (publishMqttMessage client .deliverAtLeastOnce content pubCallback outcome).client content
      pubCallback
      (publishMqttMessage client .deliverAtLeastOnce content pubCallback outcome).result := by
  obtain ⟨client', hoffline, hid, hstatus, hqueue, hsome, hrows⟩ :=
    persistOffline_fresh content hpersist hfresh
  have heq : publishMqttMessage client .deliverAtLeastOnce content pubCallback outcome =
      sendMessage client' ⟨client.nextId, .deliverAtLeastOnce, content⟩ pubCallback outcome := by
    simp [publishMqttMessage, hoffline]
  rw [heq]
  rcases sendMessage_cases rfl with ⟨hclient, hnone⟩ | ⟨-, hresult, callback, hcallback, hclient⟩
  · refine ⟨?_, ?_, ?_, ?_, .inl ⟨?_, fun hresult => hnone hresult rfl⟩⟩ <;> rw [hclient] <;>
      assumption
  · refine ⟨?_, ?_, ?_, ?_, .inr ⟨hresult, callback, hcallback, ?_⟩⟩ <;> rw [hclient]
    · exact hid
    · exact hstatus
    · exact hsome
    · exact hrows
    · rw [hqueue]

theorem publishMqttMessage_other (hqos : qosValue ≠ .deliverAtLeastOnce) :
    (publishMqttMessage client qosValue content pubCallback outcome).client.pubAckWaitingQueue =
      client.pubAckWaitingQueue ∧
    (publishMqttMessage client qosValue content pubCallback outcome).client.persist =
      client.persist := by
  unfold publishMqttMessage
  split_ifs
  · exact ⟨rfl, rfl⟩
  have hoffline : persistOffline client.drawPacketId ⟨client.nextId, qosValue, content⟩ =
      some client.drawPacketId := by
    simp [persistOffline, hqos]
  simp only [hoffline]
  rcases sendMessage_cases rfl with ⟨hclient, -⟩ | ⟨hqos', -⟩
  · rw [hclient]
    exact ⟨rfl, rfl⟩
  · exact absurd hqos' hqos

theorem publishMqttMessage_sent
    (h : (publishMqttMessage client qosValue content pubCallback outcome).result = true) :
    outcome.messageCreated ∧ outcome.published := by
  unfold publishMqttMessage at h
  split_ifs at h
  dsimp only at h
  split at h
  · cases h
  · exact sendMessage_sent h

variable {client' : IotHubMqttClient μ κ} {result : Bool}

theorem PublishEffect.mem_rows (e : PublishEffect client client' content pubCallback result)
    {row : PublishData μ} (h : row ∈ storedRows client') :
    row ∈ storedRows client ∨ row = ⟨client.nextId, .deliverAtLeastOnce, content⟩ := by
  rw [e.rows, List.mem_append] at h
  refine h.imp_right fun hnew => ?_
  split_ifs at hnew
  · exact List.mem_singleton.mp hnew
  · cases hnew

theorem PublishEffect.mem_queue (e : PublishEffect client client' content pubCallback result)
    {entry : MqttPubCallbackInfo μ κ} (h : entry ∈ client'.pubAckWaitingQueue) :
    entry ∈ client.pubAckWaitingQueue ∨
      (result = true ∧ entry.msgHandle = ⟨client.nextId, .deliverAtLeastOnce, content⟩) := by
  rcases e.queue with ⟨hqueue, -⟩ | ⟨hresult, callback, -, hqueue⟩
  · exact .inl (hqueue ▸ h)
  · rw [hqueue, List.mem_append, List.mem_singleton] at h
    exact h.imp_right fun hentry => ⟨hresult, by rw [hentry]⟩

theorem PublishEffect.waiting (e : PublishEffect client client' content pubCallback result)
    {other : μ} (h : Waiting client other) : Waiting client' other := by
  obtain ⟨entry, hentry, hcontent⟩ := h
  refine ⟨entry, ?_, hcontent⟩
  rcases e.queue with ⟨hqueue, -⟩ | ⟨-, callback, -, hqueue⟩
  · exact hqueue ▸ hentry
  · rw [hqueue]
    exact List.mem_append_left _ hentry

theorem PublishEffect.stored (e : PublishEffect client client' content pubCallback result)
    {other : μ} (h : Stored client other) : Stored client' other := by
  obtain ⟨row, hrow, hcontent⟩ := h
  refine ⟨row, ?_, hcontent⟩
  rw [e.rows]
  exact List.mem_append_left _ hrow

theorem PublishEffect.kept (e : PublishEffect client client' content pubCallback result)
    (hresult : result = true)
    (h : pubCallback ≠ none ∨ client.mqttClientStatus = .notConnected) :
    Waiting client' content ∨ Stored client' content := by
  rcases h with hcallback | hstatus
  · rcases e.queue with ⟨-, hnone⟩ | ⟨-, callback, -, hqueue⟩
    · exact absurd (hnone hresult) hcallback
    · exact .inl ⟨_, hqueue ▸ List.mem_append_right _ (List.mem_singleton_self _), rfl⟩
  · refine .inr ⟨⟨client.nextId, .deliverAtLeastOnce, content⟩, ?_, rfl⟩
    rw [e.rows, if_pos hstatus]
    exact List.mem_append_right _ (List.mem_singleton_self _)

end Publish

section Error
variable {store : PersistStore μ} {entry : MqttPubCallbackInfo μ κ}
  {queue : List (MqttPubCallbackInfo μ κ)} {row : PublishData μ}

def rowOf (entry : MqttPubCallbackInfo μ κ) : PublishData μ :=
  ⟨entry.msgHandle.packetId, entry.msgHandle.qos, entry.msgHandle.content⟩

theorem persistUnacked_cases (store : PersistStore μ) (entry : MqttPubCallbackInfo μ κ) :
    (entry.packetId ∈ store.keys ∧ persistUnacked store entry = store) ∨
    (entry.packetId ∉ store.keys ∧
      (persistUnacked store entry).rows = store.rows ++ [rowOf entry]) := by
  rw [← entry.id_eq]
  by_cases htaken : (rowOf entry).messageId ∈ store.keys
  · have hnone := Table.insert_eq_none_iff.mpr htaken
    exact .inl ⟨htaken, congrArg (Option.getD · store) hnone⟩
  · obtain ⟨store', hinsert, hrows⟩ := Table.exists_insert htaken
    exact .inr ⟨htaken, (congrArg (fun o => (Option.getD o store).rows) hinsert).trans hrows⟩

theorem mem_persistUnacked (h : row ∈ (persistUnacked store entry).rows) :
    row ∈ store.rows ∨ row = rowOf entry := by
  rcases persistUnacked_cases store entry with ⟨-, heq⟩ | ⟨-, hrows⟩
  · exact .inl (heq ▸ h)
  · rw [hrows, List.mem_append, List.mem_singleton] at h
    exact h

theorem mem_persistUnacked_of_mem (h : row ∈ store.rows) :
    row ∈ (persistUnacked store entry).rows := by
  rcases persistUnacked_cases store entry with ⟨-, heq⟩ | ⟨-, hrows⟩
  · exact heq.symm ▸ h
  · rw [hrows]
    exact List.mem_append_left _ h

theorem exists_mem_persistUnacked
    (hagree : ∀ row ∈ store.rows, row.messageId = entry.packetId →
      row.content = entry.msgHandle.content) :
    ∃ row ∈ (persistUnacked store entry).rows, row.content = entry.msgHandle.content := by
  rcases persistUnacked_cases store entry with ⟨htaken, heq⟩ | ⟨-, hrows⟩
  · obtain ⟨row, hrow, hid⟩ := List.mem_map.mp htaken
    exact ⟨row, heq.symm ▸ hrow, hagree row hrow hid⟩
  · exact ⟨rowOf entry, hrows ▸ List.mem_append_right _ (List.mem_singleton_self _), rfl⟩

theorem mem_foldl_persistUnacked (h : row ∈ (queue.foldl persistUnacked store).rows) :
    row ∈ store.rows ∨ ∃ entry ∈ queue, row = rowOf entry := by
  induction queue generalizing store with
  | nil => exact .inl h
  | cons entry queue ih =>
    rcases ih h with hrow | ⟨other, hother, hrow⟩
    · rcases mem_persistUnacked hrow with hrow | hrow
      · exact .inl hrow
      · exact .inr ⟨entry, List.mem_cons_self, hrow⟩
    · exact .inr ⟨other, List.mem_cons_of_mem _ hother, hrow⟩

theorem mem_foldl_persistUnacked_of_mem (h : row ∈ store.rows) :
    row ∈ (queue.foldl persistUnacked store).rows := by
  induction queue generalizing store with
  | nil => exact h
  | cons entry queue ih => exact ih (mem_persistUnacked_of_mem h)

theorem exists_mem_foldl_persistUnacked (hnodup : (queue.map (·.packetId)).Nodup)
    (hagree : ∀ entry ∈ queue, ∀ row ∈ store.rows, row.messageId = entry.packetId →
      row.content = entry.msgHandle.content) (hentry : entry ∈ queue) :
    ∃ row ∈ (queue.foldl persistUnacked store).rows, row.content = entry.msgHandle.content := by
  induction queue generalizing store with
  | nil => cases hentry
  | cons first queue ih =>
    rw [List.map_cons, List.nodup_cons] at hnodup
    rw [List.foldl_cons]
    rcases List.mem_cons.mp hentry with rfl | hentry
    · obtain ⟨row, hrow, hcontent⟩ := exists_mem_persistUnacked (hagree entry List.mem_cons_self)
      exact ⟨row, mem_foldl_persistUnacked_of_mem hrow, hcontent⟩
    · refine ih hnodup.2 ?_ hentry
      intro other hother row hrow hid
      rcases mem_persistUnacked hrow with hrow | rfl
      · exact hagree other (List.mem_cons_of_mem _ hother) row hrow hid
      · -- The row just added has the id of the first entry only.
        have hsame : first.packetId = other.packetId := first.id_eq.symm.trans hid
        exact absurd (hsame ▸ List.mem_map_of_mem hother) hnodup.1

end Error

structure Untouched (client client' : IotHubMqttClient μ κ) : Prop where
  queue : client'.pubAckWaitingQueue = client.pubAckWaitingQueue
  persist : client'.persist = client.persist

section Untouched
variable {client client' : IotHubMqttClient μ κ}

theorem onConnack_untouched (returnCode : ConnectReturnCode) :
    Untouched client (onConnack client returnCode) := by
  unfold onConnack
  split_ifs <;> exact ⟨rfl, rfl⟩

theorem subscribeMqttTopics_untouched (subPayloads : List QosValue) (subCallback : Option κ)
    (allocated subscribed : Bool) :
    Untouched client
      (subscribeMqttTopics client subPayloads subCallback allocated subscribed).1 := by
  unfold subscribeMqttTopics
  split
  · exact ⟨rfl, rfl⟩
  split
  · exact ⟨rfl, rfl⟩
  · split <;> exact ⟨rfl, rfl⟩

theorem unsubscribeMqttTopics_untouched (unsubscribeList : List String) (unsubscribed : Bool) :
    Untouched client (unsubscribeMqttTopics client unsubscribeList unsubscribed).1 := by
  unfold unsubscribeMqttTopics
  split_ifs <;> exact ⟨rfl, rfl⟩

theorem initializeMqttConnection_untouched {tickModulus : ℕ} {moment : ConnectMoment}
    {result : Bool}
    (h : initializeMqttConnection tickModulus client moment = some (client', result)) :
    Untouched client client' := by
  obtain ⟨mqttClientStatus, retryLogic, mqttConnectTime, rfl⟩ := initializeMqttConnection_frame h
  exact ⟨rfl, rfl⟩

end Untouched

end IotEdgeAgent.Mqtt
