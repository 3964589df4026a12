import Mathlib.Logic.Function.Iterate
import IotEdgeAgent.Mqtt.QueueAndStore

/-!
# Replaying the store

A new connection publishes the rows of the store in order, each followed by the deletion of its
row. A row is meant to leave the store only when its publish returned 0. The publish of a row
reads the rows that are still there and the packet ids drawn for the rows in front of it, so
the client is followed through the loop, row by row.
-/

namespace IotEdgeAgent.Mqtt

variable {μ κ : Type*}

def replayedTo (outcome : ℕ → PublishOutcome) (client : IotHubMqttClient μ κ) (i : ℕ) :
    IotHubMqttClient μ κ :=
  (replayMessages outcome 0 client ((storedRows client).take i)).1

/-- A row leaves the store only if its own publish returned 0, and a row whose publish failed is
in the store at the end. -/
structure NeverDiscards (outcome : ℕ → PublishOutcome) (client final : IotHubMqttClient μ κ)
    (calls : List (PublishCall μ)) : Prop where
  deleted : ∀ (i : ℕ) (row : PublishData μ) (call : PublishCall μ),
    (storedRows client)[i]? = some row → calls[i]? = some call →
    ∀ j, row ∈ storedRows (replayedTo outcome client j) →
      row ∉ storedRows (replayedTo outcome client (j + 1)) → call.result = true
  kept : ∀ (i : ℕ) (row : PublishData μ) (call : PublishCall μ),
    (storedRows client)[i]? = some row → calls[i]? = some call →
    call.result = false → row ∈ storedRows final

def drawnId (client : IotHubMqttClient μ κ) (i : ℕ) : UInt16 :=
  getNextPacketId^[i + 1] client.packetId

/-- What the publish of row `i` needs. While the client is not connected, a QoS 1 message is
stored again, so its id has to be free among the rows still there and those stored again. -/
structure Passes (outcome : PublishOutcome) (client : IotHubMqttClient μ κ) (i : ℕ)
    (row : PublishData μ) : Prop where
  qos : row.qos ≠ .deliverExactlyOnce
  created : outcome.messageCreated
  published : outcome.published
  free : client.mqttClientStatus = .notConnected → row.qos = .deliverAtLeastOnce →
    drawnId client i ∉ ((storedRows client).drop i).map (·.messageId) ∧
    ∀ j < i, ∀ other, (storedRows client)[j]? = some other →
      other.qos = .deliverAtLeastOnce → drawnId client j ≠ drawnId client i

section Publish
variable {client client' : IotHubMqttClient μ κ} {message : MqttMessage μ} {qosValue : QosValue}
  {content : μ} {row other : PublishData μ} {outcome : PublishOutcome}

theorem persistOffline_eq_none_iff (client : IotHubMqttClient μ κ) (message : MqttMessage μ) :
    persistOffline client message = none ↔
      message.qos = .deliverAtLeastOnce ∧ client.mqttClientStatus = .notConnected ∧
        message.packetId ∈ (storedRows client).map (·.messageId) := by
  unfold persistOffline
  split_ifs with hoffline
  · cases hpersist : client.persist with
    | none => simp [storedRows, hpersist]
    | some store =>
      simp only [Option.map_eq_none_iff, Table.insert_eq_none_iff, storedRows, hpersist,
        Option.elim_some, hoffline.1, hoffline.2, true_and]
      rfl
  · rw [← and_assoc]
    simp [hoffline]

structure Written (client client' : IotHubMqttClient μ κ) (message : MqttMessage μ) : Prop where
  packetId : client'.packetId = client.packetId
  status : client'.mqttClientStatus = client.mqttClientStatus
  persist : client'.persist.isSome = client.persist.isSome
  rows : storedRows client' = storedRows client ++
    if message.qos = .deliverAtLeastOnce ∧ client.mqttClientStatus = .notConnected ∧
      client.persist.isSome
    then [⟨message.packetId, message.qos, message.content⟩] else []

theorem persistOffline_written (h : persistOffline client message = some client') :
    Written client client' message := by
  unfold persistOffline at h
  split_ifs at h with hoffline
  · cases hpersist : client.persist with
    | none =>
      simp only [hpersist, Option.some.injEq] at h
      subst h
      exact ⟨rfl, rfl, rfl, by simp [hpersist]⟩
    | some store =>
      simp only [hpersist] at h
      obtain ⟨store', hinsert, rfl⟩ := Option.map_eq_some_iff.mp h
      refine ⟨rfl, rfl, by simp [hpersist], ?_⟩
      simp [storedRows, hpersist, Table.rows_of_insert hinsert, hoffline]
  · cases h
    refine ⟨rfl, rfl, rfl, ?_⟩
    rw [if_neg fun hall => hoffline ⟨hall.1, hall.2.1⟩, List.append_nil]

theorem sendMessage_none (client : IotHubMqttClient μ κ) (message : MqttMessage μ)
    (outcome : PublishOutcome) :
    (sendMessage client message none outcome).client = client ∧
    ((sendMessage client message none outcome).result = true ↔
      outcome.messageCreated ∧ outcome.published) := by
  have heq : sendMessage client message none outcome =
      ⟨client, outcome.messageCreated && outcome.published, []⟩ := by
    obtain ⟨packetId, qos, content⟩ := message
    obtain ⟨messageCreated, entryAllocated, published⟩ := outcome
    cases qos <;> cases messageCreated <;> cases published <;> rfl
  rw [heq]
  simp

theorem publishMqttMessage_result_iff :
    (publishMqttMessage client qosValue content none outcome).result = true ↔
      qosValue ≠ .deliverExactlyOnce ∧ outcome.messageCreated ∧ outcome.published ∧
      (client.mqttClientStatus = .notConnected → qosValue = .deliverAtLeastOnce →
        client.nextId ∉ (storedRows client).map (·.messageId)) := by
  unfold publishMqttMessage
  split_ifs with hqos
  · simp [hqos]
  have hoffline := persistOffline_eq_none_iff client.drawPacketId
    ⟨client.nextId, qosValue, content⟩
  cases hwrite : persistOffline client.drawPacketId ⟨client.nextId, qosValue, content⟩ with
  | none =>
    obtain ⟨hleast, hstatus, htaken⟩ := hoffline.mp hwrite
    simp only [hwrite, Bool.false_eq_true, false_iff]
    exact fun hpass => hpass.2.2.2 hstatus hleast htaken
  | some client' =>
    have hfree : client.mqttClientStatus = .notConnected → qosValue = .deliverAtLeastOnce →
        client.nextId ∉ (storedRows client).map (·.messageId) := by
      intro hstatus hleast htaken
      rw [hoffline.mpr ⟨hleast, hstatus, htaken⟩] at hwrite
      cases hwrite
    simp only [hwrite, (sendMessage_none client' _ outcome).2]
    exact ⟨fun h => ⟨hqos, h.1, h.2, hfree⟩, fun h => ⟨h.2.1, h.2.2.1⟩⟩

theorem mem_publishMqttMessage (h : row ∈ storedRows client) :
    row ∈ storedRows (publishMqttMessage client qosValue content none outcome).client := by
  unfold publishMqttMessage
  split_ifs
  · exact h
  dsimp only
  split
  · exact h
  · next client' hwrite =>
    rw [(sendMessage_none client' _ outcome).1, (persistOffline_written hwrite).rows]
    exact List.mem_append_left _ h

theorem publishMqttMessage_written
    (h : (publishMqttMessage client qosValue content none outcome).result = true) :
    Written client.drawPacketId (publishMqttMessage client qosValue content none outcome).client
      ⟨client.nextId, qosValue, content⟩ := by
  unfold publishMqttMessage at h ⊢
  split_ifs at h ⊢
  dsimp only at h ⊢
  split at h
  · cases h
  · next client' hwrite =>
    simp only [(sendMessage_none client' _ outcome).1]
    exact persistOffline_written hwrite

theorem mem_replayMessage (h : other ∈ storedRows client) (hne : other.messageId ≠ row.messageId) :
    other ∈ storedRows (replayMessage client row outcome).1 :=
  mem_storedRows_delete.mpr ⟨mem_publishMqttMessage h, hne⟩

theorem not_mem_replayMessage : row ∉ storedRows (replayMessage client row outcome).1 :=
  fun h => (mem_storedRows_delete.mp h).2 rfl

end Publish

theorem replayMessages_append (outcome : ℕ → PublishOutcome) (i : ℕ)
    (client : IotHubMqttClient μ κ) (rows rest : List (PublishData μ)) :
    replayMessages outcome i client (rows ++ rest) =
      let front := replayMessages outcome i client rows
      let back := replayMessages outcome (i + rows.length) front.1 rest
      (back.1, front.2 ++ back.2) := by
  induction rows generalizing i client with
  | nil => simp [replayMessages]
  | cons row rows ih =>
    simp only [List.cons_append, replayMessages, ih, List.length_cons]
    rw [Nat.add_assoc, Nat.add_comm 1]

theorem getElem?_replayMessages (outcome : ℕ → PublishOutcome) (k : ℕ)
    (client : IotHubMqttClient μ κ) (rows : List (PublishData μ)) (i : ℕ) :
    (replayMessages outcome k client rows).2[i]? = rows[i]?.map fun row =>
      (replayMessage (replayMessages outcome k client (rows.take i)).1 row
        (outcome (k + i))).2 := by
  induction rows generalizing k client i with
  | nil => simp [replayMessages]
  | cons row rows ih =>
    cases i with
    | zero => simp [replayMessages]
    | succ i =>
      simp only [replayMessages, List.getElem?_cons_succ, List.take_succ_cons, ih]
      rw [Nat.add_assoc, Nat.add_comm 1]

section Loop
variable {outcome : ℕ → PublishOutcome} {client : IotHubMqttClient μ κ} {i : ℕ}
  {row : PublishData μ} {call : PublishCall μ}

theorem replayedTo_succ (hrow : (storedRows client)[i]? = some row) :
    replayedTo outcome client (i + 1) =
      (replayMessage (replayedTo outcome client i) row (outcome i)).1 := by
  obtain ⟨hi, -⟩ := List.getElem?_eq_some_iff.mp hrow
  have hlength : ((storedRows client).take i).length = i :=
    List.length_take_of_le (Nat.le_of_lt hi)
  rw [replayedTo, List.take_add_one, hrow, Option.toList_some, replayMessages_append, hlength,
    Nat.zero_add]
  rfl

theorem call_eq (hrow : (storedRows client)[i]? = some row)
    (hcall : (replayMessages outcome 0 client (storedRows client)).2[i]? = some call) :
    call = (replayMessage (replayedTo outcome client i) row (outcome i)).2 := by
  rw [getElem?_replayMessages, hrow, Nat.zero_add] at hcall
  exact (Option.some.inj hcall).symm

theorem mem_replayedTo (hrow : (storedRows client)[i]? = some row) {j : ℕ} (hj : j ≤ i) :
    row ∈ storedRows (replayedTo outcome client j) := by
  obtain ⟨hi, rfl⟩ := List.getElem?_eq_some_iff.mp hrow
  induction j with
  | zero => exact List.getElem_mem hi
  | succ j ih =>
    have hother : (storedRows client)[j]? = some (storedRows client)[j] :=
      List.getElem?_eq_getElem (by omega)
    rw [replayedTo_succ hother]
    refine mem_replayMessage (ih (by omega)) fun hid => ?_
    have hinj := List.inj_on_of_nodup_map (storedRows_nodup client) (List.getElem_mem _)
      (List.getElem_mem _) hid
    have hindex := (List.Nodup.of_map _ (storedRows_nodup client)).getElem_inj_iff.mp hinj
    omega

theorem not_mem_replayedTo (hrow : (storedRows client)[i]? = some row) :
    row ∉ storedRows (replayedTo outcome client (i + 1)) := by
  rw [replayedTo_succ hrow]
  exact not_mem_replayMessage

theorem neverDiscards_iff_results {final : IotHubMqttClient μ κ} :
    NeverDiscards outcome client final (replayMessages outcome 0 client (storedRows client)).2 ↔
      ∀ i row, (storedRows client)[i]? = some row →
        (replayMessage (replayedTo outcome client i) row (outcome i)).2.result = true := by
  constructor
  · intro h i row hrow
    have hcall := getElem?_replayMessages outcome 0 client (storedRows client) i
    rw [hrow, Nat.zero_add] at hcall
    exact h.deleted i row _ hrow hcall i (mem_replayedTo hrow (Nat.le_refl i))
      (not_mem_replayedTo hrow)
  · intro h
    refine ⟨fun i row call hrow hcall _ _ _ => ?_, fun i row call hrow hcall hfailed => ?_⟩
    · rw [call_eq hrow hcall]
      exact h i row hrow
    · rw [call_eq hrow hcall, h i row hrow] at hfailed
      cases hfailed

/-- The client in front of row `i`, when all publishes so far returned 0: an id was drawn for
each row, and the rows in the store are those still to come and those stored again. -/
structure Advanced (client before : IotHubMqttClient μ κ) (i : ℕ) : Prop where
  packetId : before.packetId = getNextPacketId^[i] client.packetId
  status : before.mqttClientStatus = client.mqttClientStatus
  persist : before.persist.isSome = client.persist.isSome
  ids : ∀ id, id ∈ (storedRows before).map (·.messageId) ↔
    id ∈ ((storedRows client).drop i).map (·.messageId) ∨
    client.mqttClientStatus = .notConnected ∧ ∃ j < i, ∃ other,
      (storedRows client)[j]? = some other ∧ other.qos = .deliverAtLeastOnce ∧
        drawnId client j = id

theorem Advanced.nextId {before : IotHubMqttClient μ κ} (h : Advanced client before i) :
    before.nextId = drawnId client i := by
  rw [IotHubMqttClient.nextId, h.packetId, drawnId, Function.iterate_succ_apply']

theorem Advanced.result_iff {before : IotHubMqttClient μ κ} (h : Advanced client before i)
    (row : PublishData μ) (outcome : PublishOutcome) :
    (replayMessage before row outcome).2.result = true ↔ Passes outcome client i row := by
  have hresult : (replayMessage before row outcome).2.result =
    (publishMqttMessage before row.qos row.content none outcome).result := rfl
  rw [hresult, publishMqttMessage_result_iff, h.status, h.nextId, h.ids]
  constructor
  · rintro ⟨hqos, hcreated, hpublished, hfree⟩
    refine ⟨hqos, hcreated, hpublished, fun hstatus hleast => ?_⟩
    have hnot := not_or.mp (hfree hstatus hleast)
    exact ⟨hnot.1, fun j hj other hother hqos heq =>
      hnot.2 ⟨hstatus, j, hj, other, hother, hqos, heq⟩⟩
  · rintro ⟨hqos, hcreated, hpublished, hfree⟩
    refine ⟨hqos, hcreated, hpublished, fun hstatus hleast => ?_⟩
    rintro (htaken | ⟨-, j, hj, other, hother, hqos, heq⟩)
    · exact (hfree hstatus hleast).1 htaken
    · exact (hfree hstatus hleast).2 j hj other hother hqos heq

theorem mem_ids_delete {messageId id : UInt16} :
    id ∈ (storedRows
        { client with persist := client.persist.map (·.delete messageId) }).map (·.messageId) ↔
      id ∈ (storedRows client).map (·.messageId) ∧ id ≠ messageId := by
  simp only [List.mem_map, mem_storedRows_delete]
  constructor
  · rintro ⟨row, ⟨hrow, hne⟩, rfl⟩
    exact ⟨⟨row, hrow, rfl⟩, hne⟩
  · rintro ⟨⟨row, hrow, rfl⟩, hne⟩
    exact ⟨row, ⟨hrow, hne⟩, rfl⟩

theorem drop_row (hrow : (storedRows client)[i]? = some row) :
    (storedRows client).drop i = row :: (storedRows client).drop (i + 1) := by
  obtain ⟨hi, hget⟩ := List.getElem?_eq_some_iff.mp hrow
  rw [List.drop_eq_getElem_cons hi, hget]

theorem messageId_not_mem_rest (hrow : (storedRows client)[i]? = some row) :
    row.messageId ∉ ((storedRows client).drop (i + 1)).map (·.messageId) := by
  have hnodup := (storedRows_nodup client).sublist ((List.drop_sublist i _).map _)
  rw [drop_row hrow, List.map_cons, List.nodup_cons] at hnodup
  exact hnodup.1

theorem Passes.drawnId_ne {j : ℕ} {other : PublishData μ} {outcome : PublishOutcome}
    (h : Passes outcome client j other) (hj : j ≤ i) (hrow : (storedRows client)[i]? = some row)
    (hstatus : client.mqttClientStatus = .notConnected)
    (hqos : other.qos = .deliverAtLeastOnce) : drawnId client j ≠ row.messageId := by
  intro heq
  apply (h.free hstatus hqos).1
  rw [heq]
  refine List.mem_map_of_mem (List.mem_of_getElem? (i := i - j) ?_)
  rw [List.getElem?_drop, Nat.add_sub_of_le hj, hrow]

theorem Advanced.mem_written {before : IotHubMqttClient μ κ} (h : Advanced client before i)
    (hrow : (storedRows client)[i]? = some row) (id : UInt16) :
    id ∈ (if row.qos = .deliverAtLeastOnce ∧
          before.drawPacketId.mqttClientStatus = .notConnected ∧
            before.drawPacketId.persist.isSome
        then [(⟨before.nextId, row.qos, row.content⟩ : PublishData μ)] else []).map
          (·.messageId) ↔
      row.qos = .deliverAtLeastOnce ∧ client.mqttClientStatus = .notConnected ∧
        id = drawnId client i := by
  have hsome : client.persist.isSome := by
    cases hpersist : client.persist with
    | none => simp [storedRows, hpersist] at hrow
    | some store => rfl
  have hpersist : before.drawPacketId.persist.isSome := h.persist.trans hsome
  rw [show before.drawPacketId.mqttClientStatus = client.mqttClientStatus from h.status]
  simp only [hpersist, and_true, ← h.nextId]
  split_ifs with hboth
  · simp [hboth]
  · simp only [List.map_nil, List.not_mem_nil, false_iff]
    exact fun hall => hboth ⟨hall.1, hall.2.1⟩

theorem Advanced.next {before : IotHubMqttClient μ κ} (h : Advanced client before i)
    (hrow : (storedRows client)[i]? = some row)
    (hpasses : ∀ j < i, ∀ other, (storedRows client)[j]? = some other →
      Passes (outcome j) client j other)
    (hpass : Passes (outcome i) client i row) :
    Advanced client (replayMessage before row (outcome i)).1 (i + 1) := by
  have hwritten := publishMqttMessage_written ((h.result_iff row (outcome i)).mpr hpass)
  refine ⟨?_, hwritten.status.trans h.status, ?_, ?_⟩
  · rw [Function.iterate_succ_apply', ← h.packetId]
    exact hwritten.packetId
  · exact (Option.isSome_map ..).trans (hwritten.persist.trans h.persist)
  · intro id
    rw [replayMessage, mem_ids_delete, hwritten.rows, List.map_append, List.mem_append,
      show storedRows before.drawPacketId = storedRows before from rfl, h.ids, drop_row hrow,
      List.map_cons, List.mem_cons, h.mem_written hrow]
    constructor
    · rintro ⟨((rfl | hrest) | ⟨hstatus, j, hj, hother⟩) | ⟨hqos, hstatus, rfl⟩, hne⟩
      · exact absurd rfl hne
      · exact .inl hrest
      · exact .inr ⟨hstatus, j, Nat.lt_succ_of_lt hj, hother⟩
      · exact .inr ⟨hstatus, i, Nat.lt_succ_self i, row, hrow, hqos, rfl⟩
    · rintro (hrest | ⟨hstatus, j, hj, other, hother, hqos, rfl⟩)
      · exact ⟨.inl (.inl (.inr hrest)), fun heq => messageId_not_mem_rest hrow (heq ▸ hrest)⟩
      · rcases Nat.lt_or_eq_of_le (Nat.le_of_lt_succ hj) with hj | rfl
        · exact ⟨.inl (.inr ⟨hstatus, j, hj, other, hother, hqos, rfl⟩),
            (hpasses j hj other hother).drawnId_ne (Nat.le_of_lt hj) hrow hstatus hqos⟩
        · rw [hrow] at hother
          cases hother
          exact ⟨.inr ⟨hqos, hstatus, rfl⟩,
            hpass.drawnId_ne (Nat.le_refl _) hrow hstatus hqos⟩

theorem advanced_replayedTo (hi : i ≤ (storedRows client).length)
    (hpasses : ∀ j < i, ∀ other, (storedRows client)[j]? = some other →
      Passes (outcome j) client j other) :
    Advanced client (replayedTo outcome client i) i := by
  induction i with
  | zero =>
    refine ⟨rfl, rfl, rfl, fun id => ?_⟩
    simp [replayedTo, replayMessages]
  | succ i ih =>
    have hbefore := ih (Nat.le_of_succ_le hi) fun j hj => hpasses j (Nat.lt_succ_of_lt hj)
    have hrow : (storedRows client)[i]? = some (storedRows client)[i] :=
      List.getElem?_eq_getElem hi
    rw [replayedTo_succ hrow]
    exact hbefore.next hrow (fun j hj => hpasses j (Nat.lt_succ_of_lt hj))
      (hpasses i (Nat.lt_succ_self i) _ hrow)

theorem results_iff_passes :
    (∀ i row, (storedRows client)[i]? = some row →
      (replayMessage (replayedTo outcome client i) row (outcome i)).2.result = true) ↔
    ∀ i row, (storedRows client)[i]? = some row → Passes (outcome i) client i row := by
  -- In both directions the rows in front of a row have passed.
  have hstep : ∀ i, (∀ j < i, ∀ other, (storedRows client)[j]? = some other →
      Passes (outcome j) client j other) → ∀ row, (storedRows client)[i]? = some row →
      ((replayMessage (replayedTo outcome client i) row (outcome i)).2.result = true ↔
        Passes (outcome i) client i row) := by
    intro i hpasses row hrow
    obtain ⟨hi, -⟩ := List.getElem?_eq_some_iff.mp hrow
    exact (advanced_replayedTo (Nat.le_of_lt hi) hpasses).result_iff row (outcome i)
  constructor
  · intro h i
    induction i using Nat.strongRecOn with
    | ind i ih => exact fun row hrow => (hstep i ih row hrow).mp (h i row hrow)
  · exact fun h i row hrow => (hstep i (fun j _ => h j) row hrow).mpr (h i row hrow)

end Loop

def replayStart (client : IotHubMqttClient μ κ) : IotHubMqttClient μ κ :=
  { client with needPublishPersistMsg := false }

section Dowork
variable {tickModulus : ℕ} {client ready : IotHubMqttClient μ κ} {moment : ConnectMoment}

theorem iothubMqttDowork_replays (outcome : ℕ → PublishOutcome)
    (hready : initializeMqttConnection tickModulus client moment = some (ready, true))
    (hneed : ready.needPublishPersistMsg) :
    iothubMqttDowork tickModulus client moment outcome =
      some (replayMessages outcome 0 (replayStart ready) (storedRows (replayStart ready))) := by
  simp only [iothubMqttDowork, hready, Option.map_some, if_true, publishPersisted, hneed,
    Option.some.injEq]
  cases hpersist : ready.persist with
  | none => simp [storedRows, hpersist, replayMessages, replayStart]
  | some store => simp [storedRows, hpersist, replayStart]

/-- A replay discards no row exactly when the publish of every row has what it needs. -/
theorem neverDiscards_iff_passes (outcome : ℕ → PublishOutcome)
    (hready : initializeMqttConnection tickModulus client moment = some (ready, true))
    (hneed : ready.needPublishPersistMsg) :
    ∃ final calls, iothubMqttDowork tickModulus client moment outcome = some (final, calls) ∧
      (NeverDiscards outcome (replayStart ready) final calls ↔
        ∀ i row, (storedRows (replayStart ready))[i]? = some row →
          Passes (outcome i) (replayStart ready) i row) :=
  ⟨_, _, iothubMqttDowork_replays outcome hready hneed,
    neverDiscards_iff_results.trans results_iff_passes⟩

end Dowork

def backlog : PersistStore String := ⟨[⟨3, .deliverAtLeastOnce, "reading"⟩], by simp⟩

def resumedClient : IotHubMqttClient String Unit :=
  onConnack (initializeMqttClientHandle 10 none (some backlog)) .connectionAccepted

def sessionMoment : ConnectMoment := ⟨⟨1, 1, 0⟩, some 0, true, some 0⟩

theorem neverDiscards_iff_passes_resumed :
    ∃ final calls,
      iothubMqttDowork 18446744073709551616 resumedClient sessionMoment
        (fun _ => ⟨true, true, true⟩) = some (final, calls) ∧
      NeverDiscards (fun _ => ⟨true, true, true⟩) (replayStart resumedClient) final calls := by
  have hready : initializeMqttConnection 18446744073709551616 resumedClient sessionMoment =
      some (resumedClient, true) := rfl
  obtain ⟨final, calls, hdowork, hiff⟩ :=
    neverDiscards_iff_passes (fun _ => ⟨true, true, true⟩) hready rfl
  refine ⟨final, calls, hdowork, hiff.mpr fun i row hrow => ?_⟩
  have hqos : row.qos ≠ .deliverExactlyOnce := by
    have hmem : row ∈ backlog.rows := List.mem_of_getElem? hrow
    rw [List.mem_singleton.mp hmem]
    decide
  exact ⟨hqos, rfl, rfl, fun hstatus => by cases hstatus⟩

/-- The publish of the row fails, and the row is gone. -/
theorem failed_replay_discards :
    ∃ final calls,
      iothubMqttDowork 18446744073709551616 resumedClient sessionMoment
        (fun _ => ⟨true, true, false⟩) = some (final, calls) ∧
      storedRows resumedClient = [⟨3, .deliverAtLeastOnce, "reading"⟩] ∧
      calls.map (·.result) = [false] ∧ storedRows final = [] ∧
      ¬ NeverDiscards (fun _ => ⟨true, true, false⟩) (replayStart resumedClient) final calls := by
  refine ⟨_, _, rfl, rfl, rfl, rfl, fun h => ?_⟩
  have hlost := h.kept 0 ⟨3, .deliverAtLeastOnce, "reading"⟩ _ rfl rfl rfl
  cases hlost

end IotEdgeAgent.Mqtt
