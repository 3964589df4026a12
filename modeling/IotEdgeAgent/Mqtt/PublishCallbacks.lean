import IotEdgeAgent.Library.Runs
import IotEdgeAgent.Library.Tickets
import IotEdgeAgent.Mqtt.QueueAndStore

/-!
# Each publish callback is called once

A QoS 1 publish with a callback is a ticket: it is accepted when the call returns 0 and closed when
its callback is called. The waiting queue holds the open tickets in the order of the calls. Neither
umqtt nor a callback enters the client again.
-/

namespace IotEdgeAgent.Mqtt.PublishCallbacks

open Runs

variable {μ : Type*}

structure System (μ : Type*) where
  client : IotHubMqttClient μ ℕ
  calls : List (PublishCall μ)
  notices : List (Notice ℕ)

inductive Action (μ : Type*)
  | publish (content : μ) (outcome : PublishOutcome)
  | event (event : Event ℕ)

/-- What is replayed is published without a callback and is no call from outside. -/
def step (tickModulus : ℕ) (s : System μ) (a : Action μ) (t : System μ) : Prop :=
  match a with
  | .publish content outcome =>
    let published :=
      publishMqttMessage s.client .deliverAtLeastOnce content (some s.calls.length) outcome
    t =
      { client := published.client
        calls := s.calls ++
          [⟨published.client.packetId, .deliverAtLeastOnce, content, published.result⟩]
        notices := s.notices ++ published.notified }
  | .event event => ∃ done, event.perform tickModulus s.client = some done ∧
      t = { s with client := done.client, notices := s.notices ++ done.notices }

structure Initial (s : System μ) : Prop where
  queue : s.client.pubAckWaitingQueue = []
  calls : s.calls = []
  notices : s.notices = []

def notifiedCall : Notice ℕ → Option ℕ
  | .pub call _ => some call
  | .sub _ _ => none

def notified (s : System μ) : List ℕ := s.notices.filterMap notifiedCall

def accepted (s : System μ) : List Bool := s.calls.map (·.result)

def waitingCalls (client : IotHubMqttClient μ ℕ) : List ℕ :=
  client.pubAckWaitingQueue.map (·.pubCallback)

def Carries (calls : List (PublishCall μ)) (entry : MqttPubCallbackInfo μ ℕ) : Prop :=
  calls[entry.pubCallback]? =
    some ⟨entry.msgHandle.packetId, entry.msgHandle.qos, entry.msgHandle.content, true⟩

section Publish
variable {κ : Type*} {client : IotHubMqttClient μ κ} {content : μ} {outcome : PublishOutcome}

theorem persistOffline_frame {client' : IotHubMqttClient μ κ} {message : MqttMessage μ}
    (h : persistOffline client message = some client') :
    client'.pubAckWaitingQueue = client.pubAckWaitingQueue ∧
    client'.subAckWaitingQueue = client.subAckWaitingQueue ∧
    client'.packetId = client.packetId := by
  unfold persistOffline at h
  split at h
  · cases hpersist : client.persist with
    | none =>
      rw [hpersist] at h
      obtain rfl := Option.some.inj h
      exact ⟨rfl, rfl, rfl⟩
    | some store =>
      rw [hpersist] at h
      obtain ⟨stored, -, rfl⟩ := Option.map_eq_some_iff.mp h
      exact ⟨rfl, rfl, rfl⟩
  · obtain rfl := Option.some.inj h
    exact ⟨rfl, rfl, rfl⟩

inductive PublishEnd (client client' : IotHubMqttClient μ κ) (content : μ) (callback : κ) :
    Bool → List (Notice κ) → Prop
  | refused (queue : client'.pubAckWaitingQueue = client.pubAckWaitingQueue) :
      PublishEnd client client' content callback false []
  | unsent (queue : client'.pubAckWaitingQueue = client.pubAckWaitingQueue) :
      PublishEnd client client' content callback false [.pub callback .failed]
  | sent (queue : client'.pubAckWaitingQueue = client.pubAckWaitingQueue ++
        [⟨client'.packetId, callback, ⟨client'.packetId, .deliverAtLeastOnce, content⟩, rfl⟩]) :
      PublishEnd client client' content callback true []

theorem publishMqttMessage_eq {qosValue : QosValue} {pubCallback : Option κ}
    (hqos : qosValue ≠ .deliverExactlyOnce) :
    publishMqttMessage client qosValue content pubCallback outcome =
      (persistOffline client.drawPacketId ⟨client.nextId, qosValue, content⟩).elim
        ⟨client.drawPacketId, false, []⟩
        fun client' =>
          sendMessage client' ⟨client.nextId, qosValue, content⟩ pubCallback outcome := by
  rw [publishMqttMessage, if_neg hqos]
  cases hoffline : persistOffline client.drawPacketId ⟨client.nextId, qosValue, content⟩ with
  | none => simp only [hoffline, Option.elim_none]
  | some client' => simp only [hoffline, Option.elim_some]

theorem publishMqttMessage_end (callback : κ) :
    PublishEnd client
      (publishMqttMessage client .deliverAtLeastOnce content (some callback) outcome).client
      content callback
      (publishMqttMessage client .deliverAtLeastOnce content (some callback) outcome).result
      (publishMqttMessage client .deliverAtLeastOnce content (some callback) outcome).notified := by
  rw [publishMqttMessage_eq (show QosValue.deliverAtLeastOnce ≠ .deliverExactlyOnce from nofun)]
  cases hoffline : persistOffline client.drawPacketId
      ⟨client.nextId, .deliverAtLeastOnce, content⟩ with
  | none => exact .refused rfl
  | some client' =>
    obtain ⟨hqueue, -, hid⟩ := persistOffline_frame hoffline
    have hqueue : client'.pubAckWaitingQueue = client.pubAckWaitingQueue := hqueue
    have hid : client'.packetId = client.nextId := hid
    obtain ⟨created, allocated, published⟩ := outcome
    cases created with
    | false => exact .refused hqueue
    | true =>
      cases allocated with
      | false => exact .refused hqueue
      | true =>
        cases published with
        | false => exact .unsent hqueue
        | true =>
          refine .sent ?_
          simp only [Option.elim_some, sendMessage, Bool.not_true, Bool.false_eq_true, if_false,
            if_true, hqueue, hid]

theorem publishMqttMessage_none (qosValue : QosValue) :
    (publishMqttMessage client qosValue content none outcome).client.pubAckWaitingQueue =
      client.pubAckWaitingQueue ∧
    (publishMqttMessage client qosValue content none outcome).notified = [] := by
  by_cases hqos : qosValue = .deliverExactlyOnce
  · rw [publishMqttMessage, if_pos hqos]
    exact ⟨rfl, rfl⟩
  rw [publishMqttMessage_eq hqos]
  cases hoffline : persistOffline client.drawPacketId ⟨client.nextId, qosValue, content⟩ with
  | none => exact ⟨rfl, rfl⟩
  | some client' =>
    have hqueue : client'.pubAckWaitingQueue = client.pubAckWaitingQueue :=
      (persistOffline_frame hoffline).1
    rw [Option.elim_some]
    obtain ⟨created, allocated, published⟩ := outcome
    cases created with
    | false => exact ⟨hqueue, rfl⟩
    | true =>
      cases published with
      | false => cases qosValue <;> exact ⟨hqueue, rfl⟩
      | true => cases qosValue <;> exact ⟨hqueue, rfl⟩

theorem replayMessages_queue (outcome : ℕ → PublishOutcome) (i : ℕ)
    (client : IotHubMqttClient μ κ) (rows : List (PublishData μ)) :
    (replayMessages outcome i client rows).1.pubAckWaitingQueue = client.pubAckWaitingQueue := by
  induction rows generalizing i client with
  | nil => rfl
  | cons row rows ih => exact (ih _ _).trans (publishMqttMessage_none row.qos).1

theorem iothubMqttDowork_queue {tickModulus : ℕ} {moment : ConnectMoment}
    {outcome : ℕ → PublishOutcome} {client' : IotHubMqttClient μ κ} {calls : List (PublishCall μ)}
    (h : iothubMqttDowork tickModulus client moment outcome = some (client', calls)) :
    client'.pubAckWaitingQueue = client.pubAckWaitingQueue :=
  iothubMqttDowork_keeps (·.pubAckWaitingQueue) (fun _ _ _ => rfl) (fun _ => rfl)
    (replayMessages_queue outcome 0) h

theorem sendMessage_sub (client : IotHubMqttClient μ κ) (message : MqttMessage μ)
    (pubCallback : Option κ) (outcome : PublishOutcome) :
    (sendMessage client message pubCallback outcome).client.subAckWaitingQueue =
        client.subAckWaitingQueue ∧
      ∀ notice ∈ (sendMessage client message pubCallback outcome).notified,
        ∃ callback status, notice = .pub callback status := by
  obtain ⟨created, allocated, published⟩ := outcome
  rw [sendMessage.eq_def]
  cases created with
  | false => exact ⟨rfl, fun notice hnotice => by cases hnotice⟩
  | true =>
    simp only [Bool.not_true, Bool.false_eq_true, if_false]
    split
    · split_ifs
      · exact ⟨rfl, fun notice hnotice => by cases hnotice⟩
      · exact ⟨rfl, fun notice hnotice => by cases hnotice⟩
      · exact ⟨rfl, fun notice hnotice => ⟨_, _, List.mem_singleton.mp hnotice⟩⟩
    · split_ifs
      · exact ⟨rfl, fun notice hnotice => ⟨_, _, List.mem_singleton.mp hnotice⟩⟩
      · exact ⟨rfl, fun notice hnotice => ⟨_, _, List.mem_singleton.mp hnotice⟩⟩
    · split_ifs
      · exact ⟨rfl, fun notice hnotice => by cases hnotice⟩
      · refine ⟨rfl, fun notice hnotice => ?_⟩
        obtain ⟨callback, -, heq⟩ := List.mem_map.mp hnotice
        exact ⟨callback, .failed, heq.symm⟩

theorem publishMqttMessage_sub (client : IotHubMqttClient μ κ) (qosValue : QosValue)
    (content : μ) (pubCallback : Option κ) (outcome : PublishOutcome) :
    (publishMqttMessage client qosValue content pubCallback outcome).client.subAckWaitingQueue =
        client.subAckWaitingQueue ∧
      ∀ notice ∈ (publishMqttMessage client qosValue content pubCallback outcome).notified,
        ∃ callback status, notice = .pub callback status := by
  by_cases hqos : qosValue = .deliverExactlyOnce
  · rw [publishMqttMessage, if_pos hqos]
    exact ⟨rfl, fun notice hnotice => by cases hnotice⟩
  rw [publishMqttMessage_eq hqos]
  cases hoffline : persistOffline client.drawPacketId ⟨client.nextId, qosValue, content⟩ with
  | none => exact ⟨rfl, fun notice hnotice => by cases hnotice⟩
  | some written =>
    have hsub : written.subAckWaitingQueue = client.subAckWaitingQueue :=
      (persistOffline_frame hoffline).2.1
    obtain ⟨hqueue, hnotified⟩ :=
      sendMessage_sub written ⟨client.nextId, qosValue, content⟩ pubCallback outcome
    rw [Option.elim_some]
    exact ⟨hqueue.trans hsub, hnotified⟩

theorem replayMessages_sub (outcome : ℕ → PublishOutcome) (i : ℕ)
    (client : IotHubMqttClient μ κ) (rows : List (PublishData μ)) :
    (replayMessages outcome i client rows).1.subAckWaitingQueue = client.subAckWaitingQueue := by
  induction rows generalizing i client with
  | nil => rfl
  | cons row rows ih => exact (ih _ _).trans (publishMqttMessage_sub client _ _ _ _).1

theorem iothubMqttDowork_sub {tickModulus : ℕ} {moment : ConnectMoment}
    {outcome : ℕ → PublishOutcome} {client' : IotHubMqttClient μ κ} {calls : List (PublishCall μ)}
    (h : iothubMqttDowork tickModulus client moment outcome = some (client', calls)) :
    client'.subAckWaitingQueue = client.subAckWaitingQueue :=
  iothubMqttDowork_keeps (·.subAckWaitingQueue) (fun _ _ _ => rfl) (fun _ => rfl)
    (replayMessages_sub outcome 0) h

end Publish

section Invariant
variable {s t : System μ} {tickModulus : ℕ} {a : Action μ}

structure Inv (s : System μ) : Prop where
  kept : Tickets.Kept (accepted s) (waitingCalls s.client) (notified s)
  carries : ∀ entry ∈ s.client.pubAckWaitingQueue, Carries s.calls entry

theorem inv_of_initial (h : Initial s) : Inv s := by
  refine ⟨?_, ?_⟩
  · rw [accepted, waitingCalls, notified, h.queue, h.calls, h.notices]
    exact Tickets.kept_nil
  · rw [h.queue]
    exact List.forall_mem_nil _

theorem Inv.frame (h : Inv s) {client : IotHubMqttClient μ ℕ} {notices : List (Notice ℕ)}
    (hqueue : client.pubAckWaitingQueue = s.client.pubAckWaitingQueue)
    (hnotices : notices.filterMap notifiedCall = []) :
    Inv { s with client := client, notices := s.notices ++ notices } := by
  refine ⟨?_, hqueue ▸ h.carries⟩
  have hkept := h.kept
  rw [waitingCalls] at hkept ⊢
  rw [notified, List.filterMap_append, hnotices, List.append_nil]
  exact hqueue ▸ hkept

theorem carries_append {calls : List (PublishCall μ)} {call : PublishCall μ}
    {entry : MqttPubCallbackInfo μ ℕ} (h : Carries calls entry) :
    Carries (calls ++ [call]) entry := by
  have hlt : entry.pubCallback < calls.length := by
    by_contra hlt
    rw [Carries, List.getElem?_eq_none (Nat.not_lt.mp hlt)] at h
    cases h
  rw [Carries, List.getElem?_append_left hlt]
  exact h

theorem Inv.publish (h : Inv s) {client : IotHubMqttClient μ ℕ} {content : μ} {result : Bool}
    {notices : List (Notice ℕ)}
    (hend : PublishEnd s.client client content s.calls.length result notices) :
    Inv { client := client
          calls := s.calls ++ [⟨client.packetId, .deliverAtLeastOnce, content, result⟩]
          notices := s.notices ++ notices } := by
  have hkept := h.kept
  have hlength : (accepted s).length = s.calls.length := List.length_map _
  cases hend with
  | refused queue =>
    refine ⟨?_, fun entry hentry => carries_append (h.carries entry (queue ▸ hentry))⟩
    simp only [accepted, waitingCalls, notified, List.map_append, List.append_nil, queue]
    exact hkept.refuse
  | unsent queue =>
    refine ⟨?_, fun entry hentry => carries_append (h.carries entry (queue ▸ hentry))⟩
    have hclosed := hkept.refuse_closed
    rw [hlength] at hclosed
    simp only [accepted, waitingCalls, notified, List.map_append, List.filterMap_append, queue]
    exact hclosed
  | sent queue =>
    refine ⟨?_, fun entry hentry => ?_⟩
    · have hopened := hkept.accept
      rw [hlength] at hopened
      simp only [accepted, waitingCalls, notified, List.map_append, List.append_nil, queue]
      exact hopened
    · rw [queue] at hentry
      rcases List.mem_append.mp hentry with hentry | hentry
      · exact carries_append (h.carries entry hentry)
      · obtain rfl := List.mem_singleton.mp hentry
        exact List.getElem?_concat_length

theorem Inv.publishAck (h : Inv s) (packetId : UInt16) :
    Inv { s with
      client := (onPublishAck s.client packetId).1
      notices := s.notices ++ (onPublishAck s.client packetId).2 } := by
  cases hfind : s.client.pubAckWaitingQueue.find? (·.packetId == packetId) with
  | none =>
    -- An id that nobody waits for.
    refine h.frame (List.eraseP_of_forall_not ?_) ?_
    · exact List.find?_eq_none.mp hfind
    · rw [onPublishAck, hfind]
      rfl
  | some entry =>
    have hentry := List.mem_of_find?_eq_some hfind
    refine ⟨?_, fun other hother => h.carries other (List.mem_of_mem_eraseP hother)⟩
    have hclose := h.kept.close_one (List.mem_map_of_mem hentry)
    rw [waitingCalls, ← Tickets.map_eraseP hfind h.kept.opened_nodup] at hclose
    simp only [notified, onPublishAck, hfind, List.filterMap_append]
    exact hclose

theorem Inv.error (h : Inv s) :
    Inv { s with
      client := (onMqttErrorComplete s.client).1
      notices := s.notices ++ (onMqttErrorComplete s.client).2 } := by
  refine ⟨?_, List.forall_mem_nil _⟩
  have hsub : (s.client.subAckWaitingQueue.map fun entry =>
      Notice.sub entry.subCallback none).filterMap notifiedCall = [] := by
    rw [List.filterMap_map]
    exact List.filterMap_eq_nil_iff.mpr fun _ _ => rfl
  have hpub : (s.client.pubAckWaitingQueue.map fun entry =>
      Notice.pub entry.pubCallback MqttPubStatus.failed).filterMap notifiedCall =
      waitingCalls s.client := by
    rw [List.filterMap_map, waitingCalls, ← List.filterMap_eq_map]
    rfl
  have hnotices : (s.notices ++ (onMqttErrorComplete s.client).2).filterMap notifiedCall =
      notified s ++ waitingCalls s.client := by
    simp only [onMqttErrorComplete, notifySubscribeAckFailure, notifyPublishAckFailure,
      List.filterMap_append, hsub, hpub, List.nil_append]
    rfl
  rw [notified, hnotices]
  exact h.kept.close_all

theorem Inv.event (h : Inv s) {event : Event ℕ} {done : Done μ ℕ}
    (hdone : event.perform tickModulus s.client = some done) :
    Inv { s with client := done.client, notices := s.notices ++ done.notices } := by
  cases event with
  | complete event =>
    cases hdone
    cases event with
    | publishAck packetId => exact h.publishAck packetId
    | connack returnCode => exact h.frame (onConnack_untouched returnCode).queue rfl
    | subscribeAck packetId qosReturn =>
      refine h.frame rfl ?_
      rw [onMqttOperationComplete, onSubscribeAck, List.filterMap_map]
      exact List.filterMap_eq_nil_iff.mpr fun _ _ => rfl
    | _ => exact h.frame rfl rfl
  | error =>
    cases hdone
    exact h.error
  | dowork moment outcome =>
    obtain ⟨⟨client, calls⟩, hdowork, rfl⟩ := Option.map_eq_some_iff.mp hdone
    exact h.frame (iothubMqttDowork_queue hdowork) rfl
  | subscribe subPayloads subCallback allocated subscribed =>
    cases hdone
    exact h.frame
      (subscribeMqttTopics_untouched subPayloads subCallback allocated subscribed).queue rfl
  | unsubscribe unsubscribeList unsubscribed =>
    cases hdone
    exact h.frame (unsubscribeMqttTopics_untouched unsubscribeList unsubscribed).queue rfl
  | disconnect =>
    cases hdone
    exact h.frame rfl rfl

theorem Inv.step (h : Inv s) (hstep : step tickModulus s a t) : Inv t := by
  cases a with
  | publish content outcome =>
    subst hstep
    exact h.publish (publishMqttMessage_end s.calls.length)
  | event event =>
    obtain ⟨done, hdone, rfl⟩ := hstep
    exact h.event hdone

/-- In every reachable state no callback was called twice, and the waiting queue holds the calls
that returned 0 and whose callback was not called yet, in order and with their messages. -/
theorem publish_callbacks_conserved {as : List (Action μ)} (hinit : Initial s)
    (hrun : Run (step tickModulus) s as t) :
    (notified t).Nodup ∧
    waitingCalls t.client = Tickets.pending (accepted t) (notified t) ∧
    ∀ entry ∈ t.client.pubAckWaitingQueue, Carries t.calls entry := by
  have hinv : Inv t := hrun.invariant (inv_of_initial hinit) fun _ _ _ h => h.step
  exact ⟨hinv.kept.nodup, hinv.kept.opened_eq, hinv.carries⟩

end Invariant

def createdSystem : System Unit := ⟨initializeMqttClientHandle 3 none none, [], []⟩

def published (s : System Unit) (sent : Bool) : System Unit :=
  let published := publishMqttMessage s.client .deliverAtLeastOnce () (some s.calls.length)
    ⟨true, true, sent⟩
  { client := published.client
    calls := s.calls ++ [⟨published.client.packetId, .deliverAtLeastOnce, (), published.result⟩]
    notices := s.notices ++ published.notified }

def acknowledged (s : System Unit) (packetId : UInt16) : System Unit :=
  { s with
    client := (onPublishAck s.client packetId).1
    notices := s.notices ++ (onPublishAck s.client packetId).2 }

theorem publish_callbacks_conserved_acknowledged :
    ∃ t, Run (step (1 <<< 64)) createdSystem
        [.publish () ⟨true, true, true⟩, .publish () ⟨true, true, false⟩,
          .publish () ⟨true, true, true⟩, .event (.complete (.publishAck 7)),
          .event (.complete (.publishAck 3))] t ∧
      notified t = [1, 2] ∧ waitingCalls t.client = [0] ∧
      waitingCalls t.client = Tickets.pending (accepted t) (notified t) := by
  have hpublish : ∀ (s : System Unit) (sent : Bool),
      step (1 <<< 64) s (.publish () ⟨true, true, sent⟩) (published s sent) := fun _ _ => rfl
  have hack : ∀ (s : System Unit) (packetId : UInt16),
      step (1 <<< 64) s (.event (.complete (.publishAck packetId))) (acknowledged s packetId) :=
    fun _ _ => ⟨_, rfl, rfl⟩
  have hrun := ((((Run.start.next (hpublish createdSystem true)).next
    (hpublish _ false)).next (hpublish _ true)).next (hack _ 7)).next (hack _ 3)
  refine ⟨_, hrun, rfl, rfl, ?_⟩
  exact (publish_callbacks_conserved ⟨rfl, rfl, rfl⟩ hrun).2.1

end IotEdgeAgent.Mqtt.PublishCallbacks
