import IotEdgeAgent.Library.Runs
import IotEdgeAgent.Mqtt.PublishCallbacks

/-!
# What a failed subscribe leaves behind

The entry of a subscribe waits before its packet is sent, and stays when the packet could not be
sent; publishing takes its entry out again. In any continuation a callback is invoked no more often
than it waits at the start and is passed again, so that the entry is all that a failed subscribe can
leave behind.
-/

namespace IotEdgeAgent.Mqtt.FailedSubscribe
open PublishCallbacks (publishMqttMessage_sub iothubMqttDowork_sub)
open Runs

variable {μ κ : Type*}

structure System (μ κ : Type*) where
  client : IotHubMqttClient μ κ
  notices : List (Notice κ)

inductive Action (μ κ : Type*)
  | publish (qosValue : QosValue) (content : μ) (pubCallback : Option κ) (outcome : PublishOutcome)
  | event (event : Event κ)

def step (tickModulus : ℕ) (s : System μ κ) (a : Action μ κ) (t : System μ κ) : Prop :=
  match a with
  | .publish qosValue content pubCallback outcome =>
    let published := publishMqttMessage s.client qosValue content pubCallback outcome
    t = ⟨published.client, s.notices ++ published.notified⟩
  | .event event => ∃ done, event.perform tickModulus s.client = some done ∧
      t = ⟨done.client, s.notices ++ done.notices⟩

section
variable [DecidableEq κ] (callback : κ)

def isInvocation : Notice κ → Bool
  | .sub subCallback _ => subCallback = callback
  | .pub _ _ => false

def invoked (notices : List (Notice κ)) : ℕ := notices.countP (isInvocation callback)

def waiting (client : IotHubMqttClient μ κ) : ℕ :=
  client.subAckWaitingQueue.countP (·.subCallback = callback)

def isPassed : Action μ κ → Bool
  | .event (.subscribe _ subCallback _ _) => subCallback = some callback
  | _ => false

def passed (actions : List (Action μ κ)) : ℕ := actions.countP (isPassed callback)

/-- The queue is as before, and every invocation of the callback is that of another call: one that
waited before or one of the continuation. -/
structure Traceless (tickModulus : ℕ) (client after : IotHubMqttClient μ κ)
    (subCallback : Option κ) : Prop where
  queue : after.subAckWaitingQueue = client.subAckWaitingQueue
  never : ∀ callback ∈ subCallback, ∀ actions t, Run (step tickModulus) ⟨after, []⟩ actions t →
    invoked callback t.notices ≤ waiting callback client + passed callback actions

end

/-- The payloads are refused, or there is no callback or no memory for its entry. -/
def FailsUnqueued (subPayloads : List QosValue) (subCallback : Option κ) (allocated : Bool) :
    Prop :=
  subPayloads = [] ∨ QosValue.deliverExactlyOnce ∈ subPayloads ∨ subCallback = none ∨
    allocated = false

section
variable {client client' : IotHubMqttClient μ κ}

theorem subscribeMqttTopics_cases (client : IotHubMqttClient μ κ) (subPayloads : List QosValue)
    (subCallback : Option κ) (allocated subscribed : Bool) :
    FailsUnqueued subPayloads subCallback allocated ∧
        (subscribeMqttTopics client subPayloads subCallback allocated
          subscribed).1.subAckWaitingQueue = client.subAckWaitingQueue ∨
      ¬ FailsUnqueued subPayloads subCallback allocated ∧
        (subscribeMqttTopics client subPayloads subCallback allocated subscribed).2 = subscribed ∧
        ∃ callback, subCallback = some callback ∧ (subscribeMqttTopics client subPayloads
          subCallback allocated subscribed).1.subAckWaitingQueue =
            client.subAckWaitingQueue ++ [⟨client.nextId, callback⟩] := by
  by_cases hrefused : subPayloads = [] ∨ QosValue.deliverExactlyOnce ∈ subPayloads
  · rw [subscribeMqttTopics, if_pos hrefused]
    exact Or.inl ⟨hrefused.elim Or.inl fun h => Or.inr (Or.inl h), rfl⟩
  · rw [subscribeMqttTopics, if_neg hrefused]
    cases subCallback with
    | none => exact Or.inl ⟨Or.inr (Or.inr (Or.inl rfl)), rfl⟩
    | some callback =>
      cases allocated with
      | false => exact Or.inl ⟨Or.inr (Or.inr (Or.inr rfl)), rfl⟩
      | true =>
        refine Or.inr ⟨fun hfails => ?_, rfl, callback, rfl, rfl⟩
        rcases hfails with hempty | hexactly | hnone | hfull
        · exact hrefused (Or.inl hempty)
        · exact hrefused (Or.inr hexactly)
        · cases hnone
        · cases hfull

end

section
variable [DecidableEq κ] (callback : κ) {tickModulus : ℕ} {s t : System μ κ} {a : Action μ κ}

theorem invoked_append (notices later : List (Notice κ)) :
    invoked callback (notices ++ later) = invoked callback notices + invoked callback later :=
  List.countP_append

theorem invoked_of_pub {notices : List (Notice κ)}
    (h : ∀ notice ∈ notices, ∃ pubCallback status, notice = .pub pubCallback status) :
    invoked callback notices = 0 := by
  refine List.countP_eq_zero.mpr fun notice hnotice => ?_
  obtain ⟨pubCallback, status, rfl⟩ := h notice hnotice
  exact Bool.false_ne_true

theorem invoked_map (entries : List (MqttSubCallbackInfo κ)) (qosReturn : Option (List QosValue)) :
    invoked callback (entries.map fun entry => .sub entry.subCallback qosReturn) =
      entries.countP (·.subCallback = callback) :=
  List.countP_map

theorem onSubscribeAck_count (client : IotHubMqttClient μ κ) (packetId : UInt16)
    (qosReturn : List QosValue) :
    invoked callback (onSubscribeAck client packetId qosReturn).2 +
        waiting callback (onSubscribeAck client packetId qosReturn).1 =
      waiting callback client := by
  simp only [onSubscribeAck, waiting]
  rw [invoked_map]
  induction client.subAckWaitingQueue with
  | nil => rfl
  | cons entry entries ih =>
    by_cases hid : entry.packetId = packetId
    · simp [hid, List.countP_cons, Nat.add_comm]
    · simp only [List.find?_cons, List.eraseP_cons, beq_eq_false_iff_ne.mpr hid, cond_false,
        List.countP_cons]
      omega

theorem onMqttOperationComplete_count (client : IotHubMqttClient μ κ) (event : MqttEvent) :
    invoked callback (onMqttOperationComplete client event).2 +
        waiting callback (onMqttOperationComplete client event).1 =
      waiting callback client := by
  cases event with
  | subscribeAck packetId qosReturn => exact onSubscribeAck_count callback client packetId qosReturn
  | connack returnCode =>
    have hqueue : (onConnack client returnCode).subAckWaitingQueue =
        client.subAckWaitingQueue := by
      unfold onConnack
      split_ifs <;> rfl
    simp only [onMqttOperationComplete, waiting, hqueue]
    exact Nat.zero_add _
  | publishAck packetId =>
    have hpub : invoked callback (onPublishAck client packetId).2 = 0 := by
      refine invoked_of_pub callback fun notice hnotice => ?_
      obtain ⟨entry, -, heq⟩ := List.mem_map.mp hnotice
      exact ⟨_, _, heq.symm⟩
    simp only [onMqttOperationComplete, hpub]
    exact Nat.zero_add _
  | _ => exact Nat.zero_add _

theorem onMqttErrorComplete_count (client : IotHubMqttClient μ κ) :
    invoked callback (onMqttErrorComplete client).2 = waiting callback client := by
  have hpub : invoked callback (client.pubAckWaitingQueue.map fun entry =>
      (.pub entry.pubCallback .failed : Notice κ)) = 0 := by
    refine invoked_of_pub callback fun notice hnotice => ?_
    obtain ⟨entry, -, heq⟩ := List.mem_map.mp hnotice
    exact ⟨_, _, heq.symm⟩
  have hnotices : (onMqttErrorComplete client).2 =
      (client.subAckWaitingQueue.map fun entry => .sub entry.subCallback none) ++
        client.pubAckWaitingQueue.map fun entry => .pub entry.pubCallback .failed := rfl
  rw [hnotices, invoked_append, invoked_map, hpub]
  rfl

theorem step_count (h : step tickModulus s a t) :
    invoked callback t.notices + waiting callback t.client ≤
      invoked callback s.notices + waiting callback s.client +
        if isPassed callback a then 1 else 0 := by
  cases a with
  | publish qosValue content pubCallback outcome =>
    obtain ⟨hqueue, hnotified⟩ :=
      publishMqttMessage_sub s.client qosValue content pubCallback outcome
    subst h
    simp only [waiting, hqueue, invoked_append, invoked_of_pub callback hnotified]
    omega
  | event event =>
    obtain ⟨done, hdone, rfl⟩ := h
    cases event with
    | subscribe subPayloads subCallback allocated subscribed =>
      cases hdone
      rw [List.append_nil]
      rcases subscribeMqttTopics_cases s.client subPayloads subCallback allocated subscribed with
        ⟨-, hqueue⟩ | ⟨-, -, passedBy, rfl, hqueue⟩
      · simp only [waiting, hqueue]
        omega
      · simp only [waiting, hqueue, List.countP_append, List.countP_cons, List.countP_nil, isPassed,
          Option.some.injEq]
        omega
    | unsubscribe unsubscribeList unsubscribed =>
      cases hdone
      have hqueue : (unsubscribeMqttTopics s.client unsubscribeList
          unsubscribed).1.subAckWaitingQueue = s.client.subAckWaitingQueue := by
        unfold unsubscribeMqttTopics
        split_ifs <;> rfl
      rw [List.append_nil]
      simp only [waiting, hqueue]
      omega
    | complete event =>
      cases hdone
      have hcount := onMqttOperationComplete_count callback s.client event
      simp only [invoked_append]
      omega
    | error =>
      cases hdone
      have hcount := onMqttErrorComplete_count callback s.client
      have hnone : waiting callback (onMqttErrorComplete s.client).1 = 0 := rfl
      simp only [invoked_append]
      omega
    | dowork moment outcome =>
      obtain ⟨⟨client, calls⟩, hwork, rfl⟩ := Option.map_eq_some_iff.mp hdone
      rw [List.append_nil]
      simp only [waiting, iothubMqttDowork_sub hwork]
      omega
    | disconnect =>
      cases hdone
      rw [List.append_nil]
      exact Nat.le_add_right _ _

theorem run_count {actions : List (Action μ κ)} (h : Run (step tickModulus) s actions t) :
    invoked callback t.notices + waiting callback t.client ≤
      invoked callback s.notices + waiting callback s.client + passed callback actions := by
  induction h with
  | start => exact Nat.le_add_right _ _
  | next _ hab ih =>
    have hstep := step_count callback hab
    rw [passed] at ih ⊢
    rw [List.countP_append, List.countP_singleton]
    omega

/-- A subscribe that fails leaves no trace if `mqtt_client_subscribe` is successful or if it fails
before its entry is in the queue, and only then. -/
theorem failed_subscribe_traceless_iff (tickModulus : ℕ) (client : IotHubMqttClient μ κ)
    (subPayloads : List QosValue) (subCallback : Option κ) (allocated subscribed : Bool) :
    ((subscribeMqttTopics client subPayloads subCallback allocated subscribed).2 = false →
        Traceless tickModulus client
          (subscribeMqttTopics client subPayloads subCallback allocated subscribed).1
          subCallback) ↔
      subscribed = true ∨ FailsUnqueued subPayloads subCallback allocated := by
  rcases subscribeMqttTopics_cases client subPayloads subCallback allocated subscribed with
    ⟨hfails, hqueue⟩ | ⟨hfails, hresult, callback, rfl, hqueue⟩
  · refine iff_of_true (fun _ => ⟨hqueue, fun callback _ actions t hrun => ?_⟩) (Or.inr hfails)
    have hcount := run_count callback hrun
    have hstart : waiting callback (subscribeMqttTopics client subPayloads subCallback allocated
        subscribed).1 = waiting callback client := by
      rw [waiting, hqueue]
      rfl
    have hnone : invoked callback ([] : List (Notice κ)) = 0 := rfl
    dsimp only at hcount
    omega
  · rw [hresult]
    cases subscribed with
    | true => exact iff_of_true (fun h => absurd h Bool.true_eq_false.mp) (Or.inl rfl)
    | false =>
      refine iff_of_false (fun htraceless => ?_) fun h => ?_
      · have hsame := hqueue.symm.trans (htraceless rfl).queue
        exact absurd (List.append_right_eq_self.mp hsame) (List.cons_ne_nil _ _)
      · exact h.elim (fun hsubscribed => absurd hsubscribed Bool.false_ne_true) hfails

end

def connected : IotHubMqttClient Unit Unit :=
  { initializeMqttClientHandle 60 none none with mqttClientStatus := .connected }

def unsent : IotHubMqttClient Unit Unit × Bool :=
  subscribeMqttTopics connected [.deliverAtLeastOnce] (some ()) true false

/-- The next error invokes the callback of the subscribe that failed. -/
theorem failed_subscribe_invoked :
    unsent.2 = false ∧
      (∃ t, Run (step 4294967296) ⟨unsent.1, []⟩ [.event .error] t ∧ t.notices = [.sub () none]) ∧
      ¬ Traceless 4294967296 connected unsent.1 (some ()) := by
  have hrun : Run (step 4294967296) ⟨unsent.1, []⟩ ([] ++ [.event .error])
      ⟨(onMqttErrorComplete unsent.1).1, [.sub () none]⟩ := Run.start.next ⟨_, rfl, rfl⟩
  refine ⟨rfl, ⟨_, hrun, rfl⟩, fun htraceless => ?_⟩
  have hnever := htraceless.never () rfl _ _ hrun
  exact absurd hnever (by decide)

end IotEdgeAgent.Mqtt.FailedSubscribe
