import IotEdgeAgent.Library.Runs
import IotEdgeAgent.Agent.IoteaClient

/-!
# When the handle is subscribed

The handle takes a call of its subscription callback without a failed return code for an
acknowledgement. A connection error calls it without return codes, and an entry that outlives its
connection may be resolved on a later one; a run in which neither happens is subscribed truthfully.
-/

namespace IotEdgeAgent.Agent

open Mqtt Runs

variable {tickModulus connection : ℕ} {handle handle' : IoteaClient}

inductive Occurrence
  | dowork (visit : Visit)
  | complete (event : MqttEvent) (moment : CallbackMoment)
  | error (moment : ℕ → CallbackMoment)
  | publish (content : Publication) (outcome : PublishOutcome)
  | receive
  | disconnect

/-- What an occurrence makes of the handle, `none` when `CanRetry` is undefined. -/
def occur (tickModulus connection : ℕ) (handle : IoteaClient) : Occurrence → Option IoteaClient
  | .dowork visit => (ioteaClientDowork tickModulus connection handle visit).map Prod.fst
  | .complete event moment => some (onMqttOperationComplete handle event moment)
  | .error moment => some (onMqttErrorComplete handle moment)
  | .publish content outcome => some (publishQuery handle content outcome)
  | .receive => some { handle with reqAns := true }
  | .disconnect => some { handle with mqttClient := iothubMqttDisconnect handle.mqttClient }

def nextConnection (connection : ℕ) : Occurrence → ℕ
  | .complete (.connack .connectionAccepted) _ => connection + 1
  | _ => connection

structure Passage where
  before : IoteaClient
  connection : ℕ
  occurrence : Occurrence
  after : IoteaClient

structure Session where
  handle : IoteaClient
  connection : ℕ
  history : List Passage

def sessionStep (tickModulus : ℕ) (s : Session) (a : Occurrence) (t : Session) : Prop :=
  occur tickModulus s.connection s.handle a = some t.handle ∧
    t.connection = nextConnection s.connection a ∧
    t.history = s.history ++ [⟨s.handle, s.connection, a, t.handle⟩]

structure Created (s : Session) : Prop where
  subscribed : s.handle.subscribed = false
  subscribeSentTimestamp : s.handle.subscribeSentTimestamp = 0
  mqttClient : ∃ keepAliveInterval retryLogic persist,
    s.handle.mqttClient = initializeMqttClientHandle keepAliveInterval retryLogic persist
  history : s.history = []

/-- If the handle becomes subscribed here, a SUBACK without a failed return code came for a
subscription of the current connection. -/
def Passage.Truthful (p : Passage) : Prop :=
  p.before.subscribed = false → p.after.subscribed = true →
    ∃ packetId qosReturn moment entry,
      p.occurrence = .complete (.subscribeAck packetId qosReturn) moment ∧
      subscriptionOf p.before packetId = some entry ∧ entry.subCallback = p.connection ∧
      QosValue.deliverFailure ∉ qosReturn

/-- An error comes when no subscription is pending, and a SUBACK for an earlier connection has a
failed return code, or the handle is subscribed already. -/
def Passage.Sound (p : Passage) : Prop :=
  match p.occurrence with
  | .error _ => p.before.mqttClient.subAckWaitingQueue = [] ∨ p.before.subscribed = true
  | .complete (.subscribeAck packetId qosReturn) _ =>
    ∀ entry, subscriptionOf p.before packetId = some entry → entry.subCallback ≠ p.connection →
      QosValue.deliverFailure ∈ qosReturn ∨ p.before.subscribed = true
  | _ => True

theorem subscribeTopics_subscribed (handle : IoteaClient) (visit : Visit) :
    (subscribeTopics connection handle visit).1.subscribed = handle.subscribed := by
  rw [subscribeTopics]
  split
  · split
    · rfl
    · simp only
      split <;> rfl
  · rfl

theorem forgetSubscription_subscribed (h : (forgetSubscription handle).subscribed = true) :
    handle.subscribed = true := by
  rw [forgetSubscription] at h
  split at h
  · cases h
  · exact h

theorem ioteaClientDowork_subscribed {visit : Visit} {result : DoworkResult}
    (h : ioteaClientDowork tickModulus connection handle visit = some (handle', result))
    (hafter : handle'.subscribed = true) : handle.subscribed = true := by
  rw [ioteaClientDowork] at h
  split at h
  · cases h
    exact hafter
  · have htopics := @subscribeTopics_subscribed connection (forgetSubscription handle) visit
    generalize subscribeTopics connection (forgetSubscription handle) visit = answer at h htopics
    obtain ⟨subscribing, subscribed⟩ := answer
    cases subscribed with
    | false =>
      cases h
      exact forgetSubscription_subscribed (htopics.symm.trans hafter)
    | true =>
      obtain ⟨⟨client, calls⟩, -, hdone⟩ := Option.map_eq_some_iff.mp h
      cases hdone
      have hrequest := (@requestAgain_alike tickModulus subscribing visit).subscribed
      exact forgetSubscription_subscribed (htopics.symm.trans (hrequest.symm.trans hafter))

theorem onSubAckCallback_subscribed {qosReturn : List QosValue} {moment : CallbackMoment} :
    (onSubAckCallback handle qosReturn moment).subscribed = true ↔
      handle.subscribed = true ∨ QosValue.deliverFailure ∉ qosReturn := by
  rw [onSubAckCallback]
  split
  · rename_i hfailure
    exact ⟨.inl, fun h => h.resolve_right (not_not.mpr hfailure)⟩
  · rename_i hfailure
    exact iff_of_true rfl (.inr hfailure)

theorem onSubscribeAck_subscribed {packetId : UInt16} {qosReturn : List QosValue}
    {moment : CallbackMoment} :
    (onSubscribeAck handle packetId qosReturn moment).subscribed = true ↔
      handle.subscribed = true ∨
        (subscriptionOf handle packetId).isSome ∧ QosValue.deliverFailure ∉ qosReturn := by
  rw [onSubscribeAck]
  cases hentry : subscriptionOf handle packetId with
  | none => simp
  | some entry => simpa using onSubAckCallback_subscribed

theorem notifySubscribeAckFailure_subscribed (moment : ℕ → CallbackMoment) (i : ℕ)
    (handle : IoteaClient) (entries : List (MqttSubCallbackInfo ℕ)) :
    (notifySubscribeAckFailure moment i handle entries).subscribed = true ↔
      handle.subscribed = true ∨ entries ≠ [] := by
  induction entries generalizing i handle with
  | nil => simp [notifySubscribeAckFailure]
  | cons entry entries ih =>
    have hcalled : (onSubAckCallback handle [] (moment i)).subscribed = true :=
      onSubAckCallback_subscribed.mpr (.inr List.not_mem_nil)
    exact iff_of_true ((ih _ _).mpr (.inl hcalled)) (.inr (List.cons_ne_nil _ _))

theorem onMqttErrorComplete_subscribed (handle : IoteaClient) (moment : ℕ → CallbackMoment) :
    (onMqttErrorComplete handle moment).subscribed = true ↔
      handle.subscribed = true ∨ handle.mqttClient.subAckWaitingQueue ≠ [] :=
  notifySubscribeAckFailure_subscribed moment 0 _ _

section Passages
variable {connection : ℕ} {before after : IoteaClient} {occurrence : Occurrence}

theorem truthful_of_kept (h : after.subscribed = true → before.subscribed = true) :
    Passage.Truthful ⟨before, connection, occurrence, after⟩ :=
  fun hbefore hafter => absurd ((h hafter).symm.trans hbefore) Bool.true_eq_false.mp

theorem error_truthful_iff (moment : ℕ → CallbackMoment) :
    Passage.Truthful ⟨before, connection, .error moment, onMqttErrorComplete before moment⟩ ↔
      Passage.Sound ⟨before, connection, .error moment, onMqttErrorComplete before moment⟩ := by
  constructor
  · intro htruth
    by_contra hunsound
    obtain ⟨hpending, hunsubscribed⟩ := not_or.mp hunsound
    obtain ⟨packetId, qosReturn, moment', entry, hevent, -⟩ :=
      htruth (Bool.eq_false_iff.mpr hunsubscribed)
        ((onMqttErrorComplete_subscribed before moment).mpr (.inr hpending))
    cases hevent
  · intro hsound
    refine truthful_of_kept fun hafter => ?_
    rcases (onMqttErrorComplete_subscribed before moment).mp hafter with hbefore | hpending
    · exact hbefore
    · exact hsound.resolve_left hpending

theorem suback_truthful_iff (packetId : UInt16) (qosReturn : List QosValue)
    (moment : CallbackMoment) :
    Passage.Truthful ⟨before, connection, .complete (.subscribeAck packetId qosReturn) moment,
        onSubscribeAck before packetId qosReturn moment⟩ ↔
      Passage.Sound ⟨before, connection, .complete (.subscribeAck packetId qosReturn) moment,
        onSubscribeAck before packetId qosReturn moment⟩ := by
  constructor
  · intro htruth entry hentry hstale
    by_contra hunsound
    obtain ⟨hpassed, hunsubscribed⟩ := not_or.mp hunsound
    have hafter : (onSubscribeAck before packetId qosReturn moment).subscribed = true :=
      onSubscribeAck_subscribed.mpr (.inr ⟨Option.isSome_iff_exists.mpr ⟨entry, hentry⟩, hpassed⟩)
    obtain ⟨packetId', qosReturn', moment', entry', hevent, hentry', hcurrent, -⟩ :=
      htruth (Bool.eq_false_iff.mpr hunsubscribed) hafter
    cases hevent
    obtain rfl := Option.some.inj (hentry.symm.trans hentry')
    exact hstale hcurrent
  · intro hsound hbefore hafter
    have hunsubscribed : ¬ before.subscribed = true := Bool.eq_false_iff.mp hbefore
    obtain ⟨hsome, hpassed⟩ := (onSubscribeAck_subscribed.mp hafter).resolve_left hunsubscribed
    obtain ⟨entry, hentry⟩ := Option.isSome_iff_exists.mp hsome
    refine ⟨packetId, qosReturn, moment, entry, rfl, hentry, ?_, hpassed⟩
    by_contra hstale
    rcases hsound entry hentry hstale with hfailure | hsubscribed
    · exact hpassed hfailure
    · exact hunsubscribed hsubscribed

end Passages

theorem Passage.truthful_iff {p : Passage}
    (h : occur tickModulus p.connection p.before p.occurrence = some p.after) :
    p.Truthful ↔ p.Sound := by
  obtain ⟨before, connection, occurrence, after⟩ := p
  simp only at h
  -- Only a SUBACK and an error can make the handle subscribed.
  cases occurrence with
  | dowork visit =>
    obtain ⟨⟨handle', result⟩, hdowork, hafter⟩ := Option.map_eq_some_iff.mp h
    obtain rfl : handle' = after := hafter
    exact iff_of_true (truthful_of_kept (ioteaClientDowork_subscribed hdowork)) trivial
  | publish content outcome =>
    obtain rfl := Option.some.inj h
    exact iff_of_true (truthful_of_kept id) trivial
  | receive =>
    obtain rfl := Option.some.inj h
    exact iff_of_true (truthful_of_kept id) trivial
  | disconnect =>
    obtain rfl := Option.some.inj h
    exact iff_of_true (truthful_of_kept id) trivial
  | error moment =>
    obtain rfl := Option.some.inj h
    exact error_truthful_iff moment
  | complete event moment =>
    obtain rfl := Option.some.inj h
    cases event with
    | subscribeAck packetId qosReturn => exact suback_truthful_iff packetId qosReturn moment
    | _ => exact iff_of_true (truthful_of_kept id) trivial

section Runs
variable {s t : Session} {as : List Occurrence}

def Recorded (tickModulus : ℕ) (s : Session) : Prop :=
  ∀ p ∈ s.history, occur tickModulus p.connection p.before p.occurrence = some p.after

theorem Recorded.step {a : Occurrence} (h : Recorded tickModulus s)
    (hstep : sessionStep tickModulus s a t) : Recorded tickModulus t := by
  obtain ⟨hoccur, -, hhistory⟩ := hstep
  intro p hp
  rw [hhistory] at hp
  rcases List.mem_append.mp hp with hp | hp
  · exact h p hp
  · obtain rfl := List.mem_singleton.mp hp
    exact hoccur

theorem recorded_of_run (hcreated : Created s) (hrun : Run (sessionStep tickModulus) s as t) :
    Recorded tickModulus t := by
  refine hrun.invariant ?_ fun _ _ _ h => h.step
  intro p hp
  rw [hcreated.history] at hp
  cases hp

theorem truthful_iff_sound (hcreated : Created s)
    (hrun : Run (sessionStep tickModulus) s as t) :
    (∀ p ∈ t.history, p.Truthful) ↔ ∀ p ∈ t.history, p.Sound := by
  have hrecorded := recorded_of_run hcreated hrun
  constructor
  · intro htruth p hp
    exact (Passage.truthful_iff (hrecorded p hp)).mp (htruth p hp)
  · intro hsound p hp
    exact (Passage.truthful_iff (hrecorded p hp)).mpr (hsound p hp)

end Runs

section Pending
variable {s t : Session} {as : List Occurrence} {a : Occurrence}

theorem subscribeTopics_pending {visit : Visit} {entry : MqttSubCallbackInfo ℕ}
    (h : entry ∈ (subscribeTopics connection handle visit).1.mqttClient.subAckWaitingQueue) :
    entry ∈ handle.mqttClient.subAckWaitingQueue ∨ entry.subCallback = connection := by
  rw [subscribeTopics] at h
  split at h
  · split at h
    · exact .inl h
    · have hqueue : entry ∈ (subscribeMqttTopics handle.mqttClient
          ((getSubscription handle).map fun _ => QosValue.deliverAtLeastOnce) (some connection)
          visit.entryAllocated visit.subscribed).1.subAckWaitingQueue := by
        simp only at h
        split at h
        · exact h
        · exact h
      rw [subscribeMqttTopics, if_neg (by simp [getSubscription])] at hqueue
      cases hallocated : visit.entryAllocated with
      | false =>
        simp only [hallocated, Bool.not_false, if_true] at hqueue
        exact .inl hqueue
      | true =>
        simp only [hallocated, Bool.not_true, Bool.false_eq_true, if_false] at hqueue
        rcases List.mem_append.mp hqueue with hold | hnew
        · exact .inl hold
        · exact .inr (congrArg MqttSubCallbackInfo.subCallback (List.mem_singleton.mp hnew))
  · exact .inl h

theorem ioteaClientDowork_pending {visit : Visit} {result : DoworkResult}
    {entry : MqttSubCallbackInfo ℕ}
    (h : ioteaClientDowork tickModulus connection handle visit = some (handle', result))
    (hentry : entry ∈ handle'.mqttClient.subAckWaitingQueue) :
    entry ∈ handle.mqttClient.subAckWaitingQueue ∨ entry.subCallback = connection := by
  have hforget : (forgetSubscription handle).mqttClient = handle.mqttClient := by
    rw [forgetSubscription]
    split <;> rfl
  rw [ioteaClientDowork] at h
  split at h
  · cases h
    exact .inl hentry
  · have htopics := @subscribeTopics_pending connection (forgetSubscription handle) visit entry
    rw [hforget] at htopics
    generalize subscribeTopics connection (forgetSubscription handle) visit = answer at h htopics
    obtain ⟨subscribing, subscribed⟩ := answer
    cases subscribed with
    | false =>
      cases h
      exact htopics hentry
    | true =>
      obtain ⟨⟨client, calls⟩, hdowork, hdone⟩ := Option.map_eq_some_iff.mp h
      cases hdone
      have hsub := PublishCallbacks.iothubMqttDowork_sub hdowork
      have hrequest := (@requestAgain_alike tickModulus subscribing visit).queue
      exact htopics ((hsub.trans hrequest) ▸ hentry)

theorem onSubAckCallback_queue (handle : IoteaClient) (qosReturn : List QosValue)
    (moment : CallbackMoment) :
    (onSubAckCallback handle qosReturn moment).mqttClient.subAckWaitingQueue =
      handle.mqttClient.subAckWaitingQueue := by
  rw [onSubAckCallback]
  split
  · rfl
  · exact (publishQuery_alike _ _ _).queue

theorem onSubscribeAck_pending {packetId : UInt16} {qosReturn : List QosValue}
    {moment : CallbackMoment} {entry : MqttSubCallbackInfo ℕ}
    (h : entry ∈ (onSubscribeAck handle packetId qosReturn moment).mqttClient.subAckWaitingQueue) :
    entry ∈ handle.mqttClient.subAckWaitingQueue := by
  rw [onSubscribeAck] at h
  cases hentry : subscriptionOf handle packetId with
  | none =>
    rw [hentry] at h
    exact h
  | some resolved =>
    rw [hentry] at h
    simp only [onSubAckCallback_queue] at h
    exact List.mem_of_mem_eraseP h

theorem notifySubscribeAckFailure_queue (moment : ℕ → CallbackMoment) (i : ℕ) (handle : IoteaClient)
    (entries : List (MqttSubCallbackInfo ℕ)) (h : handle.mqttClient.subAckWaitingQueue = entries) :
    (notifySubscribeAckFailure moment i handle entries).mqttClient.subAckWaitingQueue = [] := by
  induction entries generalizing i handle with
  | nil => exact h
  | cons entry entries ih => exact ih _ _ rfl

theorem occur_pending {entry : MqttSubCallbackInfo ℕ}
    (h : occur tickModulus connection handle a = some handle')
    (hentry : entry ∈ handle'.mqttClient.subAckWaitingQueue) :
    entry ∈ handle.mqttClient.subAckWaitingQueue ∨ entry.subCallback = connection := by
  cases a with
  | dowork visit =>
    obtain ⟨⟨after, result⟩, hdowork, hafter⟩ := Option.map_eq_some_iff.mp h
    obtain rfl : after = handle' := hafter
    exact ioteaClientDowork_pending hdowork hentry
  | complete event moment =>
    obtain rfl := Option.some.inj h
    cases event with
    | subscribeAck packetId qosReturn => exact .inl (onSubscribeAck_pending hentry)
    | connack returnCode =>
      have hqueue : (onConnack handle.mqttClient returnCode).subAckWaitingQueue =
          handle.mqttClient.subAckWaitingQueue := by
        unfold onConnack
        split <;> rfl
      exact .inl (hqueue ▸ hentry)
    | _ => exact .inl hentry
  | error moment =>
    obtain rfl := Option.some.inj h
    have hnone : (onMqttErrorComplete handle moment).mqttClient.subAckWaitingQueue = [] :=
      notifySubscribeAckFailure_queue moment 0 _ _ rfl
    rw [hnone] at hentry
    cases hentry
  | publish content outcome =>
    obtain rfl := Option.some.inj h
    exact .inl ((publishQuery_alike handle content outcome).queue ▸ hentry)
  | receive =>
    obtain rfl := Option.some.inj h
    exact .inl hentry
  | disconnect =>
    obtain rfl := Option.some.inj h
    exact .inl hentry

def ConnectsIdle (s : Session) : Occurrence → Prop
  | .complete (.connack .connectionAccepted) _ => s.handle.mqttClient.subAckWaitingQueue = []
  | _ => True

structure Current (s : Session) : Prop where
  pending : ∀ entry ∈ s.handle.mqttClient.subAckWaitingQueue, entry.subCallback = s.connection
  history : ∀ p ∈ s.history, ∀ entry ∈ p.before.mqttClient.subAckWaitingQueue,
    entry.subCallback = p.connection

theorem Current.step (h : Current s)
    (hstep : Guarded ConnectsIdle (sessionStep tickModulus) s a t) : Current t := by
  obtain ⟨hidle, hoccur, hconnection, hhistory⟩ := hstep
  refine ⟨fun entry hentry => ?_, fun p hp => ?_⟩
  · rw [hconnection]
    have hpending := occur_pending hoccur hentry
    cases a with
    | complete event moment =>
      cases event with
      | connack returnCode =>
        cases returnCode with
        | connectionAccepted =>
          -- Nothing was pending, and a CONNACK subscribes nothing.
          rw [← Option.some.inj hoccur] at hentry
          have hsame : entry ∈ s.handle.mqttClient.subAckWaitingQueue := hentry
          rw [show s.handle.mqttClient.subAckWaitingQueue = [] from hidle] at hsame
          cases hsame
        | _ => exact hpending.elim (h.pending entry) id
      | _ => exact hpending.elim (h.pending entry) id
    | _ => exact hpending.elim (h.pending entry) id
  · rw [hhistory] at hp
    rcases List.mem_append.mp hp with hp | hp
    · exact h.history p hp
    · obtain rfl := List.mem_singleton.mp hp
      exact h.pending

theorem truthful_iff_errors (hcreated : Created s)
    (hrun : Run (Guarded ConnectsIdle (sessionStep tickModulus)) s as t) :
    (∀ p ∈ t.history, p.Truthful) ↔ ∀ p ∈ t.history, ∀ moment, p.occurrence = .error moment →
      p.before.mqttClient.subAckWaitingQueue = [] ∨ p.before.subscribed = true := by
  have hcurrent : Current t := by
    refine hrun.invariant ⟨?_, ?_⟩ fun _ _ _ h => h.step
    · obtain ⟨keepAliveInterval, retryLogic, persist, hclient⟩ := hcreated.mqttClient
      rw [hclient]
      exact List.forall_mem_nil _
    · rw [hcreated.history]
      exact List.forall_mem_nil _
  have hrecorded := recorded_of_run hcreated hrun.unguard
  refine forall₂_congr fun p hp => ?_
  rw [Passage.truthful_iff (hrecorded p hp)]
  constructor
  · intro hsound moment hevent
    rw [Passage.Sound, hevent] at hsound
    exact hsound
  · intro herrors
    rw [Passage.Sound]
    split
    · rename_i moment hevent
      exact herrors moment hevent
    · rename_i packetId qosReturn moment hevent
      intro entry hentry hstale
      exact absurd (hcurrent.history p hp entry (List.mem_of_find?_eq_some hentry)) hstale
    · trivial

/-- In every run the handle becomes subscribed for the right reason only, if and only if no error
comes while a subscription is pending and no SUBACK is taken for one of an earlier connection. Where
every connection begins with no subscription pending, only the errors matter. -/
theorem subscription_truth_iff (hcreated : Created s)
    (hrun : Run (sessionStep tickModulus) s as t) :
    ((∀ p ∈ t.history, p.Truthful) ↔ ∀ p ∈ t.history, p.Sound) ∧
      (Run (Guarded ConnectsIdle (sessionStep tickModulus)) s as t →
        ((∀ p ∈ t.history, p.Truthful) ↔
          ∀ p ∈ t.history, ∀ moment, p.occurrence = .error moment →
            p.before.mqttClient.subAckWaitingQueue = [] ∨ p.before.subscribed = true)) :=
  ⟨truthful_iff_sound hcreated hrun, truthful_iff_errors hcreated⟩

end Pending

def createdSession : Session where
  handle := ⟨false, 0, "meter", "modbus", false, 0, 0,
    initializeMqttClientHandle 10 (some (createRetryLogic 300)) none⟩
  connection := 0
  history := []

theorem createdSession_created : Created createdSession := ⟨rfl, rfl, ⟨10, _, none, rfl⟩, rfl⟩

def allSent : PublishOutcome := ⟨true, true, true⟩

def visitAt (second : ℤ) : Visit :=
  ⟨second, second, true, true, true, 0, allSent, ⟨⟨second, second, 0⟩, some 0, true, some 0⟩,
    fun _ => allSent⟩

def callbackMoment : CallbackMoment := ⟨0, allSent⟩

def occurred (s : Session) (a : Occurrence) : Session :=
  let handle := (occur (1 <<< 64) s.connection s.handle a).getD s.handle
  ⟨handle, nextConnection s.connection a, s.history ++ [⟨s.handle, s.connection, a, handle⟩]⟩

theorem occurred_step {s : Session} {a : Occurrence}
    (h : (occur (1 <<< 64) s.connection s.handle a).isSome = true) :
    sessionStep (1 <<< 64) s a (occurred s a) := by
  refine ⟨?_, rfl, rfl⟩
  obtain ⟨handle, hoccur⟩ := Option.isSome_iff_exists.mp h
  rw [occurred, hoccur]
  rfl

def connectingSession : Session := occurred createdSession (.dowork (visitAt 1))

def connectedSession : Session :=
  occurred connectingSession (.complete (.connack .connectionAccepted) callbackMoment)

def subscribingSession : Session := occurred connectedSession (.dowork (visitAt 11))

def untilSubscribing : List Occurrence :=
  [.dowork (visitAt 1), .complete (.connack .connectionAccepted) callbackMoment,
    .dowork (visitAt 11)]

theorem subscribing_run :
    Run (sessionStep (1 <<< 64)) createdSession untilSubscribing subscribingSession :=
  ((Run.start.next (occurred_step rfl)).next (occurred_step rfl)).next (occurred_step rfl)

def acknowledge : Occurrence :=
  .complete (.subscribeAck 1 [.deliverAtLeastOnce, .deliverAtLeastOnce, .deliverAtLeastOnce])
    callbackMoment

theorem subscription_truth_iff_acknowledged :
    Created createdSession ∧
    ∃ t, Run (sessionStep (1 <<< 64)) createdSession (untilSubscribing ++ [acknowledge]) t ∧
      t.handle.subscribed = true ∧ ∀ p ∈ t.history, p.Truthful := by
  have hrun := subscribing_run.next (occurred_step (rfl : (occur (1 <<< 64) 1
    subscribingSession.handle acknowledge).isSome = true))
  refine ⟨createdSession_created, _, hrun, rfl, ?_⟩
  refine (subscription_truth_iff createdSession_created hrun).1.mpr fun p hp => ?_
  have hpassages : p = ⟨createdSession.handle, 0, .dowork (visitAt 1), connectingSession.handle⟩ ∨
      p = ⟨connectingSession.handle, 0, .complete (.connack .connectionAccepted) callbackMoment,
        connectedSession.handle⟩ ∨
      p = ⟨connectedSession.handle, 1, .dowork (visitAt 11), subscribingSession.handle⟩ ∨
      p = ⟨subscribingSession.handle, 1, acknowledge,
        (occurred subscribingSession acknowledge).handle⟩ := by
    simpa [occurred, subscribingSession, connectedSession, connectingSession, createdSession,
      nextConnection] using hp
  rcases hpassages with rfl | rfl | rfl | rfl
  · exact trivial
  · exact trivial
  · exact trivial
  · rintro entry hentry hstale
    obtain rfl := Option.some.inj hentry
    exact absurd rfl hstale

/-- The connection breaks while the subscription waits for its SUBACK. -/
theorem subscribed_by_error :
    Created createdSession ∧
    ∃ t, Run (sessionStep (1 <<< 64)) createdSession
        (untilSubscribing ++ [.error fun _ => callbackMoment]) t ∧
      t.handle.subscribed = true ∧ ¬ ∀ p ∈ t.history, p.Truthful := by
  have hrun := subscribing_run.next (occurred_step (rfl : (occur (1 <<< 64) 1
    subscribingSession.handle (.error fun _ => callbackMoment)).isSome = true))
  refine ⟨createdSession_created, _, hrun, rfl, fun htruth => ?_⟩
  obtain ⟨packetId, qosReturn, moment, entry, hevent, -⟩ :=
    htruth _ (List.mem_append_right _ (List.mem_singleton_self _)) rfl rfl
  cases hevent

end IotEdgeAgent.Agent
