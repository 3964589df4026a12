import IotEdgeAgent.Library.Loops
import IotEdgeAgent.Mqtt.Session

/-!
# Waiting for a connection

The loop of `iothub_mqtt_doconnect` as a loop of rounds, each a call of `iothub_mqtt_dowork` and a
reading of the clock. A client that is connected has no unrecoverable error.
-/

namespace IotEdgeAgent.Mqtt.Session

open DoWhile Transport

variable {μ κ : Type*} {tickModulus lastSendTime timeout : ℕ} {s t : System μ κ} {work : Work}

def connects : Callback → Option Bool
  | .operation (.connack returnCode) => some (returnCode = .connectionAccepted)
  | .operation .disconnect => some false
  | .operation _ => none
  | .error => some false
  | .closed => none

def recovers : Callback → Option Bool
  | .operation (.connack .connectionAccepted) => some true
  | .operation (.connack .connRefusedBadUsernamePassword) => some false
  | .operation (.connack .connRefusedNotAuthorized) => some false
  | .operation (.connack .connRefusedUnacceptableVersion) => some false
  | _ => none

def called (s : System μ κ) (callbacks : List Callback) : List Callback :=
  -- A umqtt client that was not created calls nothing back.
  if s.mqttClient.isSome then callbacks else []

def heard (s : System μ κ) (work : Work) : List Callback :=
  called s (work.replayed ++ work.callbacks)

theorem foldl_last_write {σ ι ν : Type*} {f : σ → ι → σ} {get : σ → ν} {write : ι → Option ν}
    (h : ∀ s i, get (f s i) = (write i).getD (get s)) (s : σ) (inputs : List ι) :
    get (inputs.foldl f s) = ((inputs.filterMap write).getLast?).getD (get s) := by
  induction inputs using List.reverseRecOn with
  | nil => rfl
  | append_singleton inputs i ih =>
    rw [List.foldl_append, List.foldl_cons, List.foldl_nil, h, ih, List.filterMap_append]
    cases hwrite : write i with
    | none => simp [hwrite]
    | some value => simp [hwrite]

theorem apply_connects (client : IotHubMqttClient μ κ) (callback : Callback) :
    decide ((callback.apply client).mqttClientStatus = .connected) =
      (connects callback).getD (decide (client.mqttClientStatus = .connected)) := by
  cases callback with
  | error => rfl
  | closed => rfl
  | operation event =>
    cases event with
    | connack returnCode => cases returnCode <;> rfl
    | _ => rfl

theorem apply_recovers (client : IotHubMqttClient μ κ) (callback : Callback) :
    (callback.apply client).isRecoverableError =
      (recovers callback).getD client.isRecoverableError := by
  cases callback with
  | error => rfl
  | closed => rfl
  | operation event =>
    cases event with
    | connack returnCode => cases returnCode <;> rfl
    | _ => rfl

def hear (client : IotHubMqttClient μ κ) (callbacks : List Callback) : IotHubMqttClient μ κ :=
  callbacks.foldl (fun client callback => callback.apply client) client

theorem hear_connects (client : IotHubMqttClient μ κ) (callbacks : List Callback) :
    decide ((hear client callbacks).mqttClientStatus = .connected) =
      ((callbacks.filterMap connects).getLast?).getD
        (decide (client.mqttClientStatus = .connected)) :=
  @foldl_last_write _ _ _ _ (fun client => decide (client.mqttClientStatus = .connected)) connects
    apply_connects client callbacks

theorem hear_recovers (client : IotHubMqttClient μ κ) (callbacks : List Callback) :
    (hear client callbacks).isRecoverableError =
      ((callbacks.filterMap recovers).getLast?).getD client.isRecoverableError :=
  @foldl_last_write _ _ _ _ (·.isRecoverableError) recovers apply_recovers client callbacks

theorem deliver_created (s : System μ κ) (callback : Callback) :
    (deliver s callback).mqttClient.isSome = s.mqttClient.isSome := by
  unfold deliver
  split
  · rfl
  · rename_i hclient
    rw [hclient]
    rfl

theorem deliverAll_created (s : System μ κ) (callbacks : List Callback) :
    (deliverAll s callbacks).mqttClient.isSome = s.mqttClient.isSome := by
  induction callbacks generalizing s with
  | nil => rfl
  | cons callback callbacks ih => exact (ih _).trans (deliver_created s callback)

theorem deliverAll_client (s : System μ κ) (callbacks : List Callback) :
    (deliverAll s callbacks).client = hear s.client (called s callbacks) := by
  induction callbacks generalizing s with
  | nil => rw [called, ite_self]; rfl
  | cons callback callbacks ih =>
    have hrest := ih (deliver s callback)
    rw [called, deliver_created] at hrest
    rw [deliverAll, List.foldl_cons]
    refine hrest.trans ?_
    rw [called, deliver]
    cases s.mqttClient with
    | none => rfl
    | some mqttClient => rfl

theorem mqttClientDowork_client (s : System μ κ) (work : Work) :
    (mqttClientDowork (replayStore s work) work.callbacks).client =
      hear (publishPersisted work.outcome s.client).1 (heard s work) := by
  have hcreated : (replayStore s work).mqttClient.isSome = s.mqttClient.isSome :=
    deliverAll_created _ work.replayed
  rw [mqttClientDowork, deliverAll_client, called, hcreated, replayStore, deliverAll_client, called,
    heard, called, hear, hear, hear, ← List.foldl_append]
  cases s.mqttClient with
  | none => rfl
  | some mqttClient => rfl

/-- What is heard while `initialize_mqtt_connection` connects or disconnects, whether this sets
another status than connected behind it, and what is heard in the rest of the round. -/
structure Hearing where
  first : List Callback
  resets : Bool
  behind : List Callback

namespace Hearing

def silence : Hearing := ⟨[], false, []⟩

def connected (h : Hearing) : Option Bool :=
  (h.first.filterMap connects ++ (if h.resets then [false] else []) ++
    h.behind.filterMap connects).getLast?

def recoverable (h : Hearing) : Option Bool := ((h.first ++ h.behind).filterMap recovers).getLast?

end Hearing

def ready (s : System μ κ) (moment : Moment) : Bool :=
  let s := dropLostConnection s moment.initialized
  (s.xioTransport.isSome || moment.transportCreated) && s.mqttClient.isSome

def hearing (tickModulus : ℕ) (s : System μ κ) (work : Work) : Hearing :=
  if s.client.isDestroyCalled then ⟨[], false, heard s work⟩
  else
    match s.client.mqttClientStatus with
    | .notConnected =>
      if s.client.isDisconnectCalled then ⟨[], false, heard s work⟩
      else
        match canRetry s.client.retryLogic work.moment.retry with
        | none => .silence
        | some (false, _) => ⟨[], false, heard s work⟩
        | some (true, _) =>
          if work.moment.currentTime.isNone || !ready s work.moment then .silence
          else if work.moment.connected then
            ⟨work.moment.callbacks, true, work.replayed ++ work.callbacks⟩
          else ⟨work.moment.callbacks, false, []⟩
    | .connecting =>
      match work.moment.currentTime with
      | none => .silence
      | some currentTime =>
        if connackTimedOut tickModulus s.client currentTime then
          ⟨called s work.moment.callbacks, true, []⟩
        else ⟨[], false, heard s work⟩
    | .connected =>
      if work.moment.currentTime.isSome then ⟨[], false, heard s work⟩ else .silence

structure Follows (h : Hearing) (before after : IotHubMqttClient μ κ) : Prop where
  status : decide (after.mqttClientStatus = .connected) =
    h.connected.getD (decide (before.mqttClientStatus = .connected))
  recovery : after.isRecoverableError = h.recoverable.getD before.isRecoverableError

section Hearing
variable {before between after : IotHubMqttClient μ κ}

theorem Follows.behind {first behind : List Callback} {resets : Bool}
    (hfirst : Follows ⟨first, resets, []⟩ before between)
    (hbehind : Follows ⟨[], false, behind⟩ between after) :
    Follows ⟨first, resets, behind⟩ before after where
  status := by
    rw [hbehind.status, hfirst.status]
    simp only [Hearing.connected, List.filterMap_nil, List.append_nil, List.nil_append,
      Bool.false_eq_true, if_false]
    rw [List.getLast?_append (l := first.filterMap connects ++ _)]
    cases (behind.filterMap connects).getLast? <;> rfl
  recovery := by
    rw [hbehind.recovery, hfirst.recovery]
    simp only [Hearing.recoverable, List.append_nil, List.nil_append, List.filterMap_append]
    rw [List.getLast?_append]
    cases (behind.filterMap recovers).getLast? <;> rfl

theorem follows_hear (client : IotHubMqttClient μ κ) (callbacks : List Callback) :
    Follows ⟨[], false, callbacks⟩ client (hear client callbacks) :=
  ⟨hear_connects client callbacks, hear_recovers client callbacks⟩

theorem follows_mqttClientDowork (s : System μ κ) (work : Work) :
    Follows ⟨[], false, heard s work⟩ s.client
      (mqttClientDowork (replayStore s work) work.callbacks).client := by
  have hkept := publishPersisted_connection work.outcome s.client
  have hheard := follows_hear (publishPersisted work.outcome s.client).1 (heard s work)
  rw [mqttClientDowork_client]
  refine ⟨?_, ?_⟩
  · rw [hheard.status]
    exact congrArg (fun c : Connection => Option.getD _ (decide (c.mqttClientStatus = .connected)))
      hkept
  · rw [hheard.recovery]
    exact congrArg (fun c : Connection => Option.getD _ c.isRecoverableError) hkept

theorem follows_silence (client : IotHubMqttClient μ κ) : Follows .silence client client :=
  ⟨rfl, rfl⟩

theorem follows_reset (client : IotHubMqttClient μ κ) (callbacks : List Callback)
    (hstatus : after.mqttClientStatus ≠ .connected)
    (hrecovery : after.isRecoverableError = (hear client callbacks).isRecoverableError) :
    Follows ⟨callbacks, true, []⟩ client after where
  status := by
    rw [decide_eq_false hstatus]
    simp only [Hearing.connected, if_true, List.filterMap_nil, List.append_nil,
      List.getLast?_concat, Option.getD_some]
  recovery := by
    rw [hrecovery, hear_recovers, Hearing.recoverable, List.append_nil]

end Hearing

section Initializing
variable {u : System μ κ} {moment : Moment} {result : Bool}

theorem createTransport_ready (s : System μ κ) (moment : Moment) :
    ((createTransport s moment.transportCreated).xioTransport.isSome &&
      (createTransport s moment.transportCreated).mqttClient.isSome) =
      ((s.xioTransport.isSome || moment.transportCreated) && s.mqttClient.isSome) := by
  cases hxio : s.xioTransport with
  | some xio => simp [createTransport, hxio]
  | none => cases moment.transportCreated <;> simp [createTransport, hxio]

theorem ready_retryLogic (s : System μ κ) (moment : Moment) (retryLogic : Option RetryLogic) :
    ready { s with client := { s.client with retryLogic := retryLogic } } moment =
      ready s moment := by
  unfold ready dropLostConnection
  by_cases hlost : s.client.isConnectionLost ∧ s.client.isRecoverableError
  · rw [if_pos hlost, if_pos hlost]
    rfl
  · rw [if_neg hlost, if_neg hlost]

theorem follows_first (client : IotHubMqttClient μ κ) (callbacks : List Callback) :
    Follows ⟨callbacks, false, []⟩ client (hear client callbacks) where
  status := by
    rw [hear_connects, Hearing.connected]
    simp only [Bool.false_eq_true, if_false, List.filterMap_nil, List.append_nil]
  recovery := by
    rw [hear_recovers, Hearing.recoverable, List.append_nil]

theorem connectAgain_follows (hclock : moment.currentTime.isNone = false)
    (hready : ready s moment = true) :
    Follows ⟨moment.callbacks, moment.connected, []⟩ s.client (connectAgain s moment).1.client ∧
      (connectAgain s moment).2 = moment.connected ∧
      (connectAgain s moment).1.mqttClient.isSome = true := by
  have hclient : (createTransport (dropLostConnection s moment.initialized)
      moment.transportCreated).client = s.client :=
    (createTransport_client _ _).trans (dropLostConnection_client _ _)
  rw [ready, ← createTransport_ready, Bool.and_eq_true] at hready
  generalize hv : createTransport (dropLostConnection s moment.initialized)
    moment.transportCreated = v at hclient hready
  obtain ⟨xio, hxio⟩ := Option.isSome_iff_exists.mp hready.1
  obtain ⟨mqttClient, hmqtt⟩ := Option.isSome_iff_exists.mp hready.2
  have hheard := deliverAll_client
    { v with mqttClient := some { mqttClient with xioHandle := some xio } } moment.callbacks
  have hcreated := deliverAll_created
    { v with mqttClient := some { mqttClient with xioHandle := some xio } } moment.callbacks
  simp only [connectAgain, hclock, Bool.false_eq_true, if_false, sendMqttConnectMessage, hv, hxio,
    hmqtt, mqttClientConnect]
  simp only [hxio] at hheard hcreated
  generalize deliverAll _ moment.callbacks = w at hheard hcreated ⊢
  have hheard : w.client = hear s.client moment.callbacks := hclient ▸ hheard
  cases moment.connected with
  | true =>
    refine ⟨follows_reset _ _ ?_ (congrArg (·.isRecoverableError) hheard), rfl, hcreated⟩
    exact fun h => by cases h
  | false =>
    refine ⟨?_, rfl, hcreated⟩
    have hfollows := follows_first s.client moment.callbacks
    rw [← hheard] at hfollows
    exact hfollows

theorem connectAgain_silent (h : (moment.currentTime.isNone || !ready s moment) = true) :
    (connectAgain s moment).1.client = s.client ∧ (connectAgain s moment).2 = false := by
  have hclient : (createTransport (dropLostConnection s moment.initialized)
      moment.transportCreated).client = s.client :=
    (createTransport_client _ _).trans (dropLostConnection_client _ _)
  rw [Bool.or_eq_true] at h
  cases hclock : moment.currentTime.isNone with
  | true => simp only [connectAgain, hclock, if_true, and_self]
  | false =>
    have hready : ready s moment = false := by simpa [hclock] using h
    rw [ready, ← createTransport_ready] at hready
    simp only [connectAgain, hclock, Bool.false_eq_true, if_false, sendMqttConnectMessage]
    generalize createTransport (dropLostConnection s moment.initialized) moment.transportCreated = v
      at hclient hready ⊢
    cases hxio : v.xioTransport with
    | none => exact ⟨hclient, rfl⟩
    | some xio =>
      cases hmqtt : v.mqttClient with
      | none => exact ⟨hclient, rfl⟩
      | some mqttClient =>
        simp only [hxio, hmqtt] at hready
        cases hready

theorem initialize_follows
    (h : Transport.initializeMqttConnection tickModulus s work.moment = some (u, result)) :
    ∃ first resets, Follows ⟨first, resets, []⟩ s.client u.client ∧
      hearing tickModulus s work =
        ⟨first, resets, if result then heard u work else []⟩ := by
  rw [hearing]
  cases initializeMqttConnection_cases h with
  | destroyed hdestroy =>
    rw [if_pos hdestroy]
    exact ⟨_, _, follows_silence _, rfl⟩
  | disconnected hdestroy hdisconnect hstatus =>
    simp only [hdestroy, hstatus, hdisconnect, Bool.false_eq_true, if_false, if_true]
    exact ⟨_, _, follows_silence _, rfl⟩
  | refused hdestroy hdisconnect hstatus hanswer =>
    rw [hdestroy, hdisconnect, hanswer]
    simp only [hstatus]
    exact ⟨_, _, ⟨by rw [hstatus]; rfl, rfl⟩, rfl⟩
  | @attempts retryLogic _ _ hdestroy hdisconnect hstatus hanswer hconnect =>
    simp only [hdestroy, hstatus, hdisconnect, hanswer, Bool.false_eq_true, if_false]
    have hsame := ready_retryLogic s work.moment retryLogic
    by_cases hsilent : (work.moment.currentTime.isNone || !ready s work.moment) = true
    · rw [← hsame] at hsilent
      obtain ⟨hclient, hfailed⟩ := connectAgain_silent hsilent
      rw [hconnect] at hclient hfailed
      obtain rfl : result = false := hfailed
      have hclient : u.client = { s.client with retryLogic := retryLogic } := hclient
      rw [← hsame, if_pos hsilent, hclient]
      exact ⟨_, _, ⟨rfl, rfl⟩, rfl⟩
    · rw [if_neg hsilent]
      rw [Bool.or_eq_true, not_or, Bool.not_eq_true, Bool.not_eq_true', Bool.not_eq_false,
        ← hsame] at hsilent
      obtain ⟨hfollows, hsent, hcreated⟩ := connectAgain_follows hsilent.1 hsilent.2
      rw [hconnect] at hfollows hsent hcreated
      obtain rfl : result = work.moment.connected := hsent
      refine ⟨_, _, ⟨hfollows.status, hfollows.recovery⟩, ?_⟩
      have hheard : heard u work = work.replayed ++ work.callbacks := if_pos hcreated
      rw [hheard]
      cases work.moment.connected <;> rfl
  | clockless hdestroy hstatus hclock =>
    simp only [hdestroy, hstatus, hclock, Bool.false_eq_true, if_false]
    exact ⟨_, _, follows_silence _, rfl⟩
  | timedOut hdestroy hstatus hclock hlate =>
    simp only [hdestroy, hstatus, hclock, if_pos hlate, Bool.false_eq_true, if_false]
    refine ⟨_, _, follows_reset _ _ (fun h => by cases h) ?_, rfl⟩
    have hheard := deliverAll_client
      { s with mqttClient := s.mqttClient.map mqttClientDisconnect } work.moment.callbacks
    have hcalled : called { s with mqttClient := s.mqttClient.map mqttClientDisconnect }
        work.moment.callbacks = called s work.moment.callbacks := by
      rw [called, called, Option.isSome_map]
    rw [hcalled] at hheard
    exact congrArg (·.isRecoverableError) hheard
  | waits hdestroy hstatus hclock hearly =>
    simp only [hdestroy, hstatus, hclock, if_neg hearly, Bool.false_eq_true, if_false, if_true]
    exact ⟨_, _, follows_silence _, rfl⟩
  | connected hdestroy hstatus =>
    simp only [hdestroy, hstatus, Bool.false_eq_true, if_false]
    refine ⟨[], false, follows_silence _, ?_⟩
    cases work.moment.currentTime.isSome <;> rfl

end Initializing

theorem dowork_follows (h : Transport.iothubMqttDowork tickModulus s work = some t) :
    Follows (hearing tickModulus s work) s.client t.client := by
  obtain ⟨⟨u, result⟩, hinit, rfl⟩ := Option.map_eq_some_iff.mp h
  obtain ⟨first, resets, hfollows, hhearing⟩ := initialize_follows hinit
  rw [hhearing]
  cases result with
  | false => exact hfollows
  | true => exact hfollows.behind (follows_mqttClientDowork u work)

theorem dowork_changes (h : Transport.iothubMqttDowork tickModulus s work = some t) :
    Changes (connection s.client) (connection t.client) ∨
    ∃ permitted retryLogic, Evaluates s.client ∧
      canRetry s.client.retryLogic work.moment.retry = some (permitted, retryLogic) ∧
      Changes { connection s.client with retryLogic := retryLogic } (connection t.client) := by
  obtain ⟨-, hchanges⟩ | ⟨permitted, retryLogic, hevaluates, hanswer, -, hchanges⟩ :=
    iothubMqttDowork_changes h
  · exact .inl hchanges
  · exact .inr ⟨permitted, retryLogic, hevaluates, hanswer, hchanges⟩

def Promising (c : Connection) : Prop :=
  c.mqttClientStatus = .connected → c.isRecoverableError = true

theorem Promising.change {c : Connection} (h : Promising c) (change : Change) :
    Promising (change.apply c) := by
  cases change with
  | accepted => exact fun _ => rfl
  | disconnect => exact h
  | _ => exact nofun

theorem Promising.dowork (h : Promising (connection s.client))
    (hdowork : Transport.iothubMqttDowork tickModulus s work = some t) :
    Promising (connection t.client) := by
  rcases dowork_changes hdowork with hchanges | ⟨permitted, retryLogic, hevaluates, -, hchanges⟩
  · exact hchanges.invariant h fun c change hc => hc.change change
  · have hevaluated : Promising { connection s.client with retryLogic := retryLogic } := h
    exact hchanges.invariant hevaluated fun c change hc => hc.change change

theorem promising_of_initial (h : Transport.Initial s) : Promising (connection s.client) := by
  obtain ⟨keepAliveInterval, retryLogic, persist, hclient⟩ := h.client
  rw [hclient]
  exact fun _ => rfl

def roundBody (tickModulus : ℕ) (s : System μ κ) (round : Round) : Option (System μ κ) :=
  Transport.iothubMqttDowork tickModulus s round.work

def roundKeeps (tickModulus lastSendTime timeout : ℕ) (s : System μ κ) (round : Round) : Bool :=
  keepsConnecting tickModulus lastSendTime timeout s.client round.currentTime

def doconnectResult (tickModulus lastSendTime timeout : ℕ) (s : System μ κ) (round : Round) :
    Bool :=
  elapsed tickModulus lastSendTime round.currentTime ≤ timeout &&
    s.client.mqttClientStatus = .connected

theorem iothubMqttDoconnect_eq_doWhile (s : System μ κ) (rounds : List Round) :
    iothubMqttDoconnect tickModulus lastSendTime timeout s rounds =
      (doWhile (roundBody tickModulus) (roundKeeps tickModulus lastSendTime timeout) s rounds).map
        fun (t, round) => (t, doconnectResult tickModulus lastSendTime timeout t round) := by
  induction rounds generalizing s with
  | nil => rfl
  | cons round rounds ih =>
    rw [iothubMqttDoconnect, doWhile, roundBody]
    cases hdowork : Transport.iothubMqttDowork tickModulus s round.work with
    | none => rfl
    | some t =>
      rw [Option.bind_some]
      by_cases hkeeps : roundKeeps tickModulus lastSendTime timeout t round = true
      · rw [if_pos hkeeps, ← ih t]
        exact if_pos hkeeps
      · rw [if_neg hkeeps]
        exact if_neg hkeeps

/-- The last that is heard about the connection in the round is that it is accepted, or nothing is
heard about it and the client was connected. -/
def HearsConnected (tickModulus : ℕ) (s : System μ κ) (work : Work) : Prop :=
  (hearing tickModulus s work).connected.getD
    (decide (s.client.mqttClientStatus = .connected)) = true

theorem hearsConnected_iff (h : Transport.iothubMqttDowork tickModulus s work = some t) :
    HearsConnected tickModulus s work ↔ t.client.mqttClientStatus = .connected := by
  rw [HearsConnected, ← (dowork_follows h).status, decide_eq_true_iff]

/-- A round in which the client hears that it is connected reads a clock within the timeout. -/
def InTime (tickModulus lastSendTime timeout : ℕ) (s : System μ κ) (round : Round)
    (_ : System μ κ) : Prop :=
  HearsConnected tickModulus s round.work →
    elapsed tickModulus lastSendTime round.currentTime ≤ timeout

def DoconnectInTime (tickModulus lastSendTime timeout : ℕ) (s : System μ κ) (rounds : List Round) :
    Prop :=
  Throughout (roundBody tickModulus) (roundKeeps tickModulus lastSendTime timeout)
    (InTime tickModulus lastSendTime timeout) s rounds

theorem doconnect_truth {result : Bool} {rounds : List Round}
    (h : iothubMqttDoconnect tickModulus lastSendTime timeout s rounds = some (t, result)) :
    (result = true ↔ t.client.mqttClientStatus = .connected) ↔
      DoconnectInTime tickModulus lastSendTime timeout s rounds := by
  rw [iothubMqttDoconnect_eq_doWhile] at h
  obtain ⟨⟨u, round⟩, hloop, hresult⟩ := Option.map_eq_some_iff.mp h
  obtain ⟨rfl, rfl⟩ := Prod.mk.inj hresult
  have hexit := @throughout_iff_exit _ _ (roundBody tickModulus)
    (roundKeeps tickModulus lastSendTime timeout) (InTime tickModulus lastSendTime timeout)
    (fun _ => True) s u round rounds
    (fun t round => doconnectResult tickModulus lastSendTime timeout t round = true ↔
      t.client.mqttClientStatus = .connected) ?_ ?_ trivial hloop
  · exact hexit.symm
  · intro s round t _ hbody hkeeps
    -- A round that goes on has not connected.
    refine ⟨fun hhears => ?_, trivial⟩
    have hconnected := (hearsConnected_iff hbody).mp hhears
    simp [roundKeeps, keepsConnecting, hconnected] at hkeeps
  · intro s round t _ hbody _
    simp only [InTime, hearsConnected_iff hbody, doconnectResult, Bool.and_eq_true,
      decide_eq_true_eq]
    exact ⟨fun h => ⟨And.right, fun hconnected => ⟨h hconnected, hconnected⟩⟩,
      fun h hconnected => (h.mpr hconnected).1⟩

end IotEdgeAgent.Mqtt.Session
