import IotEdgeAgent.Mqtt.Connecting

/-!
# Connecting the agent

`iotea_client_connect` creates the MQTT client of the handle and calls `iothub_mqtt_dowork` until
the client is connected or has met an unrecoverable error. It returns 0 in both cases. The model
follows the client with its transport; of the options it keeps what decides something.
-/

namespace IotEdgeAgent.Agent

open DoWhile Mqtt
open Mqtt.Transport (System Work Round iothubMqttDoconnect)

variable {μ κ : Type*} {tickModulus : ℕ}

structure IoteaClientOptions where
  username : Option String
  password : Option String
  keepAliveInterval : UInt16
  retryTimeoutInSeconds : ℕ

structure Creation (μ : Type*) where
  created : Bool
  retryAllocated : Bool
  persist : Option (PersistStore μ)

def retryLimit (options : IoteaClientOptions) : ℕ :=
  if options.retryTimeoutInSeconds < 300 then 300 else options.retryTimeoutInSeconds

def initIoteaClient (options : IoteaClientOptions) (creation : Creation μ) :
    Option (System μ κ) :=
  if creation.created then
    some
      { client := initializeMqttClientHandle
          (if 0 < options.keepAliveInterval then options.keepAliveInterval else 10)
          (if creation.retryAllocated then some (createRetryLogic (retryLimit options)) else none)
          creation.persist
        xioTransport := none
        mqttClient := some Transport.mqttClientInit
        created := 0
        destroyed := []
        driven := [] }
  else none

def connectBody (tickModulus : ℕ) (s : System μ κ) (work : Work) : Option (System μ κ) :=
  Transport.iothubMqttDowork tickModulus s work

def connectKeeps (s : System μ κ) (_ : Work) : Bool :=
  s.client.mqttClientStatus ≠ .connected && s.client.isRecoverableError

def connectLoop (tickModulus : ℕ) (s : System μ κ) (works : List Work) : Option (System μ κ) :=
  (doWhile (connectBody tickModulus) connectKeeps s works).map Prod.fst

def takesOptions (options : IoteaClientOptions) : Bool :=
  options.username.isSome && options.password.isSome

/-- The client of the handle behind the call, and whether 0 is returned; `none` when the rounds end
before the loop. `current` is the client in front of the call. -/
def ioteaClientConnect (tickModulus : ℕ) (current : Option (System μ κ))
    (options : Option IoteaClientOptions) (creation : Creation μ) (works : List Work) :
    Option (Option (System μ κ) × Bool) :=
  match options.filter takesOptions with
  | none => some (current, false)
  | some options =>
    match initIoteaClient options creation with
    | none => some (none, false)
    | some s => (connectLoop tickModulus s works).map fun s =>
      (some { s with client := { s.client with
        isDestroyCalled := false, isDisconnectCalled := false } }, true)

def Connected (client : Option (System μ κ)) : Prop :=
  ∃ s, client = some s ∧ s.client.mqttClientStatus = .connected

theorem initIoteaClient_initial {options : IoteaClientOptions} {creation : Creation μ}
    {s : System μ κ} (h : initIoteaClient options creation = some s) : Transport.Initial s := by
  rw [initIoteaClient] at h
  split at h
  · obtain rfl := Option.some.inj h
    exact ⟨⟨_, _, _, rfl⟩, rfl, rfl, rfl, rfl, rfl⟩
  · cases h

/-- The last CONNACK of the round that decides about recovery does not refuse the client for
good. -/
def Recovers (tickModulus : ℕ) (s : System μ κ) (work : Work) (_ : System μ κ) : Prop :=
  (Mqtt.Session.hearing tickModulus s work).recoverable ≠ some false

/-- Either the options are refused while the handle has no connected client, or in no round the
client is refused for good. -/
def ConnectRecovers (tickModulus : ℕ) (current : Option (System μ κ))
    (options : Option IoteaClientOptions) (creation : Creation μ) (works : List Work) : Prop :=
  match options.filter takesOptions with
  | none => ¬ Connected current
  | some options => ∀ s : System μ κ, initIoteaClient options creation = some s →
      Throughout (connectBody tickModulus) connectKeeps (Recovers tickModulus) s works

structure Hopeful (s : System μ κ) : Prop where
  promising : Mqtt.Session.Promising (Mqtt.Session.connection s.client)
  recoverable : s.client.isRecoverableError = true

theorem hopeful_of_initial {s : System μ κ} (h : Transport.Initial s) : Hopeful s := by
  refine ⟨Mqtt.Session.promising_of_initial h, ?_⟩
  obtain ⟨keepAliveInterval, retryLogic, persist, hclient⟩ := h.client
  rw [hclient]
  rfl

theorem Hopeful.recovers_iff {s t : System μ κ} {work : Work} (h : Hopeful s)
    (hbody : connectBody tickModulus s work = some t) :
    Recovers tickModulus s work t ↔ t.client.isRecoverableError = true := by
  rw [Recovers, (Mqtt.Session.dowork_follows hbody).recovery, h.recoverable]
  cases (Mqtt.Session.hearing tickModulus s work).recoverable with
  | none => exact ⟨fun _ => rfl, fun _ => nofun⟩
  | some value => cases value <;> simp

theorem connectLoop_connected {s t : System μ κ} {works : List Work} (hinit : Transport.Initial s)
    (h : connectLoop tickModulus s works = some t) :
    t.client.mqttClientStatus = .connected ↔
      Throughout (connectBody tickModulus) connectKeeps (Recovers tickModulus) s works := by
  obtain ⟨⟨u, work⟩, hloop, rfl⟩ := Option.map_eq_some_iff.mp h
  have hexit := @throughout_iff_exit _ _ (connectBody tickModulus) connectKeeps
    (Recovers tickModulus) Hopeful s u work works
    (fun t _ => t.client.mqttClientStatus = .connected) ?_ ?_ (hopeful_of_initial hinit) hloop
  · exact hexit.symm
  · intro s work t hs hbody hkeeps
    rw [connectKeeps, Bool.and_eq_true] at hkeeps
    exact ⟨(hs.recovers_iff hbody).mpr hkeeps.2, hs.promising.dowork hbody, hkeeps.2⟩
  · intro s work t hs hbody hleaves
    rw [hs.recovers_iff hbody]
    constructor
    · intro hrecovers
      by_contra hconnected
      simp [connectKeeps, hconnected, hrecovers] at hleaves
    · exact fun hconnected => hs.promising.dowork hbody hconnected

theorem ioteaClientConnect_truth {current client : Option (System μ κ)}
    {options : Option IoteaClientOptions} {creation : Creation μ} {works : List Work}
    {result : Bool}
    (h : ioteaClientConnect tickModulus current options creation works = some (client, result)) :
    (result = true ↔ Connected client) ↔
      ConnectRecovers tickModulus current options creation works := by
  rw [ioteaClientConnect] at h
  rw [ConnectRecovers]
  cases hoptions : options.filter takesOptions with
  | none =>
    rw [hoptions] at h
    obtain ⟨rfl, rfl⟩ := Prod.mk.inj (Option.some.inj h)
    exact ⟨fun hiff hconnected => absurd (hiff.mpr hconnected) nofun,
      fun hlost => iff_of_false nofun hlost⟩
  | some options =>
    rw [hoptions] at h
    simp only at h
    cases hcreated : initIoteaClient options creation with
    | none =>
      rw [hcreated] at h
      obtain ⟨rfl, rfl⟩ := Prod.mk.inj (Option.some.inj h)
      refine iff_of_true (iff_of_false nofun ?_) fun s hs =>
        absurd (hcreated.symm.trans hs) nofun
      rintro ⟨s, hs, -⟩
      cases hs
    | some s =>
      rw [hcreated] at h
      obtain ⟨t, hloop, hresult⟩ := Option.map_eq_some_iff.mp h
      obtain ⟨rfl, rfl⟩ := Prod.mk.inj hresult
      have hconnected := connectLoop_connected (initIoteaClient_initial hcreated) hloop
      constructor
      · intro hiff s' hs'
        obtain rfl := Option.some.inj (hcreated.symm.trans hs')
        obtain ⟨u, hu, hstatus⟩ := hiff.mp rfl
        obtain rfl := Option.some.inj hu
        exact hconnected.mp hstatus
      · intro hrecovers
        exact iff_of_true rfl ⟨_, rfl, hconnected.mpr (hrecovers s hcreated)⟩

/-- Each of the two blocking connects returns 0 exactly when the client is connected, if and only
if in no round of `iothub_mqtt_doconnect` the client hears that it is connected and the clock is
past the timeout, and in no round of `iotea_client_connect` it hears that it is refused for
good. -/
theorem blocking_connects_truth_iff {lastSendTime timeout : ℕ} {s t : System μ κ}
    {rounds : List Round} {connected : Bool} {current client : Option (System μ κ)}
    {options : Option IoteaClientOptions} {creation : Creation μ} {works : List Work}
    {result : Bool}
    (hdoconnect : iothubMqttDoconnect tickModulus lastSendTime timeout s rounds =
      some (t, connected))
    (hconnect : ioteaClientConnect tickModulus current options creation works =
      some (client, result)) :
    ((connected = true ↔ t.client.mqttClientStatus = .connected) ↔
      Mqtt.Session.DoconnectInTime tickModulus lastSendTime timeout s rounds) ∧
    ((result = true ↔ Connected client) ↔
      ConnectRecovers tickModulus current options creation works) :=
  ⟨Mqtt.Session.doconnect_truth hdoconnect, ioteaClientConnect_truth hconnect⟩

def answeredBy (returnCode : ConnectReturnCode) : Work :=
  ⟨⟨⟨100, 100, 0⟩, some 0, some 0, true, true, true, []⟩, fun _ => ⟨true, true, true⟩, [],
    [.operation (.connack returnCode)]⟩

def meterOptions : IoteaClientOptions := ⟨some "meter", some "secret", 30, 300⟩

def plainCreation : Creation Unit := ⟨true, true, none⟩

theorem blocking_connects_truth_iff_accepted :
    ∃ t client,
      iothubMqttDoconnect (1 <<< 64) 0 5 Transport.createdClient
        [⟨answeredBy .connectionAccepted, 10⟩] = some (t, true) ∧
      ioteaClientConnect (1 <<< 64) (none : Option (System Unit Unit)) (some meterOptions)
        plainCreation [answeredBy .connectionAccepted] = some (client, true) ∧
      Mqtt.Session.DoconnectInTime (1 <<< 64) 0 5 Transport.createdClient
        [⟨answeredBy .connectionAccepted, 10⟩] ∧
      ConnectRecovers (1 <<< 64) (none : Option (System Unit Unit)) (some meterOptions)
        plainCreation [answeredBy .connectionAccepted] := by
  refine ⟨_, _, rfl, rfl, ?_⟩
  have htruth := @blocking_connects_truth_iff Unit Unit (1 <<< 64) 0 5 Transport.createdClient _
    [⟨answeredBy .connectionAccepted, 10⟩] true none _ (some meterOptions) plainCreation
    [answeredBy .connectionAccepted] true rfl rfl
  exact ⟨htruth.1.mp (iff_of_true rfl rfl), htruth.2.mp (iff_of_true rfl ⟨_, rfl, rfl⟩)⟩

/-- The clock passes the timeout in the round that connects; the server refuses the credentials. -/
theorem blocking_connects_untrue :
    (∃ t, iothubMqttDoconnect (1 <<< 64) 0 5 Transport.createdClient
        [⟨answeredBy .connectionAccepted, 6000⟩] = some (t, false) ∧
      t.client.mqttClientStatus = .connected) ∧
    ∃ client, ioteaClientConnect (1 <<< 64) (none : Option (System Unit Unit)) (some meterOptions)
        plainCreation [answeredBy .connRefusedBadUsernamePassword] = some (client, true) ∧
      ¬ Connected client := by
  refine ⟨⟨_, rfl, rfl⟩, _, rfl, ?_⟩
  rintro ⟨s, hs, hconnected⟩
  obtain rfl := Option.some.inj hs
  exact absurd hconnected (by decide)

end IotEdgeAgent.Agent
