import IotEdgeAgent.Agent.IoteaConnect
import IotEdgeAgent.Mqtt.GivingUp

/-!
# Giving up to connect

When the retry limit of the client is exceeded, `CanRetry` never permits another attempt, and the
comment beside the limit says that the client gives up even trying. The loop of
`iotea_client_connect` does not test it: it ends only if what umqtt calls back in the very call
that gives up connects the client or refuses it for good.
-/

namespace IotEdgeAgent.Agent

open DoWhile Mqtt
open Mqtt.Session (Expired GivesUp Settles)
open Mqtt.Transport (System Work)

variable {μ κ : Type*} {tickModulus : ℕ}

/-- Every round that the loop of `iotea_client_connect` reaches meets the condition. -/
def ConnectRounds (tickModulus : ℕ) (cond : System μ κ → Work → System μ κ → Prop)
    (options : Option IoteaClientOptions) (creation : Creation μ) (works : List Work) : Prop :=
  match options.filter takesOptions with
  | none => True
  | some options => ∀ s : System μ κ, initIoteaClient options creation = some s →
      Throughout (connectBody tickModulus) connectKeeps cond s works

def EndsExpired (_ : System μ κ) (work : Work) (t : System μ κ) : Prop :=
  Expired t.client.retryLogic → t.client.mqttClientStatus = .notConnected →
    connectKeeps t work = false

/-- A round that gives up hears that the client is accepted or refused for good. -/
def SettlesGivenUp (s : System μ κ) (work : Work) (_ : System μ κ) : Prop :=
  GivesUp s.client work → Settles s work

structure Trying (s : System μ κ) : Prop where
  unexpired : ¬ Expired s.client.retryLogic
  recoverable : s.client.isRecoverableError = true

section Rounds
variable {s t : System μ κ} {work : Work}

theorem trying_of_init {options : IoteaClientOptions} {creation : Creation μ}
    (h : initIoteaClient options creation = some s) : Trying s := by
  rw [initIoteaClient] at h
  split at h
  · obtain rfl := Option.some.inj h
    refine ⟨?_, rfl⟩
    rintro ⟨r, hr, hexpired⟩
    have hcreated : (if creation.retryAllocated then
        some (createRetryLogic (retryLimit options)) else none) = some r := hr
    split_ifs at hcreated
    obtain rfl := Option.some.inj hcreated
    cases hexpired
  · cases h

theorem connectKeeps_eq_false (t : System μ κ) (work : Work) :
    connectKeeps t work = false ↔
      t.client.mqttClientStatus = .connected ∨ t.client.isRecoverableError = false := by
  rw [connectKeeps, Bool.and_eq_false_iff, decide_eq_false_iff_not, not_not]

theorem Trying.round (h : Trying s) (hbody : connectBody tickModulus s work = some t) :
    EndsExpired s work t ↔ SettlesGivenUp s work t := by
  rw [EndsExpired, SettlesGivenUp, connectKeeps_eq_false, Session.dowork_expired h.unexpired hbody]
  refine forall_congr' fun hgives => ?_
  obtain ⟨hsupervised, hsettles⟩ := Session.dowork_settles h.recoverable hgives hbody
  rw [hsettles]
  constructor
  · intro hends
    cases hstatus : t.client.mqttClientStatus with
    | notConnected => exact hstatus ▸ hends hstatus
    | connecting => exact absurd hstatus hsupervised
    | connected => exact .inl rfl
  · exact fun hsettled _ => hsettled

theorem Trying.next (h : Trying s) (hbody : connectBody tickModulus s work = some t)
    (hround : EndsExpired s work t) (hkeeps : connectKeeps t work = true) : Trying t := by
  refine ⟨fun hexpired => ?_, (Bool.and_eq_true_iff.mp hkeeps).2⟩
  have hgives := (Session.dowork_expired h.unexpired hbody).mp hexpired
  have hsettled := (Session.dowork_settles h.recoverable hgives hbody).2.mp
    ((h.round hbody).mp hround hgives)
  rw [(connectKeeps_eq_false t work).mpr hsettled] at hkeeps
  cases hkeeps

end Rounds

/-- In every run of `iotea_client_connect` the loop ends when the retry has expired and the client
is not connected, if and only if each round that gives up is settled by what it hears. -/
theorem giving_up_ends_iff (tickModulus : ℕ) (options : Option IoteaClientOptions)
    (creation : Creation μ) (works : List Work) :
    ConnectRounds tickModulus (@EndsExpired μ κ) options creation works ↔
      ConnectRounds tickModulus (@SettlesGivenUp μ κ) options creation works := by
  rw [ConnectRounds, ConnectRounds]
  cases options.filter takesOptions with
  | none => exact Iff.rfl
  | some options =>
    refine forall₂_congr fun s hs => ?_
    exact throughout_congr (fun _ _ _ hs hbody => hs.round hbody)
      (fun _ _ _ hs hbody hround hkeeps => hs.next hbody hround hkeeps) (trying_of_init hs)

/-- umqtt calls nothing back in the round, and the clock can be read. -/
structure Quiet (work : Work) : Prop where
  replayed : work.replayed = []
  callbacks : work.callbacks = []
  clock : 0 ≤ work.moment.retry.now

theorem Quiet.heard {work : Work} (h : Quiet work) (s : System μ κ) :
    Mqtt.Session.heard s work = [] := by
  rw [Mqtt.Session.heard, Mqtt.Session.called, h.replayed, h.callbacks, List.append_nil, ite_self]

structure Stuck (c : Mqtt.Session.Connection) : Prop where
  retry : ∃ r, c.retryLogic = some r ∧ r.retryExpired = true ∧ 0 ≤ r.start
  isDestroyCalled : c.isDestroyCalled = false
  isDisconnectCalled : c.isDisconnectCalled = false
  mqttClientStatus : c.mqttClientStatus = .notConnected
  isRecoverableError : c.isRecoverableError = true

theorem connectLoop_stuck {s : System μ κ} {works : List Work}
    (h : Stuck (Mqtt.Session.connection s.client)) (hquiet : ∀ work ∈ works, Quiet work) :
    connectLoop tickModulus s works = none := by
  induction works generalizing s with
  | nil => rfl
  | cons work works ih =>
    obtain ⟨hwork, hworks⟩ := List.forall_mem_cons.mp hquiet
    obtain ⟨r, hr, hexpired, hstart⟩ := h.retry
    obtain ⟨t, ht, hsame⟩ := @Mqtt.Session.dowork_expired_repeats _ _ tickModulus _ work r
      ⟨h.isDestroyCalled, h.isDisconnectCalled, h.mqttClientStatus⟩ hr hexpired
      ⟨hwork.clock, hstart⟩ (hwork.heard s)
    have hstuck : Stuck (Mqtt.Session.connection t.client) := hsame ▸ h
    have hkeeps : connectKeeps t work = true := by
      have hstatus : t.client.mqttClientStatus = .notConnected := hstuck.mqttClientStatus
      have hrecoverable : t.client.isRecoverableError = true := hstuck.isRecoverableError
      simp [connectKeeps, hstatus, hrecoverable]
    have hbody : connectBody tickModulus s work = some t := ht
    rw [connectLoop, doWhile, hbody, Option.bind_some, if_pos hkeeps]
    exact ih hstuck hworks

def roundAt (second : ℤ) (callbacks : List Transport.Callback) : Work :=
  ⟨⟨⟨second, second, 0⟩, some 0, some 0, true, true, true, []⟩, fun _ => ⟨true, true, true⟩, [],
    callbacks⟩

def agentAtStart : System Unit Unit :=
  (initIoteaClient meterOptions plainCreation).getD Transport.createdClient

def agentInError : System Unit Unit :=
  (connectBody (1 <<< 64) agentAtStart (roundAt 100 [.error])).getD agentAtStart

def agentExpired : System Unit Unit :=
  (connectBody (1 <<< 64) agentInError (roundAt 401 [])).getD agentInError

theorem agentExpired_stuck : Stuck (Mqtt.Session.connection agentExpired.client) :=
  ⟨⟨_, rfl, rfl, by decide⟩, rfl, rfl, rfl, rfl⟩

/-- The connection breaks at second 100 and the limit of 300 seconds is exceeded at second 401.
The loop does not end there, nor in any number of quiet rounds behind it. -/
theorem expired_connect_runs_on :
    ¬ ConnectRounds (1 <<< 64) (@EndsExpired Unit Unit) (some meterOptions) plainCreation
      [roundAt 100 [.error], roundAt 401 []] ∧
    ∀ works, (∀ work ∈ works, Quiet work) →
      ioteaClientConnect (1 <<< 64) (none : Option (System Unit Unit)) (some meterOptions)
        plainCreation (roundAt 100 [.error] :: roundAt 401 [] :: works) = none := by
  constructor
  · intro hends
    have hrounds := hends agentAtStart rfl
    have hexpiring := ((hrounds agentInError rfl).2 rfl agentExpired rfl).1
    exact absurd (hexpiring ⟨_, rfl, rfl⟩ rfl) (by decide)
  · intro works hquiet
    have hstuck : connectLoop (1 <<< 64) agentExpired works = none :=
      connectLoop_stuck agentExpired_stuck hquiet
    have hloop : connectLoop (1 <<< 64) agentAtStart
        (roundAt 100 [.error] :: roundAt 401 [] :: works) =
          connectLoop (1 <<< 64) agentExpired works := rfl
    have hcall : ioteaClientConnect (1 <<< 64) (none : Option (System Unit Unit))
        (some meterOptions) plainCreation (roundAt 100 [.error] :: roundAt 401 [] :: works) =
          (connectLoop (1 <<< 64) agentAtStart
            (roundAt 100 [.error] :: roundAt 401 [] :: works)).map fun s =>
              (some { s with client := { s.client with
                isDestroyCalled := false, isDisconnectCalled := false } }, true) := rfl
    rw [hcall, hloop, hstuck]
    rfl

end IotEdgeAgent.Agent
