import IotEdgeAgent.Library.Runs
import IotEdgeAgent.Umqtt.Receive
import Mathlib.Data.List.Chain

/-!
# Pings

`mqtt_client_dowork` sends a PINGREQ when nothing was received for the keep-alive interval, and
reports an error when no PINGRESP follows in time. What `xio_dowork` delivers are steps of their
own. Times are readings of the tick counter, which wraps around at a modulus.
-/

namespace IotEdgeAgent.Umqtt

open Monitor

structure Session where
  client : MqttClient
  socketConnected : Bool
  keepAliveInterval : ℕ
  maxPingRespTime : ℕ

def DEFAULT_MAX_PING_RESPONSE_TIME : ℕ := 80

def pingRespTime (keepAliveInterval : ℕ) : ℕ :=
  if DEFAULT_MAX_PING_RESPONSE_TIME < keepAliveInterval / 2 then DEFAULT_MAX_PING_RESPONSE_TIME
  else keepAliveInterval / 2

def secondsSince (tickModulus earlier later : ℕ) : ℕ :=
  (((later : ℤ) - earlier) % tickModulus).toNat / 1000

inductive Step
  | packet (now : ℕ) (event : PacketComplete)
  /-- The readings when `mqtt_client_dowork` starts and behind a PINGREQ that it sends. -/
  | dowork (currentMs pingMs : Option ℕ)
  | connectionClosed

/-- What `mqtt_client_dowork` does behind `xio_dowork`, with the times. -/
def mqttClientDowork (tickModulus : ℕ) (s : Session) (currentMs pingMs : Option ℕ) :
    List (ℕ × Effect) × Session :=
  if s.socketConnected ∧ s.client.clientConnected ∧ 0 < s.keepAliveInterval then
    match currentMs with
    | none => ([], s)
    | some currentMs =>
      if 0 < s.client.timeSincePing ∧
          s.maxPingRespTime < secondsSince tickModulus s.client.timeSincePing currentMs then
        ([(currentMs, .error .noPingResponse)],
          { s with client := { s.client with timeSincePing := 0, packetRecvTimeMs := 0 } })
      else if s.keepAliveInterval ≤
          secondsSince tickModulus s.client.packetRecvTimeMs currentMs then
        -- While a response is due no other PINGREQ is sent.
        if 0 < s.client.timeSincePing then ([], s)
        else ([(pingMs.getD currentMs, .sent mqttCodecPing)],
          { s with client := { s.client with timeSincePing := pingMs.getD 0 } })
      else ([], s)
  else ([], s)

def sessionStep (tickModulus : ℕ) (s : Session) : Step → Logged (ℕ × Effect) Session
  | .packet now event =>
    let run := recvCompleteCallback (some now) s.client event
    ⟨run.log.map (now, ·), run.value.map fun client => { s with client }⟩
  | .dowork currentMs pingMs =>
    let (effects, s) := mqttClientDowork tickModulus s currentMs pingMs
    ⟨effects, some s⟩
  | .connectionClosed =>
    pure { s with socketConnected := false, client := { s.client with clientConnected := false } }

def sessionRun (tickModulus : ℕ) : Session → List Step → Logged (ℕ × Effect) Session
  | s, [] => pure s
  | s, step :: steps => do sessionRun tickModulus (← sessionStep tickModulus s step) steps

def nextPing (pending : Option ℕ) : ℕ × Effect → Option ℕ
  | (t, .sent bytes) => if bytes = mqttCodecPing then some t else pending
  | (_, .operation .pingResponse) => none
  | (_, .error .noPingResponse) => none
  | _ => pending

/-- A PINGREQ is sent only when none is pending. The missing response is reported only while one
is pending for too long. -/
def PingAllowed (tickModulus maxPingRespTime : ℕ) (pending : Option ℕ) : ℕ × Effect → Prop
  | (_, .sent bytes) => bytes = mqttCodecPing → pending = none
  | (t, .error .noPingResponse) =>
    ∃ p, pending = some p ∧ maxPingRespTime < secondsSince tickModulus p t
  | _ => True

/-- The second reading succeeds, and is not 0, which stands for no PINGREQ. -/
def Step.Timed : Step → Prop
  | .dowork _ pingMs => ∃ p, pingMs = some p ∧ 0 < p
  | _ => True

section
variable {tickModulus : ℕ} {s s' : Session} {step : Step} {steps : List Step}
  {pending : Option ℕ} {log : List (ℕ × Effect)}

def Knows (s : Session) (pending : Option ℕ) : Prop :=
  s.client.timeSincePing = pending.getD 0 ∧ ∀ p, pending = some p → 0 < p

theorem knows_zero (h : Knows s pending) : s.client.timeSincePing = 0 ↔ pending = none := by
  obtain ⟨htime, hpos⟩ := h
  rw [htime]
  cases pending with
  | none => exact iff_of_true rfl rfl
  | some p => exact iff_of_false (hpos p rfl).ne' nofun

theorem dowork_spec {currentMs : Option ℕ} {p : ℕ} (hp : 0 < p) (h : Knows s pending) :
    let run := mqttClientDowork tickModulus s currentMs (some p)
    Obeys nextPing (PingAllowed tickModulus s.maxPingRespTime) pending run.1 ∧
      Knows run.2 (run.1.foldl nextPing pending) ∧
      run.2.maxPingRespTime = s.maxPingRespTime := by
  have hnone : s.client.timeSincePing = 0 ↔ pending = none := knows_zero h
  unfold mqttClientDowork
  split
  · cases currentMs with
    | none => exact ⟨trivial, h, rfl⟩
    | some currentMs =>
      dsimp only
      split
      · rename_i hlate
        obtain ⟨since, rfl⟩ := Option.ne_none_iff_exists'.mp fun hpending =>
          hlate.1.ne' (hnone.mpr hpending)
        refine ⟨⟨⟨since, rfl, ?_⟩, trivial⟩, ⟨rfl, nofun⟩, rfl⟩
        rw [← show s.client.timeSincePing = since from h.1]
        exact hlate.2
      · split
        · split
          · exact ⟨trivial, h, rfl⟩
          · rename_i hping
            have hpending := hnone.mp (Nat.eq_zero_of_not_pos hping)
            refine ⟨⟨fun _ => hpending, trivial⟩, ⟨rfl, ?_⟩, rfl⟩
            rintro _ ⟨⟩
            exact hp
        · exact ⟨trivial, h, rfl⟩
  · exact ⟨trivial, h, rfl⟩

def Quiet (effect : Effect) : Prop :=
  effect ≠ .sent mqttCodecPing ∧ effect ≠ .operation .pingResponse ∧
    effect ≠ .error .noPingResponse

theorem Quiet.ignored {effect : Effect} (h : Quiet effect) (t maxPingRespTime : ℕ)
    (pending : Option ℕ) :
    PingAllowed tickModulus maxPingRespTime pending (t, effect) ∧
      nextPing pending (t, effect) = pending := by
  obtain ⟨hping, hresponse, hlate⟩ := h
  cases effect with
  | message message => exact ⟨trivial, rfl⟩
  | sent bytes =>
    have hbytes : bytes ≠ mqttCodecPing := fun hbytes => hping (congrArg _ hbytes)
    exact ⟨fun h => absurd h hbytes, if_neg hbytes⟩
  | operation event =>
    cases event with
    | pingResponse => exact absurd rfl hresponse
    | _ => exact ⟨trivial, rfl⟩
  | error errorType =>
    cases errorType with
    | noPingResponse => exact absurd rfl hlate
    | _ => exact ⟨trivial, rfl⟩

theorem quiet_reply (packetType : ControlPacketType) (flags : UInt8) (packetId : UInt16) :
    Quiet (.sent (constructPublishReply packetType flags packetId)) := by
  refine ⟨fun h => ?_, nofun, nofun⟩
  have hlength := congrArg List.length (Effect.sent.inj h)
  exact absurd hlength (by simp [constructPublishReply, byteutilWriteInt, mqttCodecPing])

theorem quiet_publishReply (qosValue : QosValue) (packetId : UInt16) :
    ∀ effect ∈ publishReply qosValue packetId, Quiet effect := by
  intro effect heffect
  unfold publishReply at heffect
  split at heffect
  · rw [List.mem_singleton.mp heffect]
    exact quiet_reply ..
  · rw [List.mem_singleton.mp heffect]
    exact quiet_reply ..
  · cases heffect

def Undisturbed (client : MqttClient) (run : Logged Effect MqttClient) : Prop :=
  run.Every Quiet ∧ ∀ client', run.value = some client' →
    client'.timeSincePing = client.timeSincePing

theorem undisturbed_perform {effects : List Effect} {client client' : MqttClient}
    (heffects : ∀ effect ∈ effects, Quiet effect)
    (hclient : client'.timeSincePing = client.timeSincePing) :
    Undisturbed client (perform effects client') := by
  refine ⟨heffects, ?_⟩
  rintro _ ⟨⟩
  exact hclient

theorem undisturbed_holding {β : Type} {client : MqttClient} {value : Option β}
    {f : β → Logged Effect MqttClient}
    (h : ∀ b, value = some b → Undisturbed client (f b)) :
    Undisturbed client (Logged.holding value >>= f) := by
  cases value with
  | none => exact ⟨nofun, nofun⟩
  | some b => exact (Logged.pure_bind b f).symm ▸ h b rfl

theorem quiet_of_pair {e e' : Effect} (h : Quiet e) (h' : Quiet e') :
    ∀ effect ∈ [e, e'], Quiet effect :=
  List.forall_mem_cons.mpr ⟨h, List.forall_mem_singleton.mpr h'⟩

theorem recvPublish_quiet {flags : UInt8} {data : List UInt8} {effects : List Effect}
    (h : recvPublish flags data = some effects) : ∀ effect ∈ effects, Quiet effect := by
  obtain ⟨⟨_ | topicName, buffer⟩, -, rfl⟩ := Option.map_eq_some_iff.mp h
  · exact List.forall_mem_singleton.mpr ⟨nofun, nofun, nofun⟩
  · exact List.forall_mem_cons.mpr ⟨⟨nofun, nofun, nofun⟩, quiet_publishReply _ _⟩

theorem recvSuback_quiet (data : List UInt8) : ∀ effect ∈ recvSuback data, Quiet effect := by
  rw [recvSuback]
  dsimp only
  split
  · exact List.forall_mem_singleton.mpr ⟨nofun, nofun, nofun⟩
  · exact List.forall_mem_singleton.mpr ⟨nofun, nofun, nofun⟩

theorem recvPacket_undisturbed {packet : ControlPacketType} (hpacket : packet ≠ .pingresp)
    (client : MqttClient) (flags : UInt8) (data : List UInt8) :
    Undisturbed client (recvPacket client packet flags data) := by
  have hquiet : ∀ event, event ≠ .pingResponse → Quiet (.operation event) :=
    fun event hevent => ⟨nofun, fun h => hevent (Effect.operation.inj h), nofun⟩
  unfold recvPacket
  cases packet with
  | pingresp => exact absurd rfl hpacket
  | connack =>
    refine undisturbed_holding fun b _ => undisturbed_perform ?_ rfl
    exact List.forall_mem_singleton.mpr (hquiet _ nofun)
  | publish =>
    refine undisturbed_holding fun effects heffects => undisturbed_perform ?_ rfl
    exact recvPublish_quiet heffects
  | pubrec => exact undisturbed_perform (quiet_of_pair (hquiet _ nofun) (quiet_reply ..)) rfl
  | pubrel => exact undisturbed_perform (quiet_of_pair (hquiet _ nofun) (quiet_reply ..)) rfl
  | suback => exact undisturbed_perform (recvSuback_quiet data) rfl
  | puback => exact undisturbed_perform (List.forall_mem_singleton.mpr (hquiet _ nofun)) rfl
  | pubcomp => exact undisturbed_perform (List.forall_mem_singleton.mpr (hquiet _ nofun)) rfl
  | unsuback => exact undisturbed_perform (List.forall_mem_singleton.mpr (hquiet _ nofun)) rfl
  | _ => exact undisturbed_perform nofun rfl

theorem recvCompleteCallback_pings (now : ℕ) (client : MqttClient) (event : PacketComplete) :
    Undisturbed client (recvCompleteCallback (some now) client event) ∨
      recvCompleteCallback (some now) client event = perform [.operation .pingResponse]
        { client with packetRecvTimeMs := now, timeSincePing := 0 } := by
  rw [recvCompleteCallback]
  split
  · refine .inl ⟨nofun, ?_⟩
    rintro _ ⟨⟩
    rfl
  · by_cases hpacket : event.packet = .pingresp
    · rw [hpacket]
      exact .inr rfl
    · exact .inl (recvPacket_undisturbed hpacket ..)

end

section
variable {tickModulus : ℕ} {s s' : Session} {step : Step} {steps : List Step}
  {pending : Option ℕ}

theorem sessionStep_spec (htimed : step.Timed) (h : Knows s pending) :
    let run := sessionStep tickModulus s step
    Obeys nextPing (PingAllowed tickModulus s.maxPingRespTime) pending run.log ∧
      ∀ s', run.value = some s' → Knows s' (run.log.foldl nextPing pending) ∧
        s'.maxPingRespTime = s.maxPingRespTime := by
  cases step with
  | dowork currentMs pingMs =>
    obtain ⟨p, rfl, hp⟩ := htimed
    refine ⟨(dowork_spec hp h).1, ?_⟩
    rintro _ ⟨⟩
    exact (dowork_spec hp h).2
  | connectionClosed =>
    refine ⟨trivial, ?_⟩
    rintro _ ⟨⟩
    exact ⟨h, rfl⟩
  | packet now event =>
    obtain ⟨hquiet, htime⟩ | hping := recvCompleteCallback_pings now s.client event
    · have hignored : ∀ e ∈ (sessionStep tickModulus s (.packet now event)).log, ∀ pending,
          PingAllowed tickModulus s.maxPingRespTime pending e ∧ nextPing pending e = pending := by
        intro e he pending
        obtain ⟨effect, heffect, rfl⟩ := List.mem_map.mp he
        exact (hquiet effect heffect).ignored ..
      obtain ⟨hobeys, hfold⟩ := obeys_of_ignored (s := pending) hignored
      refine ⟨hobeys, fun s' hs' => ?_⟩
      obtain ⟨client, hclient, rfl⟩ := Option.map_eq_some_iff.mp hs'
      rw [hfold]
      exact ⟨⟨(htime client hclient).trans h.1, h.2⟩, rfl⟩
    · dsimp only [sessionStep]
      rw [hping]
      refine ⟨⟨trivial, trivial⟩, ?_⟩
      rintro _ ⟨⟩
      exact ⟨⟨rfl, nofun⟩, rfl⟩

theorem sessionRun_spec (htimed : ∀ step ∈ steps, step.Timed) (h : Knows s pending) :
    Obeys nextPing (PingAllowed tickModulus s.maxPingRespTime) pending
      (sessionRun tickModulus s steps).log := by
  induction steps generalizing s pending with
  | nil => trivial
  | cons step steps ih =>
    obtain ⟨hobeys, hnext⟩ := sessionStep_spec (htimed step List.mem_cons_self) h
    rw [sessionRun]
    rcases hstep : sessionStep tickModulus s step with ⟨log, _ | s'⟩
    · rw [hstep] at hobeys
      exact hobeys
    · rw [hstep] at hobeys hnext
      obtain ⟨hknows, hmax⟩ := hnext s' rfl
      rw [Logged.bind_done]
      refine obeys_append.mpr ⟨hobeys, ?_⟩
      rw [← hmax]
      exact ih (fun a ha => htimed a (List.mem_cons_of_mem _ ha)) hknows

/-- In every run a PINGREQ is sent only when no other is pending, and a missing response is
reported only when the pending PINGREQ is older than allowed. -/
theorem pings_in_order (htimed : ∀ step ∈ steps, step.Timed)
    (hstart : s.client.timeSincePing = 0) {before after : List (ℕ × Effect)} {event : ℕ × Effect}
    (hlog : (sessionRun tickModulus s steps).log = before ++ event :: after) :
    PingAllowed tickModulus s.maxPingRespTime (before.foldl nextPing none) event := by
  have hknows : Knows s none := ⟨hstart, nofun⟩
  exact obeys_iff.mp (sessionRun_spec htimed hknows) before event after hlog

end

structure Call where
  currentMs : ℕ
  pingMs : ℕ
  deriving DecidableEq

def Call.step (call : Call) : Step := .dowork (some call.currentMs) (some call.pingMs)

/-- The readings go up, and at most `gap` milliseconds pass from one call to the next. -/
def Regular (gap : ℕ) (calls : List Call) : Prop :=
  (∀ call ∈ calls, call.currentMs ≤ call.pingMs) ∧
    calls.IsChain fun a b => a.pingMs ≤ b.currentMs ∧ b.currentMs ≤ a.currentMs + gap

structure Session.Connected (s : Session) : Prop where
  socketConnected : s.socketConnected
  clientConnected : s.client.clientConnected
  keepAliveInterval : 0 < s.keepAliveInterval

section
variable {tickModulus gap a b p : ℕ} {s s' : Session} {call : Call} {calls : List Call}

theorem secondsSince_eq (hab : a ≤ b) (hb : b < tickModulus) :
    secondsSince tickModulus a b = (b - a) / 1000 := by
  have hcast : ((b : ℤ) - a) % tickModulus = ((b - a : ℕ) : ℤ) := by
    rw [← Int.ofNat_sub hab]
    exact Int.emod_eq_of_lt (Int.natCast_nonneg _) (Int.ofNat_lt.mpr (by omega))
  rw [secondsSince, hcast, Int.toNat_natCast]

theorem dowork_cases (tickModulus : ℕ) (hs : s.Connected) (call : Call) :
    mqttClientDowork tickModulus s (some call.currentMs) (some call.pingMs) =
      if 0 < s.client.timeSincePing then
        if s.maxPingRespTime < secondsSince tickModulus s.client.timeSincePing call.currentMs then
          ([(call.currentMs, .error .noPingResponse)],
            { s with client := { s.client with timeSincePing := 0, packetRecvTimeMs := 0 } })
        else ([], s)
      else if s.keepAliveInterval ≤
          secondsSince tickModulus s.client.packetRecvTimeMs call.currentMs then
        ([(call.pingMs, .sent mqttCodecPing)],
          { s with client := { s.client with timeSincePing := call.pingMs } })
      else ([], s) := by
  rw [mqttClientDowork, if_pos ⟨hs.1, hs.2, hs.3⟩]
  dsimp only
  by_cases hping : 0 < s.client.timeSincePing
  · simp only [hping, true_and, if_true]
    split
    · rfl
    · split <;> rfl
  · simp only [hping, false_and, if_false]
    rfl

theorem sessionRun_cons {steps : List Step} {effects : List (ℕ × Effect)}
    (h : mqttClientDowork tickModulus s (some call.currentMs) (some call.pingMs) = (effects, s')) :
    (sessionRun tickModulus s (call.step :: steps)).log =
      effects ++ (sessionRun tickModulus s' steps).log := by
  rw [sessionRun, Call.step, sessionStep]
  dsimp only
  rw [h, Logged.bind_done]

theorem overdue_reported (hs : s.Connected) (hp : 0 < s.client.timeSincePing)
    (hlate : ∃ call ∈ calls,
      s.maxPingRespTime < secondsSince tickModulus s.client.timeSincePing call.currentMs) :
    ∃ t, (t, .error .noPingResponse) ∈ (sessionRun tickModulus s (calls.map Call.step)).log := by
  induction calls with
  | nil => obtain ⟨_, ⟨⟩, _⟩ := hlate
  | cons call calls ih =>
    have hcases := dowork_cases tickModulus hs call
    rw [if_pos hp] at hcases
    rw [List.map_cons]
    split at hcases
    · refine ⟨call.currentMs, ?_⟩
      rw [sessionRun_cons hcases]
      exact List.mem_cons_self
    · rename_i hsoon
      obtain ⟨t, ht⟩ := ih (by
        obtain ⟨late, hmem, hlate⟩ := hlate
        obtain rfl | hmem := List.mem_cons.mp hmem
        · exact absurd hlate hsoon
        · exact ⟨late, hmem, hlate⟩)
      refine ⟨t, ?_⟩
      rw [sessionRun_cons hcases]
      exact ht

theorem Regular.tail (h : Regular gap (call :: calls)) : Regular gap calls :=
  ⟨fun c hc => h.1 c (List.mem_cons_of_mem _ hc), h.2.tail⟩

theorem Regular.next {next : Call} (h : Regular gap (call :: next :: calls)) :
    call.pingMs ≤ next.currentMs ∧ next.currentMs ≤ call.currentMs + gap :=
  (List.isChain_cons_cons.mp h.2).1

theorem Regular.later (h : Regular gap (call :: calls)) :
    ∀ later ∈ calls, call.pingMs ≤ later.currentMs := by
  induction calls generalizing call with
  | nil => nofun
  | cons next calls ih =>
    refine List.forall_mem_cons.mpr ⟨h.next.1, fun later hlater => ?_⟩
    have hnext := ih h.tail later hlater
    have hping := h.1 next (List.mem_cons_of_mem _ List.mem_cons_self)
    exact h.next.1.trans (hping.trans hnext)

theorem idle_reported (hs : s.Connected) (hping : s.client.timeSincePing = 0)
    (hregular : Regular gap calls)
    (htimes : ∀ call ∈ calls, 0 < call.pingMs ∧ s.client.packetRecvTimeMs ≤ call.currentMs ∧
      call.currentMs < tickModulus)
    (hfirst : ∀ call ∈ calls.head?,
      call.currentMs ≤ s.client.packetRecvTimeMs + 1000 * s.keepAliveInterval + gap)
    (hlast : ∃ call ∈ calls, s.client.packetRecvTimeMs +
      1000 * (s.keepAliveInterval + s.maxPingRespTime + 1) + 2 * gap ≤ call.currentMs) :
    ∃ t, (t, .error .noPingResponse) ∈ (sessionRun tickModulus s (calls.map Call.step)).log := by
  induction calls with
  | nil => obtain ⟨_, ⟨⟩, _⟩ := hlast
  | cons call calls ih =>
    obtain ⟨hpos, hrecv, hmod⟩ := htimes call List.mem_cons_self
    have hcall := hfirst call rfl
    have hcases := dowork_cases tickModulus hs call
    rw [if_neg (hping ▸ Nat.lt_irrefl 0), secondsSince_eq hrecv hmod] at hcases
    obtain ⟨last, hmem, hlast⟩ := hlast
    have hlater : last ∈ calls := by
      obtain rfl | hmem := List.mem_cons.mp hmem
      · omega
      · exact hmem
    obtain ⟨next, calls, rfl⟩ := List.exists_cons_of_ne_nil (List.ne_nil_of_mem hlater)
    obtain ⟨hnext, hgap⟩ := hregular.next
    rw [List.map_cons]
    split at hcases
    · -- The PINGREQ goes out here, and its response is overdue in the last call.
      have hp := hregular.later last hlater
      have hlastmod := (htimes last hmem).2.2
      have hlate : s.maxPingRespTime < secondsSince tickModulus call.pingMs last.currentMs := by
        rw [secondsSince_eq hp hlastmod]
        omega
      have hpinged : Session.Connected
          { s with client := { s.client with timeSincePing := call.pingMs } } :=
        ⟨hs.1, hs.2, hs.3⟩
      obtain ⟨t, ht⟩ := overdue_reported hpinged hpos ⟨last, hlater, hlate⟩
      refine ⟨t, ?_⟩
      rw [sessionRun_cons hcases]
      exact List.mem_cons_of_mem _ ht
    · rename_i hearly
      have hnextfirst : ∀ c ∈ (next :: calls).head?,
          c.currentMs ≤ s.client.packetRecvTimeMs + 1000 * s.keepAliveInterval + gap := by
        rintro c ⟨⟩
        omega
      obtain ⟨t, ht⟩ := ih hregular.tail (fun c hc => htimes c (List.mem_cons_of_mem _ hc))
        hnextfirst ⟨last, hlater, hlast⟩
      refine ⟨t, ?_⟩
      rw [sessionRun_cons hcases]
      exact ht

/-- A peer from which nothing comes any more is reported, whether a PINGREQ was pending at its last
packet or not. Behind this packet it takes the keep-alive interval and the time for the response,
and at most two gaps between calls. -/
theorem silence_reported (hs : s.Connected)
    (hping : s.client.timeSincePing ≤ s.client.packetRecvTimeMs)
    (hregular : Regular gap calls)
    (htimes : ∀ call ∈ calls, 0 < call.pingMs ∧ s.client.packetRecvTimeMs ≤ call.currentMs ∧
      call.currentMs < tickModulus)
    (hfirst : ∀ call ∈ calls.head?,
      call.currentMs ≤ s.client.packetRecvTimeMs + 1000 * s.keepAliveInterval + gap)
    (hlast : ∃ call ∈ calls, s.client.packetRecvTimeMs +
      1000 * (s.keepAliveInterval + s.maxPingRespTime + 1) + 2 * gap ≤ call.currentMs) :
    ∃ t, (t, .error .noPingResponse) ∈ (sessionRun tickModulus s (calls.map Call.step)).log := by
  rcases Nat.eq_zero_or_pos s.client.timeSincePing with hidle | hpending
  · exact idle_reported hs hidle hregular htimes hfirst hlast
  · -- The response to the pending PINGREQ is overdue in the last call.
    obtain ⟨last, hmem, hlast⟩ := hlast
    obtain ⟨-, hrecv, hmod⟩ := htimes last hmem
    refine overdue_reported hs hpending ⟨last, hmem, ?_⟩
    rw [secondsSince_eq (hping.trans hrecv) hmod]
    omega

end

def idleSession : Session := ⟨⟨0, 0, true⟩, true, 1, pingRespTime 1⟩

def pingedTwice : List Step :=
  [(Call.mk 1000 1000).step, .packet 1500 ⟨.pingresp, 0, none⟩, (Call.mk 2500 2500).step,
    (Call.mk 4000 4000).step]

theorem second_ping_reported :
    PingAllowed (2 ^ 64) idleSession.maxPingRespTime
      ([(1000, .sent mqttCodecPing), (1500, .operation .pingResponse),
        (2500, .sent mqttCodecPing)].foldl nextPing none) (4000, .error .noPingResponse) := by
  refine @pings_in_order (2 ^ 64) idleSession pingedTwice ?_ rfl _ [] _ rfl
  exact List.forall_mem_cons.mpr ⟨⟨1000, rfl, by decide⟩, List.forall_mem_cons.mpr ⟨trivial,
    List.forall_mem_cons.mpr ⟨⟨2500, rfl, by decide⟩, List.forall_mem_singleton.mpr
      ⟨4000, rfl, by decide⟩⟩⟩⟩

def callsEverySecond : List Call :=
  [⟨1000, 1000⟩, ⟨2000, 2000⟩, ⟨3000, 3000⟩, ⟨4000, 4000⟩, ⟨5000, 5000⟩]

def pendingSession : Session := ⟨⟨500, 400, true⟩, true, 1, pingRespTime 1⟩

theorem silent_second_reported :
    (∃ t, (t, .error .noPingResponse) ∈
      (sessionRun (2 ^ 64) idleSession (callsEverySecond.map Call.step)).log) ∧
    ∃ t, (t, .error .noPingResponse) ∈
      (sessionRun (2 ^ 64) pendingSession (callsEverySecond.map Call.step)).log :=
  ⟨@silence_reported (2 ^ 64) 1000 idleSession callsEverySecond ⟨rfl, rfl, by decide⟩ (by decide)
      ⟨by decide, by decide⟩ (by decide) (by decide) ⟨⟨5000, 5000⟩, by decide, by decide⟩,
    @silence_reported (2 ^ 64) 1000 pendingSession callsEverySecond ⟨rfl, rfl, by decide⟩
      (by decide) ⟨by decide, by decide⟩ (by decide) (by decide) ⟨⟨5000, 5000⟩, by decide,
        by decide⟩⟩

end IotEdgeAgent.Umqtt
