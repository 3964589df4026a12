import IotEdgeAgent.Channel.Timeline

/-!
# Bytes that nobody asked for

Bytes may arrive on a channel at any time after a protocol instance is attached to it, also
before the instance has sent a request and after it took the place of another. They are parsed
under the entry whose request was sent last; a new instance has none.
-/

namespace IotEdgeAgent.Channel.Unsolicited
open Protocol Runs

variable {μ : Type}

def created (entries : List (PmDataInfo μ)) : PmInstance μ where
  dmInfoList := entries
  nextDataInfo := if entries = [] then none else some 0
  prevDataInfo := none
  currDataInfo := none

/-- The channel and its thread, and whether a request was sent since the instance was attached. -/
structure System (μ : Type) where
  thread : RequestThread μ
  requested : Bool

/-- `joined` says that the replaced instance had a thread; `lastSendTick` is what the new thread
finds in its variable. Every entry that a protocol constructs carries its model. -/
inductive Action (μ : Type)
  | attach (entries : List (PmDataInfo μ)) (joined : Bool) (lastSendTick : ℕ)
      (models : ∀ info ∈ entries, info.modelInfo.isSome)
  | poll (moment : Moment)
  | receive (parse : ResponseParse μ) (buffer : List UInt8) (size : ℕ)
  | ioError

def attached (s : System μ) (entries : List (PmDataInfo μ)) (joined : Bool) (lastSendTick : ℕ) :
    System μ where
  thread := {
    map := { s.thread.map with
      pmHandle := some (created entries)
      taskStop := s.thread.map.taskStop && !(s.thread.map.pmHandle.isSome && joined) }
    lastSendTick := lastSendTick }
  requested := false

def step (tickModulus : ℕ) (localtime : ℤ → Tm) (s : System μ) (a : Action μ)
    (t : System μ) : Prop :=
  match a with
  | .attach entries joined lastSendTick _ => t = attached s entries joined lastSendTick
  | .poll moment => ∃ thread' sent,
      sendResquestRound tickModulus localtime s.thread moment = .ok (thread', sent) ∧
      t = ⟨thread', s.requested || sent.isSome⟩
  | .receive parse buffer size => ∃ map' payload,
      onIoBytesReceived parse s.thread.map buffer size = .ok (map', payload) ∧
      t = { s with thread := { s.thread with map := map' } }
  | .ioError =>
    t = { s with thread := { s.thread with map := { s.thread.map with taskStop := true } } }

structure Initial (s : System μ) : Prop where
  pmHandle : s.thread.map.pmHandle = none
  requested : s.requested = false

/-- The call has a defined result: nothing, or what the parser of the protocol makes of the
response under the entry that is current. -/
def Settled {ρ : Type} (parse : ResponseParse μ) (pm : PmInstance μ) (response : DataResponse)
    (result : Option DataPayload → ρ) (call : Except Undefined ρ) : Prop :=
  call = .ok (result none) ∨ ∃ info model, pm.item pm.currDataInfo = some info ∧
    info.modelInfo = some model ∧ call = (parse model info response).map result

structure Harmless (parse : ResponseParse μ) (map : PmChannelMap μ) (pm : PmInstance μ) :
    Prop where
  parsed : ∀ response, Settled parse pm response id (dataResponseParse parse pm response)
  received : ∀ buffer size, 0 < size →
    Settled parse pm ⟨buffer, UInt8.ofNat size⟩
      (fun payload => ({ map with taskLock := false, timeOutCount := 0 }, payload))
      (onIoBytesReceived parse map buffer size)

section Instance
variable {parse : ResponseParse μ} {map : PmChannelMap μ} {pm pm' : PmInstance μ}

theorem not_harmless_of_currDataInfo (h : pm.currDataInfo = none) : ¬ Harmless parse map pm := by
  intro hharmless
  have hitem : pm.item pm.currDataInfo = none := by rw [h]; rfl
  rcases hharmless.parsed ⟨[], 0⟩ with hnone | ⟨info, model, hinfo, -⟩
  · rw [dataResponseParse.eq_def, hitem] at hnone
    cases hnone
  · rw [hitem] at hinfo
    cases hinfo

theorem harmless_of_model (hpm : map.pmHandle = some pm)
    (hmodel : (pm.modelAt pm.currDataInfo).isSome) : Harmless parse map pm := by
  obtain ⟨model, hmodel⟩ := Option.isSome_iff_exists.mp hmodel
  obtain ⟨info, hinfo, hmodel⟩ := Option.bind_eq_some_iff.mp hmodel
  have hparse : ∀ response, dataResponseParse parse pm response = parse model info response := by
    intro response
    simp only [dataResponseParse, hinfo, hmodel]
  refine ⟨fun response => .inr ⟨info, model, hinfo, hmodel, ?_⟩, fun buffer size hsize =>
    .inr ⟨info, model, hinfo, hmodel, ?_⟩⟩
  · rw [hparse]
    cases parse model info response <;> rfl
  · rw [onIoBytesReceived, if_neg (Nat.pos_iff_ne_zero.mp hsize)]
    simp only [hpm, hparse]

def Modelled (pm : PmInstance μ) : Prop :=
  ∀ i, (pm.requestAt i).isSome → (pm.modelAt i).isSome

theorem modelled_created {entries : List (PmDataInfo μ)}
    (models : ∀ info ∈ entries, info.modelInfo.isSome) : Modelled (created entries) := by
  intro i hrequest
  obtain ⟨request, hrequest⟩ := Option.isSome_iff_exists.mp hrequest
  obtain ⟨info, hinfo, -⟩ := Option.bind_eq_some_iff.mp hrequest
  obtain ⟨j, -, hj⟩ := Option.bind_eq_some_iff.mp hinfo
  rw [PmInstance.modelAt, hinfo]
  exact models info (List.mem_of_getElem? hj)

theorem Modelled.keeps (h : Modelled pm) (hkeeps : pm.Keeps pm') : Modelled pm' := by
  intro i hrequest
  rw [(hkeeps i).2] at hrequest
  rw [(hkeeps i).1]
  exact h i hrequest

end Instance

/-- The current entry is set by the first request of the instance and has a model from then on. -/
structure Inv (s : System μ) : Prop where
  modelled : ∀ pm, s.thread.map.pmHandle = some pm → Modelled pm
  before : s.requested = false → ∀ pm, s.thread.map.pmHandle = some pm → pm.currDataInfo = none
  after : s.requested = true → ∀ pm, s.thread.map.pmHandle = some pm →
    (pm.modelAt pm.currDataInfo).isSome

section Steps
variable {tickModulus : ℕ} {localtime : ℤ → Tm} {s t : System μ}

theorem inv_of_initial (h : Initial s) : Inv s := by
  refine ⟨?_, ?_, ?_⟩
  · intro pm hpm
    rw [h.pmHandle] at hpm
    cases hpm
  · intro _ pm hpm
    rw [h.pmHandle] at hpm
    cases hpm
  · intro hrequested
    rw [h.requested] at hrequested
    cases hrequested

theorem Inv.frame (h : Inv s) (hpm : t.thread.map.pmHandle = s.thread.map.pmHandle)
    (hrequested : t.requested = s.requested) : Inv t :=
  ⟨hpm ▸ h.modelled, hpm ▸ hrequested ▸ h.before, hpm ▸ hrequested ▸ h.after⟩

theorem Inv.poll (h : Inv s) {moment : Moment} {thread' : RequestThread μ}
    {sent : Option DataRequest}
    (hround : sendResquestRound tickModulus localtime s.thread moment = .ok (thread', sent)) :
    Inv ⟨thread', s.requested || sent.isSome⟩ := by
  cases hpm : s.thread.map.pmHandle with
  | none =>
    rw [sendResquestRound, hpm] at hround
    cases hround
    exact h.frame rfl (Bool.or_false _)
  | some pm =>
    obtain ⟨pm', hpm', hkeeps, hidle, hsent⟩ := sendResquestRound_polled hpm hround
    have hmodelled := (h.modelled pm hpm).keeps hkeeps
    have hsome : ∀ other, thread'.map.pmHandle = some other → other = pm' := by
      intro other hother
      exact Option.some.inj (hother.symm.trans hpm')
    refine ⟨?_, ?_, ?_⟩
    · intro other hother
      exact hsome other hother ▸ hmodelled
    · intro hrequested other hother
      obtain ⟨hbefore, hnone⟩ := Bool.or_eq_false_iff.mp hrequested
      rw [hsome other hother, hidle (Option.not_isSome_iff_eq_none.mp (by simp [hnone]))]
      exact h.before hbefore pm hpm
    · intro hrequested other hother
      rw [hsome other hother]
      cases sent with
      | none =>
        rw [(hkeeps _).1, hidle rfl]
        exact h.after (by simpa using hrequested) pm hpm
      | some request =>
        apply hmodelled
        rw [hsent request rfl]
        rfl

theorem inv_step {a : Action μ} (h : Inv s) (hstep : step tickModulus localtime s a t) :
    Inv t := by
  cases a with
  | attach entries joined lastSendTick models =>
    subst hstep
    refine ⟨?_, ?_, fun hrequested => by cases hrequested⟩
    · intro pm hpm
      cases hpm
      exact modelled_created models
    · intro _ pm hpm
      cases hpm
      rfl
  | poll moment =>
    obtain ⟨thread', sent, hround, rfl⟩ := hstep
    exact h.poll hround
  | receive parse buffer size =>
    obtain ⟨map', payload, hreceived, rfl⟩ := hstep
    exact h.frame (onIoBytesReceived_pmHandle hreceived) rfl
  | ioError =>
    subst hstep
    exact h.frame rfl rfl

/-- In every state that a channel can be in with an instance attached, bytes are harmless exactly
when a request was sent since the instance was attached. -/
theorem harmless_iff_requested (parse : ResponseParse μ) {as : List (Action μ)}
    {pm : PmInstance μ} (hinit : Initial s) (hrun : Run (step tickModulus localtime) s as t)
    (hpm : t.thread.map.pmHandle = some pm) :
    Harmless parse t.thread.map pm ↔ t.requested = true := by
  have hinv : Inv t := hrun.invariant (inv_of_initial hinit) fun _ _ _ => inv_step
  constructor
  · intro hharmless
    by_contra hrequested
    have hnone := hinv.before (Bool.eq_false_iff.mpr hrequested) pm hpm
    exact not_harmless_of_currDataInfo hnone hharmless
  · exact fun hrequested => harmless_of_model hpm (hinv.after hrequested pm hpm)

end Steps

def opened : System Unit := ⟨⟨⟨none, false, false, 0⟩, 0⟩, false⟩

theorem opened_initial : Initial opened := ⟨rfl, rfl⟩

def oneEntry : List (PmDataInfo Unit) :=
  [Timeline.entry (Timeline.sendAlways "realtime" 0 0 false false)]

def attachEntry : Action Unit :=
  .attach oneEntry false 0 (fun info hinfo => by rw [List.mem_singleton.mp hinfo]; rfl)

def parseNothing : ResponseParse Unit := fun _ _ _ => .ok none

theorem harmless_iff_requested_first :
    ∃ t pm, Run (step 4294967296 Timeline.newYear) opened [attachEntry, .poll ⟨2000, 1⟩] t ∧
      t.thread.map.pmHandle = some pm ∧ t.requested = true ∧
      Harmless parseNothing t.thread.map pm := by
  have hattach : step 4294967296 Timeline.newYear opened attachEntry
      (attached opened oneEntry false 0) := rfl
  have hpoll : step 4294967296 Timeline.newYear (attached opened oneEntry false 0)
      (.poll ⟨2000, 1⟩) _ := ⟨_, _, rfl, rfl⟩
  have hrun := (Run.start.next hattach).next hpoll
  exact ⟨_, _, hrun, rfl, rfl,
    (harmless_iff_requested parseNothing opened_initial hrun rfl).mpr rfl⟩

/-- One byte that arrives before the first request is read through a null pointer. -/
theorem noise_before_request :
    Initial opened ∧
    Run (step 4294967296 Timeline.newYear) opened [attachEntry]
      (attached opened oneEntry false 0) ∧
    onIoBytesReceived parseNothing (attached opened oneEntry false 0).thread.map [0xFF] 1 =
      .error .nullDereference ∧
    ¬ Harmless parseNothing (attached opened oneEntry false 0).thread.map (created oneEntry) := by
  have hattach : step 4294967296 Timeline.newYear opened attachEntry
      (attached opened oneEntry false 0) := rfl
  exact ⟨opened_initial, Run.start.next hattach, rfl, not_harmless_of_currDataInfo rfl⟩

end IotEdgeAgent.Channel.Unsolicited
