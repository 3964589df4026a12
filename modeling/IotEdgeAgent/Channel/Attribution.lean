import IotEdgeAgent.Channel.RequestThread
import IotEdgeAgent.Dlt698.Payload
import IotEdgeAgent.Dlt698.Request
import IotEdgeAgent.Library.Runs

/-!
# Whose values a payload carries

A DL/T 698 channel, its meter, and the answers on their way between them. The meter
answers the OAD of a request it was sent; an answer may be delayed for any time, and the
thread meanwhile goes on polling. A response is parsed under the entry whose request was
sent last, and its OADs are not compared with that entry's, so the values are attributed
rightly as long as no request overtakes an answer about another OAD.
-/

namespace IotEdgeAgent.Channel.Attribution
open Protocol Dlt698 Dlt698.LinkFrame Dlt698.Response Dlt698.Request Dlt698.Payload Runs
open Strings (atoi)

def oadOf (oad : Vector UInt8 4) : Oad := ⟨makeWord oad[0] oad[1], oad[2], oad[3]⟩

/-- A meter's answer to a request for `oad`: every result in it carries that OAD. -/
structure Answer where
  oad : Vector UInt8 4
  frame : List UInt8
  genuine : ∀ unit ∈ (dlt698ResponseAnaly frame frame.length).2.stDataUnit, unit.stOAD = oadOf oad

def requestOad (request : DataRequest) : List UInt8 :=
  ((request.data.take request.length.toNat).drop DLT698_OAD_LOC).take 4

def dataRequestOf (packet : Dlt698Packet) : DataRequest := ⟨packet.data.toList, packet.length⟩

def EntryBuilt (info : PmDataInfo Dlt698ModelInfo) : Prop :=
  ∃ model b data packet b', info.modelInfo = some model ∧
    dlt698PacketBuild b (some data) (some model.acqFile.oad) (some model.acqFile.addr) =
      some (some packet, b') ∧
    info.dataRequest = some (dataRequestOf packet)

structure Publication where
  model : Dlt698ModelInfo
  frame : List UInt8
  payload : DataPayload

structure System where
  thread : RequestThread Dlt698ModelInfo
  inFlight : List Answer
  published : List Publication

/-- A round of the thread, with the answer that the meter gives to a request sent in it, or the
arrival of the answer at a position of those in flight. -/
inductive Action
  | poll (moment : Moment) (answer : Option Answer)
  | arrive (i : ℕ) (now : String)

namespace System

def currentModel (s : System) : Option Dlt698ModelInfo :=
  s.thread.map.pmHandle.bind fun pm => pm.modelAt pm.currDataInfo

def publish (s : System) (frame : List UInt8) (payload : Option DataPayload) : List Publication :=
  match s.currentModel, payload with
  | some model, some payload => [⟨model, frame, payload⟩]
  | _, _ => []

structure Initial (s : System) : Prop where
  built : ∃ pm, s.thread.map.pmHandle = some pm ∧ ∀ info ∈ pm.dmInfoList, EntryBuilt info
  quiet : s.inFlight = []
  silent : s.published = []

end System

section Steps
variable (tickModulus : ℕ) (localtime : ℤ → Tm) (sprintf : ℤ → ℤ → String)

def step (s : System) (a : Action) (t : System) : Prop :=
  match a with
  | .poll moment answer => ∃ thread' sent,
      sendResquestRound tickModulus localtime s.thread moment = .ok (thread', sent) ∧
      (∀ a ∈ answer, ∃ request, sent = some request ∧ requestOad request = a.oad.toList) ∧
      t = { s with thread := thread', inFlight := s.inFlight ++ answer.toList }
  | .arrive i now => ∃ answer map' payload, s.inFlight[i]? = some answer ∧
      onIoBytesReceived (responseParse sprintf now) s.thread.map answer.frame
        answer.frame.length = .ok (map', payload) ∧
      t = ⟨{ s.thread with map := map' }, s.inFlight.eraseIdx i,
        s.published ++ s.publish answer.frame payload⟩

/-- No request is sent while an answer about another OAD is on its way. -/
def NoOvertaking (s : System) : Action → Prop
  | .poll moment _ => ∀ thread' request,
      sendResquestRound tickModulus localtime s.thread moment = .ok (thread', some request) →
        ∀ answer ∈ s.inFlight, requestOad request = answer.oad.toList
  | .arrive _ _ => True

end Steps

/-- The payload has the topic of the entry it was built under, and each of its values has the
entry's name and the text of a result with the entry's OAD. -/
def Publication.Attributed (sprintf : ℤ → ℤ → String) (publication : Publication) : Prop :=
  publication.payload.DBTopic = copyTopic publication.model.DBTopic ∧
    List.Forall₂
      (fun unit value => unit.stOAD = oadOf publication.model.acqFile.oad ∧
        MadeOf sprintf publication.frame publication.model.acqFile.m
          (atoi publication.model.acqFile.math) unit value)
      (dlt698ResponseAnaly publication.frame publication.frame.length).2.stDataUnit
      publication.payload.payload.body

def Attributed (sprintf : ℤ → ℤ → String) (s : System) : Prop :=
  ∀ publication ∈ s.published, publication.Attributed sprintf

def Built (pm : PmInstance Dlt698ModelInfo) : Prop :=
  ∀ i request, pm.requestAt i = some request →
    ∃ model, pm.modelAt i = some model ∧ requestOad request = model.acqFile.oad.toList

theorem Built.keeps {pm pm' : PmInstance Dlt698ModelInfo} (h : Built pm) (hkeeps : pm.Keeps pm') :
    Built pm' := by
  intro i request hrequest
  rw [(hkeeps i).2] at hrequest
  obtain ⟨model, hmodel, hoad⟩ := h i request hrequest
  exact ⟨model, (hkeeps i).1.trans hmodel, hoad⟩

structure Inv (sprintf : ℤ → ℤ → String) (s : System) : Prop where
  built : ∀ pm, s.thread.map.pmHandle = some pm → Built pm
  flight : ∀ answer ∈ s.inFlight, ∃ model, s.currentModel = some model ∧
    answer.oad = model.acqFile.oad
  attributed : Attributed sprintf s

section Preservation
variable {tickModulus : ℕ} {localtime : ℤ → Tm} {sprintf : ℤ → ℤ → String}
  {s t : System} {moment : Moment} {thread' : RequestThread Dlt698ModelInfo}

theorem inv_idle (h : Inv sprintf s)
    (hround : sendResquestRound tickModulus localtime s.thread moment = .ok (thread', none)) :
    Inv sprintf { s with thread := thread' } := by
  cases hpm : s.thread.map.pmHandle with
  | none =>
    rw [sendResquestRound, hpm] at hround
    cases hround
    exact h
  | some pm =>
    obtain ⟨pm', hpm', hkeeps, hcurr, -⟩ := sendResquestRound_polled hpm hround
    have hmodel : System.currentModel { s with thread := thread' } = s.currentModel := by
      simp only [System.currentModel, hpm, hpm', Option.bind_some, hcurr rfl, (hkeeps _).1]
    refine ⟨?_, ?_, h.attributed⟩
    · intro pm₁ hpm₁
      obtain rfl := Option.some.inj (hpm'.symm.trans hpm₁)
      exact (h.built pm hpm).keeps hkeeps
    · rw [hmodel]
      exact h.flight

theorem inv_send {request : DataRequest} {inFlight : List Answer} (h : Inv sprintf s)
    (hround : sendResquestRound tickModulus localtime s.thread moment =
      .ok (thread', some request))
    (hflight : ∀ answer ∈ inFlight, requestOad request = answer.oad.toList) :
    Inv sprintf { s with thread := thread', inFlight := inFlight } := by
  cases hpm : s.thread.map.pmHandle with
  | none =>
    rw [sendResquestRound, hpm] at hround
    cases hround
  | some pm =>
    obtain ⟨pm', hpm', hkeeps, -, hsent⟩ := sendResquestRound_polled hpm hround
    have hbuilt := (h.built pm hpm).keeps hkeeps
    obtain ⟨model, hmodel, hoad⟩ := hbuilt _ _ (hsent request rfl)
    refine ⟨?_, ?_, h.attributed⟩
    · intro pm₁ hpm₁
      obtain rfl := Option.some.inj (hpm'.symm.trans hpm₁)
      exact hbuilt
    · intro answer hanswer
      refine ⟨model, ?_, ?_⟩
      · simp only [System.currentModel, hpm', Option.bind_some, hmodel]
      · rw [← Vector.toList_inj, ← hflight answer hanswer, hoad]

theorem publication_attributed {answer : Answer} {model : Dlt698ModelInfo}
    {map' : PmChannelMap Dlt698ModelInfo} {payload : DataPayload} {now : String}
    (hreceived : onIoBytesReceived (responseParse sprintf now) s.thread.map answer.frame
      answer.frame.length = .ok (map', some payload))
    (hmodel : s.currentModel = some model) (hoad : answer.oad = model.acqFile.oad) :
    Publication.Attributed sprintf ⟨model, answer.frame, payload⟩ := by
  obtain ⟨pm, info, model', hpm, hinfo, hmodel', hparse⟩ := onIoBytesReceived_parsed hreceived
  have hsame : s.currentModel = some model' := by
    simp only [System.currentModel, hpm, Option.bind_some, PmInstance.modelAt, hinfo, hmodel']
  obtain rfl := Option.some.inj (hmodel.symm.trans hsame)
  obtain ⟨htopic, hbody⟩ := dlt698ResponseParse_madeOf hparse
  rw [dlt698ResponseAnaly_length _ _ answer.frame.length] at hbody
  refine ⟨htopic, (List.forall₂_and_left _ _).mpr ⟨fun unit hunit => ?_, hbody⟩⟩
  rw [← hoad]
  exact answer.genuine unit hunit

theorem inv_arrive {answer : Answer} {map' : PmChannelMap Dlt698ModelInfo}
    {payload : Option DataPayload} {i : ℕ} {now : String} (h : Inv sprintf s)
    (hi : s.inFlight[i]? = some answer)
    (hreceived : onIoBytesReceived (responseParse sprintf now) s.thread.map answer.frame
      answer.frame.length = .ok (map', payload)) :
    Inv sprintf ⟨{ s.thread with map := map' }, s.inFlight.eraseIdx i,
      s.published ++ s.publish answer.frame payload⟩ := by
  have hmap := onIoBytesReceived_pmHandle hreceived
  obtain ⟨model, hmodel, hoad⟩ := h.flight answer (List.mem_of_getElem? hi)
  refine ⟨?_, ?_, ?_⟩
  · intro pm hpm
    exact h.built pm (hmap ▸ hpm)
  · intro other hother
    have hcurrent := h.flight other (List.mem_of_mem_eraseIdx hother)
    simpa only [System.currentModel, hmap] using hcurrent
  · intro publication hpub
    rcases List.mem_append.mp hpub with hold | hnew
    · exact h.attributed publication hold
    · cases payload with
      | none => simp [System.publish, hmodel] at hnew
      | some payload =>
        simp only [System.publish, hmodel, List.mem_singleton] at hnew
        subst hnew
        exact publication_attributed hreceived hmodel hoad

theorem inv_step {a : Action} (h : Inv sprintf s) (hguard : NoOvertaking tickModulus localtime s a)
    (hstep : step tickModulus localtime sprintf s a t) : Inv sprintf t := by
  cases a with
  | poll moment answer =>
    obtain ⟨thread', sent, hround, hanswer, rfl⟩ := hstep
    cases sent with
    | none =>
      have hnone : answer = none := by
        cases answer with
        | none => rfl
        | some a =>
          obtain ⟨request, hsent, -⟩ := hanswer a rfl
          cases hsent
      subst hnone
      simpa using inv_idle h hround
    | some request =>
      apply inv_send h hround
      intro a ha
      rcases List.mem_append.mp ha with hold | hnew
      · exact hguard thread' request hround a hold
      · obtain ⟨request', hsent, hoad⟩ := hanswer a (Option.mem_toList.mp hnew)
        cases hsent
        exact hoad
  | arrive i now =>
    obtain ⟨answer, map', payload, hi, hreceived, rfl⟩ := hstep
    exact inv_arrive h hi hreceived

end Preservation

def noSchedule : Schedule :=
  ⟨Vector.replicate 12 0, Vector.replicate 32 0, Vector.replicate 24 0, Vector.replicate 60 0⟩

def everySecond (tick : ℕ) (isLastOne : Bool) : TimeToSend :=
  ⟨"realtime", tick, 0, noSchedule, noSchedule, false, isLastOne⟩

def duo (entry₀ entry₁ : DataRequest × Dlt698ModelInfo) (sent₀ sent₁ : ℕ) (flag₁ : Bool)
    (next prev curr : Option ℕ) : PmInstance Dlt698ModelInfo :=
  ⟨[⟨some entry₀.1, some (everySecond sent₀ false), some entry₀.2⟩,
    ⟨some entry₁.1, some (everySecond sent₁ flag₁), some entry₁.2⟩], next, prev, curr⟩

def duoThread (pm : PmInstance Dlt698ModelInfo) (taskLock : Bool) (timeOutCount : ℤ)
    (lastSendTick : ℕ) : RequestThread Dlt698ModelInfo :=
  ⟨⟨some pm, false, taskLock, timeOutCount⟩, lastSendTick⟩

def newYear : ℤ → Tm := fun _ => ⟨0, 0, 1, 0⟩

section Rounds
variable (e₀ e₁ : DataRequest × Dlt698ModelInfo)

end Rounds

def builtRequest (model : Dlt698ModelInfo) : DataRequest :=
  dataRequestOf ⟨memcpy (Vector.replicate 512 0)
    (requestBuffer (Vector.replicate 1024 0) model.acqFile.oad model.acqFile.addr) 29, 29⟩

def forwardModel : Dlt698ModelInfo :=
  { energyModel with
    DBTopic := "rspData/forward"
    acqFile := { energyModel.acqFile with oad := #v[0x00, 0x10, 0x02, 0x00], m := "SupE" } }

def energyEntry : DataRequest × Dlt698ModelInfo := (builtRequest energyModel, energyModel)
def forwardEntry : DataRequest × Dlt698ModelInfo := (builtRequest forwardModel, forwardModel)

def twoEntries : System where
  thread := duoThread (duo energyEntry forwardEntry 0 0 false (some 0) none none) false 0 0
  inFlight := []
  published := []

end IotEdgeAgent.Channel.Attribution
