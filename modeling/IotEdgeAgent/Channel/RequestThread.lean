import IotEdgeAgent.Protocol.Manager

/-!
# A channel and its request thread

`send_resquest_thread` polls the entries of a protocol instance in turn and sends the
request of an entry that is due. `on_io_bytes_received` hands received bytes to the
protocol's parser. The thread is given the tick count and the calendar time of each
round; ticks are counted modulo the width of `tickcounter_ms_t`.

Only the realtime branch looks at the lock that a request takes. The freeze branch takes
it without looking, and the branch for timed entries does neither.
-/

namespace IotEdgeAgent.Channel
open Protocol

variable {μ : Type}

structure PmChannelMap (μ : Type) where
  pmHandle : Option (PmInstance μ)
  taskStop : Bool
  taskLock : Bool
  timeOutCount : ℤ

structure RequestThread (μ : Type) where
  map : PmChannelMap μ
  lastSendTick : ℕ

structure Tm where
  tmMin : Fin 60
  tmHour : Fin 24
  tmMday : Fin 32
  tmMon : Fin 12

structure Moment where
  currentTick : ℕ
  currentTime : ℤ

def scheduleMatches (table : Schedule) (tm : Tm) : Bool :=
  table.mins[tm.tmMin] ≠ 0 && table.hous[tm.tmHour] ≠ 0 && table.days[tm.tmMday] ≠ 0 &&
    table.mons[tm.tmMon] ≠ 0

section Thread
variable (tickModulus : ℕ) (localtime : ℤ → Tm)

/-- `(current_tick - last) / 1000 > limit`, in the unsigned type of the ticks. -/
def overdue (currentTick last : ℕ) (limit : ℤ) : Bool :=
  (limit % tickModulus).toNat < (((currentTick : ℤ) - last) % tickModulus).toNat / 1000

/-- Second 0 of a minute, as `temp_time >= current_time` tests it. -/
def fullMinute (moment : Moment) : Bool :=
  moment.currentTime - moment.currentTime % 60 ≥ moment.currentTime

def sendRequest (pm : PmInstance μ) (sendTime : TimeToSend) (currentTick : ℕ) :
    Except Undefined (DataRequest × PmInstance μ) :=
  match getRequestData pm with
  | (none, _) => .error .nullDereference
  | (some request, pm) =>
    .ok (request, pm.setTimeToSend pm.prevDataInfo { sendTime with packetSendTime := currentTick })

abbrev Round (μ : Type) := Except Undefined (RequestThread μ × Option DataRequest)

def withInstance (thread : RequestThread μ) (pm : PmInstance μ) : RequestThread μ :=
  { thread with map := { thread.map with pmHandle := some pm } }

def realtimeRound (thread : RequestThread μ) (pm : PmInstance μ) (sendTime : TimeToSend)
    (moment : Moment) : Round μ :=
  if overdue tickModulus moment.currentTick sendTime.packetSendTime sendTime.acqInt then
    if !thread.map.taskLock then
      (sendRequest pm sendTime moment.currentTick).map fun (request, pm) =>
        (⟨{ thread.map with pmHandle := some pm, taskLock := true }, moment.currentTick⟩,
          some request)
    else if overdue tickModulus moment.currentTick thread.lastSendTick 2 then
      let count := thread.map.timeOutCount + 1
      .ok (⟨{ thread.map with
        pmHandle := some pm
        taskLock := false
        timeOutCount := count
        taskStop := thread.map.taskStop || decide (count ≥ 5) }, thread.lastSendTick⟩, none)
    else .ok (withInstance thread pm, none)
  else .ok (withInstance thread pm, none)

def freezeWindow (pm : PmInstance μ) (sendTime : TimeToSend) (moment : Moment) : PmInstance μ :=
  if fullMinute moment then
    let tm := localtime (moment.currentTime - moment.currentTime % 60)
    let opened := sendTime.freezing || scheduleMatches sendTime.startTime tm
    let freezing := opened && !scheduleMatches sendTime.endTime tm
    pm.setTimeToSend pm.prevDataInfo { sendTime with freezing := freezing }
  else pm

def schfrzRound (thread : RequestThread μ) (pm : PmInstance μ) (sendTime : TimeToSend)
    (moment : Moment) : Round μ :=
  if sendTime.freezing ∧
      overdue tickModulus moment.currentTick sendTime.packetSendTime sendTime.acqInt then
    (sendRequest pm sendTime moment.currentTick).map fun (request, pm) =>
      let sent := { sendTime with packetSendTime := moment.currentTick }
      (⟨{ thread.map with
        pmHandle := some (freezeWindow localtime pm sent moment)
        taskLock := true }, thread.lastSendTick⟩, some request)
  else .ok (withInstance thread (freezeWindow localtime pm sendTime moment), none)

def timedRound (thread : RequestThread μ) (pm : PmInstance μ) (sendTime : TimeToSend)
    (moment : Moment) : Round μ :=
  if overdue tickModulus moment.currentTick sendTime.packetSendTime 60 ∧ fullMinute moment ∧
      scheduleMatches sendTime.startTime
        (localtime (moment.currentTime - moment.currentTime % 60)) then
    (sendRequest pm sendTime moment.currentTick).map fun (request, pm) =>
      (withInstance thread pm, some request)
  else .ok (withInstance thread pm, none)

/-- One round of the loop of `send_resquest_thread`, behind its `xio_dowork`. -/
def sendResquestRound (thread : RequestThread μ) (moment : Moment) : Round μ :=
  match thread.map.pmHandle with
  | none => .ok (thread, none)
  | some pm =>
    if thread.map.taskStop then .ok (thread, none) else
      match getNextSendTime pm with
      | (none, pm) => .ok (withInstance thread pm, none)
      | (some sendTime, pm) =>
        if sendTime.acqMode = "realtime" then
          realtimeRound tickModulus thread pm sendTime moment
        else if sendTime.acqMode = "schfrz" then
          schfrzRound tickModulus localtime thread pm sendTime moment
        else timedRound tickModulus localtime thread pm sendTime moment

end Thread

/-- The payload that is published for the bytes of one call. `buffer` is the memory from the
pointer on, of which `size` bytes were received. -/
def onIoBytesReceived (parse : ResponseParse μ) (map : PmChannelMap μ) (buffer : List UInt8)
    (size : ℕ) : Except Undefined (PmChannelMap μ × Option DataPayload) :=
  if size = 0 then .ok (map, none) else
    let map := { map with taskLock := false, timeOutCount := 0 }
    match map.pmHandle with
    | none => .ok (map, none)
    | some pm =>
      (dataResponseParse parse pm ⟨buffer, UInt8.ofNat size⟩).map fun payload => (map, payload)

section Rounds
variable {tickModulus : ℕ} {localtime : ℤ → Tm} {thread thread' : RequestThread μ}
  {pm : PmInstance μ} {sendTime : TimeToSend} {moment : Moment} {sent : Option DataRequest}

def Polled (pm : PmInstance μ) (thread : RequestThread μ) (sent : Option DataRequest) : Prop :=
  ∃ pm', thread.map.pmHandle = some pm' ∧ pm.Keeps pm' ∧
    (sent = none → pm'.currDataInfo = pm.currDataInfo) ∧
    ∀ request, sent = some request → pm'.requestAt pm'.currDataInfo = some request

theorem Polled.idle (h : thread.map.pmHandle = some pm) : Polled pm thread none :=
  ⟨pm, h, PmInstance.Keeps.refl pm, fun _ => rfl, fun _ hsent => by cases hsent⟩

theorem sendRequest_ok {tick : ℕ} {request : DataRequest} {pm' : PmInstance μ}
    (h : sendRequest pm sendTime tick = .ok (request, pm')) :
    pm.Keeps pm' ∧ pm'.requestAt pm'.currDataInfo = some request := by
  rw [sendRequest] at h
  split at h
  · cases h
  · rename_i found pm₁ hfound
    cases h
    obtain ⟨hrequest, rfl⟩ := getRequestData_some hfound
    have hkeeps := PmInstance.setTimeToSend_keeps { pm with currDataInfo := pm.prevDataInfo }
      pm.prevDataInfo { sendTime with packetSendTime := tick }
    refine ⟨hkeeps, ?_⟩
    rw [(hkeeps _).2, PmInstance.setTimeToSend_currDataInfo]
    exact hrequest

theorem freezeWindow_keeps (pm : PmInstance μ) :
    pm.Keeps (freezeWindow localtime pm sendTime moment) ∧
      (freezeWindow localtime pm sendTime moment).currDataInfo = pm.currDataInfo := by
  rw [freezeWindow]
  split_ifs
  · exact ⟨pm.setTimeToSend_keeps _ _, pm.setTimeToSend_currDataInfo _ _⟩
  · exact ⟨PmInstance.Keeps.refl pm, rfl⟩

theorem sendRequest_map_ok {tick : ℕ}
    {finish : DataRequest × PmInstance μ → RequestThread μ × Option DataRequest}
    (h : (sendRequest pm sendTime tick).map finish = .ok (thread', sent)) :
    ∃ request pm', sendRequest pm sendTime tick = .ok (request, pm') ∧
      finish (request, pm') = (thread', sent) := by
  cases hsend : sendRequest pm sendTime tick with
  | error e =>
    rw [hsend] at h
    cases h
  | ok r =>
    rw [hsend] at h
    exact ⟨r.1, r.2, rfl, Except.ok.inj h⟩

theorem polled_of_sendRequest {tick : ℕ} {finish : DataRequest × PmInstance μ → RequestThread μ}
    (hfinish : ∀ request pm', ∃ pm'', (finish (request, pm')).map.pmHandle = some pm'' ∧
      pm'.Keeps pm'' ∧ pm''.currDataInfo = pm'.currDataInfo)
    (h : (sendRequest pm sendTime tick).map (fun r => (finish r, some r.1)) =
      .ok (thread', sent)) : Polled pm thread' sent := by
  obtain ⟨request, pm', hsend, heq⟩ := sendRequest_map_ok h
  cases heq
  obtain ⟨hkeeps, hrequest⟩ := sendRequest_ok hsend
  obtain ⟨pm'', hpm, hkeeps', hcurr⟩ := hfinish request pm'
  refine ⟨pm'', hpm, hkeeps.trans hkeeps', fun hnone => (by cases hnone), ?_⟩
  intro request' hsent
  cases hsent
  rw [(hkeeps' _).2, hcurr]
  exact hrequest

theorem realtimeRound_polled
    (h : realtimeRound tickModulus thread pm sendTime moment = .ok (thread', sent)) :
    Polled pm thread' sent := by
  rw [realtimeRound] at h
  split_ifs at h with hdue hfree htimeout
  · exact polled_of_sendRequest (fun _ pm' => ⟨pm', rfl, PmInstance.Keeps.refl pm', rfl⟩) h
  · cases h
    exact Polled.idle rfl
  · cases h
    exact Polled.idle rfl
  · cases h
    exact Polled.idle rfl

theorem schfrzRound_polled
    (h : schfrzRound tickModulus localtime thread pm sendTime moment = .ok (thread', sent)) :
    Polled pm thread' sent := by
  rw [schfrzRound] at h
  split_ifs at h with hdue
  · exact polled_of_sendRequest (fun _ pm' => ⟨_, rfl, freezeWindow_keeps pm'⟩) h
  · cases h
    obtain ⟨hkeeps, hcurr⟩ := freezeWindow_keeps pm
    exact ⟨_, rfl, hkeeps, fun _ => hcurr, fun _ hsent => by cases hsent⟩

theorem timedRound_polled
    (h : timedRound tickModulus localtime thread pm sendTime moment = .ok (thread', sent)) :
    Polled pm thread' sent := by
  rw [timedRound] at h
  split_ifs at h with hdue
  · exact polled_of_sendRequest (fun _ pm' => ⟨pm', rfl, PmInstance.Keeps.refl pm', rfl⟩) h
  · cases h
    exact Polled.idle rfl

theorem Polled.after {pm₁ : PmInstance μ} (hkeeps : pm.Keeps pm₁)
    (hcurr : pm₁.currDataInfo = pm.currDataInfo) (h : Polled pm₁ thread' sent) :
    Polled pm thread' sent := by
  obtain ⟨pm', hpm, hkeeps', hidle, hsent⟩ := h
  exact ⟨pm', hpm, hkeeps.trans hkeeps', fun hnone => (hidle hnone).trans hcurr, hsent⟩

inductive Branch (tickModulus : ℕ) (localtime : ℤ → Tm) (thread : RequestThread μ)
    (pm : PmInstance μ) (sendTime : TimeToSend) (moment : Moment) (thread' : RequestThread μ)
    (sent : Option DataRequest) : Prop
  | realtime (hmode : sendTime.acqMode = "realtime")
      (h : realtimeRound tickModulus thread pm sendTime moment = .ok (thread', sent))
  | schfrz (hmode : sendTime.acqMode = "schfrz")
      (h : schfrzRound tickModulus localtime thread pm sendTime moment = .ok (thread', sent))
  | timed (hreal : sendTime.acqMode ≠ "realtime") (hfreeze : sendTime.acqMode ≠ "schfrz")
      (h : timedRound tickModulus localtime thread pm sendTime moment = .ok (thread', sent))

theorem sendResquestRound_ok
    (h : sendResquestRound tickModulus localtime thread moment = .ok (thread', sent)) :
    thread' = thread ∧ sent = none ∧ (thread.map.taskStop = false →
        thread.map.pmHandle.bind (fun pm => (getNextSendTime pm).1) = none) ∨
      ∃ pm sendTime pm', thread.map.pmHandle = some pm ∧ thread.map.taskStop = false ∧
        getNextSendTime pm = (some sendTime, pm') ∧
        Branch tickModulus localtime thread pm' sendTime moment thread' sent := by
  rw [sendResquestRound.eq_def] at h
  split at h
  next hpm =>
    cases h
    exact Or.inl ⟨rfl, rfl, fun _ => by rw [hpm]; rfl⟩
  next pm hpm =>
  split_ifs at h with hstop
  · cases h
    exact Or.inl ⟨rfl, rfl, fun hrunning => absurd (hrunning.symm.trans hstop) (by decide)⟩
  split at h
  next pm' hnext =>
    cases h
    have hsame : withInstance thread pm' = thread := by
      rw [getNextSendTime_none hnext, withInstance, ← hpm]
    exact Or.inl ⟨hsame, rfl, fun _ => by rw [hpm, Option.bind_some, hnext]⟩
  next sendTime pm' hnext =>
  refine Or.inr ⟨pm, sendTime, pm', hpm, Bool.eq_false_iff.mpr hstop, hnext, ?_⟩
  split_ifs at h with hreal hfreeze
  · exact .realtime hreal h
  · exact .schfrz hfreeze h
  · exact .timed hreal hfreeze h

theorem sendResquestRound_polled (hpm : thread.map.pmHandle = some pm)
    (h : sendResquestRound tickModulus localtime thread moment = .ok (thread', sent)) :
    Polled pm thread' sent := by
  obtain ⟨rfl, rfl, -⟩ | ⟨pm₁, sendTime, pm', hpm', -, hnext, hbranch⟩ := sendResquestRound_ok h
  · exact Polled.idle hpm
  obtain rfl := Option.some.inj (hpm.symm.trans hpm')
  obtain ⟨hkeeps, hcurr⟩ := getNextSendTime_keeps pm
  rw [hnext] at hkeeps hcurr
  have hpolled : Polled pm' thread' sent := by
    cases hbranch with
    | realtime _ h => exact realtimeRound_polled h
    | schfrz _ h => exact schfrzRound_polled h
    | timed _ _ h => exact timedRound_polled h
  exact hpolled.after hkeeps hcurr

end Rounds

theorem onIoBytesReceived_map {parse : ResponseParse μ} {map map' : PmChannelMap μ}
    {buffer : List UInt8} {size : ℕ} {payload : Option DataPayload}
    (h : onIoBytesReceived parse map buffer size = .ok (map', payload)) :
    map' = if size = 0 then map else { map with taskLock := false, timeOutCount := 0 } := by
  rw [onIoBytesReceived] at h
  split_ifs at h ⊢ with hempty
  · cases h
    rfl
  · cases hpm : map.pmHandle with
    | none =>
      simp only [hpm] at h
      cases h
      rfl
    | some pm =>
      simp only [hpm] at h
      cases hparse : dataResponseParse parse pm ⟨buffer, UInt8.ofNat size⟩ with
      | error e =>
        rw [hparse] at h
        cases h
      | ok result =>
        rw [hparse] at h
        cases h
        rfl

theorem onIoBytesReceived_pmHandle {parse : ResponseParse μ} {map map' : PmChannelMap μ}
    {buffer : List UInt8} {size : ℕ} {payload : Option DataPayload}
    (h : onIoBytesReceived parse map buffer size = .ok (map', payload)) :
    map'.pmHandle = map.pmHandle := by
  rw [onIoBytesReceived_map h]
  split_ifs
  · rfl
  · rfl

theorem onIoBytesReceived_parsed {parse : ResponseParse μ} {map map' : PmChannelMap μ}
    {buffer : List UInt8} {size : ℕ} {payload : DataPayload}
    (h : onIoBytesReceived parse map buffer size = .ok (map', some payload)) :
    ∃ pm info model, map.pmHandle = some pm ∧ pm.item pm.currDataInfo = some info ∧
      info.modelInfo = some model ∧
      parse model info ⟨buffer, UInt8.ofNat size⟩ = .ok (some payload) := by
  rw [onIoBytesReceived] at h
  split_ifs at h with hempty
  · cases h
  · cases hpm : map.pmHandle with
    | none =>
      simp only [hpm] at h
      cases h
    | some pm =>
      simp only [hpm] at h
      cases hparse : dataResponseParse parse pm ⟨buffer, UInt8.ofNat size⟩ with
      | error e =>
        rw [hparse] at h
        cases h
      | ok result =>
        rw [hparse] at h
        cases h
        obtain ⟨info, model, hinfo, hmodel, hmade⟩ := dataResponseParse_ok hparse
        exact ⟨pm, info, model, rfl, hinfo, hmodel, hmade⟩

end IotEdgeAgent.Channel
