import IotEdgeAgent.Agent.ScheduleTables
import IotEdgeAgent.Channel.Timeline

/-!
# The polls of a request thread

Each round of `send_resquest_thread` polls one entry of its instance, the one that is next. The
polls are recorded with what the two clocks showed and whether a request was sent, the latest
first. A poll changes the schedule of its entry only, and there the time of sending and the flag
of the freeze window.
-/

namespace IotEdgeAgent.Channel.Polls
open IotEdgeAgent.Configuration (InvTime)
open IotEdgeAgent.Configuration.DataCreate
open IotEdgeAgent.Configuration.ScheduleTables
open Protocol

variable {μ : Type}

/-- `currentTime` counts from the epoch on, so that `%` is the same here as in C. -/
structure Poll where
  entry : ℕ
  currentTick : ℕ
  currentTime : ℕ
  sent : Bool
  deriving DecidableEq, Repr

def nextPolled (thread : RequestThread μ) : Option ℕ :=
  if thread.map.taskStop then none else
    thread.map.pmHandle.bind fun pm =>
      if (getNextSendTime pm).1.isSome then pm.nextDataInfo else none

def scheduleAt (pm : PmInstance μ) (i : ℕ) : Option TimeToSend :=
  (pm.item (some i)).bind PmDataInfo.timeToSend

structure System (μ : Type) where
  thread : RequestThread μ
  polls : List Poll

inductive Action (μ : Type)
  | poll (currentTick currentTime : ℕ)
  | receive (parse : ResponseParse μ) (buffer : List UInt8) (size : ℕ)

/-- Neither clock has to go forward, and they need not agree. -/
def step (tickModulus : ℕ) (localtime : ℤ → Tm) (s : System μ) (a : Action μ)
    (t : System μ) : Prop :=
  match a with
  | .poll tick time => ∃ thread' sent,
      sendResquestRound tickModulus localtime s.thread ⟨tick, time⟩ = .ok (thread', sent) ∧
      t = ⟨thread', (nextPolled s.thread).toList.map (⟨·, tick, time, sent.isSome⟩) ++ s.polls⟩
  | .receive parse buffer size => ∃ map' payload,
      onIoBytesReceived parse s.thread.map buffer size = .ok (map', payload) ∧
      t = { s with thread := { s.thread with map := map' } }

structure Updates (pm : PmInstance μ) (n : ℕ) (sendTime : TimeToSend) (pm' : PmInstance μ) :
    Prop where
  prev : pm'.prevDataInfo = some n
  entry : scheduleAt pm' n = some sendTime
  others : ∀ j, j ≠ n → scheduleAt pm' j = scheduleAt pm j

section
variable {pm pm' pm'' : PmInstance μ} {n : ℕ} {sendTime : TimeToSend}

theorem scheduleAt_setTimeToSend (pm : PmInstance μ) (n j : ℕ) (sendTime : TimeToSend) :
    scheduleAt (pm.setTimeToSend (some n) sendTime) j =
      if n = j then (pm.item (some j)).map fun _ => sendTime else scheduleAt pm j := by
  simp only [scheduleAt, PmInstance.setTimeToSend_item, Option.some.injEq]
  split_ifs
  · cases pm.item (some j) <;> rfl
  · rfl

theorem item_of_scheduleAt (h : scheduleAt pm n = some sendTime) :
    ∃ info, pm.item (some n) = some info := by
  obtain ⟨info, hinfo, -⟩ := Option.bind_eq_some_iff.mp h
  exact ⟨info, hinfo⟩

theorem updates_of_set {before : TimeToSend} (hentry : scheduleAt pm n = some before)
    (hlist : pm'.dmInfoList = (pm.setTimeToSend (some n) sendTime).dmInfoList)
    (hprev : pm'.prevDataInfo = some n) : Updates pm n sendTime pm' := by
  obtain ⟨info, hinfo⟩ := item_of_scheduleAt hentry
  have hsame : ∀ j, scheduleAt pm' j = scheduleAt (pm.setTimeToSend (some n) sendTime) j := by
    intro j
    rw [scheduleAt, scheduleAt, PmInstance.item, PmInstance.item, hlist]
  refine ⟨hprev, ?_, fun j hj => ?_⟩
  · rw [hsame, scheduleAt_setTimeToSend, if_pos rfl, hinfo, Option.map_some]
  · rw [hsame, scheduleAt_setTimeToSend, if_neg (Ne.symm hj)]

theorem Updates.trans {first : TimeToSend} (h : Updates pm n first pm')
    (h' : Updates pm' n sendTime pm'') : Updates pm n sendTime pm'' :=
  ⟨h'.prev, h'.entry, fun j hj => (h'.others j hj).trans (h.others j hj)⟩

theorem Updates.set (h : Updates pm n sendTime pm') (after : TimeToSend) :
    Updates pm n after (pm'.setTimeToSend pm'.prevDataInfo after) := by
  refine h.trans (updates_of_set h.entry ?_ ?_)
  · rw [h.prev]
  · rw [h.prev]
    exact h.prev

theorem getNextSendTime_updates (h : getNextSendTime pm = (some sendTime, pm')) :
    ∃ n before, pm.nextDataInfo = some n ∧ scheduleAt pm n = some before ∧
      sendTime = { before with isLastOne := sendTime.isLastOne } ∧ Updates pm n sendTime pm' := by
  rw [getNextSendTime.eq_def] at h
  cases hnext : pm.nextDataInfo with
  | none =>
    rw [hnext] at h
    cases h
  | some n =>
    rw [hnext] at h
    split at h
    · cases h
    next before hbefore =>
    split at h
    · cases h
      exact ⟨n, before, rfl, hbefore, rfl, updates_of_set hbefore rfl rfl⟩
    · cases h
      exact ⟨n, before, rfl, hbefore, rfl, updates_of_set hbefore rfl rfl⟩

theorem Updates.sendRequest {tick : ℕ} {request : DataRequest} (h : Updates pm n sendTime pm')
    (hsend : sendRequest pm' sendTime tick = .ok (request, pm'')) :
    Updates pm n { sendTime with packetSendTime := tick } pm'' := by
  rw [Channel.sendRequest.eq_def] at hsend
  split at hsend
  · cases hsend
  next found pm₁ hfound =>
  cases hsend
  obtain ⟨-, rfl⟩ := getRequestData_some hfound
  have hcurrent : Updates pm n sendTime { pm' with currDataInfo := pm'.prevDataInfo } :=
    ⟨h.prev, h.entry, h.others⟩
  exact hcurrent.set _

end

section Rounds
variable (tickModulus : ℕ) (localtime : ℤ → Tm)

def windowAfter (sendTime : TimeToSend) (moment : Moment) : Bool :=
  if fullMinute moment then
    let tm := localtime (moment.currentTime - moment.currentTime % 60)
    (sendTime.freezing || scheduleMatches sendTime.startTime tm) &&
      !scheduleMatches sendTime.endTime tm
  else sendTime.freezing

structure PolledTo (taskLock : Bool) (moment : Moment) (before : TimeToSend) (sent : Bool)
    (after : TimeToSend) : Prop where
  acqMode : after.acqMode = before.acqMode
  acqInt : after.acqInt = before.acqInt
  startTime : after.startTime = before.startTime
  endTime : after.endTime = before.endTime
  packetSendTime : after.packetSendTime =
    if sent then moment.currentTick else before.packetSendTime
  freezing : after.freezing =
    if before.acqMode = "schfrz" then windowAfter localtime before moment else before.freezing
  due : sent = true ↔ Due tickModulus localtime taskLock before moment

variable {tickModulus localtime} {pm pm' : PmInstance μ} {n : ℕ} {sendTime : TimeToSend}
  {thread thread' : RequestThread μ} {moment : Moment} {sent : Option DataRequest}

theorem Updates.freezeWindow (h : Updates pm n sendTime pm') (moment : Moment) :
    Updates pm n { sendTime with freezing := windowAfter localtime sendTime moment }
      (freezeWindow localtime pm' sendTime moment) := by
  rw [Channel.freezeWindow, windowAfter]
  split_ifs
  · exact h.set _
  · exact h

def Behind (tickModulus : ℕ) (localtime : ℤ → Tm) (thread : RequestThread μ)
    (pm : PmInstance μ) (n : ℕ) (before : TimeToSend) (moment : Moment)
    (thread' : RequestThread μ) (sent : Option DataRequest) : Prop :=
  ∃ pm' after, thread'.map.pmHandle = some pm' ∧ Updates pm n after pm' ∧
    PolledTo tickModulus localtime thread.map.taskLock moment before sent.isSome after

theorem behind_idle (hupdates : Updates pm n sendTime pm')
    (hmode : sendTime.acqMode ≠ "schfrz") (hpm : thread'.map.pmHandle = some pm')
    (hdue : ¬ Due tickModulus localtime thread.map.taskLock sendTime moment) :
    Behind tickModulus localtime thread pm n sendTime moment thread' none :=
  ⟨pm', sendTime, hpm, hupdates, rfl, rfl, rfl, rfl, rfl, (if_neg hmode).symm,
    iff_of_false Bool.false_ne_true hdue⟩

theorem behind_sent {pm'' : PmInstance μ} {request : DataRequest}
    (hupdates : Updates pm n { sendTime with packetSendTime := moment.currentTick } pm'')
    (hmode : sendTime.acqMode ≠ "schfrz") (hpm : thread'.map.pmHandle = some pm'')
    (hdue : Due tickModulus localtime thread.map.taskLock sendTime moment) :
    Behind tickModulus localtime thread pm n sendTime moment thread' (some request) :=
  ⟨pm'', _, hpm, hupdates, rfl, rfl, rfl, rfl, rfl, (if_neg hmode).symm, iff_of_true rfl hdue⟩

theorem realtimeRound_behind (hupdates : Updates pm n sendTime pm')
    (hmode : sendTime.acqMode = "realtime")
    (h : realtimeRound tickModulus thread pm' sendTime moment = .ok (thread', sent)) :
    Behind tickModulus localtime thread pm n sendTime moment thread' sent := by
  have hfreeze : sendTime.acqMode ≠ "schfrz" := by
    rw [hmode]
    decide
  have hdue : Due tickModulus localtime thread.map.taskLock sendTime moment ↔
      overdue tickModulus moment.currentTick sendTime.packetSendTime sendTime.acqInt = true ∧
        thread.map.taskLock = false := by
    rw [Due, if_pos hmode]
  rw [realtimeRound] at h
  split_ifs at h with hlate hfree htimeout
  · obtain ⟨request, pm'', hsend, hfinish⟩ := sendRequest_map_ok h
    cases hfinish
    exact behind_sent (hupdates.sendRequest hsend) hfreeze rfl
      (hdue.mpr ⟨hlate, by simpa using hfree⟩)
  · cases h
    exact behind_idle hupdates hfreeze rfl fun h => hfree (by simpa using (hdue.mp h).2)
  · cases h
    exact behind_idle hupdates hfreeze rfl fun h => hfree (by simpa using (hdue.mp h).2)
  · cases h
    exact behind_idle hupdates hfreeze rfl fun h => hlate (hdue.mp h).1

theorem schfrzRound_behind (hupdates : Updates pm n sendTime pm')
    (hmode : sendTime.acqMode = "schfrz")
    (h : schfrzRound tickModulus localtime thread pm' sendTime moment = .ok (thread', sent)) :
    Behind tickModulus localtime thread pm n sendTime moment thread' sent := by
  have hreal : sendTime.acqMode ≠ "realtime" := by
    rw [hmode]
    decide
  have hdue : Due tickModulus localtime thread.map.taskLock sendTime moment ↔
      sendTime.freezing = true ∧
        overdue tickModulus moment.currentTick sendTime.packetSendTime sendTime.acqInt = true := by
    rw [Due, if_neg hreal, if_pos hmode]
  rw [schfrzRound] at h
  split_ifs at h with hopen
  · obtain ⟨request, pm'', hsend, hfinish⟩ := sendRequest_map_ok h
    cases hfinish
    exact ⟨_, _, rfl, (hupdates.sendRequest hsend).freezeWindow moment, rfl, rfl, rfl, rfl, rfl,
      (if_pos hmode).symm, iff_of_true rfl (hdue.mpr hopen)⟩
  · cases h
    exact ⟨_, _, rfl, hupdates.freezeWindow moment, rfl, rfl, rfl, rfl, rfl, (if_pos hmode).symm,
      iff_of_false Bool.false_ne_true (hdue.not.mpr hopen)⟩

theorem timedRound_behind (hupdates : Updates pm n sendTime pm')
    (hreal : sendTime.acqMode ≠ "realtime") (hfreeze : sendTime.acqMode ≠ "schfrz")
    (h : timedRound tickModulus localtime thread pm' sendTime moment = .ok (thread', sent)) :
    Behind tickModulus localtime thread pm n sendTime moment thread' sent := by
  have hdue : Due tickModulus localtime thread.map.taskLock sendTime moment ↔
      overdue tickModulus moment.currentTick sendTime.packetSendTime 60 = true ∧
        fullMinute moment = true ∧ scheduleMatches sendTime.startTime
          (localtime (moment.currentTime - moment.currentTime % 60)) = true := by
    rw [Due, if_neg hreal, if_neg hfreeze]
  rw [timedRound] at h
  split_ifs at h with hsends
  · obtain ⟨request, pm'', hsend, hfinish⟩ := sendRequest_map_ok h
    cases hfinish
    exact behind_sent (hupdates.sendRequest hsend) hfreeze rfl (hdue.mpr hsends)
  · cases h
    exact behind_idle hupdates hfreeze rfl (hdue.not.mpr hsends)

theorem Behind.before {before : TimeToSend} {isLastOne : Bool}
    (h : Behind tickModulus localtime thread pm n { before with isLastOne := isLastOne } moment
      thread' sent) : Behind tickModulus localtime thread pm n before moment thread' sent := by
  obtain ⟨pm', after, hpm, hupdates, hpolled⟩ := h
  exact ⟨pm', after, hpm, hupdates, hpolled.acqMode, hpolled.acqInt, hpolled.startTime,
    hpolled.endTime, hpolled.packetSendTime, hpolled.freezing, hpolled.due⟩

theorem sendResquestRound_polls
    (h : sendResquestRound tickModulus localtime thread moment = .ok (thread', sent)) :
    nextPolled thread = none ∧ thread'.map.pmHandle = thread.map.pmHandle ∨
      ∃ pm n before, thread.map.pmHandle = some pm ∧ nextPolled thread = some n ∧
        scheduleAt pm n = some before ∧
        Behind tickModulus localtime thread pm n before moment thread' sent := by
  obtain ⟨rfl, -, hnone⟩ | ⟨pm, sendTime, pm', hpm, hrunning, hnext, hbranch⟩ :=
    sendResquestRound_ok h
  · refine Or.inl ⟨?_, rfl⟩
    rw [nextPolled]
    split_ifs with hstop
    · rfl
    · rw [Option.bind_eq_none_iff] at hnone ⊢
      intro pm hpm
      rw [hnone (Bool.eq_false_iff.mpr hstop) pm hpm]
      rfl
  obtain ⟨n, before, hentry, hbefore, hsendTime, hupdates⟩ := getNextSendTime_updates hnext
  have hpolled : nextPolled thread = some n := by
    simp [nextPolled, hrunning, hpm, hnext, hentry]
  refine Or.inr ⟨pm, n, before, hpm, hpolled, hbefore, ?_⟩
  have hbehind : Behind tickModulus localtime thread pm n sendTime moment thread' sent := by
    cases hbranch with
    | realtime hreal h => exact realtimeRound_behind hupdates hreal h
    | schfrz hfreeze h => exact schfrzRound_behind hupdates hfreeze h
    | timed hreal hfreeze h => exact timedRound_behind hupdates hreal hfreeze h
  rw [hsendTime] at hbehind
  exact hbehind.before

theorem schedule_some (hpm : thread.map.pmHandle = some pm) (i : ℕ) :
    thread.schedule i = scheduleAt pm i := by
  rw [RequestThread.schedule, hpm]
  rfl

theorem schedule_congr (h : thread'.map.pmHandle = thread.map.pmHandle) (i : ℕ) :
    thread'.schedule i = thread.schedule i := by
  rw [RequestThread.schedule, h]
  rfl

theorem sendResquestRound_entry {i : ℕ} {before : TimeToSend}
    (hentry : thread.schedule i = some before)
    (h : sendResquestRound tickModulus localtime thread moment = .ok (thread', sent)) :
    nextPolled thread ≠ some i ∧ thread'.schedule i = some before ∨
      nextPolled thread = some i ∧ ∃ after, thread'.schedule i = some after ∧
        PolledTo tickModulus localtime thread.map.taskLock moment before sent.isSome after := by
  rcases sendResquestRound_polls h with ⟨hnone, hpm⟩ |
    ⟨pm, n, before', hpm, hpolled, hbefore, pm', after, hpm', hupdates, hpoll⟩
  · refine Or.inl ⟨?_, (schedule_congr hpm i).trans hentry⟩
    rw [hnone]
    exact Option.some_ne_none i ∘ Eq.symm
  rw [schedule_some hpm] at hentry
  rw [schedule_some hpm', hpolled]
  rcases eq_or_ne n i with rfl | hother
  · obtain rfl := Option.some.inj (hentry.symm.trans hbefore)
    exact Or.inr ⟨rfl, after, hupdates.entry, hpoll⟩
  · refine Or.inl ⟨hother ∘ Option.some.inj, ?_⟩
    rw [hupdates.others i hother.symm, hentry]

theorem onIoBytesReceived_schedule {parse : ResponseParse μ} {buffer : List UInt8} {size : ℕ}
    {map' : PmChannelMap μ} {payload : Option DataPayload}
    (h : onIoBytesReceived parse thread.map buffer size = .ok (map', payload)) (i : ℕ) :
    RequestThread.schedule { thread with map := map' } i = thread.schedule i :=
  schedule_congr (onIoBytesReceived_pmHandle h) i

end Rounds

section
variable {tickModulus : ℕ} {localtime : ℤ → Tm} {s t : System μ} {a : Action μ}

theorem step_entry {i : ℕ} {before : TimeToSend} (hentry : s.thread.schedule i = some before)
    (h : step tickModulus localtime s a t) :
    t.thread.schedule i = some before ∧
        (t.polls = s.polls ∨ ∃ poll, poll.entry ≠ i ∧ t.polls = poll :: s.polls) ∨
      ∃ tick time sent after, t.thread.schedule i = some after ∧
        t.polls = ⟨i, tick, time, sent⟩ :: s.polls ∧
        PolledTo tickModulus localtime s.thread.map.taskLock ⟨tick, time⟩ before sent after := by
  cases a with
  | receive parse buffer size =>
    obtain ⟨map', payload, hreceive, rfl⟩ := h
    exact Or.inl ⟨(onIoBytesReceived_schedule hreceive i).trans hentry, Or.inl rfl⟩
  | poll tick time =>
    obtain ⟨thread', sent, hround, rfl⟩ := h
    rcases sendResquestRound_entry hentry hround with ⟨hother, hsame⟩ |
      ⟨hpolled, after, hafter, hpoll⟩
    · refine Or.inl ⟨hsame, ?_⟩
      cases hnext : nextPolled s.thread with
      | none => exact Or.inl rfl
      | some n => exact Or.inr ⟨_, fun h => hother (hnext.trans (congrArg some h)), rfl⟩
    · refine Or.inr ⟨tick, time, sent.isSome, after, hafter, ?_, hpoll⟩
      rw [hpolled]
      rfl

end

structure MinuteMatches (time : InvTime) (tm : Tm) : Prop where
  mons : time.invMons = -1 ∨ (tm.tmMon : ℤ) = time.invMons
  days : time.invDays = -1 ∨ (tm.tmMday : ℤ) = time.invDays
  hous : time.invHous = -1 ∨ (tm.tmHour : ℤ) = time.invHous
  mins : time.invMins = -1 ∨ (tm.tmMin : ℤ) = time.invMins

instance (time : InvTime) (tm : Tm) : Decidable (MinuteMatches time tm) :=
  decidable_of_iff ((time.invMons = -1 ∨ (tm.tmMon : ℤ) = time.invMons) ∧
      (time.invDays = -1 ∨ (tm.tmMday : ℤ) = time.invDays) ∧
      (time.invHous = -1 ∨ (tm.tmHour : ℤ) = time.invHous) ∧
      (time.invMins = -1 ∨ (tm.tmMin : ℤ) = time.invMins))
    ⟨fun h => ⟨h.1, h.2.1, h.2.2.1, h.2.2.2⟩, fun h => ⟨h.mons, h.days, h.hous, h.mins⟩⟩

theorem scheduleMatches_iff {schedule : Schedule} {time : InvTime} (h : Exact schedule time)
    (tm : Tm) : scheduleMatches schedule tm = true ↔ MinuteMatches time tm := by
  have hmons := h.mons tm.tmMon tm.tmMon.isLt
  have hdays := h.days tm.tmMday tm.tmMday.isLt
  have hhous := h.hous tm.tmHour tm.tmHour.isLt
  have hmins := h.mins tm.tmMin tm.tmMin.isLt
  simp only [scheduleMatches, Bool.and_eq_true, decide_eq_true_eq, Fin.getElem_fin]
  constructor
  · rintro ⟨⟨⟨hmin, hhour⟩, hmday⟩, hmon⟩
    exact ⟨hmons.mp hmon, hdays.mp hmday, hhous.mp hhour, hmins.mp hmin⟩
  · intro h
    exact ⟨⟨⟨hmins.mpr h.mins, hhous.mpr h.hous⟩, hdays.mpr h.days⟩, hmons.mpr h.mons⟩

def Poll.AtMinute (localtime : ℤ → Tm) (time : InvTime) (poll : Poll) : Prop :=
  poll.currentTime % 60 = 0 ∧ MinuteMatches time (localtime poll.currentTime)

instance (localtime : ℤ → Tm) (time : InvTime) (poll : Poll) :
    Decidable (poll.AtMinute localtime time) := inferInstanceAs (Decidable (_ ∧ _))

theorem fullMinute_iff (tick time : ℕ) :
    fullMinute ⟨tick, time⟩ = true ↔ time % 60 = 0 := by
  simp only [fullMinute, decide_eq_true_eq]
  omega

theorem scheduleMatches_at {localtime : ℤ → Tm} {schedule : Schedule} {time : InvTime}
    (h : Exact schedule time) {currentTime : ℕ} (hfull : currentTime % 60 = 0) :
    scheduleMatches schedule (localtime ((currentTime : ℤ) - currentTime % 60)) = true ↔
      MinuteMatches time (localtime currentTime) := by
  have hsame : (currentTime : ℤ) - currentTime % 60 = currentTime := by omega
  rw [hsame, scheduleMatches_iff h]

structure Fresh (startTime endTime : InvTime) (sendTime : TimeToSend) : Prop where
  startTime : Exact sendTime.startTime startTime
  endTime : Exact sendTime.endTime endTime
  freezing : sendTime.freezing = false
  packetSendTime : sendTime.packetSendTime = 0

theorem fresh_of_fill {memory sendTime : TimeToSend} {model : ModelTimes}
    (h : fillTimeToSend memory model = .ok sendTime) (hstart : InRange model.startTime)
    (hend : InRange model.endTime) (hclearStart : Clear memory.startTime model.startTime)
    (hclearEnd : Clear memory.endTime model.endTime) :
    Fresh model.startTime model.endTime sendTime := by
  obtain ⟨hfillStart, hfillEnd, hfreezing, hpacketSendTime⟩ := fillTimeToSend_ok h
  exact ⟨(fillSchedule_exact_iff hstart hfillStart).mpr hclearStart,
    (fillSchedule_exact_iff hend hfillEnd).mpr hclearEnd, hfreezing, hpacketSendTime⟩

theorem fresh_of_dataCreate {times : μ → ModelTimes} {model : μ}
    {request : Except Fault DataRequest} {allocations : Allocations μ} {info : PmDataInfo μ}
    (h : dataCreate times (some model) allocations request = .ok (some info))
    (hstart : InRange (times model).startTime) (hend : InRange (times model).endTime)
    (hclear : ∀ memory, allocations.timeToSend = some memory →
      Clear memory.startTime (times model).startTime ∧
        Clear memory.endTime (times model).endTime) :
    ∃ sendTime, info.timeToSend = some sendTime ∧
      Fresh (times model).startTime (times model).endTime sendTime := by
  obtain ⟨memory, sendTime, hmemory, hfill, hinfo⟩ := dataCreate_some h
  obtain ⟨hclearStart, hclearEnd⟩ := hclear memory hmemory
  exact ⟨sendTime, hinfo, fresh_of_fill hfill hstart hend hclearStart hclearEnd⟩

def onTheMinute (minute : ℕ) : Schedule :=
  ⟨Vector.replicate 12 1, Vector.replicate 32 1, Vector.replicate 24 1,
    (Vector.replicate 60 0).setIfInBounds minute 1⟩

def hourly (acqMode : String) (packetSendTime : ℕ) (freezing isLastOne : Bool) : TimeToSend :=
  ⟨acqMode, packetSendTime, 1, onTheMinute 0, onTheMinute 30, freezing, isLastOne⟩

def hourlyModel (acqMode : List UInt8) : ModelTimes :=
  ⟨⟨-1, -1, -1, 0⟩, ⟨-1, -1, -1, 30⟩, acqMode, 1⟩

theorem hourly_fresh {acqMode : List UInt8} {mode : String} (hmode : charArray acqMode = mode) :
    Fresh ⟨-1, -1, -1, 0⟩ ⟨-1, -1, -1, 30⟩ (hourly mode 0 false false) := by
  have hfill : fillTimeToSend zeroTimeToSend (hourlyModel acqMode) =
      .ok (hourly mode 0 false false) := by
    subst hmode
    rfl
  exact fresh_of_fill hfill (hourly_inRange 0 (by decide)) (hourly_inRange 30 (by decide))
    (zeroSchedule_clear _) (zeroSchedule_clear _)

theorem minute_lt (n : ℕ) : n % 60 < 60 := Nat.mod_lt n (by decide)

def hourClock (time : ℤ) : Tm :=
  { Timeline.newYear time with tmMin := ⟨(time / 60).toNat % 60, minute_lt _⟩ }

def alone (sendTime : TimeToSend) (prev curr : Option ℕ) (taskLock : Bool) (polls : List Poll) :
    System Unit :=
  ⟨⟨⟨some ⟨[Timeline.entry sendTime], some 0, prev, curr⟩, false, taskLock, 0⟩, 7⟩, polls⟩

end IotEdgeAgent.Channel.Polls
