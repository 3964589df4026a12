import IotEdgeAgent.Channel.RequestThread
import IotEdgeAgent.Library.Runs

/-!
# The rounds of a request thread in time

A round of `send_resquest_thread` is read off by what it does to the flags of its channel: it
sends a request in one of three branches, gives a request up, or does neither. The thread reads
a tick counter that wraps; the clock of the system does not, and each round is at some later
time of it. What happened is recorded with the latest first.
-/

namespace IotEdgeAgent.Channel
open Protocol

variable {μ : Type}

structure Flags where
  taskStop : Bool
  taskLock : Bool
  timeOutCount : ℤ
  lastSendTick : ℕ

namespace RequestThread

def flags (thread : RequestThread μ) : Flags :=
  ⟨thread.map.taskStop, thread.map.taskLock, thread.map.timeOutCount, thread.lastSendTick⟩

def polled (thread : RequestThread μ) : Option TimeToSend :=
  thread.map.pmHandle.bind fun pm => (getNextSendTime pm).1

def schedule (thread : RequestThread μ) (i : ℕ) : Option TimeToSend :=
  thread.map.pmHandle.bind fun pm => (pm.item (some i)).bind PmDataInfo.timeToSend

end RequestThread

/-- `stopped` is a round that sets `task_stop`. -/
inductive Event
  | sent (acqMode : String) (time : ℕ)
  | received
  | timedOut (time : ℕ)
  | stopped (time : ℕ)
  deriving DecidableEq, Repr

def roundEvents (thread : RequestThread μ) (flags : Flags) (sent : Option DataRequest)
    (now : ℕ) : List Event :=
  (if flags.taskStop && !thread.map.taskStop then [.stopped now] else []) ++
    (if thread.map.timeOutCount < flags.timeOutCount then [.timedOut now] else []) ++
    (if sent.isSome then thread.polled.toList.map (.sent ·.acqMode now) else [])

section Rounds
variable (tickModulus : ℕ) (localtime : ℤ → Tm)

/-- The tests in front of `xio_send`, in the branch of the entry. -/
def Due (taskLock : Bool) (sendTime : TimeToSend) (moment : Moment) : Prop :=
  if sendTime.acqMode = "realtime" then
    overdue tickModulus moment.currentTick sendTime.packetSendTime sendTime.acqInt ∧
      taskLock = false
  else if sendTime.acqMode = "schfrz" then
    sendTime.freezing ∧
      overdue tickModulus moment.currentTick sendTime.packetSendTime sendTime.acqInt
  else
    overdue tickModulus moment.currentTick sendTime.packetSendTime 60 ∧ fullMinute moment ∧
      scheduleMatches sendTime.startTime (localtime (moment.currentTime - moment.currentTime % 60))

def GivesUp (flags : Flags) (sendTime : TimeToSend) (moment : Moment) : Prop :=
  sendTime.acqMode = "realtime" ∧
    overdue tickModulus moment.currentTick sendTime.packetSendTime sendTime.acqInt ∧
    flags.taskLock = true ∧ overdue tickModulus moment.currentTick flags.lastSendTick 2

inductive RoundCase (thread : RequestThread μ) (moment : Moment) (now : ℕ) :
    Flags → List Event → Prop
  | idle : RoundCase thread moment now thread.flags []
  | realtimeSent {sendTime : TimeToSend} (hrunning : thread.map.taskStop = false)
      (hpolled : thread.polled = some sendTime) (hmode : sendTime.acqMode = "realtime")
      (hdue : Due tickModulus localtime thread.map.taskLock sendTime moment) :
    RoundCase thread moment now
      { thread.flags with taskLock := true, lastSendTick := moment.currentTick }
      [.sent "realtime" now]
  | gaveUp {sendTime : TimeToSend} (hrunning : thread.map.taskStop = false)
      (hpolled : thread.polled = some sendTime)
      (hgives : GivesUp tickModulus thread.flags sendTime moment) :
    RoundCase thread moment now
      { thread.flags with
        taskLock := false
        timeOutCount := thread.map.timeOutCount + 1
        taskStop := decide (thread.map.timeOutCount + 1 ≥ 5) }
      (if thread.map.timeOutCount + 1 ≥ 5 then [.stopped now, .timedOut now]
        else [.timedOut now])
  | schfrzSent {sendTime : TimeToSend} (hrunning : thread.map.taskStop = false)
      (hpolled : thread.polled = some sendTime) (hmode : sendTime.acqMode = "schfrz")
      (hdue : Due tickModulus localtime thread.map.taskLock sendTime moment) :
    RoundCase thread moment now { thread.flags with taskLock := true } [.sent "schfrz" now]
  | timedSent {sendTime : TimeToSend} (hrunning : thread.map.taskStop = false)
      (hpolled : thread.polled = some sendTime)
      (hreal : sendTime.acqMode ≠ "realtime") (hfreeze : sendTime.acqMode ≠ "schfrz")
      (hdue : Due tickModulus localtime thread.map.taskLock sendTime moment) :
    RoundCase thread moment now thread.flags [.sent sendTime.acqMode now]

variable {tickModulus localtime} {thread thread' : RequestThread μ} {moment : Moment}
  {sent : Option DataRequest}

theorem map_sendRequest_ok {pm : PmInstance μ} {sendTime : TimeToSend} {tick : ℕ}
    {finish : DataRequest × PmInstance μ → RequestThread μ × Option DataRequest} (flags : Flags)
    (h : (sendRequest pm sendTime tick).map finish = .ok (thread', sent))
    (hfinish : ∀ r, (finish r).1.flags = flags ∧ (finish r).2 = some r.1) :
    ∃ request, sent = some request ∧ thread'.flags = flags := by
  obtain ⟨request, pm', -, heq⟩ := sendRequest_map_ok h
  have hr := hfinish (request, pm')
  rw [heq] at hr
  exact ⟨request, hr.2, hr.1⟩

theorem roundEvents_same {flags : Flags} (hstop : flags.taskStop = thread.map.taskStop)
    (hcount : flags.timeOutCount = thread.map.timeOutCount) (now : ℕ) :
    roundEvents thread flags sent now =
      if sent.isSome then thread.polled.toList.map (.sent ·.acqMode now) else [] := by
  simp [roundEvents, hstop, hcount]

theorem roundEvents_gaveUp (hrunning : thread.map.taskStop = false) (now : ℕ) :
    roundEvents thread
        { thread.flags with
          taskLock := false
          timeOutCount := thread.map.timeOutCount + 1
          taskStop := decide (thread.map.timeOutCount + 1 ≥ 5) } none now =
      if thread.map.timeOutCount + 1 ≥ 5 then [.stopped now, .timedOut now]
        else [.timedOut now] := by
  have hcount : thread.map.timeOutCount < thread.map.timeOutCount + 1 := by omega
  by_cases hstop : thread.map.timeOutCount + 1 ≥ 5
  · simp [roundEvents, hrunning, hstop, hcount]
  · simp [roundEvents, hrunning, hstop, hcount]

theorem roundCase_idle (now : ℕ) (h : thread'.flags = thread.flags) :
    RoundCase tickModulus localtime thread moment now thread'.flags
      (roundEvents thread thread'.flags none now) := by
  rw [h, roundEvents_same rfl rfl]
  exact .idle

section
variable {pm : PmInstance μ} {sendTime : TimeToSend} (now : ℕ)
  (hrunning : thread.map.taskStop = false) (hpolled : thread.polled = some sendTime)
include hrunning hpolled

theorem realtimeRound_cases (hreal : sendTime.acqMode = "realtime")
    (h : realtimeRound tickModulus thread pm sendTime moment = .ok (thread', sent)) :
    RoundCase tickModulus localtime thread moment now thread'.flags
      (roundEvents thread thread'.flags sent now) := by
  rw [realtimeRound] at h
  split_ifs at h with hdue hfree hlate
  · have hlock : thread.map.taskLock = false := by simpa using hfree
    obtain ⟨request, rfl, hflags⟩ := map_sendRequest_ok
      { thread.flags with taskLock := true, lastSendTick := moment.currentTick } h
      fun _ => ⟨rfl, rfl⟩
    rw [hflags, roundEvents_same rfl rfl, hpolled, Option.isSome_some, if_pos rfl,
      Option.toList_some, List.map_singleton, hreal]
    refine .realtimeSent hrunning hpolled hreal ?_
    rw [Due, if_pos hreal]
    exact ⟨hdue, hlock⟩
  · cases h
    have hlock : thread.map.taskLock = true := by simpa using hfree
    have hgave : RoundCase tickModulus localtime thread moment now _ _ :=
      .gaveUp hrunning hpolled ⟨hreal, hdue, hlock, hlate⟩
    rw [← roundEvents_gaveUp hrunning now] at hgave
    simpa only [RequestThread.flags, hrunning, Bool.false_or] using hgave
  · cases h
    exact roundCase_idle now rfl
  · cases h
    exact roundCase_idle now rfl

theorem schfrzRound_cases (hfreeze : sendTime.acqMode = "schfrz")
    (h : schfrzRound tickModulus localtime thread pm sendTime moment = .ok (thread', sent)) :
    RoundCase tickModulus localtime thread moment now thread'.flags
      (roundEvents thread thread'.flags sent now) := by
  have hreal : sendTime.acqMode ≠ "realtime" := by
    rw [hfreeze]
    decide
  rw [schfrzRound] at h
  split_ifs at h with hdue
  · obtain ⟨request, rfl, hflags⟩ := map_sendRequest_ok { thread.flags with taskLock := true } h
      fun _ => ⟨rfl, rfl⟩
    rw [hflags, roundEvents_same rfl rfl, hpolled, Option.isSome_some, if_pos rfl,
      Option.toList_some, List.map_singleton, hfreeze]
    refine .schfrzSent hrunning hpolled hfreeze ?_
    rw [Due, if_neg hreal, if_pos hfreeze]
    exact hdue
  · cases h
    exact roundCase_idle now rfl

theorem timedRound_cases (hreal : sendTime.acqMode ≠ "realtime")
    (hfreeze : sendTime.acqMode ≠ "schfrz")
    (h : timedRound tickModulus localtime thread pm sendTime moment = .ok (thread', sent)) :
    RoundCase tickModulus localtime thread moment now thread'.flags
      (roundEvents thread thread'.flags sent now) := by
  rw [timedRound] at h
  split_ifs at h with hdue
  · obtain ⟨request, rfl, hflags⟩ := map_sendRequest_ok thread.flags h fun _ => ⟨rfl, rfl⟩
    rw [hflags, roundEvents_same rfl rfl, hpolled, Option.isSome_some, if_pos rfl,
      Option.toList_some, List.map_singleton]
    refine .timedSent hrunning hpolled hreal hfreeze ?_
    rw [Due, if_neg hreal, if_neg hfreeze]
    exact hdue
  · cases h
    exact roundCase_idle now rfl

end

theorem sendResquestRound_cases (now : ℕ)
    (h : sendResquestRound tickModulus localtime thread moment = .ok (thread', sent)) :
    RoundCase tickModulus localtime thread moment now thread'.flags
      (roundEvents thread thread'.flags sent now) := by
  obtain ⟨rfl, rfl, -⟩ | ⟨pm, sendTime, pm', hpm, hrunning, hnext, hbranch⟩ :=
    sendResquestRound_ok h
  · exact roundCase_idle now rfl
  have hpolled : thread.polled = some sendTime := by
    rw [RequestThread.polled, hpm, Option.bind_some, hnext]
  cases hbranch with
  | realtime hreal h => exact realtimeRound_cases now hrunning hpolled hreal h
  | schfrz hfreeze h => exact schfrzRound_cases now hrunning hpolled hfreeze h
  | timed hreal hfreeze h => exact timedRound_cases now hrunning hpolled hreal hfreeze h

end Rounds

theorem overdue_mod {tickModulus time now : ℕ} (hle : time ≤ now) (limit : ℕ) :
    overdue tickModulus (now % tickModulus) (time % tickModulus) limit = true ↔
      limit % tickModulus < (now - time) % tickModulus / 1000 := by
  have hdiff : (((now % tickModulus : ℕ) : ℤ) - (time % tickModulus : ℕ)) % tickModulus =
      ((now - time) % tickModulus : ℕ) := by
    rw [Int.natCast_mod, Int.natCast_mod, ← Int.sub_emod, Int.natCast_mod, Int.ofNat_sub hle]
  rw [overdue, decide_eq_true_eq, hdiff, ← Int.natCast_mod, Int.toNat_natCast, Int.toNat_natCast]

theorem interval_of_overdue {tickModulus time now limit : ℕ} (hlimit : limit < tickModulus)
    (hle : time ≤ now)
    (h : overdue tickModulus (now % tickModulus) (time % tickModulus) limit = true) :
    time + (limit + 1) * 1000 ≤ now := by
  rw [overdue_mod hle, Nat.mod_eq_of_lt hlimit] at h
  have hmod := Nat.mod_le (now - time) tickModulus
  omega

theorem elapsed_of_overdue {tickModulus time now : ℕ} (hle : time ≤ now)
    (h : overdue tickModulus (now % tickModulus) (time % tickModulus) 2) : time + 2000 < now := by
  -- A counter with fewer than three values is never overdue.
  rcases Nat.lt_or_ge 2 tickModulus with hlarge | hsmall
  · have hinterval := interval_of_overdue hlarge hle h
    omega
  · have hover := (overdue_mod hle 2).mp h
    rcases Nat.eq_zero_or_pos tickModulus with rfl | hpos
    · rw [Nat.mod_zero, Nat.mod_zero] at hover
      omega
    · have hlt := Nat.mod_lt (now - time) hpos
      omega

theorem onIoBytesReceived_flags {parse : ResponseParse μ} {map map' : PmChannelMap μ}
    {buffer : List UInt8} {size : ℕ} {payload : Option DataPayload} (hsize : 0 < size)
    (h : onIoBytesReceived parse map buffer size = .ok (map', payload)) :
    map'.taskStop = map.taskStop ∧ map'.taskLock = false ∧ map'.timeOutCount = 0 := by
  rw [onIoBytesReceived_map h, if_neg (Nat.pos_iff_ne_zero.mp hsize)]
  exact ⟨rfl, rfl, rfl⟩

namespace Timeline

structure System (μ : Type) where
  thread : RequestThread μ
  clock : ℕ
  history : List Event

inductive Action (μ : Type)
  | poll (now : ℕ) (currentTime : ℤ)
  | receive (parse : ResponseParse μ) (buffer : List UInt8) (size : ℕ)

/-- The clock does not go back; the calendar time may. -/
def step (tickModulus : ℕ) (localtime : ℤ → Tm) (s : System μ) (a : Action μ)
    (t : System μ) : Prop :=
  match a with
  | .poll now currentTime => s.clock ≤ now ∧ ∃ thread' sent,
      sendResquestRound tickModulus localtime s.thread ⟨now % tickModulus, currentTime⟩ =
        .ok (thread', sent) ∧
      t = ⟨thread', now, roundEvents s.thread thread'.flags sent now ++ s.history⟩
  | .receive parse buffer size => 0 < size ∧ ∃ map' payload,
      onIoBytesReceived parse s.thread.map buffer size = .ok (map', payload) ∧
      t = { s with thread := { s.thread with map := map' }, history := .received :: s.history }

/-- A thread that was just created. Nothing is said of `last_send_tick`, which is not set. -/
structure Initial (s : System μ) : Prop where
  taskStop : s.thread.map.taskStop = false
  taskLock : s.thread.map.taskLock = false
  timeOutCount : s.thread.map.timeOutCount = 0
  history : s.history = []

def everyMinute (mark : UInt8) : Schedule :=
  ⟨Vector.replicate 12 mark, Vector.replicate 32 mark, Vector.replicate 24 mark,
    Vector.replicate 60 mark⟩

def sendAlways (acqMode : String) (packetSendTime : ℕ) (acqInt : ℤ) (freezing isLastOne : Bool) :
    TimeToSend :=
  ⟨acqMode, packetSendTime, acqInt, everyMinute 1, everyMinute 0, freezing, isLastOne⟩

def entry (sendTime : TimeToSend) : PmDataInfo Unit :=
  ⟨some ⟨[0x68, 0x16], 2⟩, some sendTime, some ()⟩

def newYear : ℤ → Tm := fun _ => ⟨⟨0, by decide⟩, ⟨0, by decide⟩, ⟨1, by decide⟩, ⟨0, by decide⟩⟩

def polling (entries : List (PmDataInfo Unit)) (next prev curr : Option ℕ) (taskLock : Bool)
    (timeOutCount : ℤ) (lastSendTick clock : ℕ) (history : List Event) : System Unit :=
  ⟨⟨⟨some ⟨entries, next, prev, curr⟩, false, taskLock, timeOutCount⟩, lastSendTick⟩, clock,
    history⟩

def fresh (entries : List (PmDataInfo Unit)) : System Unit :=
  polling entries (some 0) none none false 0 7 0 []

theorem fresh_initial (entries : List (PmDataInfo Unit)) : Initial (fresh entries) :=
  ⟨rfl, rfl, rfl, rfl⟩

end Timeline

end IotEdgeAgent.Channel
