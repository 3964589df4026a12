import IotEdgeAgent.Channel.Polls
import IotEdgeAgent.Library.Keys

/-!
# Entries that are sent at set minutes

An entry that is neither realtime nor schfrz is sent in second 0 of the minutes that its startTime
names. The test for the tick of the last request is there to send it once in that second. It also
holds back the first minute of the thread, since the tick of the last request is zero then, and
each second one of the minutes that follow each other.
-/

namespace IotEdgeAgent.Channel.TimedMode
open IotEdgeAgent.Configuration (InvTime)
open IotEdgeAgent.Configuration.DataCreate (charArray)
open IotEdgeAgent.Configuration.ScheduleTables (Exact)
open Firsts (New FirstsMarked Once lastMarked lastNew marks)
open Polls Protocol Runs

variable {μ : Type} (tickModulus : ℕ) (localtime : ℤ → Tm) (startTime : InvTime) (i : ℕ)

def isRequest (poll : Poll) : Bool := poll.entry = i && poll.sent

def requestsIn (minute : ℕ) (polls : List Poll) : ℕ :=
  polls.countP fun poll => isRequest i poll ∧ poll.currentTime / 60 = minute

/-- Each minute of startTime in whose second 0 the entry was polled has one request. -/
def OncePerMatch (polls : List Poll) : Prop :=
  ∀ poll ∈ polls, poll.entry = i → poll.AtMinute localtime startTime →
    requestsIn i (poll.currentTime / 60) polls = 1

def matchedMinute (poll : Poll) : Option ℕ :=
  if poll.entry = i ∧ poll.AtMinute localtime startTime then some (poll.currentTime / 60) else none

def lastMatch (polls : List Poll) : ℕ :=
  (lastNew (matchedMinute localtime startTime i) polls).elim 0 Poll.currentTick

/-- In second 0 of the minutes of startTime: the first poll of a minute comes more than 60 s after
the first poll of the minute before, or after the start, and the other polls do not. -/
def WellTimed : List Poll → Prop
  | [] => True
  | poll :: earlier => WellTimed earlier ∧
    (poll.entry = i → poll.AtMinute localtime startTime →
      (overdue tickModulus poll.currentTick (lastMatch localtime startTime i earlier) 60 = true ↔
        New (matchedMinute localtime startTime i) earlier poll))

def lastRequest (polls : List Poll) : ℕ := (lastMarked (isRequest i) polls).elim 0 Poll.currentTick

def Timed : List Poll → Prop
  | [] => True
  | poll :: earlier => Timed earlier ∧
    (poll.entry = i → (poll.sent = true ↔ poll.AtMinute localtime startTime ∧
      overdue tickModulus poll.currentTick (lastRequest i earlier) 60 = true))

variable {tickModulus localtime startTime i} {polls earlier : List Poll} {poll : Poll}

theorem isRequest_iff : isRequest i poll = true ↔ poll.entry = i ∧ poll.sent = true := by
  rw [isRequest, Bool.and_eq_true, decide_eq_true_eq]

theorem matchedMinute_eq_some {minute : ℕ} :
    matchedMinute localtime startTime i poll = some minute ↔
      (poll.entry = i ∧ poll.AtMinute localtime startTime) ∧ poll.currentTime / 60 = minute := by
  rw [matchedMinute]
  split_ifs with h
  · rw [Option.some.injEq]
    exact ⟨fun hminute => ⟨h, hminute⟩, fun h => h.2⟩
  · exact ⟨fun hnone => (by cases hnone), fun hmatched => absurd hmatched.1 h⟩

theorem matchedMinute_ne_none :
    matchedMinute localtime startTime i poll ≠ none ↔
      poll.entry = i ∧ poll.AtMinute localtime startTime := by
  rw [matchedMinute, ite_ne_right_iff]
  exact ⟨fun h => h.1, fun h => ⟨h, Option.some_ne_none _⟩⟩

theorem Timed.matched (h : Timed tickModulus localtime startTime i polls) :
    ∀ poll ∈ polls, isRequest i poll = true → matchedMinute localtime startTime i poll ≠ none := by
  induction polls with
  | nil =>
    intro poll hpoll
    simp at hpoll
  | cons poll earlier ih =>
    refine List.forall_mem_cons.mpr ⟨fun hrequest => ?_, ih h.1⟩
    obtain ⟨hentry, hsent⟩ := isRequest_iff.mp hrequest
    exact matchedMinute_ne_none.mpr ⟨hentry, ((h.2 hentry).mp hsent).1⟩

theorem requestsIn_eq_marks
    (hmatched : ∀ poll ∈ polls, isRequest i poll = true →
      matchedMinute localtime startTime i poll ≠ none) (minute : ℕ) :
    requestsIn i minute polls =
      marks (matchedMinute localtime startTime i) (isRequest i) minute polls := by
  refine List.countP_congr fun poll hpoll => ?_
  simp only [decide_eq_true_eq]
  constructor
  · intro h
    exact ⟨matchedMinute_eq_some.mpr ⟨matchedMinute_ne_none.mp (hmatched poll hpoll h.1), h.2⟩, h.1⟩
  · intro h
    exact ⟨h.2, (matchedMinute_eq_some.mp h.1).2⟩

theorem oncePerMatch_iff_once
    (hmatched : ∀ poll ∈ polls, isRequest i poll = true →
      matchedMinute localtime startTime i poll ≠ none) :
    OncePerMatch localtime startTime i polls ↔
      Once (matchedMinute localtime startTime i) (isRequest i) polls := by
  constructor
  · intro h poll hpoll minute hminute
    obtain ⟨⟨hentry, hat⟩, rfl⟩ := matchedMinute_eq_some.mp hminute
    rw [← requestsIn_eq_marks hmatched]
    exact h poll hpoll hentry hat
  · intro h poll hpoll hentry hat
    rw [requestsIn_eq_marks hmatched]
    exact h poll hpoll _ (matchedMinute_eq_some.mpr ⟨⟨hentry, hat⟩, rfl⟩)

theorem lastRequest_eq_lastMatch
    (h : FirstsMarked (matchedMinute localtime startTime i) (isRequest i) polls) :
    lastRequest i polls = lastMatch localtime startTime i polls := by
  rw [lastRequest, lastMatch, Firsts.lastMarked_eq_lastNew h]

theorem firstsMarked_iff_wellTimed (h : Timed tickModulus localtime startTime i polls) :
    FirstsMarked (matchedMinute localtime startTime i) (isRequest i) polls ↔
      WellTimed tickModulus localtime startTime i polls := by
  induction polls with
  | nil => rfl
  | cons poll earlier ih =>
    obtain ⟨hearlier, htimed⟩ := h
    rw [FirstsMarked, WellTimed, ← ih hearlier]
    refine and_congr_right fun hfirsts => ?_
    rw [← lastRequest_eq_lastMatch hfirsts, isRequest_iff]
    by_cases hmatch : poll.entry = i ∧ poll.AtMinute localtime startTime
    · obtain ⟨hentry, hat⟩ := hmatch
      have hsent := htimed hentry
      rw [and_iff_right hat] at hsent
      rw [hsent, and_iff_right hentry]
      exact ⟨fun h _ _ => h, fun h => h hentry hat⟩
    · -- A poll at another time neither is first nor sends.
      have hnew : ¬ New (matchedMinute localtime startTime i) earlier poll :=
        fun hnew => hmatch (matchedMinute_ne_none.mp hnew.1)
      have hidle : ¬ (poll.entry = i ∧ poll.sent = true) :=
        fun h => hmatch ⟨h.1, ((htimed h.1).mp h.2).1⟩
      exact ⟨fun _ hentry hat => absurd ⟨hentry, hat⟩ hmatch, fun _ => iff_of_false hidle hnew⟩

structure Invariant (tickModulus : ℕ) (localtime : ℤ → Tm) (startTime : InvTime) (i : ℕ)
    (s : System μ) : Prop where
  entry : ∃ sendTime, s.thread.schedule i = some sendTime ∧ sendTime.acqMode ≠ "realtime" ∧
    sendTime.acqMode ≠ "schfrz" ∧ Exact sendTime.startTime startTime ∧
    sendTime.packetSendTime = lastRequest i s.polls
  timed : Timed tickModulus localtime startTime i s.polls

theorem lastRequest_other (hother : poll.entry ≠ i) :
    lastRequest i (poll :: polls) = lastRequest i polls := by
  have hidle : isRequest i poll = false := by
    rw [Bool.eq_false_iff, Ne, isRequest_iff]
    exact fun h => hother h.1
  rw [lastRequest, lastMarked, List.find?_cons, hidle]
  rfl

theorem lastRequest_cons (poll : Poll) (polls : List Poll) :
    lastRequest poll.entry (poll :: polls) =
      if poll.sent then poll.currentTick else lastRequest poll.entry polls := by
  rw [lastRequest, lastMarked, List.find?_cons, isRequest, decide_eq_true rfl, Bool.true_and]
  cases poll.sent <;> rfl

theorem due_iff {sendTime : TimeToSend} {taskLock sent : Bool} {tick time : ℕ}
    (hreal : sendTime.acqMode ≠ "realtime") (hfreeze : sendTime.acqMode ≠ "schfrz")
    (hstart : Exact sendTime.startTime startTime) :
    Due tickModulus localtime taskLock sendTime ⟨tick, time⟩ ↔
      Poll.AtMinute localtime startTime ⟨i, tick, time, sent⟩ ∧
        overdue tickModulus tick sendTime.packetSendTime 60 = true := by
  rw [Due, if_neg hreal, if_neg hfreeze, fullMinute_iff]
  constructor
  · intro h
    obtain ⟨hlate, hfull, hmatches⟩ := h
    exact ⟨⟨hfull, (scheduleMatches_at hstart hfull).mp hmatches⟩, hlate⟩
  · intro h
    obtain ⟨⟨hfull, hmatches⟩, hlate⟩ := h
    exact ⟨hlate, hfull, (scheduleMatches_at hstart hfull).mpr hmatches⟩

theorem Invariant.step {s t : System μ} {a : Action μ}
    (h : Invariant tickModulus localtime startTime i s)
    (hstep : Polls.step tickModulus localtime s a t) :
    Invariant tickModulus localtime startTime i t := by
  obtain ⟨⟨sendTime, hentry, hreal, hfreeze, hstart, hlast⟩, htimed⟩ := h
  rcases step_entry hentry hstep with ⟨hentry', hpolls | ⟨poll, hother, hpolls⟩⟩ |
    ⟨tick, time, sent, after, hentry', hpolls, hpoll⟩
  · rw [← hpolls] at hlast htimed
    exact ⟨⟨sendTime, hentry', hreal, hfreeze, hstart, hlast⟩, htimed⟩
  · refine ⟨⟨sendTime, hentry', hreal, hfreeze, hstart, ?_⟩, ?_⟩
    · rw [hpolls, lastRequest_other hother, hlast]
    · rw [hpolls]
      exact ⟨htimed, fun hi => absurd hi hother⟩
  · rw [← hpoll.acqMode] at hreal hfreeze
    refine ⟨⟨after, hentry', hreal, hfreeze, ?_, ?_⟩, ?_⟩
    · rwa [hpoll.startTime]
    · rw [hpolls, hpoll.packetSendTime, hlast]
      exact (lastRequest_cons ⟨i, tick, time, sent⟩ s.polls).symm
    · rw [hpoll.acqMode] at hreal hfreeze
      rw [hpolls]
      refine ⟨htimed, fun _ => ?_⟩
      rw [hpoll.due, due_iff hreal hfreeze hstart, hlast]

/-- In every run: in every state that it passes, each minute of startTime in whose second 0 the
entry was polled has one request, if and only if the polls are well timed. -/
theorem oncePerMatch_iff {s t : System μ} {actions : List (Action μ)} {sendTime : TimeToSend}
    {endTime : InvTime} (hentry : s.thread.schedule i = some sendTime)
    (hreal : sendTime.acqMode ≠ "realtime") (hfreeze : sendTime.acqMode ≠ "schfrz")
    (hfresh : Fresh startTime endTime sendTime) (hpolls : s.polls = [])
    (hrun : Run (Polls.step tickModulus localtime) s actions t) :
    (∀ past, past <:+ t.polls → OncePerMatch localtime startTime i past) ↔
      WellTimed tickModulus localtime startTime i t.polls := by
  have hinit : Invariant tickModulus localtime startTime i s := by
    refine ⟨⟨sendTime, hentry, hreal, hfreeze, hfresh.startTime, ?_⟩, ?_⟩
    · rw [hpolls, hfresh.packetSendTime]
      rfl
    · rw [hpolls]
      trivial
  have htimed := (hrun.invariant hinit fun _ _ _ h hstep => h.step hstep).timed
  rw [← firstsMarked_iff_wellTimed htimed, ← Firsts.once_throughout_iff htimed.matched]
  refine forall₂_congr fun past hpast => oncePerMatch_iff_once fun poll hpoll => ?_
  exact htimed.matched poll (hpast.subset hpoll)

def timed : List UInt8 := [0x74, 0x69, 0x6d, 0x65, 0x64]

/-- A thread that was started two minutes before the hour. -/
theorem oncePerMatch_iff_hourly :
    ∃ t, Run (Polls.step 4294967296 hourClock) (alone (hourly "timed" 0 false false) none none
        false []) [.poll 120000 3600, .poll 120010 3600] t ∧
      t.polls = [⟨0, 120010, 3600, false⟩, ⟨0, 120000, 3600, true⟩] ∧
      ((∀ past, past <:+ t.polls → OncePerMatch hourClock ⟨-1, -1, -1, 0⟩ 0 past) ↔
        WellTimed 4294967296 hourClock ⟨-1, -1, -1, 0⟩ 0 t.polls) := by
  have hfirst : Polls.step 4294967296 hourClock
      (alone (hourly "timed" 0 false false) none none false []) (.poll 120000 3600)
      (alone (hourly "timed" 120000 false true) (some 0) (some 0) false
        [⟨0, 120000, 3600, true⟩]) :=
    ⟨_, _, rfl, rfl⟩
  have hsecond : Polls.step 4294967296 hourClock
      (alone (hourly "timed" 120000 false true) (some 0) (some 0) false [⟨0, 120000, 3600, true⟩])
      (.poll 120010 3600) _ :=
    ⟨_, _, rfl, rfl⟩
  have hrun := (Run.start.next hfirst).next hsecond
  have hmode : charArray timed = "timed" := rfl
  exact ⟨_, hrun, rfl, oncePerMatch_iff rfl (by decide) (by decide) (hourly_fresh hmode) rfl hrun⟩

/-- A thread that was started five seconds before the hour sends nothing in that hour. -/
theorem first_minute_missed :
    Fresh ⟨-1, -1, -1, 0⟩ ⟨-1, -1, -1, 30⟩ (hourly "timed" 0 false false) ∧ ∃ t,
      Run (Polls.step 4294967296 hourClock) (alone (hourly "timed" 0 false false) none none
        false []) [.poll 5000 3600, .poll 6000 3601] t ∧
      t.polls = [⟨0, 6000, 3601, false⟩, ⟨0, 5000, 3600, false⟩] ∧
      ¬ OncePerMatch hourClock ⟨-1, -1, -1, 0⟩ 0 t.polls := by
  have hfirst : Polls.step 4294967296 hourClock
      (alone (hourly "timed" 0 false false) none none false []) (.poll 5000 3600)
      (alone (hourly "timed" 0 false true) (some 0) none false [⟨0, 5000, 3600, false⟩]) :=
    ⟨_, _, rfl, rfl⟩
  have hsecond : Polls.step 4294967296 hourClock
      (alone (hourly "timed" 0 false true) (some 0) none false [⟨0, 5000, 3600, false⟩])
      (.poll 6000 3601) _ :=
    ⟨_, _, rfl, rfl⟩
  have hmode : charArray timed = "timed" := rfl
  refine ⟨hourly_fresh hmode, _, (Run.start.next hfirst).next hsecond, rfl, fun honce => ?_⟩
  have hone := honce ⟨0, 5000, 3600, false⟩ (by decide) rfl (by decide)
  exact absurd hone (by decide)

end IotEdgeAgent.Channel.TimedMode
