import IotEdgeAgent.Channel.Polls

/-!
# The freeze window of an entry

The flag of a freeze entry is looked at before the poll changes it, so a request is sent for a
window that an earlier poll opened. The flag is set only while the last poll in second 0 of a
minute that opens or closes the window has opened it.
-/

namespace IotEdgeAgent.Channel.FreezeWindow
open IotEdgeAgent.Configuration (InvTime)
open IotEdgeAgent.Configuration.DataCreate
open IotEdgeAgent.Configuration.ScheduleTables (Exact Clear InRange)
open Polls Protocol Runs

variable {μ : Type} (localtime : ℤ → Tm) (startTime endTime : InvTime) (i : ℕ)

/-- The window was opened by a poll of entry `i`, and no later poll of it closed it. -/
def Opened (polls : List Poll) : Prop :=
  ∃ later opening earlier, polls = later ++ opening :: earlier ∧ opening.entry = i ∧
    opening.AtMinute localtime startTime ∧ ¬ opening.AtMinute localtime endTime ∧
    ∀ poll ∈ later, poll.entry = i → ¬ poll.AtMinute localtime endTime

/-- Each request for entry `i` was sent in an opened window. -/
def InWindow (polls : List Poll) : Prop :=
  ∀ later request earlier, polls = later ++ request :: earlier → request.entry = i →
    request.sent = true → Opened localtime startTime endTime i earlier

structure Invariant (s : System μ) : Prop where
  entry : ∃ sendTime, s.thread.schedule i = some sendTime ∧ sendTime.acqMode = "schfrz" ∧
    Exact sendTime.startTime startTime ∧ Exact sendTime.endTime endTime ∧
    (sendTime.freezing = true → Opened localtime startTime endTime i s.polls)
  inWindow : InWindow localtime startTime endTime i s.polls

variable {localtime startTime endTime i} {polls : List Poll} {poll : Poll}

theorem Opened.cons (h : Opened localtime startTime endTime i polls)
    (hpoll : poll.entry = i → ¬ poll.AtMinute localtime endTime) :
    Opened localtime startTime endTime i (poll :: polls) := by
  obtain ⟨later, opening, earlier, rfl, hentry, hstart, hend, hlater⟩ := h
  exact ⟨poll :: later, opening, earlier, rfl, hentry, hstart, hend,
    List.forall_mem_cons.mpr ⟨hpoll, hlater⟩⟩

theorem InWindow.cons (h : InWindow localtime startTime endTime i polls)
    (hpoll : poll.entry = i → poll.sent = true → Opened localtime startTime endTime i polls) :
    InWindow localtime startTime endTime i (poll :: polls) := by
  intro later request earlier hpolls hentry hsent
  cases later with
  | nil =>
    cases hpolls
    exact hpoll hentry hsent
  | cons _ later =>
    cases hpolls
    exact h later request earlier rfl hentry hsent

theorem opened_of_windowAfter {sendTime : TimeToSend} {tick time : ℕ} {sent : Bool}
    (hstart : Exact sendTime.startTime startTime) (hend : Exact sendTime.endTime endTime)
    (hopen : sendTime.freezing = true → Opened localtime startTime endTime i polls)
    (hwindow : windowAfter localtime sendTime ⟨tick, time⟩ = true) :
    Opened localtime startTime endTime i (⟨i, tick, time, sent⟩ :: polls) := by
  rw [windowAfter] at hwindow
  by_cases hfull : time % 60 = 0
  · rw [if_pos ((fullMinute_iff tick time).mpr hfull), Bool.and_eq_true, Bool.or_eq_true,
      Bool.not_eq_true', ← Bool.not_eq_true, scheduleMatches_at hstart hfull,
      scheduleMatches_at hend hfull] at hwindow
    obtain ⟨hstarts, hends⟩ := hwindow
    have hnot : ¬ Poll.AtMinute localtime endTime ⟨i, tick, time, sent⟩ := fun h => hends h.2
    rcases hstarts with hfreezing | hmatches
    · exact (hopen hfreezing).cons fun _ => hnot
    · exact ⟨[], _, polls, rfl, rfl, ⟨hfull, hmatches⟩, hnot, by simp⟩
  · rw [if_neg ((fullMinute_iff tick time).not.mpr hfull)] at hwindow
    exact (hopen hwindow).cons fun _ h => hfull h.1

theorem Invariant.step {tickModulus : ℕ} {s t : System μ} {a : Action μ}
    (h : Invariant localtime startTime endTime i s)
    (hstep : Polls.step tickModulus localtime s a t) :
    Invariant localtime startTime endTime i t := by
  obtain ⟨⟨sendTime, hentry, hmode, hstart, hend, hopen⟩, hwindow⟩ := h
  rcases step_entry hentry hstep with ⟨hentry', hpolls | ⟨poll, hother, hpolls⟩⟩ |
    ⟨tick, time, sent, after, hentry', hpolls, hpoll⟩
  · refine ⟨⟨sendTime, hentry', hmode, hstart, hend, ?_⟩, ?_⟩
    · rwa [hpolls]
    · rwa [hpolls]
  · refine ⟨⟨sendTime, hentry', hmode, hstart, hend, fun hfreezing => ?_⟩, ?_⟩
    · rw [hpolls]
      exact (hopen hfreezing).cons fun hi => absurd hi hother
    · rw [hpolls]
      exact hwindow.cons fun hi => absurd hi hother
  · refine ⟨⟨after, hentry', hpoll.acqMode.trans hmode, ?_, ?_, fun hfreezing => ?_⟩, ?_⟩
    · rwa [hpoll.startTime]
    · rwa [hpoll.endTime]
    · rw [hpoll.freezing, if_pos hmode] at hfreezing
      rw [hpolls]
      exact opened_of_windowAfter hstart hend hopen hfreezing
    · rw [hpolls]
      refine hwindow.cons fun _ hsent => hopen ?_
      have hdue := hpoll.due.mp hsent
      rw [Due, if_neg (by rw [hmode]; decide), if_pos hmode] at hdue
      exact hdue.1

/-- In every run, each request for a freeze entry was sent in a window that an earlier poll of it
opened, and that no poll of it closed since. An entry is as the run needs it when it was created in
memory that is clear where it has to be. -/
theorem request_in_window {tickModulus : ℕ} {s t : System μ} {actions : List (Action μ)}
    {sendTime : TimeToSend} (hentry : s.thread.schedule i = some sendTime)
    (hmode : sendTime.acqMode = "schfrz") (hfresh : Fresh startTime endTime sendTime)
    (hpolls : s.polls = []) (hrun : Run (Polls.step tickModulus localtime) s actions t) :
    InWindow localtime startTime endTime i t.polls ∧
      ∀ (times : μ → ModelTimes) (model : μ) (request : Except Fault DataRequest)
        (allocations : Allocations μ) (info : PmDataInfo μ),
        dataCreate times (some model) allocations request = .ok (some info) →
        InRange (times model).startTime → InRange (times model).endTime →
        (∀ memory, allocations.timeToSend = some memory →
          Clear memory.startTime (times model).startTime ∧
            Clear memory.endTime (times model).endTime) →
        ∃ created, info.timeToSend = some created ∧
          Fresh (times model).startTime (times model).endTime created := by
  refine ⟨?_, fun _ _ _ _ _ => fresh_of_dataCreate⟩
  have hinit : Invariant localtime startTime endTime i s := by
    refine ⟨⟨sendTime, hentry, hmode, hfresh.startTime, hfresh.endTime, fun hfreezing => ?_⟩, ?_⟩
    · rw [hfresh.freezing] at hfreezing
      cases hfreezing
    · rw [hpolls]
      intro later request earlier hnil
      simp at hnil
  exact (hrun.invariant hinit fun _ _ _ h hstep => h.step hstep).inWindow

def schfrz : List UInt8 := [0x73, 0x63, 0x68, 0x66, 0x72, 0x7a]

/-- The window opens in the first poll, and the request is sent five seconds later. -/
theorem request_in_window_hourly :
    ∃ t, Run (Polls.step 4294967296 hourClock) (alone (hourly "schfrz" 0 false false) none none
        false []) [.poll 0 3600, .poll 5000 3605] t ∧
      t.polls = [⟨0, 5000, 3605, true⟩, ⟨0, 0, 3600, false⟩] ∧
      InWindow hourClock ⟨-1, -1, -1, 0⟩ ⟨-1, -1, -1, 30⟩ 0 t.polls := by
  have hfirst : Polls.step 4294967296 hourClock
      (alone (hourly "schfrz" 0 false false) none none false []) (.poll 0 3600)
      (alone (hourly "schfrz" 0 true true) (some 0) none false [⟨0, 0, 3600, false⟩]) :=
    ⟨_, _, rfl, rfl⟩
  have hsecond : Polls.step 4294967296 hourClock
      (alone (hourly "schfrz" 0 true true) (some 0) none false [⟨0, 0, 3600, false⟩])
      (.poll 5000 3605) _ :=
    ⟨_, _, rfl, rfl⟩
  have hrun := (Run.start.next hfirst).next hsecond
  have hmode : charArray schfrz = "schfrz" := rfl
  exact ⟨_, hrun, rfl, (request_in_window rfl rfl (hourly_fresh hmode) rfl hrun).1⟩

end IotEdgeAgent.Channel.FreezeWindow
