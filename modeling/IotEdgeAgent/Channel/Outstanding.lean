import IotEdgeAgent.Channel.Timeline

/-!
# One outstanding request

A request is outstanding, or on the line, until bytes arrive or more than two seconds have
passed. The lock that
a realtime request takes keeps the realtime entries of a channel apart. The other branches send
without asking for it, so around them nothing but the times at which entries fall due keeps two
requests from being on the line at once.
-/

namespace IotEdgeAgent.Channel.Outstanding
open Protocol Runs Timeline

variable {μ : Type}

def unanswered : List Event → List ℕ
  | [] => []
  | .sent _ time :: history => time :: unanswered history
  | .received :: _ => []
  | .timedOut _ :: history => unanswered history
  | .stopped _ :: history => unanswered history

def OnTheLine (history : List Event) (now : ℕ) : Prop :=
  ∃ time ∈ unanswered history, now ≤ time + 2000

def OneAtATime : List Event → Prop
  | [] => True
  | .sent _ time :: history => ¬ OnTheLine history time ∧ OneAtATime history
  | .received :: history => OneAtATime history
  | .timedOut _ :: history => OneAtATime history
  | .stopped _ :: history => OneAtATime history

def latestMode : List Event → Option String
  | [] => none
  | .sent acqMode _ :: _ => some acqMode
  | .received :: _ => none
  | .timedOut _ :: history => latestMode history
  | .stopped _ :: history => latestMode history

/-- An entry falls due while a request is outstanding only if both are realtime. -/
def Spaced (tickModulus : ℕ) (localtime : ℤ → Tm) (s : System μ) : Action μ → Prop
  | .poll now currentTime => s.thread.map.taskStop = false →
      ∀ sendTime, s.thread.polled = some sendTime →
      Due tickModulus localtime s.thread.map.taskLock sendTime
        ⟨now % tickModulus, currentTime⟩ →
      sendTime.acqMode ≠ "realtime" ∨ latestMode s.history ≠ some "realtime" →
      ¬ OnTheLine s.history now
  | .receive _ _ _ => True

section History
variable {history : List Event} {latest : ℕ} {rest : List ℕ}

theorem OneAtATime.older (h : OneAtATime history) (hlatest : unanswered history = latest :: rest) :
    ∀ time ∈ rest, time + 2000 < latest := by
  induction history with
  | nil => cases hlatest
  | cons event history ih =>
    cases event with
    | sent acqMode time =>
      cases hlatest
      intro other hother
      by_contra hnot
      exact h.1 ⟨other, hother, Nat.not_lt.mp hnot⟩
    | received => cases hlatest
    | timedOut time => exact ih h hlatest
    | stopped time => exact ih h hlatest

theorem OneAtATime.not_outstanding (h : OneAtATime history) {now : ℕ}
    (hlatest : ∀ time ∈ (unanswered history).head?, time + 2000 < now) :
    ¬ OnTheLine history now := by
  rintro ⟨time, htime, hnow⟩
  cases hunanswered : unanswered history with
  | nil =>
    rw [hunanswered] at htime
    cases htime
  | cons latest rest =>
    have hover : latest + 2000 < now := hlatest latest (by rw [hunanswered]; rfl)
    rw [hunanswered] at htime
    rcases List.mem_cons.mp htime with rfl | hrest
    · omega
    · have holder := h.older hunanswered time hrest
      omega

end History

/-- While a realtime request is the latest and still outstanding, it holds the lock, and its tick
is the one that was noted. -/
structure Inv (tickModulus : ℕ) (flags : Flags) (clock : ℕ) (history : List Event) : Prop where
  past : ∀ time ∈ unanswered history, time ≤ clock
  held : latestMode history = some "realtime" → ∀ time ∈ (unanswered history).head?,
    time + 2000 < clock ∨ (flags.taskLock = true ∧ flags.lastSendTick = time % tickModulus)
  oneAtATime : OneAtATime history

section Steps
variable {tickModulus : ℕ} {localtime : ℤ → Tm} {flags : Flags} {clock now : ℕ}
  {history : List Event} {thread : RequestThread μ} {moment : Moment} {events : List Event}

theorem Inv.later (h : Inv tickModulus flags clock history) (hnow : clock ≤ now) :
    Inv tickModulus flags now history := by
  refine ⟨fun time htime => (h.past time htime).trans hnow, ?_, h.oneAtATime⟩
  intro hmode time htime
  exact (h.held hmode time htime).imp_left fun hover => hover.trans_le hnow

theorem Inv.not_outstanding (h : Inv tickModulus flags clock history) (hnow : clock ≤ now)
    (hmode : latestMode history = some "realtime") (hlock : flags.taskLock = false) :
    ¬ OnTheLine history now := by
  apply h.oneAtATime.not_outstanding
  intro time htime
  rcases h.held hmode time htime with hover | ⟨hheld, -⟩
  · exact hover.trans_le hnow
  · rw [hlock] at hheld
    cases hheld

theorem Inv.sent (h : Inv tickModulus flags clock history) (hnow : clock ≤ now)
    (hfree : ¬ OnTheLine history now) {acqMode : String} {flags' : Flags}
    (hheld : acqMode = "realtime" →
      flags'.taskLock = true ∧ flags'.lastSendTick = now % tickModulus) :
    Inv tickModulus flags' now (.sent acqMode now :: history) := by
  refine ⟨?_, ?_, hfree, h.oneAtATime⟩
  · intro time htime
    rcases List.mem_cons.mp htime with rfl | htime
    · exact Nat.le_refl _
    · exact (h.past time htime).trans hnow
  · intro hmode time htime
    cases htime
    exact .inr (hheld (Option.some.inj hmode))

theorem Inv.gaveUp (h : Inv tickModulus thread.flags clock history) (hnow : clock ≤ now)
    {sendTime : TimeToSend} {currentTime : ℤ}
    (hgives : GivesUp tickModulus thread.flags sendTime ⟨now % tickModulus, currentTime⟩)
    (flags' : Flags) : Inv tickModulus flags' now history := by
  refine ⟨fun time htime => (h.past time htime).trans hnow, ?_, h.oneAtATime⟩
  intro hmode time htime
  left
  have hpast := (h.past time (List.mem_of_mem_head? htime)).trans hnow
  rcases h.held hmode time htime with hover | ⟨-, htick⟩
  · exact hover.trans_le hnow
  · have hlate := hgives.2.2.2
    rw [htick] at hlate
    exact elapsed_of_overdue hpast hlate

theorem Inv.timedOut (h : Inv tickModulus flags clock history) :
    Inv tickModulus flags clock (.timedOut now :: history) :=
  ⟨h.past, h.held, h.oneAtATime⟩

theorem Inv.stopped (h : Inv tickModulus flags clock history) :
    Inv tickModulus flags clock (.stopped now :: history) :=
  ⟨h.past, h.held, h.oneAtATime⟩

theorem Inv.round (h : Inv tickModulus thread.flags clock history) (hnow : clock ≤ now)
    {currentTime : ℤ} (hspaced : thread.map.taskStop = false →
      ∀ sendTime, thread.polled = some sendTime →
      Due tickModulus localtime thread.map.taskLock sendTime ⟨now % tickModulus, currentTime⟩ →
      sendTime.acqMode ≠ "realtime" ∨ latestMode history ≠ some "realtime" →
      ¬ OnTheLine history now)
    (hround : RoundCase tickModulus localtime thread ⟨now % tickModulus, currentTime⟩ now flags
      events) : Inv tickModulus flags now (events ++ history) := by
  cases hround with
  | idle => exact h.later hnow
  | realtimeSent hrunning hpolled hmode hdue =>
    refine h.sent hnow ?_ fun _ => ⟨rfl, rfl⟩
    by_cases hlatest : latestMode history = some "realtime"
    · rw [Due, if_pos hmode] at hdue
      exact h.not_outstanding hnow hlatest hdue.2
    · exact hspaced hrunning _ hpolled hdue (.inr hlatest)
  | gaveUp hrunning hpolled hgives =>
    have hgave := h.gaveUp hnow hgives
    split_ifs
    · exact (hgave _).timedOut.stopped
    · exact (hgave _).timedOut
  | schfrzSent hrunning hpolled hmode hdue =>
    have hreal : _ ≠ "realtime" := hmode.trans_ne (by decide)
    refine h.sent hnow (hspaced hrunning _ hpolled hdue (.inl hreal)) ?_
    exact fun heq => absurd heq (by decide)
  | timedSent hrunning hpolled hreal hfreeze hdue =>
    refine h.sent hnow (hspaced hrunning _ hpolled hdue (.inl hreal)) ?_
    exact fun heq => absurd heq hreal

end Steps

section Runs
variable {tickModulus : ℕ} {localtime : ℤ → Tm} {s t : System μ}

def InvOf (tickModulus : ℕ) (s : System μ) : Prop :=
  Inv tickModulus s.thread.flags s.clock s.history

theorem inv_of_initial (h : Initial s) : InvOf tickModulus s := by
  rw [InvOf, h.history]
  exact ⟨by simp [unanswered], fun hmode => (by cases hmode), trivial⟩

theorem inv_step {a : Action μ} (h : InvOf tickModulus s)
    (hstep : Guarded (Spaced tickModulus localtime) (step tickModulus localtime) s a t) :
    InvOf tickModulus t := by
  obtain ⟨hspaced, hstep⟩ := hstep
  cases a with
  | poll now currentTime =>
    obtain ⟨hnow, thread', sent, hround, rfl⟩ := hstep
    exact Inv.round h hnow hspaced (sendResquestRound_cases now hround)
  | receive parse buffer size =>
    obtain ⟨-, map', payload, -, rfl⟩ := hstep
    have hone : OneAtATime s.history := Inv.oneAtATime h
    exact ⟨by simp [unanswered], fun hmode => (by cases hmode), hone⟩

/-- As long as the entries fall due so that the branches without the lock do not meet another
request, there is one request on the line at a time. -/
theorem oneAtATime_of_spaced {as : List (Action μ)} (hinit : Initial s)
    (hrun : Run (Guarded (Spaced tickModulus localtime) (step tickModulus localtime)) s as t) :
    OneAtATime t.history := by
  have hinv : InvOf tickModulus t :=
    hrun.invariant (inv_of_initial hinit) fun _ _ _ => inv_step
  exact hinv.oneAtATime

end Runs

def realtimeAlone : System Unit := fresh [entry (sendAlways "realtime" 0 0 false false)]

def realtimeWaiting (taskLock : Bool) (timeOutCount : ℤ) (clock : ℕ) (history : List Event) :
    System Unit :=
  polling [entry (sendAlways "realtime" 2000 0 false true)] (some 0) (some 0) (some 0) taskLock
    timeOutCount 2000 clock history

theorem realtimeWaiting_spaced {taskLock : Bool} {timeOutCount : ℤ} {clock : ℕ}
    {history : List Event} (hlatest : latestMode history = some "realtime") (now : ℕ)
    (currentTime : ℤ) :
    Spaced 4294967296 newYear (realtimeWaiting taskLock timeOutCount clock history)
      (.poll now currentTime) := by
  intro _ sendTime hpolled _ hother
  have hmode : sendTime.acqMode = "realtime" := by
    rw [← Option.some.inj hpolled]
    rfl
  rcases hother with hother | hother
  · exact absurd hmode hother
  · exact absurd hlatest hother

theorem oneAtATime_of_spaced_realtime :
    ∃ t, Run (Guarded (Spaced 4294967296 newYear) (step 4294967296 newYear)) realtimeAlone
      [.poll 2000 1, .poll 6000 5, .poll 6010 5] t ∧
      t.history = [.sent "realtime" 6010, .timedOut 6000, .sent "realtime" 2000] ∧
      OneAtATime t.history := by
  have hnone : ¬ OnTheLine [] 2000 := by
    rintro ⟨time, htime, -⟩
    cases htime
  have hfirst : Guarded (Spaced 4294967296 newYear) (step 4294967296 newYear) realtimeAlone
      (.poll 2000 1) (realtimeWaiting true 0 2000 [.sent "realtime" 2000]) :=
    ⟨fun _ _ _ _ _ => hnone, Nat.zero_le _, _, _, rfl, rfl⟩
  have hsecond : Guarded (Spaced 4294967296 newYear) (step 4294967296 newYear)
      (realtimeWaiting true 0 2000 [.sent "realtime" 2000]) (.poll 6000 5)
      (realtimeWaiting false 1 6000 [.timedOut 6000, .sent "realtime" 2000]) :=
    ⟨realtimeWaiting_spaced rfl _ _, by decide, _, _, rfl, rfl⟩
  have hthird : Guarded (Spaced 4294967296 newYear) (step 4294967296 newYear)
      (realtimeWaiting false 1 6000 [.timedOut 6000, .sent "realtime" 2000]) (.poll 6010 5) _ :=
    ⟨realtimeWaiting_spaced rfl _ _, by decide, _, _, rfl, rfl⟩
  have hrun := ((Run.start.next hfirst).next hsecond).next hthird
  exact ⟨_, hrun, rfl, oneAtATime_of_spaced (fresh_initial _) hrun⟩

def withTimed : System Unit :=
  fresh [entry (sendAlways "realtime" 0 0 false false), entry (sendAlways "timed" 0 0 false false)]

/-- The timed entry falls due ten milliseconds after the request of the realtime entry. -/
theorem timed_request_overlaps :
    Initial withTimed ∧ ∃ t,
      Run (step 4294967296 newYear) withTimed [.poll 61000 60, .poll 61010 60] t ∧
      t.history = [.sent "timed" 61010, .sent "realtime" 61000] ∧ ¬ OneAtATime t.history := by
  have hfirst : step 4294967296 newYear withTimed (.poll 61000 60)
      (polling [entry (sendAlways "realtime" 61000 0 false false),
        entry (sendAlways "timed" 0 0 false false)] (some 1) (some 0) (some 0) true 0 61000 61000
        [.sent "realtime" 61000]) :=
    ⟨Nat.zero_le _, _, _, rfl, rfl⟩
  have hsecond : step 4294967296 newYear
      (polling [entry (sendAlways "realtime" 61000 0 false false),
        entry (sendAlways "timed" 0 0 false false)] (some 1) (some 0) (some 0) true 0 61000 61000
        [.sent "realtime" 61000]) (.poll 61010 60) _ :=
    ⟨by decide, _, _, rfl, rfl⟩
  refine ⟨fresh_initial _, _, (Run.start.next hfirst).next hsecond, rfl, fun h => ?_⟩
  exact h.1 ⟨61000, List.mem_singleton_self _, by decide⟩

end IotEdgeAgent.Channel.Outstanding
