import IotEdgeAgent.Channel.Timeline

/-!
# Counting time-outs

A request that takes the lock is to be given up, and counted, when it has gone unanswered for
more than two seconds, and the channel is to be stopped after five such requests in a row. The
age is taken from `last_send_tick`, which only realtime requests note; a freeze request takes
the lock all the same.
-/

namespace IotEdgeAgent.Channel.Timeouts
open Protocol Runs Timeline

variable {μ : Type}

def TakesLock (acqMode : String) : Prop := acqMode = "realtime" ∨ acqMode = "schfrz"

instance (acqMode : String) : Decidable (TakesLock acqMode) := instDecidableOr

def lockHolder : List Event → Option (String × ℕ)
  | [] => none
  | .sent acqMode time :: history =>
    if TakesLock acqMode then some (acqMode, time) else lockHolder history
  | .received :: _ => none
  | .timedOut _ :: _ => none
  | .stopped _ :: history => lockHolder history

def unanswered : List Event → List ℕ
  | [] => []
  | .sent acqMode time :: history =>
    if TakesLock acqMode then time :: unanswered history else unanswered history
  | .received :: _ => []
  | .timedOut _ :: history => unanswered history
  | .stopped _ :: history => unanswered history

/-- A time-out was counted when the holder of the lock was more than two seconds old, and the
channel stopped when the last five requests were, with no bytes received since the first. -/
def Accounted : List Event → Prop
  | [] => True
  | .sent _ _ :: history => Accounted history
  | .received :: history => Accounted history
  | .timedOut now :: history =>
    (∃ acqMode time, lockHolder history = some (acqMode, time) ∧ time + 2000 < now) ∧
      Accounted history
  | .stopped now :: history =>
    (∃ five rest, unanswered history = five ++ rest ∧ five.length = 5 ∧
      ∀ time ∈ five, time + 2000 < now) ∧ Accounted history

/-- A round gives a freeze request up only when that one is more than two seconds old. -/
def FreezeAged (tickModulus : ℕ) (s : System μ) : Action μ → Prop
  | .poll now currentTime => s.thread.map.taskStop = false →
      ∀ sendTime, s.thread.polled = some sendTime →
      GivesUp tickModulus s.thread.flags sendTime ⟨now % tickModulus, currentTime⟩ →
      ∀ time, lockHolder s.history = some ("schfrz", time) → time + 2000 < now
  | .receive _ _ _ => True

theorem unanswered_of_lockHolder {history : List Event} {acqMode : String} {time : ℕ}
    (h : lockHolder history = some (acqMode, time)) :
    TakesLock acqMode ∧ ∃ rest, unanswered history = time :: rest := by
  induction history with
  | nil => cases h
  | cons event history ih =>
    cases event with
    | sent mode sent =>
      rw [lockHolder] at h
      rw [unanswered]
      split_ifs at h ⊢ with htakes
      · cases h
        exact ⟨htakes, _, rfl⟩
      · exact ih h
    | received => cases h
    | timedOut now => cases h
    | stopped now => exact ih h

structure Inv (tickModulus : ℕ) (flags : Flags) (clock : ℕ) (history : List Event) : Prop where
  past : ∀ time ∈ unanswered history, time ≤ clock
  sorted : (unanswered history).Pairwise (· ≥ ·)
  lock : flags.taskLock = (lockHolder history).isSome
  noted : ∀ time, lockHolder history = some ("realtime", time) →
    flags.lastSendTick = time % tickModulus
  count : flags.timeOutCount + (if flags.taskLock then 1 else 0) ≤ (unanswered history).length
  accounted : Accounted history

section Steps
variable {tickModulus : ℕ} {localtime : ℤ → Tm} {flags flags' : Flags} {clock now : ℕ}
  {history events : List Event} {thread : RequestThread μ} {acqMode : String}

theorem Inv.later (h : Inv tickModulus flags clock history) (hnow : clock ≤ now) :
    Inv tickModulus flags now history :=
  ⟨fun time htime => (h.past time htime).trans hnow, h.sorted, h.lock, h.noted, h.count,
    h.accounted⟩

theorem Inv.locked (h : Inv tickModulus flags clock history) (hnow : clock ≤ now)
    (htakes : TakesLock acqMode) (hlock : flags'.taskLock = true)
    (hnoted : acqMode = "realtime" → flags'.lastSendTick = now % tickModulus)
    (hcount : flags'.timeOutCount = flags.timeOutCount) :
    Inv tickModulus flags' now (.sent acqMode now :: history) := by
  have hrequests : unanswered (.sent acqMode now :: history) = now :: unanswered history :=
    if_pos htakes
  have hholder : lockHolder (.sent acqMode now :: history) = some (acqMode, now) := if_pos htakes
  refine ⟨?_, ?_, ?_, ?_, ?_, h.accounted⟩
  · intro time htime
    rw [hrequests] at htime
    rcases List.mem_cons.mp htime with rfl | htime
    · exact Nat.le_refl _
    · exact (h.past time htime).trans hnow
  · rw [hrequests, List.pairwise_cons]
    exact ⟨fun time htime => (h.past time htime).trans hnow, h.sorted⟩
  · rw [hlock, hholder]
    rfl
  · intro time htime
    rw [hholder] at htime
    cases htime
    exact hnoted rfl
  · have hbefore := h.count
    rw [hrequests, hcount, hlock, if_pos rfl, List.length_cons]
    split_ifs at hbefore <;> omega

theorem Inv.unlocked (h : Inv tickModulus flags clock history) (hnow : clock ≤ now)
    (htakes : ¬ TakesLock acqMode) :
    Inv tickModulus flags now (.sent acqMode now :: history) := by
  have hrequests : unanswered (.sent acqMode now :: history) = unanswered history :=
    if_neg htakes
  have hholder : lockHolder (.sent acqMode now :: history) = lockHolder history := if_neg htakes
  obtain ⟨hpast, hsorted, hlock, hnoted, hcount, haccounted⟩ := h.later hnow
  exact ⟨hrequests ▸ hpast, hrequests ▸ hsorted, hholder ▸ hlock, hholder ▸ hnoted,
    hrequests ▸ hcount, haccounted⟩

theorem Inv.gaveUp (h : Inv tickModulus flags clock history) (hnow : clock ≤ now)
    {time : ℕ} (hholder : lockHolder history = some (acqMode, time)) (hold : time + 2000 < now)
    (hlock : flags'.taskLock = false) (hcount : flags'.timeOutCount = flags.timeOutCount + 1) :
    Inv tickModulus flags' now (.timedOut now :: history) := by
  have hheld : flags.taskLock = true := by rw [h.lock, hholder]; rfl
  refine ⟨fun time htime => (h.past time htime).trans hnow, h.sorted, hlock,
    fun _ hnone => (by cases hnone), ?_, ⟨acqMode, time, hholder, hold⟩, h.accounted⟩
  have hbefore := h.count
  rw [hheld, if_pos rfl] at hbefore
  rw [hlock, hcount, if_neg Bool.false_ne_true, Int.add_zero]
  exact hbefore

theorem Inv.stopped (h : Inv tickModulus flags now (.timedOut now :: history))
    (hfive : flags.timeOutCount ≥ 5) :
    Inv tickModulus flags now (.stopped now :: .timedOut now :: history) := by
  refine ⟨h.past, h.sorted, h.lock, h.noted, h.count, ?_, h.accounted⟩
  obtain ⟨⟨acqMode, time, hholder, hold⟩, -⟩ := h.accounted
  obtain ⟨-, rest, hrequests⟩ := unanswered_of_lockHolder hholder
  have hlength : 5 ≤ (unanswered history).length := by
    have hcount : flags.timeOutCount + _ ≤ ((unanswered history).length : ℤ) := h.count
    split_ifs at hcount <;> omega
  refine ⟨(unanswered history).take 5, (unanswered history).drop 5,
    (List.take_append_drop 5 _).symm, List.length_take_of_le hlength, ?_⟩
  intro other hother
  have hmem : other ∈ time :: rest := hrequests ▸ List.mem_of_mem_take hother
  have hsorted : (time :: rest).Pairwise (· ≥ ·) := hrequests ▸ h.sorted
  rcases List.mem_cons.mp hmem with rfl | hrest
  · exact hold
  · have hle : other ≤ time := (List.pairwise_cons.mp hsorted).1 other hrest
    omega

theorem Inv.holder_old (h : Inv tickModulus thread.flags clock history) (hnow : clock ≤ now)
    {sendTime : TimeToSend} {currentTime : ℤ}
    (hgives : GivesUp tickModulus thread.flags sendTime ⟨now % tickModulus, currentTime⟩)
    (haged : ∀ time, lockHolder history = some ("schfrz", time) → time + 2000 < now) :
    ∃ acqMode time, lockHolder history = some (acqMode, time) ∧ time + 2000 < now := by
  obtain ⟨-, -, hlock, hlate⟩ := hgives
  rw [h.lock] at hlock
  obtain ⟨⟨acqMode, time⟩, hholder⟩ := Option.isSome_iff_exists.mp hlock
  refine ⟨acqMode, time, hholder, ?_⟩
  obtain ⟨htakes, rest, hrequests⟩ := unanswered_of_lockHolder hholder
  rcases htakes with rfl | rfl
  · rw [h.noted time hholder] at hlate
    have hpast := h.past time (hrequests ▸ List.mem_cons_self)
    exact elapsed_of_overdue (hpast.trans hnow) hlate
  · exact haged time hholder

theorem Inv.round (h : Inv tickModulus thread.flags clock history) (hnow : clock ≤ now)
    {currentTime : ℤ} (haged : thread.map.taskStop = false →
      ∀ sendTime, thread.polled = some sendTime →
      GivesUp tickModulus thread.flags sendTime ⟨now % tickModulus, currentTime⟩ →
      ∀ time, lockHolder history = some ("schfrz", time) → time + 2000 < now)
    (hround : RoundCase tickModulus localtime thread ⟨now % tickModulus, currentTime⟩ now flags
      events) : Inv tickModulus flags now (events ++ history) := by
  cases hround with
  | idle => exact h.later hnow
  | realtimeSent hrunning hpolled hmode hdue =>
    exact h.locked hnow (.inl rfl) rfl (fun _ => rfl) rfl
  | gaveUp hrunning hpolled hgives =>
    obtain ⟨acqMode, time, hholder, hold⟩ :=
      h.holder_old hnow hgives (haged hrunning _ hpolled hgives)
    split_ifs with hfive
    · exact (h.gaveUp hnow hholder hold rfl rfl).stopped hfive
    · exact h.gaveUp hnow hholder hold rfl rfl
  | schfrzSent hrunning hpolled hmode hdue =>
    exact h.locked hnow (.inr rfl) rfl (fun heq => absurd heq (by decide)) rfl
  | timedSent hrunning hpolled hreal hfreeze hdue =>
    exact h.unlocked hnow (not_or.mpr ⟨hreal, hfreeze⟩)

end Steps

section Runs
variable {tickModulus : ℕ} {localtime : ℤ → Tm} {s t : System μ}

def InvOf (tickModulus : ℕ) (s : System μ) : Prop :=
  Inv tickModulus s.thread.flags s.clock s.history

theorem inv_of_initial (h : Initial s) : InvOf tickModulus s := by
  rw [InvOf, h.history]
  refine ⟨by simp [unanswered], List.Pairwise.nil, h.taskLock, fun _ hnone => (by cases hnone), ?_,
    trivial⟩
  simp [RequestThread.flags, h.taskLock, h.timeOutCount, unanswered]

theorem inv_step {a : Action μ} (h : InvOf tickModulus s)
    (hstep : Guarded (FreezeAged tickModulus) (step tickModulus localtime) s a t) :
    InvOf tickModulus t := by
  obtain ⟨haged, hstep⟩ := hstep
  cases a with
  | poll now currentTime =>
    obtain ⟨hnow, thread', sent, hround, rfl⟩ := hstep
    exact Inv.round h hnow haged (sendResquestRound_cases now hround)
  | receive parse buffer size =>
    obtain ⟨hsize, map', payload, hreceived, rfl⟩ := hstep
    obtain ⟨-, hlock, hcount⟩ := onIoBytesReceived_flags hsize hreceived
    have haccounted : Accounted s.history := Inv.accounted h
    refine ⟨by simp [unanswered], List.Pairwise.nil, hlock, fun _ hnone => (by cases hnone), ?_,
      haccounted⟩
    simp [RequestThread.flags, hlock, hcount, unanswered]

/-- As long as no freeze request is given up early, time-outs are counted rightly. -/
theorem accounted_of_freezeAged {as : List (Action μ)} (hinit : Initial s)
    (hrun : Run (Guarded (FreezeAged tickModulus) (step tickModulus localtime)) s as t) :
    Accounted t.history := by
  have hinv : InvOf tickModulus t :=
    hrun.invariant (inv_of_initial hinit) fun _ _ _ => inv_step
  exact hinv.accounted

end Runs

def realtimeWaiting : System Unit :=
  polling [entry (sendAlways "realtime" 2000 0 false true)] (some 0) (some 0) (some 0) true 0 2000
    2000 [.sent "realtime" 2000]

theorem accounted_of_freezeAged_realtime :
    ∃ t, Run (Guarded (FreezeAged 4294967296) (step 4294967296 newYear))
      (fresh [entry (sendAlways "realtime" 0 0 false false)]) [.poll 2000 1, .poll 6000 5] t ∧
      t.history = [.timedOut 6000, .sent "realtime" 2000] ∧ Accounted t.history := by
  have hfirst : Guarded (FreezeAged 4294967296) (step 4294967296 newYear)
      (fresh [entry (sendAlways "realtime" 0 0 false false)]) (.poll 2000 1) realtimeWaiting :=
    ⟨fun _ _ _ _ _ hnone => (by cases hnone), Nat.zero_le _, _, _, rfl, rfl⟩
  have haged : FreezeAged 4294967296 realtimeWaiting (.poll 6000 5) := by
    intro _ _ _ _ time hholder
    have hmode : some "realtime" = some "schfrz" := congrArg (Option.map Prod.fst) hholder
    exact absurd hmode (by decide)
  have hsecond : Guarded (FreezeAged 4294967296) (step 4294967296 newYear) realtimeWaiting
      (.poll 6000 5) _ :=
    ⟨haged, by decide, _, _, rfl, rfl⟩
  have hrun := (Run.start.next hfirst).next hsecond
  exact ⟨_, hrun, rfl, accounted_of_freezeAged (fresh_initial _) hrun⟩

def withFreeze (sent : ℕ) (freezing isLastOne : Bool) : List (PmDataInfo Unit) :=
  [entry (sendAlways "schfrz" sent 1 freezing false),
    entry (sendAlways "realtime" 0 5 false isLastOne)]

/-- The freeze window opens in the first round. The freeze request of the third round has taken
the lock for ten milliseconds when the fourth gives it up. -/
theorem freeze_request_given_up_early :
    Initial (fresh (withFreeze 0 false false)) ∧ ∃ t,
      Run (step 4294967296 newYear) (fresh (withFreeze 0 false false))
        [.poll 1000 60, .poll 1010 60, .poll 6500 65, .poll 6510 65] t ∧
      t.history = [.timedOut 6510, .sent "schfrz" 6500] ∧ ¬ Accounted t.history := by
  have hfirst : step 4294967296 newYear (fresh (withFreeze 0 false false)) (.poll 1000 60)
      (polling (withFreeze 0 true false) (some 1) (some 0) none false 0 7 1000 []) :=
    ⟨Nat.zero_le _, _, _, rfl, rfl⟩
  have hsecond : step 4294967296 newYear
      (polling (withFreeze 0 true false) (some 1) (some 0) none false 0 7 1000 []) (.poll 1010 60)
      (polling (withFreeze 0 true true) (some 0) (some 1) none false 0 7 1010 []) :=
    ⟨by decide, _, _, rfl, rfl⟩
  have hthird : step 4294967296 newYear
      (polling (withFreeze 0 true true) (some 0) (some 1) none false 0 7 1010 []) (.poll 6500 65)
      (polling (withFreeze 6500 true true) (some 1) (some 0) (some 0) true 0 7 6500
        [.sent "schfrz" 6500]) :=
    ⟨by decide, _, _, rfl, rfl⟩
  have hfourth : step 4294967296 newYear
      (polling (withFreeze 6500 true true) (some 1) (some 0) (some 0) true 0 7 6500
        [.sent "schfrz" 6500]) (.poll 6510 65) _ :=
    ⟨by decide, _, _, rfl, rfl⟩
  refine ⟨fresh_initial _, _,
    (((Run.start.next hfirst).next hsecond).next hthird).next hfourth, rfl, ?_⟩
  rintro ⟨⟨acqMode, time, hholder, hold⟩, -⟩
  have htime : some 6500 = some time := congrArg (Option.map Prod.snd) hholder
  cases htime
  exact absurd hold (by decide)

end IotEdgeAgent.Channel.Timeouts
