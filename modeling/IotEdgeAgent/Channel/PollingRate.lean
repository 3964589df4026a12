import IotEdgeAgent.Channel.Polls

/-!
# The rate at which a realtime entry is polled

The requests of an entry are recorded with the time they were sent at, the latest first. That time
does not wrap, the tick counter that the thread reads does. The test in front of a request
subtracts and compares in the unsigned type of the counter: an interval is never cut short by a
wrap, and a negative `acqInt` is a limit that no interval exceeds.
-/

namespace IotEdgeAgent.Channel.PollingRate
open Polls Protocol Runs

variable {μ : Type}

def tickModulus : ℕ := 4294967296

def IsInt (n : ℤ) : Prop := -2147483648 ≤ n ∧ n < 2147483648

structure Request where
  entry : ℕ
  time : ℕ
  deriving DecidableEq, Repr

structure System (μ : Type) where
  thread : RequestThread μ
  clock : ℕ
  requests : List Request

inductive Action (μ : Type)
  | poll (now currentTime : ℕ)
  | receive (parse : ResponseParse μ) (buffer : List UInt8) (size : ℕ)

def requested (thread : RequestThread μ) (sent : Option DataRequest) : Option ℕ :=
  if sent.isSome then nextPolled thread else none

def step (localtime : ℤ → Tm) (s : System μ) (a : Action μ) (t : System μ) : Prop :=
  match a with
  | .poll now currentTime => s.clock ≤ now ∧ ∃ thread' sent,
      sendResquestRound tickModulus localtime s.thread ⟨now % tickModulus, currentTime⟩ =
        .ok (thread', sent) ∧
      t = ⟨thread', now, (requested s.thread sent).toList.map (⟨·, now⟩) ++ s.requests⟩
  | .receive parse buffer size => ∃ map' payload,
      onIoBytesReceived parse s.thread.map buffer size = .ok (map', payload) ∧
      t = { s with thread := { s.thread with map := map' } }

def requestTimes (i : ℕ) (requests : List Request) : List ℕ :=
  (requests.filter (·.entry = i)).map Request.time

/-- Consecutive times are at least `(acqInt + 1) * 1000` ms apart. -/
def Spaced (acqInt : ℤ) (times : List ℕ) : Prop :=
  times.IsChain fun (later earlier : ℕ) => earlier + (acqInt + 1) * 1000 ≤ (later : ℤ)

structure Invariant (acqInt : ℤ) (i : ℕ) (s : System μ) : Prop where
  entry : ∃ sendTime, s.thread.schedule i = some sendTime ∧ sendTime.acqMode = "realtime" ∧
    sendTime.acqInt = acqInt ∧
    ∀ time ∈ (requestTimes i s.requests).head?, sendTime.packetSendTime = time % tickModulus
  clock : ∀ time ∈ (requestTimes i s.requests).head?, time ≤ s.clock
  spaced : Spaced acqInt (requestTimes i s.requests)
  nonneg : requestTimes i s.requests ≠ [] → 0 ≤ acqInt

theorem requestTimes_cons (i : ℕ) (request : Request) (requests : List Request) :
    requestTimes i (request :: requests) =
      if request.entry = i then request.time :: requestTimes i requests
        else requestTimes i requests := by
  rw [requestTimes, requestTimes, List.filter_cons]
  split_ifs with h h' h'
  · rfl
  · exact absurd (of_decide_eq_true h) h'
  · exact absurd (decide_eq_true h') h
  · rfl

theorem requestTimes_of_ne {i : ℕ} {thread : RequestThread μ} {sent : Option DataRequest}
    (hother : nextPolled thread ≠ some i) (now : ℕ) (requests : List Request) :
    requestTimes i ((requested thread sent).toList.map (⟨·, now⟩) ++ requests) =
      requestTimes i requests := by
  rw [requested]
  split_ifs
  · cases hnext : nextPolled thread with
    | none => rfl
    | some n =>
      have hn : n ≠ i := fun h => hother (hnext.trans (congrArg some h))
      exact (requestTimes_cons i ⟨n, now⟩ requests).trans (if_neg hn)
  · rfl

theorem Spaced.cons {acqInt : ℤ} {times : List ℕ} {time : ℕ} (h : Spaced acqInt times)
    (hlast : ∀ earlier ∈ times.head?, earlier + (acqInt + 1) * 1000 ≤ (time : ℤ)) :
    Spaced acqInt (time :: times) := by
  cases times with
  | nil => exact List.IsChain.singleton time
  | cons earlier rest => exact List.isChain_cons_cons.mpr ⟨hlast earlier rfl, h⟩

theorem nonneg_of_overdue {currentTick last : ℕ} {limit : ℤ} (hint : IsInt limit)
    (h : overdue tickModulus currentTick last limit = true) : 0 ≤ limit := by
  obtain ⟨hmin, hmax⟩ := hint
  rw [overdue, decide_eq_true_eq] at h
  simp only [tickModulus] at h
  omega

section
variable {localtime : ℤ → Tm} {s t : System μ} {a : Action μ} {i : ℕ}

theorem step_entry {before : TimeToSend} (hentry : s.thread.schedule i = some before)
    (h : step localtime s a t) :
    s.clock ≤ t.clock ∧
      (t.thread.schedule i = some before ∧ requestTimes i t.requests = requestTimes i s.requests ∨
      ∃ taskLock currentTime sent after, t.thread.schedule i = some after ∧
        PolledTo tickModulus localtime taskLock ⟨t.clock % tickModulus, currentTime⟩ before sent
          after ∧
        requestTimes i t.requests = if sent then t.clock :: requestTimes i s.requests
          else requestTimes i s.requests) := by
  cases a with
  | receive parse buffer size =>
    obtain ⟨map', payload, hreceive, rfl⟩ := h
    exact ⟨Nat.le_refl _, Or.inl ⟨(onIoBytesReceived_schedule hreceive i).trans hentry, rfl⟩⟩
  | poll now currentTime =>
    obtain ⟨hclock, thread', sent, hround, rfl⟩ := h
    refine ⟨hclock, ?_⟩
    rcases sendResquestRound_entry hentry hround with ⟨hother, hsame⟩ |
      ⟨hpolled, after, hafter, hpoll⟩
    · exact Or.inl ⟨hsame, requestTimes_of_ne hother now s.requests⟩
    · refine Or.inr ⟨_, currentTime, sent.isSome, after, hafter, hpoll, ?_⟩
      rw [requested, hpolled]
      cases sent with
      | none => rfl
      | some request => simp [requestTimes_cons]

theorem Invariant.step {acqInt : ℤ} (hint : IsInt acqInt) (h : Invariant acqInt i s)
    (hstep : PollingRate.step localtime s a t) : Invariant acqInt i t := by
  obtain ⟨⟨before, hentry, hmode, hacqInt, hlast⟩, hclock, hspaced, hnonneg⟩ := h
  obtain ⟨hle, hcases⟩ := step_entry hentry hstep
  obtain ⟨hentry', htimes⟩ | ⟨taskLock, currentTime, sent, after, hentry', hpolled, htimes⟩ :=
    hcases
  · refine ⟨⟨before, hentry', hmode, hacqInt, ?_⟩, ?_, ?_, ?_⟩
    · rwa [htimes]
    · rw [htimes]
      exact fun time htime => (hclock time htime).trans hle
    · rwa [htimes]
    · rwa [htimes]
  · have hmode' := hpolled.acqMode.trans hmode
    have hacqInt' := hpolled.acqInt.trans hacqInt
    have hpacket := hpolled.packetSendTime
    cases sent with
    | false =>
      rw [if_neg Bool.false_ne_true] at htimes hpacket
      refine ⟨⟨after, hentry', hmode', hacqInt', ?_⟩, ?_, ?_, ?_⟩
      · rw [htimes, hpacket]
        exact hlast
      · rw [htimes]
        exact fun time htime => (hclock time htime).trans hle
      · rwa [htimes]
      · rwa [htimes]
    | true =>
      rw [if_pos rfl] at htimes hpacket
      have hdue := hpolled.due.mp rfl
      rw [Due, if_pos hmode, hacqInt] at hdue
      have hnonneg' := nonneg_of_overdue hint hdue.1
      refine ⟨⟨after, hentry', hmode', hacqInt', ?_⟩, ?_, ?_, fun _ => hnonneg'⟩
      · rw [htimes, hpacket]
        rintro time ⟨⟩
        rfl
      · rw [htimes]
        rintro time ⟨⟩
        exact Nat.le_refl _
      · rw [htimes]
        refine hspaced.cons fun time htime => ?_
        lift acqInt to ℕ using hnonneg'
        rw [hlast time htime] at hdue
        have hlimit : acqInt < tickModulus := by
          have := hint.2
          simp only [tickModulus]
          omega
        exact_mod_cast interval_of_overdue hlimit ((hclock time htime).trans hle) hdue.1

end

/-- In every run, consecutive requests of a realtime entry are more than its interval apart, and
an entry with a negative interval is never requested. -/
theorem realtime_polling_rate {localtime : ℤ → Tm} {s t : System μ} {actions : List (Action μ)}
    {i : ℕ} {sendTime : TimeToSend} (hentry : s.thread.schedule i = some sendTime)
    (hmode : sendTime.acqMode = "realtime") (hint : IsInt sendTime.acqInt)
    (hrequests : s.requests = []) (hrun : Run (step localtime) s actions t) :
    Spaced sendTime.acqInt (requestTimes i t.requests) ∧
      (sendTime.acqInt < 0 → ∀ request ∈ t.requests, request.entry ≠ i) := by
  have hinit : Invariant sendTime.acqInt i s := by
    have hnone : requestTimes i s.requests = [] := by
      rw [hrequests]
      rfl
    refine ⟨⟨sendTime, hentry, hmode, rfl, ?_⟩, ?_, ?_, fun hsome => absurd hnone hsome⟩
    · simp [hnone]
    · simp [hnone]
    · rw [hnone]
      exact List.IsChain.nil
  have hinv := hrun.invariant hinit fun _ _ _ h hstep => h.step hint hstep
  refine ⟨hinv.spaced, fun hnegative request hrequest hi => ?_⟩
  have hsome : requestTimes i t.requests ≠ [] := by
    simp only [requestTimes, ne_eq, List.map_eq_nil_iff, List.filter_eq_nil_iff]
    intro hnone
    exact hnone request hrequest (decide_eq_true hi)
  exact absurd (hinv.nonneg hsome) (by omega)

def polling (packetSendTime : ℕ) (prev curr : Option ℕ) (isLastOne taskLock : Bool)
    (lastSendTick clock : ℕ) (requests : List Request) : System Unit :=
  ⟨⟨⟨some ⟨[Timeline.entry (Timeline.sendAlways "realtime" packetSendTime 1 false isLastOne)],
    some 0, prev, curr⟩, false, taskLock, 0⟩, lastSendTick⟩, clock, requests⟩

/-- The counter wraps between the two requests. -/
theorem realtime_polling_rate_wrap :
    ∃ t, Run (step Timeline.newYear) (polling 0 none none false false 7 0 [])
        [.poll 4294967000 0, .receive (fun _ _ _ => .ok none) [0x68] 1, .poll 4294969000 2] t ∧
      t.requests = [⟨0, 4294969000⟩, ⟨0, 4294967000⟩] ∧
      Spaced 1 (requestTimes 0 t.requests) ∧
      ((1 : ℤ) < 0 → ∀ request ∈ t.requests, request.entry ≠ 0) := by
  have hfirst : step Timeline.newYear (polling 0 none none false false 7 0 [])
      (.poll 4294967000 0) (polling 4294967000 (some 0) (some 0) true true 4294967000 4294967000
        [⟨0, 4294967000⟩]) :=
    ⟨Nat.zero_le _, _, _, rfl, rfl⟩
  have hreceived : step Timeline.newYear
      (polling 4294967000 (some 0) (some 0) true true 4294967000 4294967000 [⟨0, 4294967000⟩])
      (.receive (fun _ _ _ => .ok none) [0x68] 1)
      (polling 4294967000 (some 0) (some 0) true false 4294967000 4294967000
        [⟨0, 4294967000⟩]) :=
    ⟨_, _, rfl, rfl⟩
  have hsecond : step Timeline.newYear
      (polling 4294967000 (some 0) (some 0) true false 4294967000 4294967000 [⟨0, 4294967000⟩])
      (.poll 4294969000 2) _ :=
    ⟨show 4294967000 ≤ 4294969000 by decide, _, _, rfl, rfl⟩
  have hrun := ((Run.start.next hfirst).next hreceived).next hsecond
  have hentry : (polling 0 none none false false 7 0 []).thread.schedule 0 =
      some (Timeline.sendAlways "realtime" 0 1 false false) := rfl
  have hint : IsInt 1 := ⟨by decide, by decide⟩
  exact ⟨_, hrun, rfl, realtime_polling_rate hentry rfl hint rfl hrun⟩

end IotEdgeAgent.Channel.PollingRate
