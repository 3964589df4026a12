import IotEdgeAgent.Channel.Polls

/-!
# The round robin of a protocol instance

The three positions of an instance follow a rota, which knows the number of polls and the current
entry only. Between two polls the thread may ask for the request of the entry polled last, as often
as it likes, and write through the pointer to that entry's schedule.
-/

namespace IotEdgeAgent.Channel.RoundRobin
open Polls Protocol

variable {μ : Type}

/-- The positions that `protocol_init` sets over the list of a data description. -/
def newInstance (dmInfoList : List (PmDataInfo μ)) : PmInstance μ where
  dmInfoList := dmInfoList
  nextDataInfo := if dmInfoList = [] then none else some 0
  prevDataInfo := none
  currDataInfo := none

inductive Action
  | getNextSendTime
  | getRequestData
  | write (sendTime : TimeToSend)

def perform (handle : PmInstance μ) : Action → PmInstance μ
  | .getNextSendTime => (Protocol.getNextSendTime handle).2
  | .getRequestData => (Protocol.getRequestData handle).2
  | .write sendTime => handle.setTimeToSend handle.prevDataInfo sendTime

structure Rota where
  polls : ℕ
  current : Option ℕ

namespace Rota

def polled (k : ℕ) (r : Rota) : Option ℕ :=
  if r.polls = 0 then none else some ((r.polls - 1) % k)

def turn (k : ℕ) (r : Rota) : Action → Rota
  | .getNextSendTime => { r with polls := r.polls + 1 }
  | .getRequestData => { r with current := (r.polled k).or r.current }
  | .write _ => r

def start : Rota := ⟨0, none⟩

end Rota

def Complete (entries : List (PmDataInfo μ)) : Prop :=
  ∀ info ∈ entries, info.timeToSend.isSome = true ∧ info.dataRequest.isSome = true

instance (entries : List (PmDataInfo μ)) : Decidable (Complete entries) :=
  inferInstanceAs (Decidable (∀ info ∈ entries, _ ∧ _))

structure Follows (entries : List (PmDataInfo μ)) (r : Rota) (pm : PmInstance μ) : Prop where
  length : pm.dmInfoList.length = entries.length
  schedules : ∀ i < entries.length, ∃ sendTime, scheduleAt pm i = some sendTime
  keeps : (newInstance entries).Keeps pm
  nextDataInfo : pm.nextDataInfo = some (r.polls % entries.length)
  prevDataInfo : pm.prevDataInfo = r.polled entries.length
  currDataInfo : pm.currDataInfo = r.current

/-- What the next call of each function returns, and which entry is the current one. -/
structure Fair (entries : List (PmDataInfo μ)) (r : Rota) (pm : PmInstance μ) : Prop where
  sendTime : ∃ before, scheduleAt pm (r.polls % entries.length) = some before ∧
    (getNextSendTime pm).1 =
      some { before with isLastOne := decide (r.polls % entries.length = entries.length - 1) }
  request : ∀ i ∈ r.polled entries.length, ∃ info request, entries[i]? = some info ∧
    info.dataRequest = some request ∧ (getRequestData pm).1 = some request
  currDataInfo : pm.currDataInfo = r.current

theorem succ_mod (n k : ℕ) : (n + 1) % k = if n % k + 1 = k then 0 else n % k + 1 := by
  rw [← Nat.mod_add_mod]
  split_ifs with hlast
  · rw [hlast, Nat.mod_self]
  · rcases Nat.eq_zero_or_pos k with rfl | hpos
    · exact Nat.mod_zero _
    · have hlt := Nat.mod_lt n hpos
      exact Nat.mod_eq_of_lt (by omega)

section
variable {pm : PmInstance μ} {n : ℕ}

theorem getNextSendTime_eq {before : TimeToSend} (hnext : pm.nextDataInfo = some n)
    (hbefore : scheduleAt pm n = some before) :
    getNextSendTime pm =
      let sendTime := { before with isLastOne := decide (n + 1 = pm.dmInfoList.length) }
      (some sendTime, { pm.setTimeToSend (some n) sendTime with
        prevDataInfo := some n
        nextDataInfo := some (if n + 1 = pm.dmInfoList.length then 0 else n + 1) }) := by
  have hitem : (pm.item (some n)).bind PmDataInfo.timeToSend = some before := hbefore
  obtain ⟨info, hinfo⟩ := item_of_scheduleAt hbefore
  have hlt : n < pm.dmInfoList.length := (List.getElem?_eq_some_iff.mp hinfo).1
  rw [getNextSendTime, hnext, hitem]
  by_cases hlast : n + 1 = pm.dmInfoList.length
  · have hnone : pm.nextItem (some n) = none := if_neg (by omega)
    have hhead : pm.headItem = some 0 := if_neg (List.ne_nil_of_length_pos (by omega))
    simp [hnone, hhead, hlast]
  · have hsome : pm.nextItem (some n) = some (n + 1) := if_pos (by omega)
    simp [hsome, hlast]

theorem getRequestData_eq {request : DataRequest}
    (hrequest : pm.requestAt pm.prevDataInfo = some request) :
    getRequestData pm = (some request, { pm with currDataInfo := pm.prevDataInfo }) := by
  have hitem : (pm.item pm.prevDataInfo).bind PmDataInfo.dataRequest = some request := hrequest
  rw [getRequestData, hitem]

end

section
variable {entries : List (PmDataInfo μ)} {r : Rota} {pm : PmInstance μ}

theorem follows_newInstance (hentries : entries ≠ []) (hcomplete : Complete entries) :
    Follows entries Rota.start (newInstance entries) where
  length := rfl
  schedules i hi := by
    obtain ⟨sendTime, hsendTime⟩ :=
      Option.isSome_iff_exists.mp (hcomplete entries[i] (List.getElem_mem hi)).1
    refine ⟨sendTime, ?_⟩
    rw [← hsendTime]
    exact congrArg (Option.bind · PmDataInfo.timeToSend) (List.getElem?_eq_getElem hi)
  keeps := PmInstance.Keeps.refl _
  nextDataInfo := by
    rw [newInstance, if_neg hentries]
    exact congrArg some (Nat.zero_mod _).symm
  prevDataInfo := rfl
  currDataInfo := rfl

namespace Follows

theorem setTimeToSend (h : Follows entries r pm) (i : Option ℕ) (sendTime : TimeToSend) :
    Follows entries r (pm.setTimeToSend i sendTime) := by
  cases i with
  | none => exact h
  | some n =>
    refine ⟨?_, fun j hj => ?_, h.keeps.trans (pm.setTimeToSend_keeps _ _), h.nextDataInfo,
      h.prevDataInfo, h.currDataInfo⟩
    · rw [← h.length]
      exact List.length_modify _ _ _
    · obtain ⟨before, hbefore⟩ := h.schedules j hj
      rw [scheduleAt_setTimeToSend]
      split_ifs
      · obtain ⟨info, hinfo⟩ := item_of_scheduleAt hbefore
        exact ⟨sendTime, by rw [hinfo, Option.map_some]⟩
      · exact ⟨before, hbefore⟩

theorem next_lt (h : Follows entries r pm) (hentries : entries ≠ []) :
    ∃ before, scheduleAt pm (r.polls % entries.length) = some before :=
  h.schedules _ (Nat.mod_lt _ (List.length_pos_iff.mpr hentries))

theorem getNextSendTime (h : Follows entries r pm) (hentries : entries ≠ []) :
    Follows entries { r with polls := r.polls + 1 } (Protocol.getNextSendTime pm).2 := by
  obtain ⟨before, hbefore⟩ := h.next_lt hentries
  rw [getNextSendTime_eq h.nextDataInfo hbefore]
  have hset := h.setTimeToSend (some (r.polls % entries.length))
    { before with isLastOne := decide (r.polls % entries.length + 1 = pm.dmInfoList.length) }
  refine ⟨hset.length, hset.schedules, hset.keeps, ?_, rfl, hset.currDataInfo⟩
  rw [h.length, succ_mod]

theorem request (h : Follows entries r pm) (hentries : entries ≠ []) (hcomplete : Complete entries)
    {i : ℕ} (hi : i ∈ r.polled entries.length) :
    ∃ info request, entries[i]? = some info ∧ info.dataRequest = some request ∧
      pm.requestAt pm.prevDataInfo = some request := by
  rw [h.prevDataInfo, hi, (h.keeps (some i)).2]
  have hlt : i < entries.length := by
    rw [Rota.polled] at hi
    split_ifs at hi
    · cases hi
    · cases hi
      exact Nat.mod_lt _ (List.length_pos_iff.mpr hentries)
  obtain ⟨request, hrequest⟩ :=
    Option.isSome_iff_exists.mp (hcomplete entries[i] (List.getElem_mem hlt)).2
  have hitem : (newInstance entries).item (some i) = some entries[i] :=
    List.getElem?_eq_getElem hlt
  exact ⟨entries[i], request, List.getElem?_eq_getElem hlt, hrequest, by
    rw [PmInstance.requestAt, hitem, Option.bind_some, hrequest]⟩

theorem getRequestData (h : Follows entries r pm) (hentries : entries ≠ [])
    (hcomplete : Complete entries) :
    Follows entries { r with current := (r.polled entries.length).or r.current }
      (Protocol.getRequestData pm).2 := by
  cases hpolled : r.polled entries.length with
  | none =>
    have hprev : pm.prevDataInfo = none := h.prevDataInfo.trans hpolled
    have hnull : Protocol.getRequestData pm = (none, pm) := by
      rw [Protocol.getRequestData, hprev]
      rfl
    rw [hnull]
    exact h
  | some i =>
    obtain ⟨info, request, -, -, hrequest⟩ := h.request hentries hcomplete hpolled
    rw [getRequestData_eq hrequest]
    exact ⟨h.length, h.schedules, h.keeps, h.nextDataInfo, h.prevDataInfo,
      h.prevDataInfo.trans hpolled⟩

theorem turn (h : Follows entries r pm) (hentries : entries ≠ []) (hcomplete : Complete entries)
    (a : Action) : Follows entries (r.turn entries.length a) (perform pm a) := by
  cases a with
  | getNextSendTime => exact h.getNextSendTime hentries
  | getRequestData => exact h.getRequestData hentries hcomplete
  | write sendTime => exact h.setTimeToSend pm.prevDataInfo sendTime

theorem foldl (h : Follows entries r pm) (hentries : entries ≠ []) (hcomplete : Complete entries)
    (actions : List Action) :
    Follows entries (actions.foldl (Rota.turn entries.length) r) (actions.foldl perform pm) := by
  induction actions generalizing r pm with
  | nil => exact h
  | cons a actions ih => exact ih (h.turn hentries hcomplete a)

theorem fair (h : Follows entries r pm) (hentries : entries ≠ []) (hcomplete : Complete entries) :
    Fair entries r pm := by
  refine ⟨?_, fun i hi => ?_, h.currDataInfo⟩
  · obtain ⟨before, hbefore⟩ := h.next_lt hentries
    have hpos := List.length_pos_iff.mpr hentries
    have hlast : (r.polls % entries.length + 1 = entries.length) =
        (r.polls % entries.length = entries.length - 1) := propext (by omega)
    refine ⟨before, hbefore, ?_⟩
    simp only [getNextSendTime_eq h.nextDataInfo hbefore, h.length, hlast]
  · obtain ⟨info, request, hinfo, hrequest, hat⟩ := h.request hentries hcomplete hi
    exact ⟨info, request, hinfo, hrequest, by rw [getRequestData_eq hat]⟩

end Follows

/-- Whatever the calls before were, the next poll is that of the entry whose turn it is, the
request is that of the entry polled last, and the current entry is the one requested last. -/
theorem fair_round_robin (hentries : entries ≠ []) (hcomplete : Complete entries)
    (actions : List Action) :
    Fair entries (actions.foldl (Rota.turn entries.length) Rota.start)
      (actions.foldl perform (newInstance entries)) :=
  ((follows_newInstance hentries hcomplete).foldl hentries hcomplete actions).fair hentries
    hcomplete

end

def twoEntries : List (PmDataInfo Unit) :=
  [Timeline.entry (Timeline.sendAlways "realtime" 0 1 false false),
    Timeline.entry (Timeline.sendAlways "schfrz" 0 5 false false)]

/-- Behind the second entry it is the turn of the first one again. -/
theorem fair_round_robin_two :
    Fair twoEntries ⟨2, some 1⟩ ([.getNextSendTime, .getRequestData, .getNextSendTime,
      .getRequestData].foldl perform (newInstance twoEntries)) :=
  fair_round_robin (List.cons_ne_nil _ _) (by decide)
    [.getNextSendTime, .getRequestData, .getNextSendTime, .getRequestData]

end IotEdgeAgent.Channel.RoundRobin
