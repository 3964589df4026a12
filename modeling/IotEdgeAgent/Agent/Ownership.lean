import IotEdgeAgent.Library.Custody
import IotEdgeAgent.Library.Runs
import IotEdgeAgent.Agent.ChannelHistory

/-!
# Who owns the ports and the protocol instances

A port belongs to the map of its channel, and a protocol instance to the channel it is attached
to. `channel_instance_construct` drops a list of maps without closing its ports, and
`map_channel_and_model` attaches one instance to every channel of its name. The ledger of either
kind of handle stays balanced in the runs where neither happens.
-/

namespace IotEdgeAgent.Agent

open Ledger Runs

variable {β : Type*}

def pmHandles (mapList : List PmChannelMap) : List ℕ :=
  mapList.flatMap fun map => map.pmHandle.toList.map (·.handle)

def xioHandles (mapList : List PmChannelMap) : List ℕ := mapList.map (·.xioHandle)

def currentMaps (g : Globals) : List PmChannelMap := g.gPmMapList.getD []

def step (construct : InterDescription → β → Bool) : Globals → Message β → Globals → Prop :=
  fun g message g' => g' = receive construct g message

/-- An instance that is not destroyed is held by exactly one channel, and none is destroyed
twice. -/
structure PmOwned (g : Globals) : Prop where
  held : ∀ handle < g.pmCreated, handle ∉ g.pmDestroyed →
    (pmHandles (currentMaps g)).count handle = 1
  once : g.pmDestroyed.Nodup

def XioOwned (g : Globals) : Prop :=
  ∀ handle < g.xioCreated, handle ∉ g.xioDestroyed →
    (xioHandles (currentMaps g)).count handle = 1

def AttachesOnce (construct : InterDescription → β → Bool) (g : Globals) : Message β → Prop
  | .thing (.body models) => ∀ mapList, g.gPmMapList = some mapList →
      ∀ name ∈ accepted construct models, (keyWords mapList).count name = 1
  | _ => True

def FailsFirst (g : Globals) : Message β → Prop
  | .channel ⟨some channels, true⟩ =>
      g.gChannelParseError = true ∨ (∃ channel ∈ channels, opens channel = false) →
        channels.takeWhile opens = []
  | _ => True

def PmBalanced (g : Globals) (mapList : List PmChannelMap) : Prop :=
  Balanced g.pmCreated (pmHandles mapList) g.pmDestroyed

def XioBalanced (g : Globals) (mapList : List PmChannelMap) : Prop :=
  Balanced g.xioCreated (xioHandles mapList) g.xioDestroyed

def PmInv (g : Globals) : Prop := PmBalanced g (currentMaps g)

def XioInv (g : Globals) : Prop := XioBalanced g (currentMaps g)

section Destroy
variable {g : Globals} {mapList : List PmChannelMap}

theorem currentMaps_of_some (h : g.gPmMapList = some mapList) : currentMaps g = mapList := by
  rw [currentMaps, h, Option.getD_some]

theorem mapListDestroy_eq :
    mapListDestroy g mapList = { g with
      pmDestroyed := g.pmDestroyed ++ pmHandles mapList
      xioDestroyed := g.xioDestroyed ++ xioHandles mapList } := by
  induction mapList generalizing g with
  | nil => simp [mapListDestroy, pmHandles, xioHandles]
  | cons map mapList ih =>
    rw [mapListDestroy, ih]
    simp [protocolDestroy, xioDestroy, pmHandles, xioHandles]

theorem PmBalanced.destroy (b : PmBalanced g mapList) :
    PmBalanced (mapListDestroy g mapList) [] := by
  rw [mapListDestroy_eq]
  exact b.release_all

theorem XioBalanced.destroy (b : XioBalanced g mapList) :
    XioBalanced (mapListDestroy g mapList) [] := by
  rw [mapListDestroy_eq]
  exact b.release_all

theorem replaced_eq (g : Globals) :
    ∃ gThreadCount, replaced g = { g with
      gThreadCount := gThreadCount
      pmDestroyed := g.pmDestroyed ++ pmHandles (currentMaps g)
      xioDestroyed := g.xioDestroyed ++ xioHandles (currentMaps g) } := by
  unfold replaced
  split
  · rename_i hnone
    have hempty : currentMaps g = [] := by rw [currentMaps, hnone, Option.getD_none]
    refine ⟨g.gThreadCount, ?_⟩
    simp [hempty, pmHandles, xioHandles]
  · rename_i mapList hlist
    refine ⟨0, ?_⟩
    rw [mapListDestroy_eq, currentMaps_of_some hlist]

theorem PmInv.replaced (b : PmInv g) : PmBalanced (replaced g) [] := by
  obtain ⟨gThreadCount, hreplaced⟩ := replaced_eq g
  rw [hreplaced]
  exact b.release_all

theorem XioInv.replaced (b : XioInv g) : XioBalanced (replaced g) [] := by
  obtain ⟨gThreadCount, hreplaced⟩ := replaced_eq g
  rw [hreplaced]
  exact b.release_all

theorem PmBalanced.testThreads (b : PmBalanced g mapList) (result : Bool) :
    PmInv (testThreads g mapList result).1 := by
  unfold Agent.testThreads
  split_ifs
  · exact b.destroy
  · exact b

theorem XioBalanced.testThreads (b : XioBalanced g mapList) (result : Bool) :
    XioInv (testThreads g mapList result).1 := by
  unfold Agent.testThreads
  split_ifs
  · exact b.destroy
  · exact b

end Destroy

section Channels
variable {g : Globals} {mapList : List PmChannelMap} {channels : Channels}

theorem initChannels_pm (g : Globals) (mapList : List PmChannelMap) (channels : Channels) :
    (initChannels g mapList channels).1.pmCreated = g.pmCreated ∧
      (initChannels g mapList channels).1.pmDestroyed = g.pmDestroyed ∧
      pmHandles (initChannels g mapList channels).2 = pmHandles mapList := by
  induction channels generalizing g mapList with
  | nil => exact ⟨rfl, rfl, rfl⟩
  | cons channel channels ih =>
    cases hopens : opens channel with
    | true =>
      simp only [initChannels, channelInitByList_opens hopens]
      obtain ⟨hcreated, hdestroyed, hhandles⟩ :=
        ih { g with xioCreated := g.xioCreated + 1 }
          (mapList ++ [openedMap g.xioCreated channel.1])
      refine ⟨hcreated, hdestroyed, hhandles.trans ?_⟩
      simp [pmHandles, openedMap]
    | false =>
      obtain ⟨g', hinit, hg'⟩ := channelInitByList_fails g mapList hopens
      simp only [initChannels, hinit]
      rcases hg' with rfl | rfl <;> simp

theorem XioBalanced.initChannels (b : XioBalanced g mapList) :
    XioBalanced (initChannels g mapList channels).1 (initChannels g mapList channels).2 := by
  induction channels generalizing g mapList with
  | nil => exact b
  | cons channel channels ih =>
    cases hopens : opens channel with
    | true =>
      simp only [Agent.initChannels, channelInitByList_opens hopens]
      apply ih
      have hissued : Balanced (g.xioCreated + 1) (xioHandles mapList ++ [g.xioCreated])
          g.xioDestroyed := by
        apply Balanced.issue
        rw [List.append_nil]
        exact b
      simpa [XioBalanced, xioHandles, openedMap] using hissued
    | false =>
      obtain ⟨g', hinit, hg'⟩ := channelInitByList_fails g mapList hopens
      simp only [Agent.initChannels, hinit]
      rcases hg' with rfl | rfl
      · exact b
      · exact b.pass

theorem initChannels_first_fails (g : Globals) (mapList : List PmChannelMap)
    (h : channels.takeWhile opens = []) : (initChannels g mapList channels).2 = mapList := by
  cases channels with
  | nil => rfl
  | cons channel channels =>
    have hfails : opens channel = false := by
      by_contra hopens
      rw [List.takeWhile_cons, if_pos (Bool.not_eq_false _ ▸ hopens)] at h
      cases h
    obtain ⟨g', hinit, -⟩ := channelInitByList_fails g mapList hfails
    simp only [initChannels, hinit]

end Channels

section Models
variable {construct : InterDescription → β → Bool} {g : Globals} {pm : PmInstance}
  {mapList : List PmChannelMap} {models : Models β}

theorem mapChannels_xioHandles (g : Globals) (pm : PmInstance) (mapList : List PmChannelMap)
    (threadCreated : ℕ → Bool) (i : ℕ) :
    xioHandles (mapChannels pm threadCreated i g mapList).2 = xioHandles mapList := by
  induction mapList generalizing g i with
  | nil => rfl
  | cons map mapList ih =>
    have hmap : (mapChannelAndModel g pm map (threadCreated i)).2.xioHandle = map.xioHandle := by
      unfold mapChannelAndModel attachModel
      split_ifs <;> rfl
    rw [mapChannels, xioHandles, List.map_cons, hmap]
    exact congrArg (map.xioHandle :: ·) (ih _ (i + 1))

theorem constructModels_xioHandles (g : Globals) (mapList : List PmChannelMap) :
    xioHandles (constructModels construct g mapList models).2 = xioHandles mapList := by
  induction models generalizing g mapList with
  | nil => rfl
  | cons element models ih =>
    rw [constructModels, ih]
    cases haccept : acceptedName construct element with
    | none => rw [constructModel_refused g mapList haccept]
    | some name =>
      obtain ⟨model, outcome, -, hmapped⟩ := constructModel_accepted g mapList haccept
      rw [hmapped, mapChannels_xioHandles]

theorem XioBalanced.constructModels (b : XioBalanced g mapList) :
    XioBalanced (constructModels construct g mapList models).1
      (constructModels construct g mapList models).2 := by
  obtain ⟨_, _, _, hframe⟩ := constructModels_frame construct g mapList models
  rw [XioBalanced, constructModels_xioHandles, hframe]
  exact b

theorem mapChannels_other (threadCreated : ℕ → Bool) (i : ℕ)
    (h : pm.modelName ∉ keyWords mapList) :
    mapChannels pm threadCreated i g mapList = (g, mapList) := by
  induction mapList generalizing g i with
  | nil => rfl
  | cons map mapList ih =>
    rw [keyWords, List.map_cons, List.mem_cons, not_or] at h
    rw [mapChannels, mapChannelAndModel, if_neg h.1, ih (i + 1) h.2]

theorem mapChannels_single (g : Globals) (threadCreated : ℕ → Bool) (i : ℕ)
    (h : (keyWords mapList).count pm.modelName = 1) :
    ∃ front map map' back, mapList = front ++ map :: back ∧
      (mapChannels pm threadCreated i g mapList).2 = front ++ map' :: back ∧
      map'.pmHandle = some pm ∧
      (mapChannels pm threadCreated i g mapList).1.pmCreated = g.pmCreated ∧
      (mapChannels pm threadCreated i g mapList).1.pmDestroyed =
        g.pmDestroyed ++ map.pmHandle.toList.map (·.handle) := by
  induction mapList generalizing g i with
  | nil => cases h
  | cons map mapList ih =>
    rw [keyWords, List.map_cons] at h
    by_cases hname : pm.modelName = map.keyWord
    · rw [hname, List.count_cons_self, Nat.add_eq_right, List.count_eq_zero, ← hname] at h
      rw [mapChannels, mapChannels_other threadCreated (i + 1) h]
      refine ⟨[], map, _, mapList, rfl, rfl, ?_⟩
      rw [mapChannelAndModel, if_pos hname]
      unfold attachModel
      split_ifs <;> exact ⟨rfl, rfl, rfl⟩
    · rw [List.count_cons_of_ne (Ne.symm hname)] at h
      obtain ⟨front, found, found', back, hsplit, hmapped, hrest⟩ := ih g (i + 1) h
      refine ⟨map :: front, found, found', back, by rw [hsplit]; rfl, ?_, ?_⟩
      · rw [mapChannels, mapChannelAndModel, if_neg hname, hmapped]
        rfl
      · rw [mapChannels, mapChannelAndModel, if_neg hname]
        exact hrest

theorem PmBalanced.mapChannels (threadCreated : ℕ → Bool) {name : String}
    (b : PmBalanced g mapList) (h : (keyWords mapList).count name = 1) :
    PmBalanced
      (mapChannels ⟨g.pmCreated, name⟩ threadCreated 0
        { g with pmCreated := g.pmCreated + 1, gThreadCount := 0 } mapList).1
      (mapChannels ⟨g.pmCreated, name⟩ threadCreated 0
        { g with pmCreated := g.pmCreated + 1, gThreadCount := 0 } mapList).2 := by
  obtain ⟨front, map, map', back, rfl, hmapped, hattached, hcreated, hdestroyed⟩ :=
    @mapChannels_single ⟨g.pmCreated, name⟩ mapList
      { g with pmCreated := g.pmCreated + 1, gThreadCount := 0 } threadCreated 0 h
  have hbefore : Balanced g.pmCreated
      (pmHandles front ++ (map.pmHandle.toList.map (·.handle) ++ pmHandles back))
      g.pmDestroyed := by
    simpa [PmBalanced, pmHandles] using b
  have hreleased : Balanced g.pmCreated (pmHandles front ++ pmHandles back)
      (g.pmDestroyed ++ map.pmHandle.toList.map (·.handle)) := by
    cases hold : map.pmHandle with
    | none => simpa [hold] using hbefore
    | some old =>
      rw [hold] at hbefore
      exact Balanced.release hbefore
  rw [PmBalanced, hmapped, hcreated, hdestroyed]
  simpa [pmHandles, hattached] using hreleased.issue

theorem PmBalanced.constructModels (b : PmBalanced g mapList)
    (h : ∀ name ∈ accepted construct models, (keyWords mapList).count name = 1) :
    PmBalanced (constructModels construct g mapList models).1
      (constructModels construct g mapList models).2 := by
  induction models generalizing g mapList with
  | nil => exact b
  | cons element models ih =>
    rw [Agent.constructModels]
    cases haccept : acceptedName construct element with
    | none =>
      rw [constructModel_refused g mapList haccept]
      rw [accepted, List.filterMap_cons_none haccept] at h
      exact ih b h
    | some name =>
      obtain ⟨model, outcome, -, hmapped⟩ := constructModel_accepted g mapList haccept
      rw [accepted, List.filterMap_cons_some haccept] at h
      rw [hmapped]
      apply ih
      · exact b.mapChannels _ (h name List.mem_cons_self)
      · intro other hother
        rw [mapChannels_keyWords]
        exact h other (List.mem_cons_of_mem _ hother)

end Models

inductive Received (construct : InterDescription → β → Bool) (g : Globals) :
    Message β → Globals → Prop
  | ignored (message : Message β) : Received construct g message g
  | noList (channels : Channels) :
      Received construct g (.channel ⟨some channels, false⟩) { replaced g with gPmMapList := none }
  | refused (channels : Channels)
      (hflag : (initChannels (replaced g) [] channels).1.gChannelParseError = true) :
      Received construct g (.channel ⟨some channels, true⟩)
        { (initChannels (replaced g) [] channels).1 with gPmMapList := none }
  | opened (channels : Channels) :
      Received construct g (.channel ⟨some channels, true⟩)
        { (initChannels (replaced g) [] channels).1 with
          gPmMapList := some (initChannels (replaced g) [] channels).2 }
  | noBody (mapList : List PmChannelMap) (hlist : g.gPmMapList = some mapList) :
      Received construct g (.thing .noBody) (testThreads g mapList false).1
  | attached (mapList : List PmChannelMap) (hlist : g.gPmMapList = some mapList)
      (models : Models β) :
      Received construct g (.thing (.body models))
        (testThreads (constructModels construct g mapList models).1
          (constructModels construct g mapList models).2 true).1

theorem receive_cases (construct : InterDescription → β → Bool) (g : Globals)
    (message : Message β) : Received construct g message (receive construct g message) := by
  cases message with
  | channel message =>
    obtain ⟨channelList, listCreated⟩ := message
    cases channelList with
    | none => exact .ignored _
    | some channels =>
      cases listCreated with
      | false =>
        rw [receive, channelInstanceConstruct_noList]
        exact .noList channels
      | true =>
        rw [receive, channelInstanceConstruct_list]
        split_ifs with hflag
        · exact .refused channels hflag
        · exact .opened channels
  | thing message =>
    rw [receive]
    cases hlist : g.gPmMapList with
    | none =>
      simp only [thingInstanceConstruct, hlist]
      exact .ignored _
    | some mapList =>
      cases message with
      | noObject =>
        simp only [thingInstanceConstruct, hlist]
        exact .ignored _
      | noBody =>
        simp only [thingInstanceConstruct, hlist]
        exact .noBody mapList hlist
      | body models =>
        simp only [thingInstanceConstruct, hlist]
        exact .attached mapList hlist models

section Receive
variable {construct : InterDescription → β → Bool} {g g' : Globals} {message : Message β}
  {messages : List (Message β)} {mapList : List PmChannelMap}

theorem PmInv.received (b : PmInv g) (h : AttachesOnce construct g message)
    (hreceived : Received construct g message g') : PmInv g' := by
  cases hreceived with
  | ignored message => exact b
  | noList channels => exact b.replaced
  | refused channels hflag =>
    obtain ⟨hcreated, hdestroyed, -⟩ := initChannels_pm (Agent.replaced g) [] channels
    have hempty := b.replaced
    rw [PmBalanced, ← hcreated, ← hdestroyed] at hempty
    exact hempty
  | opened channels =>
    obtain ⟨hcreated, hdestroyed, hhandles⟩ := initChannels_pm (Agent.replaced g) [] channels
    have hempty := b.replaced
    rw [PmBalanced, ← hcreated, ← hdestroyed, ← hhandles] at hempty
    exact hempty
  | noBody mapList hlist =>
    rw [PmInv, currentMaps_of_some hlist] at b
    exact b.testThreads false
  | attached mapList hlist models =>
    rw [PmInv, currentMaps_of_some hlist] at b
    exact (b.constructModels (h mapList hlist)).testThreads true

theorem XioInv.received (b : XioInv g) (h : FailsFirst g message)
    (hreceived : Received construct g message g') : XioInv g' := by
  cases hreceived with
  | ignored message => exact b
  | noList channels => exact b.replaced
  | refused channels hflag =>
    rw [initChannels_parseError, replaced_parseError] at hflag
    have hloop := @XioBalanced.initChannels _ _ channels b.replaced
    rw [initChannels_first_fails _ _ (h hflag)] at hloop
    exact hloop
  | opened channels => exact @XioBalanced.initChannels _ _ channels b.replaced
  | noBody mapList hlist =>
    rw [XioInv, currentMaps_of_some hlist] at b
    exact b.testThreads false
  | attached mapList hlist models =>
    rw [XioInv, currentMaps_of_some hlist] at b
    exact b.constructModels.testThreads true

/-- In every run in which each accepted model has exactly one channel of its name, every instance
has one owner until it is destroyed, once. -/
theorem pmOwned_of_attachesOnce
    (hrun : Run (Guarded (AttachesOnce construct) (step construct)) started messages g) :
    PmOwned g := by
  have hinv : PmInv g := by
    apply hrun.invariant
    · exact balanced_zero
    · rintro g message g' hinv ⟨hguard, rfl⟩
      exact hinv.received hguard (receive_cases construct g message)
  exact ⟨fun _ hcreated hkept => Balanced.count_held hinv hcreated hkept,
    Balanced.nodup_released hinv⟩

/-- In every run in which a message that fails has opened no channel, every port has one owner
until it is destroyed. -/
theorem xioOwned_of_failsFirst
    (hrun : Run (Guarded FailsFirst (step construct)) started messages g) : XioOwned g := by
  have hinv : XioInv g := by
    apply hrun.invariant
    · exact balanced_zero
    · rintro g message g' hinv ⟨hguard, rfl⟩
      exact hinv.received hguard (receive_cases construct g message)
  exact fun _ hcreated hkept => Balanced.count_held hinv hcreated hkept

end Receive

def waterPort : ChannelModelInfo × ChannelOutcome := (⟨"socket", "water"⟩, ⟨true, true, true, true⟩)

def openPorts (channels : Channels) : Message Unit := .channel ⟨some channels, true⟩

def attach (names : List String) : Message Unit := .thing (.body (names.map modelNamed))

theorem pmOwned_of_attachesOnce_replaced :
    ∃ g, Run (Guarded (AttachesOnce anyBody) (step anyBody)) started
        [openPorts [serialPort, waterPort], attach ["meter", "water"], attach ["meter"]] g ∧
      pmHandles (currentMaps g) = [2, 1] ∧ g.pmDestroyed = [0] ∧ PmOwned g := by
  have hopened : AttachesOnce anyBody (after anyBody [openPorts [serialPort, waterPort]])
      (attach ["meter", "water"]) := by
    rintro mapList ⟨⟩
    decide
  have hattached : AttachesOnce anyBody
      (after anyBody [openPorts [serialPort, waterPort], attach ["meter", "water"]])
      (attach ["meter"]) := by
    rintro mapList ⟨⟩
    decide
  have hrun : Run (Guarded (AttachesOnce anyBody) (step anyBody)) started
      [openPorts [serialPort, waterPort], attach ["meter", "water"], attach ["meter"]] _ :=
    ((Run.start.next ⟨trivial, rfl⟩).next ⟨hopened, rfl⟩).next ⟨hattached, rfl⟩
  exact ⟨_, hrun, rfl, rfl, pmOwned_of_attachesOnce hrun⟩

/-- Two channels of one name share the instance, and the next channel message destroys it twice. -/
theorem shared_instance_destroyed_twice :
    ∃ g shared, Run (step anyBody) started [openPorts [serialPort, serialPort], attach ["meter"]]
        shared ∧
      Run (step anyBody) started
        [openPorts [serialPort, serialPort], attach ["meter"], openPorts []] g ∧
      shared.pmCreated = 1 ∧ pmHandles (currentMaps shared) = [0, 0] ∧
      g.pmDestroyed = [0, 0] ∧ ¬ PmOwned shared ∧ ¬ PmOwned g := by
  have hshared : Run (step anyBody) started
      [openPorts [serialPort, serialPort], attach ["meter"]] _ := (Run.start.next rfl).next rfl
  refine ⟨_, _, hshared, hshared.next rfl, rfl, rfl, rfl, fun h => ?_, fun h => ?_⟩
  · have hheld := h.held 0 (by decide) (by decide)
    revert hheld
    decide
  · have honce := h.once
    revert honce
    decide

theorem xioOwned_of_failsFirst_replaced :
    ∃ g, Run (Guarded FailsFirst (step anyBody)) started
        [openPorts [serialPort, waterPort], attach ["meter"], openPorts [badPort, waterPort]] g ∧
      g.xioCreated = 2 ∧ g.xioDestroyed = [0, 1] ∧ XioOwned g := by
  have hopen : FailsFirst started (openPorts [serialPort, waterPort]) :=
    fun hfails => absurd hfails (by decide)
  have hrun : Run (Guarded FailsFirst (step anyBody)) started
      [openPorts [serialPort, waterPort], attach ["meter"], openPorts [badPort, waterPort]] _ :=
    ((Run.start.next ⟨hopen, rfl⟩).next ⟨trivial, rfl⟩).next ⟨fun _ => rfl, rfl⟩
  exact ⟨_, hrun, rfl, rfl, xioOwned_of_failsFirst hrun⟩

/-- The second channel of the message fails, and the port of the first stays open. -/
theorem port_left_open :
    ∃ g, Run (step anyBody) started [openPorts [serialPort, badPort]] g ∧
      g.xioCreated = 1 ∧ g.xioDestroyed = [] ∧ g.gPmMapList = none ∧ ¬ XioOwned g := by
  refine ⟨_, Run.start.next rfl, rfl, rfl, rfl, fun h => ?_⟩
  have hheld := h 0 (by decide) (by decide)
  revert hheld
  decide

end IotEdgeAgent.Agent
