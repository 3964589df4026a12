import Mathlib.Data.List.TakeWhile
import IotEdgeAgent.Agent.ModelOrder

/-!
# What a channel-model message inherits

`channel_init_by_list` reports a channel that could not be opened through a global flag, and
`channel_instance_construct` reads that flag behind its loop. Nothing ever clears it, so the
verdict on a message depends on the channels of all messages before it.
-/

namespace IotEdgeAgent.Agent

variable {β : Type*} (construct : InterDescription → β → Bool)

inductive Message (β : Type*)
  | channel (message : ChannelMessage)
  | thing (message : ThingMessage β)

def receive (g : Globals) : Message β → Globals
  | .channel message => (channelInstanceConstruct g message).1
  | .thing message => (thingInstanceConstruct construct g message).1

def after (history : List (Message β)) : Globals := history.foldl (receive construct) started

def opens (channel : ChannelModelInfo × ChannelOutcome) : Bool :=
  (channel.1.portType = "serial" || channel.1.portType = "socket") && channel.2.created &&
    channel.2.allocated && channel.2.opened && channel.2.added

def addedChannels (channels : Channels) (listCreated : Bool) : Channels :=
  if listCreated then channels.takeWhile opens else []

def ChannelFailed : Message β → Prop
  | .channel ⟨some channels, true⟩ => ∃ channel ∈ channels, opens channel = false
  | _ => False

section Flag
variable {construct} {g : Globals} {mapList : List PmChannelMap}
  {channel : ChannelModelInfo × ChannelOutcome} {channels : Channels}

theorem channelInitByList_opens (h : opens channel = true) :
    channelInitByList g mapList channel.1 channel.2 =
      ({ g with xioCreated := g.xioCreated + 1 },
        some (mapList ++ [openedMap g.xioCreated channel.1])) := by
  obtain ⟨⟨portType, modelNmae⟩, ⟨created, allocated, opened, added⟩⟩ := channel
  simp only [opens, Bool.and_eq_true, Bool.or_eq_true, decide_eq_true_eq] at h
  obtain ⟨⟨⟨⟨htype, rfl⟩, rfl⟩, rfl⟩, rfl⟩ := h
  rw [channelInitByList, if_neg fun hother => htype.elim hother.1 hother.2]
  rfl

theorem channelInitByList_fails (g : Globals) (mapList : List PmChannelMap)
    (h : opens channel = false) :
    ∃ g', channelInitByList g mapList channel.1 channel.2 = (g', none) ∧
      (g' = { g with gChannelParseError := true } ∨
        g' = { g with
          gChannelParseError := true
          xioCreated := g.xioCreated + 1
          xioDestroyed := g.xioDestroyed ++ [g.xioCreated] }) := by
  obtain ⟨⟨portType, modelNmae⟩, ⟨created, allocated, opened, added⟩⟩ := channel
  unfold channelInitByList
  split_ifs with htype hcreated hallocated hopened hadded
  · exact ⟨_, rfl, .inl rfl⟩
  · exact ⟨_, rfl, .inl rfl⟩
  · exact ⟨_, rfl, .inr rfl⟩
  · exact ⟨_, rfl, .inr rfl⟩
  · exact ⟨_, rfl, .inr rfl⟩
  · have htype' : portType = "serial" ∨ portType = "socket" := by
      by_contra hother
      exact htype (not_or.mp hother)
    simp_all [opens]

theorem initChannels_parseError (g : Globals) (mapList : List PmChannelMap)
    (channels : Channels) :
    (initChannels g mapList channels).1.gChannelParseError = true ↔
      g.gChannelParseError = true ∨ ∃ channel ∈ channels, opens channel = false := by
  induction channels generalizing g mapList with
  | nil => simp [initChannels]
  | cons channel channels ih =>
    cases hopens : opens channel with
    | true =>
      simp only [initChannels, channelInitByList_opens hopens, ih, List.mem_cons, exists_eq_or_imp,
        hopens, Bool.true_eq_false, false_or]
    | false =>
      obtain ⟨g', hinit, hg'⟩ := channelInitByList_fails g mapList hopens
      have hset : g'.gChannelParseError = true := by
        rcases hg' with rfl | rfl <;> rfl
      simp only [initChannels, hinit, hset, true_iff]
      exact .inr ⟨channel, List.mem_cons_self, hopens⟩

theorem mapListDestroy_parseError :
    (mapListDestroy g mapList).gChannelParseError = g.gChannelParseError := by
  induction mapList generalizing g with
  | nil => rfl
  | cons map mapList ih => exact ih

theorem mapChannels_frame (pm : PmInstance) (threadCreated : ℕ → Bool) (i : ℕ) (g : Globals)
    (mapList : List PmChannelMap) :
    ∃ pmDestroyed gThreadCount, (mapChannels pm threadCreated i g mapList).1 =
      { g with pmDestroyed := pmDestroyed, gThreadCount := gThreadCount } := by
  induction mapList generalizing g i with
  | nil => exact ⟨_, _, rfl⟩
  | cons map mapList ih =>
    obtain ⟨pmDestroyed, gThreadCount, hrest⟩ :=
      ih (i + 1) (mapChannelAndModel g pm map (threadCreated i)).1
    refine ⟨pmDestroyed, gThreadCount, hrest.trans ?_⟩
    unfold mapChannelAndModel attachModel
    split_ifs <;> rfl

theorem constructModels_frame (construct : InterDescription → β → Bool) (g : Globals)
    (mapList : List PmChannelMap) (models : Models β) :
    ∃ pmCreated pmDestroyed gThreadCount, (constructModels construct g mapList models).1 =
      { g with
        pmCreated := pmCreated
        pmDestroyed := pmDestroyed
        gThreadCount := gThreadCount } := by
  induction models generalizing g mapList with
  | nil => exact ⟨_, _, _, rfl⟩
  | cons element models ih =>
    obtain ⟨pmCreated, pmDestroyed, gThreadCount, hrest⟩ :=
      ih (constructModel construct g mapList element).1
        (constructModel construct g mapList element).2
    refine ⟨pmCreated, pmDestroyed, gThreadCount, hrest.trans ?_⟩
    cases haccept : acceptedName construct element with
    | none => rw [constructModel_refused g mapList haccept]
    | some name =>
      obtain ⟨model, outcome, -, hmapped⟩ := constructModel_accepted g mapList haccept
      obtain ⟨_, _, hframe⟩ := mapChannels_frame ⟨g.pmCreated, name⟩ outcome.threadCreated 0
        { g with pmCreated := g.pmCreated + 1, gThreadCount := 0 } mapList
      rw [hmapped, hframe]

theorem testThreads_parseError (result : Bool) :
    (testThreads g mapList result).1.gChannelParseError = g.gChannelParseError := by
  unfold testThreads
  split_ifs
  · exact mapListDestroy_parseError
  · rfl

theorem thingInstanceConstruct_parseError (message : ThingMessage β) :
    (thingInstanceConstruct construct g message).1.gChannelParseError = g.gChannelParseError := by
  unfold thingInstanceConstruct
  split
  · rfl
  · rfl
  · exact testThreads_parseError _
  · rename_i mapList models _
    obtain ⟨_, _, _, hframe⟩ := constructModels_frame construct g mapList models
    exact (testThreads_parseError _).trans (by rw [hframe])

def replaced (g : Globals) : Globals :=
  match g.gPmMapList with
  | none => g
  | some mapList => { mapListDestroy g mapList with gThreadCount := 0 }

theorem replaced_parseError (g : Globals) :
    (replaced g).gChannelParseError = g.gChannelParseError := by
  unfold replaced
  split
  · rfl
  · exact mapListDestroy_parseError

theorem channelInstanceConstruct_noList (g : Globals) (channels : Channels) :
    channelInstanceConstruct g ⟨some channels, false⟩ =
      ({ replaced g with gPmMapList := none }, false) := by
  simp only [channelInstanceConstruct, Bool.not_false, if_true]
  rfl

theorem channelInstanceConstruct_list (g : Globals) (channels : Channels) :
    channelInstanceConstruct g ⟨some channels, true⟩ =
      if (initChannels (replaced g) [] channels).1.gChannelParseError then
        ({ (initChannels (replaced g) [] channels).1 with gPmMapList := none }, false)
      else
        ({ (initChannels (replaced g) [] channels).1 with
            gPmMapList := some (initChannels (replaced g) [] channels).2 }, true) := by
  simp only [channelInstanceConstruct, Bool.not_true, Bool.false_eq_true, if_false]
  rfl

theorem receive_parseError (message : Message β) :
    (receive construct g message).gChannelParseError = true ↔
      g.gChannelParseError = true ∨ ChannelFailed message := by
  cases message with
  | thing message =>
    rw [receive, thingInstanceConstruct_parseError]
    simp [ChannelFailed]
  | channel message =>
    obtain ⟨channelList, listCreated⟩ := message
    cases channelList with
    | none => simp [receive, channelInstanceConstruct, ChannelFailed]
    | some channels =>
      cases listCreated with
      | false =>
        rw [receive, channelInstanceConstruct_noList, replaced_parseError]
        simp [ChannelFailed]
      | true =>
        have hloop := initChannels_parseError (replaced g) [] channels
        rw [replaced_parseError] at hloop
        rw [ChannelFailed, ← hloop, receive, channelInstanceConstruct_list]
        split_ifs <;> rfl

theorem after_parseError (history : List (Message β)) :
    (after construct history).gChannelParseError = true ↔
      ∃ message ∈ history, ChannelFailed message := by
  have hfold : ∀ g : Globals, (history.foldl (receive construct) g).gChannelParseError = true ↔
      g.gChannelParseError = true ∨ ∃ message ∈ history, ChannelFailed message := by
    induction history with
    | nil => simp
    | cons message history ih =>
      intro g
      rw [List.foldl_cons, ih, receive_parseError, or_assoc]
      simp only [List.mem_cons, exists_eq_or_imp]
  rw [after, hfold]
  simp [started]

end Flag

section Verdict
variable {g : Globals} {channels : Channels}

theorem addedChannels_eq_self_iff :
    addedChannels channels true = channels ↔ ¬ ∃ channel ∈ channels, opens channel = false := by
  rw [addedChannels, if_pos rfl, List.takeWhile_eq_self_iff]
  simp only [not_exists, not_and, Bool.not_eq_false]

theorem channelInstanceConstruct_list_result :
    (channelInstanceConstruct g ⟨some channels, true⟩).2 = true ↔
      g.gChannelParseError = false ∧ ¬ ∃ channel ∈ channels, opens channel = false := by
  have hloop := initChannels_parseError (replaced g) [] channels
  rw [replaced_parseError] at hloop
  rw [channelInstanceConstruct_list, ← Bool.not_eq_true, ← not_or, ← hloop]
  split_ifs with hflag
  · simp [hflag]
  · simp [hflag]

/-- The return value says whether all channels of the message were added, exactly when no earlier
message had a channel that failed, or one of this message fails itself. When the list of maps
cannot be created, the message must have a channel. -/
theorem result_iff_added_iff (history : List (Message β)) (channels : Channels)
    (listCreated : Bool) :
    ((channelInstanceConstruct (after construct history) ⟨some channels, listCreated⟩).2 = true ↔
        addedChannels channels listCreated = channels) ↔
      if listCreated then
        (∃ message ∈ history, ChannelFailed message) → ∃ channel ∈ channels, opens channel = false
      else channels ≠ [] := by
  cases listCreated with
  | false =>
    rw [channelInstanceConstruct_noList, addedChannels, if_neg Bool.false_ne_true]
    simp [eq_comm]
  | true =>
    rw [channelInstanceConstruct_list_result, addedChannels_eq_self_iff, ← Bool.not_eq_true,
      after_parseError, if_pos rfl, and_iff_right_iff_imp]
    exact not_imp_not

end Verdict

def badPort : ChannelModelInfo × ChannelOutcome := (⟨"usb", "meter"⟩, ⟨true, true, true, true⟩)

def serialPort : ChannelModelInfo × ChannelOutcome :=
  (⟨"serial", "meter"⟩, ⟨true, true, true, true⟩)

/-- The second message opens its only channel and fails all the same. -/
theorem valid_message_refused :
    addedChannels [serialPort] true = [serialPort] ∧
    (channelInstanceConstruct started ⟨some [serialPort], true⟩).2 = true ∧
    (channelInstanceConstruct (after anyBody [.channel ⟨some [badPort], true⟩])
      ⟨some [serialPort], true⟩).2 = false ∧
    ¬ ((channelInstanceConstruct (after anyBody [.channel ⟨some [badPort], true⟩])
      ⟨some [serialPort], true⟩).2 = true ↔ addedChannels [serialPort] true = [serialPort]) := by
  decide

end IotEdgeAgent.Agent
