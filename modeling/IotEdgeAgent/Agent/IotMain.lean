import Mathlib.Data.Int.Notation
import Mathlib.Data.Nat.Notation

/-!
# Configuring the agent

The agent is configured by two kinds of messages. A channel-model message opens the ports of
its channels and replaces the list of channels; a thing-model message creates a protocol
instance for each of its models and attaches it to the channels of that name. What the allocator,
the ports and the thread library answer is part of the message as it is processed, and so is
what a JSON text was parsed to. Handles are numbered in the order of their creation.
-/

namespace IotEdgeAgent.Agent

structure PmInstance where
  handle : ℕ
  modelName : String
  deriving DecidableEq, Repr

structure PmChannelMap where
  xioHandle : ℕ
  pmHandle : Option PmInstance
  taskThread : Bool
  taskStop : Bool
  taskLock : Bool
  timeOutCount : ℤ
  threadId : ℕ
  keyWord : String
  deriving DecidableEq, Repr

/-- The global variables, and the handles that were created and destroyed so far. -/
structure Globals where
  gPmMapList : Option (List PmChannelMap)
  gThreadCount : ℕ
  gChannelParseError : Bool
  pmCreated : ℕ
  pmDestroyed : List ℕ
  xioCreated : ℕ
  xioDestroyed : List ℕ

def started : Globals := ⟨none, 0, false, 0, [], 0, []⟩

def protocolDestroy (g : Globals) (pmHandle : Option PmInstance) : Globals :=
  { g with pmDestroyed := g.pmDestroyed ++ pmHandle.toList.map (·.handle) }

def xioDestroy (g : Globals) (xioHandle : ℕ) : Globals :=
  { g with xioDestroyed := g.xioDestroyed ++ [xioHandle] }

def mapListDestroy (g : Globals) : List PmChannelMap → Globals
  | [] => g
  | map :: mapList =>
    mapListDestroy (xioDestroy (protocolDestroy g map.pmHandle) map.xioHandle) mapList

structure ChannelModelInfo where
  portType : String
  modelNmae : String
  deriving DecidableEq, Repr

/-- Whether `xio_create`, the allocation of the map, `xio_open` and `singlylinkedlist_add`
succeed. -/
structure ChannelOutcome where
  created : Bool
  allocated : Bool
  opened : Bool
  added : Bool
  deriving DecidableEq, Repr

def openedMap (xioHandle : ℕ) (channel : ChannelModelInfo) : PmChannelMap where
  xioHandle := xioHandle
  pmHandle := none
  taskThread := false
  taskStop := false
  taskLock := false
  timeOutCount := 0
  threadId := 0
  keyWord := channel.modelNmae

/-- The list with the new channel; `none` stops the iteration. -/
def channelInitByList (g : Globals) (mapList : List PmChannelMap) (channel : ChannelModelInfo)
    (outcome : ChannelOutcome) : Globals × Option (List PmChannelMap) :=
  if channel.portType ≠ "serial" ∧ channel.portType ≠ "socket" then
    ({ g with gChannelParseError := true }, none)
  else if !outcome.created then ({ g with gChannelParseError := true }, none)
  else
    let xioHandle := g.xioCreated
    let g := { g with xioCreated := g.xioCreated + 1 }
    if !outcome.allocated then
      ({ xioDestroy g xioHandle with gChannelParseError := true }, none)
    else if !outcome.opened then
      ({ xioDestroy g xioHandle with gChannelParseError := true }, none)
    else if !outcome.added then
      ({ xioDestroy g xioHandle with gChannelParseError := true }, none)
    else (g, some (mapList ++ [openedMap xioHandle channel]))

abbrev Channels := List (ChannelModelInfo × ChannelOutcome)

def initChannels (g : Globals) (mapList : List PmChannelMap) :
    Channels → Globals × List PmChannelMap
  | [] => (g, mapList)
  | (channel, outcome) :: channels =>
    match channelInitByList g mapList channel outcome with
    | (g, some mapList) => initChannels g mapList channels
    | (g, none) => (g, mapList)

/-- `channelList` is what `channel_info_list_create` makes of the message, and `listCreated` says
that the new list of maps can be created. -/
structure ChannelMessage where
  channelList : Option Channels
  listCreated : Bool

/-- The second component says that 0 is returned. On an error the list of maps is destroyed, but
not the maps in it. -/
def channelInstanceConstruct (g : Globals) (message : ChannelMessage) : Globals × Bool :=
  match message.channelList with
  | none => (g, false)
  | some channels =>
    let g :=
      match g.gPmMapList with
      | none => g
      | some mapList => { mapListDestroy g mapList with gThreadCount := 0 }
    if !message.listCreated then ({ g with gPmMapList := none }, false)
    else
      let (g, mapList) := initChannels g [] channels
      if g.gChannelParseError then ({ g with gPmMapList := none }, false)
      else ({ g with gPmMapList := some mapList }, true)

inductive InterDescription
  | modbus
  | dlt698
  deriving DecidableEq, Repr

structure ThingModel (β : Type*) where
  protoType : Option String
  name : Option String
  body : Option β

section Things
variable {β : Type*} (construct : InterDescription → β → Bool)

def MAX_SIZE_OF_MNAME : ℕ := 32

def interfaceOf (protoType : String) : Option InterDescription :=
  if protoType = "MODBUS" then some .modbus
  else if protoType = "DLT698.45" then some .dlt698
  else none

/-- The name of the instance that `protocol_init` returns. `construct` says whether the
`Construct` of the protocol makes a data description of the body, and `allocated` that there is
memory for the instance. -/
def instanceName (model : ThingModel β) (allocated : Bool) : Option String :=
  match model.protoType, model.name with
  | some protoType, some name =>
    if !allocated then none
    else
      match interfaceOf protoType, model.body with
      | some interface, some body =>
        if construct interface body ∧ name.utf8ByteSize + 1 ≤ MAX_SIZE_OF_MNAME then some name
        else none
      | _, _ => none
  | _, _ => none

structure ModelOutcome where
  allocated : Bool
  threadCreated : ℕ → Bool

def attachModel (g : Globals) (pm : PmInstance) (map : PmChannelMap) (threadCreated : Bool) :
    Globals × PmChannelMap :=
  let g := protocolDestroy g map.pmHandle
  let map :=
    { map with
      pmHandle := some pm
      taskStop := if map.pmHandle.isSome ∧ map.taskThread then false else map.taskStop }
  if threadCreated then
    ({ g with gThreadCount := g.gThreadCount + 1 },
      { map with taskThread := true, threadId := g.gThreadCount + 1 })
  else (g, map)

def mapChannelAndModel (g : Globals) (pm : PmInstance) (map : PmChannelMap)
    (threadCreated : Bool) : Globals × PmChannelMap :=
  if pm.modelName = map.keyWord then attachModel g pm map threadCreated else (g, map)

def mapChannels (pm : PmInstance) (threadCreated : ℕ → Bool) :
    ℕ → Globals → List PmChannelMap → Globals × List PmChannelMap
  | _, g, [] => (g, [])
  | i, g, map :: mapList =>
    let mapped := mapChannelAndModel g pm map (threadCreated i)
    let rest := mapChannels pm threadCreated (i + 1) mapped.1 mapList
    (rest.1, mapped.2 :: rest.2)

abbrev Models (β : Type*) := List (Option (ThingModel β × ModelOutcome))

def constructModel (g : Globals) (mapList : List PmChannelMap)
    (element : Option (ThingModel β × ModelOutcome)) : Globals × List PmChannelMap :=
  match element with
  | none => (g, mapList)
  | some (model, outcome) =>
    match instanceName construct model outcome.allocated with
    | none => (g, mapList)
    | some modelName =>
      mapChannels ⟨g.pmCreated, modelName⟩ outcome.threadCreated 0
        { g with pmCreated := g.pmCreated + 1, gThreadCount := 0 } mapList

def constructModels (g : Globals) (mapList : List PmChannelMap) :
    Models β → Globals × List PmChannelMap
  | [] => (g, mapList)
  | element :: models =>
    let constructed := constructModel construct g mapList element
    constructModels constructed.1 constructed.2 models

inductive ThingMessage (β : Type*)
  | noObject
  | noBody
  | body (models : Models β)

/-- The end of `thing_instance_construct`: without a thread the channels are destroyed. -/
def testThreads (g : Globals) (mapList : List PmChannelMap) (result : Bool) : Globals × Bool :=
  if g.gThreadCount = 0 then ({ mapListDestroy g mapList with gPmMapList := none }, false)
  else ({ g with gPmMapList := some mapList }, result)

def thingInstanceConstruct (g : Globals) (message : ThingMessage β) : Globals × Bool :=
  match g.gPmMapList, message with
  | none, _ => (g, false)
  | some _, .noObject => (g, false)
  | some mapList, .noBody => testThreads g mapList false
  | some mapList, .body models =>
    let constructed := constructModels construct g mapList models
    testThreads constructed.1 constructed.2 true

def acceptedName (element : Option (ThingModel β × ModelOutcome)) : Option String :=
  element.bind fun pair => instanceName construct pair.1 pair.2.allocated

def accepted (models : Models β) : List String := models.filterMap (acceptedName construct)

variable {construct} {element : Option (ThingModel β × ModelOutcome)}

theorem constructModel_refused (g : Globals) (mapList : List PmChannelMap)
    (h : acceptedName construct element = none) :
    constructModel construct g mapList element = (g, mapList) := by
  cases element with
  | none => rfl
  | some pair =>
    have hrefused : instanceName construct pair.1 pair.2.allocated = none := h
    simp only [constructModel, hrefused]

theorem constructModel_accepted (g : Globals) (mapList : List PmChannelMap) {modelName : String}
    (h : acceptedName construct element = some modelName) :
    ∃ model outcome, element = some (model, outcome) ∧
      constructModel construct g mapList element =
        mapChannels ⟨g.pmCreated, modelName⟩ outcome.threadCreated 0
          { g with pmCreated := g.pmCreated + 1, gThreadCount := 0 } mapList := by
  obtain ⟨⟨model, outcome⟩, rfl, hname⟩ := Option.bind_eq_some_iff.mp h
  have haccepted : instanceName construct model outcome.allocated = some modelName := hname
  exact ⟨model, outcome, rfl, by simp only [constructModel, haccepted]⟩

end Things

end IotEdgeAgent.Agent
