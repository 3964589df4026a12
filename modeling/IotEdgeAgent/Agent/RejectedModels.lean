import IotEdgeAgent.Library.Logged
import IotEdgeAgent.Modbus.Requests

/-!
# Undoing a list with a model that is rejected

`modbus_init` and `dlt698_init` give up their list at the first model that the parser or the
constructor rejects, and clean up. The log tells what is created and rejected and which blocks of
memory are released. An entry and what it points to are five blocks, told by the number of their
model. A field that nothing has set and a null pointer that is followed stop the run.
-/

namespace IotEdgeAgent.Configuration.RejectedModels
open Collect Parson Protocol DataCreate Modbus.Master
open Modbus.Requests (EntryOutcome ModbusEntry createEntry)

inductive Part
  | entry
  | timeToSend
  | dataRequest
  | data
  | modelInfo
  deriving DecidableEq

inductive Block
  | description
  | list
  | part (k : ℕ) (p : Part)
  deriving DecidableEq

inductive Act
  | created (k : ℕ)
  | rejected (k : ℕ)
  | free (block : Block)
  | readUnset
  | followNull
  deriving DecidableEq

def act (a : Act) : Logged Act Unit := .doing a (some ())

def free (block : Block) : Logged Act Unit := act (.free block)

def freePart {τ : Type} (k : ℕ) (p : Part) (pointer : Option τ) : Logged Act Unit :=
  if pointer.isSome then free (.part k p) else return ()

section
variable {σ ε : Type} (step : σ → ℕ → JsonValue → Logged Act (σ × Verdict ε))

def buildList (s : σ) (k : ℕ) : JsonArray → Logged Act (σ × Bool × List (ℕ × ε))
  | [] => return (s, true, [])
  | element :: models =>
    step s k element >>= fun next =>
      match next.2 with
      | .refuse => return (next.1, false, [])
      | .skip => buildList next.1 (k + 1) models
      | .add entry => do
        let rest ← buildList next.1 (k + 1) models
        return (rest.1, rest.2.1, (k, entry) :: rest.2.2)

end

/-- Until it is set, `dmInfoList` is what the memory held. -/
structure Description (ε : Type) where
  dmInfoList : Option (List (ℕ × ε))

def modbusStep (outcome : ℕ → EntryOutcome) (status : ModbusMaster) (k : ℕ)
    (element : JsonValue) : Logged Act (ModbusMaster × Verdict ModbusEntry) :=
  match elementObject element with
  | none => return (status, .skip)
  | some modbusObject =>
    match parseModbusModelByJson (some modbusObject) (outcome k).modelAllocated with
    | .error _ => .holding none
    | .ok none => do
      act (.rejected k)
      return (status, .refuse)
    | .ok (some modelInfo) =>
      match createEntry status k modelInfo (outcome k) with
      | .error _ => .holding none
      | .ok (none, status) => do
        -- Without memory for its request the constructor frees the entry.
        if (outcome k).allocations.result.isSome then
          free (.part k .timeToSend)
          free (.part k .entry)
        act (.rejected k)
        free (.part k .modelInfo)
        return (status, .refuse)
      | .ok (some entry, status) => do
        act (.created k)
        let entry := { entry with info := { entry.info with modelInfo := some modelInfo } }
        return (status, if (outcome k).added then .add entry else .skip)

def releaseEntry (k : ℕ) (entry : ModbusEntry) : Logged Act Unit :=
  match entry.info.dataRequest with
  | none => .doing .followNull none
  | some _ => do
    freePart k .data entry.frame
    free (.part k .dataRequest)
    freePart k .timeToSend entry.info.timeToSend
    freePart k .modelInfo entry.info.modelInfo
    free (.part k .entry)

def releaseEntries : List (ℕ × ModbusEntry) → Logged Act Unit
  | [] => return ()
  | (k, entry) :: entries => do
    releaseEntry k entry
    releaseEntries entries

def modbusDestroy (status : ModbusMaster) (handle : Option (Description ModbusEntry)) :
    Logged Act ModbusMaster :=
  match handle with
  | none => return status
  | some dataDesc =>
    match dataDesc.dmInfoList with
    | none => .doing .readUnset none
    | some entries => do
      releaseEntries entries
      free .list
      free .description
      return modbusMasterEnd { status with frame := none }

/-- The list is set behind the loop only when all models were accepted. -/
def modbusInit (status : ModbusMaster) (jsonArray : Option JsonArray)
    (outcome : Modbus.Requests.InitOutcome) :
    Logged Act (Option (Description ModbusEntry) × ModbusMaster) :=
  match jsonArray with
  | none => return (none, status)
  | some models =>
    if !outcome.allocated then return (none, status)
    else if !outcome.listCreated then do
      free .description
      return (none, modbusMasterEnd (modbusMasterInit status))
    else
      buildList (modbusStep outcome.element) (modbusMasterInit status) 0 models >>= fun built =>
        if built.2.1 then return (some ⟨some built.2.2⟩, built.1)
        else do
          let status ← modbusDestroy built.1 (some ⟨none⟩)
          return (none, status)

structure Dlt698EntryOutcome where
  modelAllocated : Bool
  allocations : Allocations Dlt698ModelInfo
  packet : Option DataRequest
  added : Bool

structure Dlt698Outcome where
  allocated : Bool
  listCreated : Bool
  element : ℕ → Dlt698EntryOutcome

abbrev Dlt698Entry := PmDataInfo Dlt698ModelInfo

def dlt698Step (outcome : ℕ → Dlt698EntryOutcome) (_ : Unit) (k : ℕ) (element : JsonValue) :
    Logged Act (Unit × Verdict Dlt698Entry) :=
  match elementObject element with
  | none => return ((), .skip)
  | some dlt698Object =>
    match parseDlt698ModelByJson (some dlt698Object) (outcome k).modelAllocated with
    | .error _ => .holding none
    | .ok none => do
      if (outcome k).modelAllocated then
        free (.part k .modelInfo)
      act (.rejected k)
      return ((), .refuse)
    | .ok (some modelInfo) =>
      match dlt698DataCreate (outcome k).packet (some modelInfo) (outcome k).allocations with
      | .error _ => .holding none
      | .ok none => do
        -- Without memory for its request the constructor frees the entry, and not its schedule.
        if (outcome k).allocations.result.isSome then
          free (.part k .entry)
        act (.rejected k)
        free (.part k .modelInfo)
        -- `dlt698_data->model_info = NULL`
        .doing .followNull none
      | .ok (some dlt698Data) => do
        act (.created k)
        let dlt698Data := { dlt698Data with modelInfo := some modelInfo }
        return ((), if (outcome k).added then .add dlt698Data else .skip)

def releaseModelInfos : List (ℕ × Dlt698Entry) → Logged Act Unit
  | [] => return ()
  | (k, pmDataInfo) :: entries => do
    freePart k .modelInfo pmDataInfo.modelInfo
    releaseModelInfos entries

def dlt698ModelInfoDestroy (dlt698DataList : Option (List (ℕ × Dlt698Entry))) :
    Logged Act Unit :=
  match dlt698DataList with
  | none => return ()
  | some entries => do
    releaseModelInfos entries
    free .list

def dlt698Init (jsonArray : Option JsonArray) (outcome : Dlt698Outcome) :
    Logged Act (Option (Description Dlt698Entry)) :=
  match jsonArray with
  | none => return none
  | some models =>
    if !outcome.allocated then return none
    else if !outcome.listCreated then do
      free .description
      return none
    else
      buildList (dlt698Step outcome.element) () 0 models >>= fun built =>
        if built.2.1 then return some ⟨some built.2.2⟩
        else do
          dlt698ModelInfoDestroy (some built.2.2)
          free .description
          return none

/-- Behind the model with the number `k` a null pointer is returned. Each entry in front of it is
released once with all that it points to, and no block of another model but this one is. -/
structure Undone {δ : Type} (k : ℕ) (log : List Act) (answer : Option (Option δ)) : Prop where
  null : answer = some none
  set : .readUnset ∉ log
  notNull : .followNull ∉ log
  released : ∀ n, .created n ∈ log → ∀ p ∈ [Part.entry, .timeToSend, .dataRequest, .modelInfo],
    log.count (.free (.part n p)) = 1
  only : ∀ n p, .free (.part n p) ∈ log → .created n ∈ log ∨ n = k
  once : ∀ block, log.count (.free block) ≤ 1

def Refused (outcome : ℕ → Dlt698EntryOutcome) (k : ℕ) (element : JsonValue) : Prop :=
  ∃ dlt698Object, elementObject element = some dlt698Object ∧
    parseDlt698ModelByJson (some dlt698Object) (outcome k).modelAllocated = .ok none

def NoObject (_ : ℕ) (element : JsonValue) : Prop := elementObject element = none

/-- The first object of the list is the model with the number `k`, and the parser rejects it. -/
def FirstRefused (outcome : ℕ → Dlt698EntryOutcome) (models : JsonArray) (k : ℕ) : Prop :=
  ∃ element, Reached NoObject models k element ∧ Refused outcome k element

section
variable {σ ε : Type} {step : σ → ℕ → JsonValue → Logged Act (σ × Verdict ε)} {s s' : σ} {k : ℕ}
  {element : JsonValue} {log : List Act}

theorem buildList_stopped (models : JsonArray) (h : step s k element = ⟨log, none⟩) :
    buildList step s k (element :: models) = ⟨log, none⟩ := by
  rw [buildList, h, Logged.bind_stopped]

theorem buildList_refused (models : JsonArray) (h : step s k element = ⟨log, some (s', .refuse)⟩) :
    buildList step s k (element :: models) = ⟨log, some (s', false, [])⟩ := by
  rw [buildList, h, Logged.bind_done, Logged.pure_log, List.append_nil]
  rfl

theorem buildList_skipped (models : JsonArray) (h : step s k element = ⟨log, some (s', .skip)⟩) :
    buildList step s k (element :: models) =
      ⟨log ++ (buildList step s' (k + 1) models).log,
        (buildList step s' (k + 1) models).value⟩ := by
  rw [buildList, h, Logged.bind_done]

theorem buildList_added {entry : ε} (models : JsonArray)
    (h : step s k element = ⟨log, some (s', .add entry)⟩) :
    buildList step s k (element :: models) =
      ⟨log ++ (buildList step s' (k + 1) models).log,
        (buildList step s' (k + 1) models).value.map fun rest =>
          (rest.1, rest.2.1, (k, entry) :: rest.2.2)⟩ := by
  rw [buildList, h, Logged.bind_done]
  dsimp only
  rw [Logged.bind_pure]

theorem buildList_every {P : Act → Prop} (hstep : ∀ s k element, Logged.Every P (step s k element))
    (s : σ) (k : ℕ) (models : JsonArray) : Logged.Every P (buildList step s k models) := by
  induction models generalizing s k with
  | nil => exact .pure P _
  | cons element models ih =>
    rw [buildList]
    apply (hstep s k element).bind
    rintro ⟨s', verdict⟩ -
    cases verdict with
    | skip => exact ih s' (k + 1)
    | refuse => exact .pure P _
    | add entry => exact (ih s' (k + 1)).bind fun _ _ => .pure P _

theorem buildList_rejected {n : ℕ} {models : JsonArray}
    (hstep : ∀ s k element, .rejected n ∈ (step s k element).log →
      ∃ s', (step s k element).value = some (s', .refuse))
    (h : .rejected n ∈ (buildList step s k models).log) :
    ∃ s' entries, (buildList step s k models).value = some (s', false, entries) := by
  induction models generalizing s k with
  | nil => cases h
  | cons element models ih =>
    have hrejected := hstep s k element
    cases hnext : step s k element with
    | mk log value =>
      rw [hnext] at hrejected
      obtain _ | ⟨s', verdict⟩ := value
      · rw [buildList_stopped models hnext] at h
        obtain ⟨s', hs'⟩ := hrejected h
        cases hs'
      · have hrest : verdict ≠ .refuse → .rejected n ∉ log := by
          intro hne hin
          obtain ⟨_, hvalue⟩ := hrejected hin
          exact hne (Prod.mk.inj (Option.some.inj hvalue)).2
        cases verdict with
        | refuse =>
          rw [buildList_refused models hnext]
          exact ⟨s', [], rfl⟩
        | skip =>
          rw [buildList_skipped models hnext] at h ⊢
          apply ih
          exact (List.mem_append.mp h).resolve_left (hrest nofun)
        | add entry =>
          rw [buildList_added models hnext] at h ⊢
          have hin := (List.mem_append.mp h).resolve_left (hrest nofun)
          obtain ⟨s'', entries, hvalue⟩ := ih hin
          rw [hvalue]
          exact ⟨s'', (k, entry) :: entries, rfl⟩

end

section
variable {σ ε ε' : Type} {step : σ → ℕ → JsonValue → Logged Act (σ × Verdict ε)}

theorem buildList_collects {plain : σ → ℕ → JsonValue → Except ε' (σ × Verdict ε)}
    (hstep : ∀ s k element, (step s k element).value = (plain s k element).toOption)
    (s : σ) (k : ℕ) (models : JsonArray) :
    (buildList step s k models).value.map
        (fun built => (if built.2.1 then some (built.2.2.map Prod.snd) else none, built.1)) =
      (collectFrom plain s k models).toOption := by
  induction models generalizing s k with
  | nil => rfl
  | cons element models ih =>
    have hvalue := hstep s k element
    rw [buildList, collectFrom, Logged.bind_value, hvalue]
    cases plain s k element with
    | error e => rfl
    | ok next =>
      obtain ⟨s', verdict⟩ := next
      have hrest := ih s' (k + 1)
      cases verdict with
      | refuse => rfl
      | skip => exact hrest
      | add entry =>
        dsimp only [Except.toOption, Option.bind_some] at hrest ⊢
        rw [Logged.bind_pure]
        cases hcollect : collectFrom plain s' (k + 1) models with
        | error e =>
          rw [hcollect] at hrest
          rw [Option.map_eq_none_iff.mp hrest]
          rfl
        | ok rest =>
          rw [hcollect] at hrest
          obtain ⟨⟨t, accepted, entries⟩, hvalue, rfl⟩ := Option.map_eq_some_iff.mp hrest
          rw [hvalue]
          cases accepted <;> rfl

theorem buildList_listed {P : ε → Prop}
    (hstep : ∀ s k element s' entry, (step s k element).value = some (s', .add entry) → P entry)
    {s s' : σ} {k : ℕ} {models : JsonArray} {accepted : Bool} {entries : List (ℕ × ε)}
    (h : (buildList step s k models).value = some (s', accepted, entries)) :
    (∀ listed ∈ entries, k ≤ listed.1 ∧ P listed.2) ∧
      entries.Pairwise fun listed listed' => listed.1 < listed'.1 := by
  induction models generalizing s k entries with
  | nil =>
    cases h
    exact ⟨nofun, .nil⟩
  | cons element models ih =>
    rw [buildList, Logged.bind_value] at h
    obtain ⟨⟨t, verdict⟩, hnext, h⟩ := Option.bind_eq_some_iff.mp h
    cases verdict with
    | refuse =>
      cases h
      exact ⟨nofun, .nil⟩
    | skip =>
      obtain ⟨hlisted, hgrow⟩ := ih h
      refine ⟨fun listed hin => ?_, hgrow⟩
      obtain ⟨hle, hmade⟩ := hlisted listed hin
      exact ⟨Nat.le_of_succ_le hle, hmade⟩
    | add entry =>
      dsimp only at h
      rw [Logged.bind_pure] at h
      obtain ⟨⟨t', accepted', rest⟩, hrest, h⟩ := Option.map_eq_some_iff.mp h
      cases h
      obtain ⟨hlisted, hgrow⟩ := ih hrest
      refine ⟨fun listed hin => ?_, .cons (fun listed hin => (hlisted listed hin).1) hgrow⟩
      obtain rfl | hin := List.mem_cons.mp hin
      · exact ⟨le_rfl, hstep s k element t entry hnext⟩
      · obtain ⟨hle, hmade⟩ := hlisted listed hin
        exact ⟨Nat.le_of_succ_le hle, hmade⟩

end

section
variable {status status' : ModbusMaster} {outcome : Modbus.Requests.InitOutcome}

theorem modbusStep_value (outcome : ℕ → EntryOutcome) (status : ModbusMaster) (k : ℕ)
    (element : JsonValue) :
    (modbusStep outcome status k element).value =
      (Modbus.Requests.modbusStep outcome status k element).toOption := by
  unfold modbusStep Modbus.Requests.modbusStep
  cases elementObject element with
  | none => rfl
  | some modbusObject =>
    dsimp only
    cases parseModbusModelByJson (some modbusObject) (outcome k).modelAllocated with
    | error e => rfl
    | ok modelInfo? =>
      cases modelInfo? with
      | none => rfl
      | some modelInfo =>
        dsimp only
        cases createEntry status k modelInfo (outcome k) with
        | error e => rfl
        | ok answer =>
          obtain ⟨_ | entry, status'⟩ := answer
          · dsimp only
            split_ifs <;> rfl
          · rfl

theorem modbusInit_accepts {models : Option JsonArray} {entries : List ModbusEntry} :
    Modbus.Requests.modbusInit status models outcome = .ok (some entries, status') ↔
      ∃ numbered, (modbusInit status models outcome).value =
        some (some ⟨some numbered⟩, status') ∧ numbered.map Prod.snd = entries := by
  unfold modbusInit Modbus.Requests.modbusInit
  cases models with
  | none => simp
  | some models =>
    dsimp only
    split_ifs
    · simp
    · simp [free, act]
    · have hsame := buildList_collects (modbusStep_value outcome.element)
        (modbusMasterInit status) 0 models
      rw [Logged.bind_value]
      cases hcollect : collectFrom (Modbus.Requests.modbusStep outcome.element)
          (modbusMasterInit status) 0 models with
      | error e =>
        rw [hcollect] at hsame
        rw [Option.map_eq_none_iff.mp hsame]
        simp
      | ok collected =>
        rw [hcollect] at hsame
        obtain ⟨⟨t, accepted, numbered⟩, hvalue, rfl⟩ := Option.map_eq_some_iff.mp hsame
        rw [hvalue]
        cases accepted with
        | true => simp [and_comm]
        | false => simp [modbusDestroy]

structure Complete (entry : ModbusEntry) : Prop where
  dataRequest : entry.info.dataRequest.isSome
  timeToSend : entry.info.timeToSend.isSome
  modelInfo : entry.info.modelInfo.isSome

theorem modbusStep_cases (outcome : ℕ → EntryOutcome) (status : ModbusMaster) (k : ℕ)
    (element : JsonValue) :
    modbusStep outcome status k element = ⟨[], some (status, .skip)⟩ ∨
    modbusStep outcome status k element = ⟨[], none⟩ ∨
    (∃ log status', modbusStep outcome status k element = ⟨log, some (status', .refuse)⟩) ∨
    ∃ entry status', Complete entry ∧ modbusStep outcome status k element =
      ⟨[.created k], some (status', if (outcome k).added then .add entry else .skip)⟩ := by
  unfold modbusStep
  split
  · exact .inl rfl
  · split
    · exact .inr (.inl rfl)
    · exact .inr (.inr (.inl ⟨_, _, rfl⟩))
    · split
      · exact .inr (.inl rfl)
      · refine .inr (.inr (.inl ?_))
        cases (outcome k).allocations.result.isSome with
        | true => exact ⟨_, _, rfl⟩
        | false => exact ⟨_, _, rfl⟩
      next created _ hcreate =>
        refine .inr (.inr (.inr ⟨_, _, ?_, rfl⟩))
        obtain ⟨info?, hinfo, hcreated⟩ := map_eq_ok hcreate
        cases info? with
        | none => cases hcreated
        | some info =>
          cases hcreated
          obtain ⟨result, memory, timeToSend, built, -, -, -, rfl⟩ := dataCreate_created hinfo
          exact ⟨rfl, rfl, rfl⟩

theorem modbusStep_complete {outcome : ℕ → EntryOutcome} {k : ℕ} {element : JsonValue}
    {entry : ModbusEntry}
    (h : (modbusStep outcome status k element).value = some (status', .add entry)) :
    Complete entry := by
  obtain heq | heq | ⟨log, t, heq⟩ | ⟨created, t, hcomplete, heq⟩ :=
    modbusStep_cases outcome status k element
  · rw [heq] at h
    cases h
  · rw [heq] at h
    cases h
  · rw [heq] at h
    cases h
  · rw [heq] at h
    have hadd := (Prod.mk.inj (Option.some.inj h)).2
    split_ifs at hadd
    cases hadd
    exact hcomplete

def entryBlocks (k : ℕ) (entry : ModbusEntry) : List Block :=
  (if entry.frame.isSome then [.part k .data] else []) ++
    [.part k .dataRequest, .part k .timeToSend, .part k .modelInfo, .part k .entry]

theorem releaseEntry_complete (k : ℕ) {entry : ModbusEntry} (h : Complete entry) :
    releaseEntry k entry = ⟨(entryBlocks k entry).map .free, some ()⟩ := by
  obtain ⟨⟨dataRequest, timeToSend, modelInfo⟩, frame⟩ := entry
  obtain ⟨hdataRequest, htimeToSend, hmodelInfo⟩ := h
  obtain ⟨dataRequest, rfl⟩ := Option.isSome_iff_exists.mp hdataRequest
  obtain ⟨timeToSend, rfl⟩ := Option.isSome_iff_exists.mp htimeToSend
  obtain ⟨modelInfo, rfl⟩ := Option.isSome_iff_exists.mp hmodelInfo
  cases frame <;> rfl

theorem releaseEntries_complete {entries : List (ℕ × ModbusEntry)}
    (h : ∀ listed ∈ entries, Complete listed.2) :
    releaseEntries entries =
      ⟨(entries.flatMap fun listed => entryBlocks listed.1 listed.2).map .free, some ()⟩ := by
  induction entries with
  | nil => rfl
  | cons listed entries ih =>
    have hrest := ih fun listed' hin => h listed' (List.mem_cons_of_mem _ hin)
    rw [releaseEntries, releaseEntry_complete _ (h listed List.mem_cons_self), Logged.bind_done,
      hrest, List.flatMap_cons, List.map_append]

theorem mem_entryBlocks {k : ℕ} {entry : ModbusEntry} {block : Block}
    (h : block ∈ entryBlocks k entry) : ∃ p, block = .part k p := by
  obtain h | h := List.mem_append.mp h
  · split_ifs at h
    · exact ⟨.data, List.mem_singleton.mp h⟩
    · cases h
  · simp only [List.mem_cons, List.not_mem_nil, or_false] at h
    obtain h | h | h | h := h
    · exact ⟨.dataRequest, h⟩
    · exact ⟨.timeToSend, h⟩
    · exact ⟨.modelInfo, h⟩
    · exact ⟨.entry, h⟩

theorem entryBlocks_nodup (k : ℕ) (entry : ModbusEntry) : (entryBlocks k entry).Nodup := by
  cases hframe : entry.frame <;> simp [entryBlocks, hframe]

theorem modbusInit_built {models : Option JsonArray} {entries : List (ℕ × ModbusEntry)}
    (h : (modbusInit status models outcome).value = some (some ⟨some entries⟩, status')) :
    (buildList (modbusStep outcome.element) (modbusMasterInit status) 0 (models.getD [])).value =
      some (status', true, entries) := by
  unfold modbusInit at h
  cases models with
  | none => cases h
  | some models =>
    dsimp only at h
    split_ifs at h
    · cases h
    · cases h
    · rw [Logged.bind_value] at h
      obtain ⟨⟨t, accepted, entries'⟩, hbuilt, h⟩ := Option.bind_eq_some_iff.mp h
      cases accepted with
      | false => cases h
      | true =>
        cases h
        exact hbuilt

theorem modbusDestroy_accepted {models : Option JsonArray} {entries : List (ℕ × ModbusEntry)}
    (h : (modbusInit status models outcome).value = some (some ⟨some entries⟩, status')) :
    ∃ blocks : List Block, modbusDestroy status' (some ⟨some entries⟩) =
        ⟨blocks.map .free ++ [.free .list, .free .description],
          some (modbusMasterEnd { status' with frame := none })⟩ ∧
      blocks.Nodup ∧
      (∀ listed ∈ entries, ∀ p ∈ [Part.entry, .timeToSend, .dataRequest, .modelInfo],
        .part listed.1 p ∈ blocks) ∧
      ∀ block ∈ blocks, ∃ listed ∈ entries, ∃ p, block = .part listed.1 p := by
  obtain ⟨hlisted, hgrow⟩ :=
    buildList_listed (fun _ _ _ _ _ => modbusStep_complete) (modbusInit_built h)
  refine ⟨entries.flatMap fun listed => entryBlocks listed.1 listed.2, ?_, ?_, ?_, ?_⟩
  · rw [modbusDestroy]
    dsimp only
    rw [releaseEntries_complete fun listed hin => (hlisted listed hin).2, Logged.bind_done]
    rfl
  · apply List.nodup_flatMap.mpr
    refine ⟨fun listed _ => entryBlocks_nodup _ _, hgrow.imp fun hlt => ?_⟩
    intro block hblock hblock'
    obtain ⟨p, rfl⟩ := mem_entryBlocks hblock
    obtain ⟨p', hsame⟩ := mem_entryBlocks hblock'
    exact hlt.ne (Block.part.inj hsame).1
  · intro listed hin p hp
    apply List.mem_flatMap.mpr
    refine ⟨listed, hin, List.mem_append_right _ ?_⟩
    simp only [List.mem_cons, List.not_mem_nil, or_false] at hp ⊢
    obtain rfl | rfl | rfl | rfl := hp <;> simp
  · intro block hblock
    obtain ⟨listed, hin, hblock⟩ := List.mem_flatMap.mp hblock
    exact ⟨listed, hin, mem_entryBlocks hblock⟩

end

theorem modbusStep_rejected {outcome : ℕ → EntryOutcome} {status : ModbusMaster} {i k : ℕ}
    {element : JsonValue} (h : .rejected k ∈ (modbusStep outcome status i element).log) :
    ∃ status', (modbusStep outcome status i element).value = some (status', .refuse) := by
  obtain heq | heq | ⟨log, status', heq⟩ | ⟨entry, status', -, heq⟩ :=
    modbusStep_cases outcome status i element
  · rw [heq] at h
    cases h
  · rw [heq] at h
    cases h
  · rw [heq]
    exact ⟨status', rfl⟩
  · rw [heq] at h
    cases List.mem_singleton.mp h

theorem modbusInit_rejected {status : ModbusMaster} {models : Option JsonArray}
    {outcome : Modbus.Requests.InitOutcome} {k : ℕ}
    (h : .rejected k ∈ (modbusInit status models outcome).log) :
    .readUnset ∈ (modbusInit status models outcome).log := by
  unfold modbusInit at h ⊢
  cases models with
  | none => cases h
  | some models =>
    dsimp only at h ⊢
    split_ifs at h ⊢
    · cases h
    · obtain h | h := List.mem_append.mp h
      · cases List.mem_singleton.mp h
      · cases h
    · have hloop : .rejected k ∈
          (buildList (modbusStep outcome.element) (modbusMasterInit status) 0 models).log := by
        apply (Logged.mem_bind.mp h).resolve_right
        rintro ⟨built, -, hin⟩
        split_ifs at hin
        · cases hin
        · cases List.mem_singleton.mp hin
      obtain ⟨status', entries, hvalue⟩ :=
        buildList_rejected (fun _ _ _ => modbusStep_rejected) hloop
      exact Logged.mem_bind_right hvalue List.mem_cons_self

section
variable {outcome : ℕ → Dlt698EntryOutcome} {i : ℕ} {element : JsonValue} {models : JsonArray}

/-- The model information of a refused document is freed by the parser. -/
def refusal (allocated : Bool) (k : ℕ) : List Act :=
  (if allocated then [.free (.part k .modelInfo)] else []) ++ [.rejected k]

theorem dlt698Step_noObject (h : elementObject element = none) :
    dlt698Step outcome () i element = ⟨[], some ((), .skip)⟩ := by
  rw [dlt698Step, h]
  rfl

theorem dlt698Step_refused (h : Refused outcome i element) :
    dlt698Step outcome () i element =
      ⟨refusal (outcome i).modelAllocated i, some ((), .refuse)⟩ := by
  obtain ⟨dlt698Object, hobject, hparse⟩ := h
  rw [dlt698Step, hobject]
  dsimp only
  rw [hparse]
  cases (outcome i).modelAllocated <;> rfl

theorem dlt698Step_created (hobject : elementObject element ≠ none)
    (hparse : ¬ Refused outcome i element) {next : Unit × Verdict Dlt698Entry}
    (h : (dlt698Step outcome () i element).value = some next) :
    .created i ∈ (dlt698Step outcome () i element).log := by
  unfold dlt698Step at h ⊢
  split at h
  · contradiction
  next dlt698Object hsome =>
    split at h
    · cases h
    · next hnone => exact absurd ⟨dlt698Object, hsome, hnone⟩ hparse
    · split at h
      · cases h
      · split_ifs at h <;> cases h
      · exact List.mem_cons_self

theorem buildList_firstRefused {j : ℕ} (h : Reached NoObject models j element)
    (hrefused : Refused outcome (i + j) element) :
    buildList (dlt698Step outcome) () i models =
      ⟨refusal (outcome (i + j)).modelAllocated (i + j), some ((), false, [])⟩ := by
  induction models generalizing i j with
  | nil => cases h.1
  | cons first models ih =>
    cases j with
    | zero =>
      obtain rfl := (reached_zero element).mp h
      exact buildList_refused models (dlt698Step_refused hrefused)
    | succ j =>
      obtain ⟨hfirst, hrest⟩ := (reached_succ j element).mp h
      rw [← number_succ] at hrefused ⊢
      rw [buildList_skipped models (dlt698Step_noObject hfirst), ih hrest hrefused]
      rfl

theorem exists_firstRefused {entries : List (ℕ × Dlt698Entry)}
    (h : (buildList (dlt698Step outcome) () i models).value = some ((), false, entries))
    (hnone : ∀ n, .created n ∉ (buildList (dlt698Step outcome) () i models).log) :
    ∃ j element, Reached NoObject models j element ∧ Refused outcome (i + j) element := by
  induction models generalizing i with
  | nil => cases h
  | cons first models ih =>
    by_cases hobject : elementObject first = none
    · rw [buildList_skipped models (dlt698Step_noObject hobject)] at h hnone
      obtain ⟨j, element, hreached, hrefused⟩ := ih h hnone
      rw [number_succ] at hrefused
      exact ⟨j + 1, element, (reached_succ j element).mpr ⟨hobject, hreached⟩, hrefused⟩
    · by_cases hrefused : Refused outcome i first
      · exact ⟨0, first, (reached_zero first).mpr rfl, hrefused⟩
      · exfalso
        rw [buildList] at h hnone
        cases hvalue : (dlt698Step outcome () i first).value with
        | none =>
          rw [Logged.bind_value, hvalue] at h
          cases h
        | some next =>
          exact hnone i (Logged.mem_bind_left (dlt698Step_created hobject hrefused hvalue))

/-- DL/T 698 frees no schedule. -/
def KeepsSchedule (a : Act) : Prop := ∀ n, a ≠ .free (.part n .timeToSend)

theorem free_keepsSchedule {block : Block} (h : ∀ n, block ≠ .part n .timeToSend) :
    Logged.Every KeepsSchedule (free block) :=
  .doing (fun n hfree => h n (Act.free.inj hfree)) _

theorem freePart_keepsSchedule {τ : Type} (k : ℕ) {p : Part} (hp : p ≠ .timeToSend)
    (pointer : Option τ) : Logged.Every KeepsSchedule (freePart k p pointer) := by
  unfold freePart
  split_ifs
  · exact free_keepsSchedule fun n h => hp (Block.part.inj h).2
  · exact .pure _ _

theorem dlt698Step_keepsSchedule (outcome : ℕ → Dlt698EntryOutcome) (s : Unit) (k : ℕ)
    (element : JsonValue) : Logged.Every KeepsSchedule (dlt698Step outcome s k element) := by
  have hrejected : Logged.Every KeepsSchedule (act (.rejected k)) := .doing nofun _
  have hmodelInfo : Logged.Every KeepsSchedule (free (.part k .modelInfo)) :=
    free_keepsSchedule nofun
  have hentry : Logged.Every KeepsSchedule (free (.part k .entry)) := free_keepsSchedule nofun
  have hcreated : KeepsSchedule (.created k) := nofun
  have hnull : KeepsSchedule .followNull := nofun
  unfold dlt698Step
  split
  · exact .pure _ _
  · split
    · exact fun _ h => nomatch h
    · split_ifs
      · exact hmodelInfo.bind fun _ _ => hrejected.bind fun _ _ => .pure _ _
      · exact hrejected.bind fun _ _ => .pure _ _
    · split
      · exact fun _ h => nomatch h
      · have hrest : Logged.Every KeepsSchedule (do
            act (.rejected k)
            free (.part k .modelInfo)
            Logged.doing .followNull none : Logged Act (Unit × Verdict Dlt698Entry)) :=
          hrejected.bind fun _ _ => hmodelInfo.bind fun _ _ => .doing hnull _
        split_ifs
        · exact hentry.bind fun _ _ => hrest
        · exact hrest
      · exact Logged.Every.bind (.doing hcreated _) fun _ _ => .pure _ _

theorem releaseModelInfos_keepsSchedule (entries : List (ℕ × Dlt698Entry)) :
    Logged.Every KeepsSchedule (releaseModelInfos entries) := by
  induction entries with
  | nil => exact .pure _ _
  | cons entry entries ih =>
    have hfirst := freePart_keepsSchedule entry.1 (p := .modelInfo) nofun entry.2.modelInfo
    exact hfirst.bind fun _ _ => ih

theorem dlt698Init_keepsSchedule (models : Option JsonArray) (outcome : Dlt698Outcome) :
    Logged.Every KeepsSchedule (dlt698Init models outcome) := by
  have hdescription : Logged.Every KeepsSchedule (free .description) := free_keepsSchedule nofun
  unfold dlt698Init
  cases models with
  | none => exact .pure _ _
  | some models =>
    dsimp only
    split_ifs
    · exact .pure _ _
    · exact hdescription.bind fun _ _ => .pure _ _
    · apply (buildList_every (dlt698Step_keepsSchedule outcome.element) () 0 models).bind
      intro built _
      split_ifs
      · exact .pure _ _
      · apply Logged.Every.bind
        · exact (releaseModelInfos_keepsSchedule _).bind fun _ _ => free_keepsSchedule nofun
        · exact fun _ _ => hdescription.bind fun _ _ => .pure _ _

end

section
variable {models : JsonArray} {outcome : Dlt698Outcome} {k : ℕ}

theorem dlt698Init_rejected (h : .rejected k ∈ (dlt698Init (some models) outcome).log) :
    dlt698Init (some models) outcome =
      buildList (dlt698Step outcome.element) () 0 models >>= fun built =>
        if built.2.1 then return some ⟨some built.2.2⟩
        else do
          dlt698ModelInfoDestroy (some built.2.2)
          free .description
          return none := by
  unfold dlt698Init at h ⊢
  dsimp only at h ⊢
  split_ifs at h ⊢
  · cases h
  · obtain h | h := List.mem_append.mp h
    · cases List.mem_singleton.mp h
    · cases h
  · rfl

theorem dlt698Init_firstRefused (h : .rejected k ∈ (dlt698Init (some models) outcome).log)
    {j : ℕ} {element : JsonValue} (hreached : Reached NoObject models j element)
    (hrefused : Refused outcome.element j element) :
    dlt698Init (some models) outcome =
      ⟨refusal (outcome.element j).modelAllocated j ++ [.free .list, .free .description],
        some none⟩ := by
  rw [← Nat.zero_add j] at hrefused
  rw [dlt698Init_rejected h, buildList_firstRefused hreached hrefused, Nat.zero_add]
  rfl

theorem exists_firstRefused_of_undone (h : .rejected k ∈ (dlt698Init (some models) outcome).log)
    (hundone : Undone k (dlt698Init (some models) outcome).log
      (dlt698Init (some models) outcome).value) :
    ∃ j element, Reached NoObject models j element ∧ Refused outcome.element j element := by
  have hcreated : ∀ n, .created n ∉ (dlt698Init (some models) outcome).log := by
    intro n hn
    have hone := hundone.released n hn .timeToSend (by simp)
    have hfree : .free (.part n .timeToSend) ∈ (dlt698Init (some models) outcome).log := by
      apply List.count_pos_iff.mp
      omega
    exact dlt698Init_keepsSchedule _ _ _ hfree n rfl
  have hnull := hundone.null
  rw [dlt698Init_rejected h] at hcreated hnull
  rw [Logged.bind_value] at hnull
  obtain ⟨⟨_, accepted, entries⟩, hbuilt, hnull⟩ := Option.bind_eq_some_iff.mp hnull
  cases accepted with
  | true => cases hnull
  | false =>
    have hnone : ∀ n, .created n ∉ (buildList (dlt698Step outcome.element) () 0 models).log :=
      fun n hn => hcreated n (Logged.mem_bind_left hn)
    obtain ⟨j, element, hreached, hrefused⟩ := exists_firstRefused hbuilt hnone
    rw [Nat.zero_add] at hrefused
    exact ⟨j, element, hreached, hrefused⟩

theorem undone_refusal {δ : Type} (allocated : Bool) (k : ℕ) :
    Undone (δ := δ) k (refusal allocated k ++ [.free .list, .free .description]) (some none) := by
  have hnodup : (refusal allocated k ++ [Act.free .list, Act.free .description]).Nodup := by
    cases allocated <;> simp [refusal]
  constructor
  · rfl
  · simp [refusal]
  · simp [refusal]
  · simp [refusal]
  · intro n p h
    right
    simp only [refusal] at h
    split_ifs at h <;> simp at h
    exact h.1
  · exact fun block => List.nodup_iff_count_le_one.mp hnodup _

/-- Behind a rejected Modbus model nothing is undone. Behind a rejected DL/T 698 model all is undone
if and only if the parser rejected the first object of the list, so that no entry was created. A
Modbus list that was set is released whole, each entry of it once and nothing else. -/
theorem undone_iff (models : JsonArray) (k : ℕ) :
    (∀ status outcome, .rejected k ∈ (modbusInit status (some models) outcome).log →
      ¬ Undone k (modbusInit status (some models) outcome).log
        ((modbusInit status (some models) outcome).value.map Prod.fst)) ∧
    (∀ outcome, .rejected k ∈ (dlt698Init (some models) outcome).log →
      (Undone k (dlt698Init (some models) outcome).log (dlt698Init (some models) outcome).value ↔
        FirstRefused outcome.element models k)) ∧
    ∀ status outcome entries status',
      Modbus.Requests.modbusInit status (some models) outcome = .ok (some entries, status') →
      ∃ numbered : List (ℕ × ModbusEntry), numbered.map Prod.snd = entries ∧
        (modbusInit status (some models) outcome).value = some (some ⟨some numbered⟩, status') ∧
        ∃ blocks : List Block, modbusDestroy status' (some ⟨some numbered⟩) =
            ⟨blocks.map .free ++ [.free .list, .free .description],
              some (modbusMasterEnd { status' with frame := none })⟩ ∧
          blocks.Nodup ∧
          (∀ listed ∈ numbered, ∀ p ∈ [Part.entry, .timeToSend, .dataRequest, .modelInfo],
            .part listed.1 p ∈ blocks) ∧
          ∀ block ∈ blocks, ∃ listed ∈ numbered, ∃ p, block = .part listed.1 p := by
  refine ⟨?_, ?_, fun status outcome entries status' haccepted => ?_⟩
  · intro status outcome h hundone
    exact hundone.set (modbusInit_rejected h)
  · intro outcome h
    constructor
    · intro hundone
      obtain ⟨j, element, hreached, hrefused⟩ := exists_firstRefused_of_undone h hundone
      rw [dlt698Init_firstRefused h hreached hrefused] at h
      have hk : k = j := by
        cases hallocated : (outcome.element j).modelAllocated <;> simpa [refusal, hallocated] using h
      rw [hk]
      exact ⟨element, hreached, hrefused⟩
    · rintro ⟨element, hreached, hrefused⟩
      rw [dlt698Init_firstRefused h hreached hrefused]
      exact undone_refusal _ k
  · obtain ⟨numbered, hvalue, hsame⟩ := modbusInit_accepts.mp haccepted
    exact ⟨numbered, hsame, hvalue, modbusDestroy_accepted hvalue⟩

end

/-! An empty document behind a complete one. -/

def dlt698Document : JsonObject :=
  [("acqInt", .number 60), ("acqMode", .string "realtime"), ("DBTopic", .string "rspData/energy"),
    ("startTime", .object []), ("endTime", .object []),
    ("AcqFile", .object [("m", .string "Ua"), ("math", .string "-1"), ("oad", .string "20000200"),
      ("addr", .string "010000000000")])]

def granted698 : Dlt698Outcome where
  allocated := true
  listCreated := true
  element := fun _ => ⟨true, ⟨some ⟨none, none, none⟩, some zeroTimeToSend, true⟩, some ⟨[], 0⟩, true⟩

theorem undone_iff_empty :
    (¬ Undone 1 (modbusInit Modbus.Requests.freshMaster
        (some [.object (Modbus.Requests.document 3), .object []]) Modbus.Requests.granted).log
      ((modbusInit Modbus.Requests.freshMaster
        (some [.object (Modbus.Requests.document 3), .object []])
        Modbus.Requests.granted).value.map Prod.fst)) ∧
    (Undone 1 (dlt698Init (some [.null, .object []]) granted698).log
        (dlt698Init (some [.null, .object []]) granted698).value ↔
      FirstRefused granted698.element [.null, .object []] 1) ∧
    ∃ status numbered, ∃ blocks : List Block, numbered.length = 1 ∧
      (modbusInit Modbus.Requests.freshMaster (some [.object (Modbus.Requests.document 3)])
        Modbus.Requests.granted).value = some (some ⟨some numbered⟩, status) ∧
      modbusDestroy status (some ⟨some numbered⟩) =
        ⟨blocks.map .free ++ [.free .list, .free .description],
          some (modbusMasterEnd { status with frame := none })⟩ := by
  refine ⟨(undone_iff [.object (Modbus.Requests.document 3), .object []] 1).1 _ _ (by decide),
    (undone_iff [.null, .object []] 1).2.1 granted698 (by decide), ?_⟩
  obtain ⟨numbered, hentries, hvalue, blocks, hdestroy, -⟩ :=
    (undone_iff [.object (Modbus.Requests.document 3)] 0).2.2 Modbus.Requests.freshMaster
      Modbus.Requests.granted _ _ rfl
  refine ⟨_, numbered, blocks, ?_, hvalue, hdestroy⟩
  rw [← numbered.length_map Prod.snd, hentries]
  rfl

/-- The Modbus clean-up reads a field that is not set; the one of DL/T 698 keeps the entry. -/
theorem empty_behind_complete :
    ((modbusInit Modbus.Requests.freshMaster
        (some [.object (Modbus.Requests.document 3), .object []]) Modbus.Requests.granted).log =
        [.created 0, .rejected 1, .readUnset] ∧
      (dlt698Init (some [.object dlt698Document, .object []]) granted698).log =
        [.created 0, .free (.part 1 .modelInfo), .rejected 1, .free (.part 0 .modelInfo),
          .free .list, .free .description]) ∧
    (¬ ∀ status models outcome k, .rejected k ∈ (modbusInit status models outcome).log →
      Undone k (modbusInit status models outcome).log
        ((modbusInit status models outcome).value.map Prod.fst)) ∧
    ¬ ∀ models outcome k, .rejected k ∈ (dlt698Init models outcome).log →
      Undone k (dlt698Init models outcome).log (dlt698Init models outcome).value := by
  have hmodbus : (modbusInit Modbus.Requests.freshMaster
      (some [.object (Modbus.Requests.document 3), .object []]) Modbus.Requests.granted).log =
        [.created 0, .rejected 1, .readUnset] := rfl
  have hdlt698 : (dlt698Init (some [.object dlt698Document, .object []]) granted698).log =
      [.created 0, .free (.part 1 .modelInfo), .rejected 1, .free (.part 0 .modelInfo),
        .free .list, .free .description] := rfl
  refine ⟨⟨hmodbus, hdlt698⟩, fun hall => ?_, fun hall => ?_⟩
  · have hundone := hall _ _ _ 1 (by rw [hmodbus]; simp)
    apply hundone.set
    rw [hmodbus]
    simp
  · have hundone := hall (some [.object dlt698Document, .object []]) granted698 1
      (by rw [hdlt698]; simp)
    have hone := hundone.released 0 (by rw [hdlt698]; simp) .entry (by simp)
    rw [hdlt698] at hone
    contradiction

end IotEdgeAgent.Configuration.RejectedModels
