import Mathlib.Data.List.Perm.Basic
import IotEdgeAgent.Agent.IotMain

/-!
# The order of the models in a message

`thing_instance_construct` decides from one counter whether any model of the message found a
channel. The counter is reset with each model that is accepted, so the last of these decides, and
a message without one is judged by the count of an earlier message.
-/

namespace IotEdgeAgent.Agent

variable {β : Type*} {construct : InterDescription → β → Bool}

def keyWords (mapList : List PmChannelMap) : List String := mapList.map (·.keyWord)

def ThreadsCreated (models : Models β) : Prop :=
  ∀ model outcome, some (model, outcome) ∈ models → ∀ i, outcome.threadCreated i = true

/-- The channels are destroyed just when no model was accepted and found a channel, and neither
that nor the return value depends on the order of the models. -/
structure OrderIndependent (construct : InterDescription → β → Bool) (g : Globals)
    (mapList : List PmChannelMap) (models : Models β) : Prop where
  destroyed : ((thingInstanceConstruct construct g (.body models)).1.gPmMapList = none ∧
      (thingInstanceConstruct construct g (.body models)).2 = false) ↔
    ¬ ∃ name ∈ accepted construct models, name ∈ keyWords mapList
  permuted : ∀ models' : Models β, models'.Perm models →
    (thingInstanceConstruct construct g (.body models')).2 =
        (thingInstanceConstruct construct g (.body models)).2 ∧
      (thingInstanceConstruct construct g (.body models')).1.gPmMapList.isSome =
        (thingInstanceConstruct construct g (.body models)).1.gPmMapList.isSome

section Counter
variable {g : Globals} {pm : PmInstance} {map : PmChannelMap} {mapList : List PmChannelMap}
  {models : Models β}

theorem mapChannelAndModel_keyWord (threadCreated : Bool) :
    (mapChannelAndModel g pm map threadCreated).2.keyWord = map.keyWord := by
  unfold mapChannelAndModel attachModel
  split_ifs <;> rfl

theorem mapChannelAndModel_count :
    (mapChannelAndModel g pm map true).1.gThreadCount =
      g.gThreadCount + if pm.modelName = map.keyWord then 1 else 0 := by
  by_cases hname : pm.modelName = map.keyWord
  · simp [mapChannelAndModel, attachModel, hname, protocolDestroy]
  · simp [mapChannelAndModel, hname]

theorem mapChannels_keyWords (threadCreated : ℕ → Bool) (i : ℕ) :
    keyWords (mapChannels pm threadCreated i g mapList).2 = keyWords mapList := by
  induction mapList generalizing i g with
  | nil => rfl
  | cons map mapList ih =>
    rw [mapChannels, keyWords, List.map_cons, mapChannelAndModel_keyWord]
    exact congrArg (map.keyWord :: ·) (ih (i + 1))

theorem mapChannels_count {threadCreated : ℕ → Bool} (hthreads : ∀ i, threadCreated i = true)
    (i : ℕ) :
    (mapChannels pm threadCreated i g mapList).1.gThreadCount =
      g.gThreadCount + (keyWords mapList).count pm.modelName := by
  induction mapList generalizing i g with
  | nil => rfl
  | cons map mapList ih =>
    have hcons : (keyWords (map :: mapList)).count pm.modelName =
        (keyWords mapList).count pm.modelName + if pm.modelName = map.keyWord then 1 else 0 := by
      rw [keyWords, List.map_cons, List.count_cons]
      simp only [beq_iff_eq, @eq_comm _ map.keyWord]
      rfl
    rw [mapChannels, ih, hthreads i, mapChannelAndModel_count, hcons]
    omega

theorem constructModels_count (construct : InterDescription → β → Bool) (g : Globals)
    (mapList : List PmChannelMap) (hthreads : ThreadsCreated models) :
    (constructModels construct g mapList models).1.gThreadCount =
      (accepted construct models).getLast?.elim g.gThreadCount (keyWords mapList).count := by
  induction models generalizing g mapList with
  | nil => rfl
  | cons element models ih =>
    have hrest : ThreadsCreated models :=
      fun model outcome hmem => hthreads model outcome (List.mem_cons_of_mem _ hmem)
    rw [constructModels, ih _ _ hrest]
    cases haccept : acceptedName construct element with
    | none =>
      rw [constructModel_refused g mapList haccept, accepted, accepted,
        List.filterMap_cons_none haccept]
    | some name =>
      obtain ⟨model, outcome, rfl, hmapped⟩ := constructModel_accepted g mapList haccept
      have hcreated := hthreads model outcome List.mem_cons_self
      rw [hmapped, mapChannels_count hcreated, mapChannels_keyWords, accepted, accepted,
        List.filterMap_cons_some haccept, List.getLast?_cons]
      cases (models.filterMap (acceptedName construct)).getLast? with
      | none => exact Nat.zero_add _
      | some last => rfl

end Counter

section Verdict
variable {g : Globals} {mapList : List PmChannelMap} {models : Models β}

/-- The channels survive, and 0 is returned, when the last accepted model has a channel. -/
def Survives (construct : InterDescription → β → Bool) (g : Globals)
    (mapList : List PmChannelMap) (models : Models β) : Prop :=
  (accepted construct models).getLast?.elim (g.gThreadCount ≠ 0) (· ∈ keyWords mapList)

theorem thingInstanceConstruct_body (hlist : g.gPmMapList = some mapList)
    (hthreads : ThreadsCreated models) :
    ((thingInstanceConstruct construct g (.body models)).2 = true ↔
      Survives construct g mapList models) ∧
    ((thingInstanceConstruct construct g (.body models)).1.gPmMapList.isSome = true ↔
      Survives construct g mapList models) := by
  have hcount := constructModels_count construct g mapList hthreads
  have hsurvives : Survives construct g mapList models ↔
      (constructModels construct g mapList models).1.gThreadCount ≠ 0 := by
    rw [hcount, Survives]
    cases (accepted construct models).getLast? with
    | none => rfl
    | some name => exact List.count_pos_iff.symm.trans Nat.pos_iff_ne_zero
  simp only [thingInstanceConstruct, hlist, testThreads]
  split_ifs with hzero
  · simp [hsurvives, hzero]
  · simp [hsurvives, hzero]

theorem ThreadsCreated.perm {models' : Models β} (h : ThreadsCreated models)
    (hperm : models'.Perm models) : ThreadsCreated models' :=
  fun model outcome hmem => h model outcome (hperm.subset hmem)

theorem exists_perm_last {name : String} (h : name ∈ accepted construct models) :
    ∃ models' : Models β, models'.Perm models ∧
      (accepted construct models').getLast? = some name := by
  obtain ⟨element, helement, hname⟩ := List.mem_filterMap.mp h
  obtain ⟨front, back, rfl⟩ := List.append_of_mem helement
  refine ⟨front ++ back ++ [element], ?_, ?_⟩
  · exact (List.perm_append_singleton _ _).trans List.perm_middle.symm
  · rw [accepted, List.filterMap_append, List.filterMap_cons_some hname, List.filterMap_nil,
      List.getLast?_concat]

theorem survives_of_last {name : String} (h : (accepted construct models).getLast? = some name) :
    Survives construct g mapList models ↔ name ∈ keyWords mapList := by
  rw [Survives, h]
  rfl

theorem survives_iff_of_agree (hne : accepted construct models ≠ [])
    (hagree : (∀ name ∈ accepted construct models, name ∈ keyWords mapList) ∨
      ∀ name ∈ accepted construct models, name ∉ keyWords mapList) :
    Survives construct g mapList models ↔
      ∃ name ∈ accepted construct models, name ∈ keyWords mapList := by
  obtain ⟨last, hlast⟩ := Option.ne_none_iff_exists'.mp (mt List.getLast?_eq_none_iff.mp hne)
  have hmem := List.mem_of_getLast? hlast
  rw [survives_of_last hlast]
  refine ⟨fun hmatch => ⟨last, hmem, hmatch⟩, ?_⟩
  rintro ⟨name, hname, hmatch⟩
  rcases hagree with hall | hnone
  · exact hall last hmem
  · exact absurd hmatch (hnone name hname)

theorem survives_perm {models' : Models β} (hperm : models'.Perm models)
    (h : (accepted construct models = [] ∧ g.gThreadCount = 0) ∨
      (accepted construct models ≠ [] ∧
        ((∀ name ∈ accepted construct models, name ∈ keyWords mapList) ∨
          ∀ name ∈ accepted construct models, name ∉ keyWords mapList))) :
    Survives construct g mapList models' ↔
      ∃ name ∈ accepted construct models, name ∈ keyWords mapList := by
  have hnames : (accepted construct models').Perm (accepted construct models) :=
    hperm.filterMap _
  rcases h with ⟨hempty, hzero⟩ | ⟨hne, hagree⟩
  · rw [hempty] at hnames ⊢
    rw [Survives, List.perm_nil.mp hnames]
    simpa using hzero
  · have hne' : accepted construct models' ≠ [] := by
      intro hnil
      rw [hnil] at hnames
      exact hne (List.nil_perm.mp hnames)
    have hagree' : (∀ name ∈ accepted construct models', name ∈ keyWords mapList) ∨
        ∀ name ∈ accepted construct models', name ∉ keyWords mapList :=
      hagree.imp (fun hall name hname => hall name (hnames.subset hname))
        fun hnone name hname => hnone name (hnames.subset hname)
    rw [survives_iff_of_agree hne' hagree']
    simp only [hnames.mem_iff]

theorem OrderIndependent.agree {construct : InterDescription → β → Bool}
    (hlist : g.gPmMapList = some mapList) (hthreads : ThreadsCreated models)
    (h : OrderIndependent construct g mapList models) :
    (∀ name ∈ accepted construct models, name ∈ keyWords mapList) ∨
      ∀ name ∈ accepted construct models, name ∉ keyWords mapList := by
  have hverdict : ∀ models' : Models β, models'.Perm models →
      ((thingInstanceConstruct construct g (.body models')).2 = true ↔
        Survives construct g mapList models') :=
    fun _ hperm => (thingInstanceConstruct_body hlist (hthreads.perm hperm)).1
  by_contra hmixed
  rw [not_or] at hmixed
  obtain ⟨hnotall, hnotnone⟩ := hmixed
  simp only [not_forall, not_not] at hnotall hnotnone
  obtain ⟨missing, hmissing, hnomatch⟩ := hnotall
  obtain ⟨found, hfound, hmatch⟩ := hnotnone
  obtain ⟨models₁, hperm₁, hlast₁⟩ := exists_perm_last hfound
  obtain ⟨models₂, hperm₂, hlast₂⟩ := exists_perm_last hmissing
  have hresult₁ := (hverdict models₁ hperm₁).mpr ((survives_of_last hlast₁).mpr hmatch)
  rw [(h.permuted models₁ hperm₁).1, ← (h.permuted models₂ hperm₂).1] at hresult₁
  exact hnomatch ((survives_of_last hlast₂).mp ((hverdict models₂ hperm₂).mp hresult₁))

/-- The order of the models is irrelevant exactly when all accepted models have a channel or none
has; a message without an accepted model asks for a counter that stands at 0. -/
theorem orderIndependent_iff (construct : InterDescription → β → Bool)
    (hlist : g.gPmMapList = some mapList) (hthreads : ThreadsCreated models) :
    OrderIndependent construct g mapList models ↔
      (accepted construct models = [] ∧ g.gThreadCount = 0) ∨
      (accepted construct models ≠ [] ∧
        ((∀ name ∈ accepted construct models, name ∈ keyWords mapList) ∨
          ∀ name ∈ accepted construct models, name ∉ keyWords mapList)) := by
  have hverdict : ∀ models' : Models β, models'.Perm models →
      ((thingInstanceConstruct construct g (.body models')).2 = true ↔
        Survives construct g mapList models') ∧
      ((thingInstanceConstruct construct g (.body models')).1.gPmMapList.isSome = true ↔
        Survives construct g mapList models') :=
    fun _ hperm => thingInstanceConstruct_body hlist (hthreads.perm hperm)
  constructor
  · intro h
    by_cases hempty : accepted construct models = []
    · left
      refine ⟨hempty, ?_⟩
      by_contra hcount
      have hsurvives : Survives construct g mapList models := by
        rw [Survives, hempty]
        exact hcount
      have hdestroyed := (h.destroyed.mpr (by simp [hempty])).2
      rw [(hverdict models (.refl _)).1.mpr hsurvives] at hdestroyed
      cases hdestroyed
    · right
      exact ⟨hempty, h.agree hlist hthreads⟩
  · intro hcond
    have hsame : ∀ models' : Models β, models'.Perm models →
        (Survives construct g mapList models' ↔
          ∃ name ∈ accepted construct models, name ∈ keyWords mapList) :=
      fun _ hperm => survives_perm hperm hcond
    refine ⟨?_, fun models' hperm => ⟨?_, ?_⟩⟩
    · obtain ⟨hresult, hkept⟩ := hverdict models (.refl _)
      rw [← hsame models (.refl _), ← Option.not_isSome_iff_eq_none, hkept,
        ← Bool.not_eq_true, hresult]
      exact and_self_iff
    · rw [Bool.eq_iff_iff, (hverdict models' hperm).1, (hverdict models (.refl _)).1,
        hsame models' hperm, hsame models (.refl _)]
    · rw [Bool.eq_iff_iff, (hverdict models' hperm).2, (hverdict models (.refl _)).2,
        hsame models' hperm, hsame models (.refl _)]

end Verdict

def anyBody : InterDescription → Unit → Bool := fun _ _ => true

def modelNamed (name : String) : Option (ThingModel Unit × ModelOutcome) :=
  some (⟨some "DLT698.45", some name, some ()⟩, ⟨true, fun _ => true⟩)

def meterMap : PmChannelMap := openedMap 0 ⟨"serial", "meter"⟩

def meterOpened : Globals := { started with gPmMapList := some [meterMap], xioCreated := 1 }

theorem threadsCreated_named (names : List String) : ThreadsCreated (names.map modelNamed) := by
  intro model outcome hmem i
  obtain ⟨name, -, heq⟩ := List.mem_map.mp hmem
  cases heq
  rfl

def bothMaps : List PmChannelMap := [meterMap, openedMap 1 ⟨"serial", "pump"⟩]

theorem orderIndependent_iff_meter :
    OrderIndependent anyBody { started with gPmMapList := some bothMaps, xioCreated := 2 } bothMaps
      [modelNamed "meter", modelNamed "pump"] := by
  apply (orderIndependent_iff anyBody rfl (threadsCreated_named ["meter", "pump"])).mpr
  exact .inr ⟨List.cons_ne_nil _ _, .inl fun name hname => hname⟩

/-- The model for the meter is attached, the other one has no channel, and all is destroyed. -/
theorem last_model_decides :
    meterOpened.gPmMapList = some [meterMap] ∧
    ThreadsCreated [modelNamed "meter", modelNamed "pump"] ∧
    (thingInstanceConstruct anyBody meterOpened
      (.body [modelNamed "meter", modelNamed "pump"])).2 = false ∧
    (thingInstanceConstruct anyBody meterOpened
      (.body [modelNamed "pump", modelNamed "meter"])).2 = true ∧
    ¬ OrderIndependent anyBody meterOpened [meterMap] [modelNamed "meter", modelNamed "pump"] := by
  refine ⟨rfl, threadsCreated_named ["meter", "pump"], rfl, rfl, fun h => ?_⟩
  have hswap := (h.permuted [modelNamed "pump", modelNamed "meter"] (.swap _ _ _)).1
  cases hswap

end IotEdgeAgent.Agent
