import IotEdgeAgent.Agent.ChannelTexts

/-!
# Binding a model to its channels

The name of a channel's model goes through two copies of at most 64 bytes into memory that was not
cleared, that of a model through one which fails where the name and its terminator need more than
32. `map_channel_and_model` compares what is left of them.
-/

namespace IotEdgeAgent.Configuration.Binding
open Parson CharArrays ChannelTexts Strings

def MAX_SIZE_OF_KEY : ℕ := 64

/-- What the memory of a channel's model name, of the key word of its map and of the name of a
protocol instance held before, and what is behind each of them. -/
structure NameMemory where
  modelNmae : Vector UInt8 (MAX_SIZE_OF_MODEL_TYPE + 1)
  behindModelNmae : List UInt8
  keyWord : Vector UInt8 (MAX_SIZE_OF_KEY + 1)
  behindKeyWord : List UInt8
  modelName : Vector UInt8 (Agent.MAX_SIZE_OF_MNAME + 1)
  behindModelName : List UInt8

section
variable (pm : PmInstance) (info : ChannelModelInfo) (m : NameMemory)

def keyWordMemory : Option (List UInt8) := do
  let keyWord ← strncpy (store info.modelNmae m.modelNmae.toList ++ m.behindModelNmae)
    MAX_SIZE_OF_KEY
  return store keyWord m.keyWord.toList ++ m.behindKeyWord

/-- The name that `get_model_name` returns. -/
def modelNameMemory : List UInt8 :=
  store (strncpyS Agent.MAX_SIZE_OF_MNAME (some pm.modelName) (cText pm.modelName).length).2
    m.modelName.toList ++ m.behindModelName

/-- The test of `map_channel_and_model`. -/
def attaches : Option Bool := (keyWordMemory info m).bind (strcmp (modelNameMemory pm m))

end

section
variable {pm : PmInstance} {info : ChannelModelInfo} {m : NameMemory} {modeltype : String}

theorem modelNameMemory_eq (h : (cText pm.modelName).length + 1 ≤ Agent.MAX_SIZE_OF_MNAME) :
    ∃ behind, modelNameMemory pm m = cText pm.modelName ++ 0 :: behind := by
  have hle : (cText pm.modelName).length ≤ (bytesOf pm.modelName).length :=
    (List.takeWhile_prefix _).length_le
  have htake : (bytesOf pm.modelName).take (cText pm.modelName).length = cText pm.modelName :=
    (List.prefix_iff_eq_take.mp (List.takeWhile_prefix _)).symm
  have hcopy : (strncpyS Agent.MAX_SIZE_OF_MNAME (some pm.modelName)
      (cText pm.modelName).length).2 = cText pm.modelName ++ [0] := by
    simp only [strncpyS, Nat.min_eq_right hle, htake]
    rw [if_neg (Nat.not_lt.mpr h)]
  rw [modelNameMemory, hcopy, store, List.append_assoc, List.append_assoc]
  exact ⟨_, rfl⟩

theorem keyWordMemory_eq (hinfo : info.modelNmae = written modeltype MAX_SIZE_OF_MODEL_TYPE) :
    (∃ behind, keyWordMemory info m = some (cText modeltype ++ 0 :: behind)) ∨
    MAX_SIZE_OF_KEY ≤ (cText modeltype).length ∧
      ∃ behind, keyWordMemory info m = some ((cText modeltype).take MAX_SIZE_OF_KEY ++ behind) := by
  have hnul := cText_noNul modeltype
  rw [keyWordMemory, hinfo]
  by_cases hlong : MAX_SIZE_OF_KEY ≤ (cText modeltype).length
  · right
    have hcut : written modeltype MAX_SIZE_OF_MODEL_TYPE =
        (cText modeltype).take MAX_SIZE_OF_KEY := written_long hlong
    have hlength : ((cText modeltype).take MAX_SIZE_OF_KEY).length = MAX_SIZE_OF_KEY := by
      rw [List.length_take, Nat.min_eq_left hlong]
    have hcopy : ∀ behind, strncpy ((cText modeltype).take MAX_SIZE_OF_KEY ++ behind)
        ((cText modeltype).take MAX_SIZE_OF_KEY).length = _ :=
      strncpy_long fun hin => hnul (List.mem_of_mem_take hin)
    rw [hlength] at hcopy
    refine ⟨hlong, ?_⟩
    rw [hcut, store, List.append_assoc, hcopy]
    exact ⟨_, congrArg some (List.append_assoc _ _ _)⟩
  · left
    have hshort := Nat.lt_of_not_le hlong
    have hstored : ∃ rest, store (written modeltype MAX_SIZE_OF_MODEL_TYPE) m.modelNmae.toList ++
        m.behindModelNmae = cText modeltype ++ 0 :: rest := store_written hshort _ _
    obtain ⟨rest, hrest⟩ := hstored
    obtain ⟨copy, behind, hcopy, hstore⟩ :=
      strncpy_store hnul hshort rest m.keyWord.toList m.behindKeyWord
    rw [hrest, hcopy]
    exact ⟨behind, congrArg some hstore⟩

theorem attaches_eq (hname : (cText pm.modelName).length + 1 ≤ Agent.MAX_SIZE_OF_MNAME)
    (hinfo : info.modelNmae = written modeltype MAX_SIZE_OF_MODEL_TYPE) :
    attaches pm info m = some (decide (cText pm.modelName = cText modeltype)) := by
  have hnul := cText_noNul pm.modelName
  have hnul' := cText_noNul modeltype
  obtain ⟨x, hmodel⟩ := modelNameMemory_eq (m := m) hname
  rw [attaches, hmodel]
  obtain ⟨y, hkey⟩ | ⟨hlong, y, hkey⟩ := keyWordMemory_eq (m := m) hinfo
  · rw [hkey]
    exact strcmp_ended hnul hnul' x y
  · have hshort : (cText pm.modelName).length < MAX_SIZE_OF_KEY :=
      Nat.lt_of_lt_of_le hname (by decide)
    have hlength : ((cText modeltype).take MAX_SIZE_OF_KEY).length = MAX_SIZE_OF_KEY := by
      rw [List.length_take, Nat.min_eq_left hlong]
    have hnulTake : 0 ∉ (cText modeltype).take MAX_SIZE_OF_KEY :=
      fun hin => hnul' (List.mem_of_mem_take hin)
    have hdiffer : cText pm.modelName ≠ cText modeltype := by
      intro hsame
      rw [hsame] at hshort
      exact absurd hshort (Nat.not_lt.mpr hlong)
    rw [hkey, Option.bind_some, strcmp_longer hnul hnulTake (hlength.symm ▸ hshort),
      decide_eq_false hdiffer]

end

theorem protocolInit_ok {jsonObject : Option JsonObject} {outcome : ProtocolOutcome}
    {pm : PmInstance} (h : protocolInit jsonObject outcome = .ok (some pm)) :
    jsonObjectDotgetString jsonObject "name" = some pm.modelName ∧
    (bytesOf pm.modelName).length + 1 ≤ Agent.MAX_SIZE_OF_MNAME := by
  cases jsonObject with
  | none => cases h
  | some bodyObject =>
    have hname := @protocolInit_name bodyObject ⟨outcome, fun _ => true⟩ _ h
    simp only [Agent.instanceName, thingModel, Option.map_some] at hname
    split at hname
    · next protoType name hproto hjson =>
      generalize (if protoType = "MODBUS" then some Agent.InterDescription.modbus
        else if protoType = "DLT698.45" then some .dlt698 else none) = interface? at hname
      split_ifs at hname
      split at hname
      · split_ifs at hname with hfits
        obtain rfl := Option.some.inj hname
        exact ⟨hjson, hfits.2⟩
      · cases hname
    · cases hname

theorem attaches_of_accepted {jsonObject : Option JsonObject} {outcome : ProtocolOutcome}
    {pm : PmInstance} {info : ChannelModelInfo} {modeltype : String}
    (h : protocolInit jsonObject outcome = .ok (some pm))
    (hinfo : info.modelNmae = written modeltype MAX_SIZE_OF_MODEL_TYPE) (m : NameMemory) :
    attaches pm info m = some (decide (cText pm.modelName = cText modeltype)) := by
  have hle : (cText pm.modelName).length ≤ (bytesOf pm.modelName).length :=
    (List.takeWhile_prefix _).length_le
  exact attaches_eq (Nat.le_trans (Nat.succ_le_succ hle) (protocolInit_ok h).2) hinfo

theorem cText_inj {s t : String} (hs : 0 ∉ bytesOf s) (ht : 0 ∉ bytesOf t) :
    cText s = cText t ↔ s = t := by
  rw [cText_of_noNul hs, cText_of_noNul ht]
  exact ⟨fun h => bytesOf_injective h, congrArg bytesOf⟩

/-- What `map_channel_and_model` does with the copies of the two names; `none` is a read outside
them. -/
def mapChannelAndModel (g : Agent.Globals) (handle : ℕ) (pm : PmInstance)
    (map : Agent.PmChannelMap) (info : ChannelModelInfo) (m : NameMemory) (threadCreated : Bool) :
    Option (Agent.Globals × Agent.PmChannelMap) := do
  let same ← attaches pm info m
  return if same then Agent.attachModel g ⟨handle, pm.modelName⟩ map threadCreated else (g, map)

theorem attachModel_pmHandle (g : Agent.Globals) (pm : Agent.PmInstance) (map : Agent.PmChannelMap)
    (threadCreated : Bool) : (Agent.attachModel g pm map threadCreated).2.pmHandle = some pm := by
  cases threadCreated with
  | true => rfl
  | false => rfl

theorem mapChannelAndModel_names {jsonObject : Option JsonObject} {outcome : ProtocolOutcome}
    {pm : PmInstance} {info : ChannelModelInfo} {modeltype : String}
    (h : protocolInit jsonObject outcome = .ok (some pm))
    (hinfo : info.modelNmae = written modeltype MAX_SIZE_OF_MODEL_TYPE)
    (hname : 0 ∉ bytesOf pm.modelName) (hmodeltype : 0 ∉ bytesOf modeltype) (m : NameMemory)
    (g : Agent.Globals) (handle : ℕ) {map : Agent.PmChannelMap} (hmap : map.keyWord = modeltype)
    (threadCreated : Bool) :
    mapChannelAndModel g handle pm map info m threadCreated =
      some (Agent.mapChannelAndModel g ⟨handle, pm.modelName⟩ map threadCreated) := by
  have hsame : cText pm.modelName = cText modeltype ↔ pm.modelName = map.keyWord := by
    rw [cText_inj hname hmodeltype, hmap]
  rw [mapChannelAndModel, attaches_of_accepted h hinfo m, Agent.mapChannelAndModel]
  by_cases heq : pm.modelName = map.keyWord
  · rw [decide_eq_true (hsame.mpr heq), if_pos heq]
    rfl
  · rw [decide_eq_false (mt hsame.mp heq), if_neg heq]
    rfl

/-- A model that is accepted is attached to a channel of an accepted message exactly when the two
names are the same as a whole, whatever the memory held; else the channel keeps what it had. -/
theorem attaches_iff {channelJson : Option JsonValue} {listCreated : Bool}
    {outcome : ℕ → ChannelElementOutcome} {infos : List ChannelModelInfo}
    (hchannels : channelInfoListCreate channelJson listCreated outcome = .ok (some infos))
    {i : ℕ} {info : ChannelModelInfo} (hinfo : infos[i]? = some info)
    {jsonObject : Option JsonObject} {modelOutcome : ProtocolOutcome} {pm : PmInstance}
    (hmodel : protocolInit jsonObject modelOutcome = .ok (some pm)) :
    ∃ element modeltype name, (channelBody channelJson)[i]? = some element ∧
      jsonObjectDotgetString (elementObject element) "modeltype" = some modeltype ∧
      jsonObjectDotgetString jsonObject "name" = some name ∧
      (∀ m, attaches pm info m = some (decide (cText name = cText modeltype))) ∧
      (0 ∉ bytesOf name → 0 ∉ bytesOf modeltype →
        ∀ m, attaches pm info m = some (decide (name = modeltype))) ∧
      ∀ m g handle map threadCreated,
        (∃ after, mapChannelAndModel g handle pm map info m threadCreated = some after ∧
          (cText name = cText modeltype → after.2.pmHandle = some ⟨handle, name⟩) ∧
          (cText name ≠ cText modeltype → after = (g, map))) ∧
        (0 ∉ bytesOf name → 0 ∉ bytesOf modeltype → map.keyWord = modeltype →
          mapChannelAndModel g handle pm map info m threadCreated =
            some (Agent.mapChannelAndModel g ⟨handle, name⟩ map threadCreated)) := by
  obtain ⟨_, hparsed⟩ := channelInfoListCreate_ok hchannels
  obtain ⟨element, helement, hparse⟩ := hparsed i info hinfo
  obtain ⟨modeltype, _, hmodeltype, hbytes, _⟩ := parseChannel_ok hparse
  have hattaches := attaches_of_accepted hmodel hbytes
  refine ⟨element, modeltype, pm.modelName, helement, hmodeltype, (protocolInit_ok hmodel).1,
    hattaches, fun hname hnul m => ?_, fun m g handle map threadCreated => ⟨?_, ?_⟩⟩
  · rw [hattaches m, decide_eq_decide.mpr (cText_inj hname hnul)]
  · rw [mapChannelAndModel, hattaches m]
    refine ⟨_, rfl, fun hsame => ?_, fun hdiffer => ?_⟩
    · rw [decide_eq_true hsame, if_pos rfl]
      exact attachModel_pmHandle g _ map threadCreated
    · rw [decide_eq_false hdiffer]
      rfl
  · intro hname hnul hmap
    exact mapChannelAndModel_names hmodel hbytes hname hnul m g handle hmap threadCreated

def modelDocument (name : String) : JsonObject :=
  [("protoType", .string "MODBUS"), ("name", .string name), ("body", .array [])]

theorem attaches_iff_meter : ∃ info pm longer,
    channelInfoListCreate (some (socketDocument "192.168.1.20")) true (fun _ => ⟨true, true⟩) =
      .ok (some [info]) ∧
    protocolInit (some (modelDocument "meter"))
      ⟨true, true, true, true, fun _ => ⟨true, true, true⟩⟩ = .ok (some pm) ∧
    protocolInit (some (modelDocument "meter2"))
      ⟨true, true, true, true, fun _ => ⟨true, true, true⟩⟩ = .ok (some longer) ∧
    ∀ m g map,
      (∃ after, mapChannelAndModel g 7 pm map info m true = some after ∧
        after.2.pmHandle = some ⟨7, "meter"⟩) ∧
      mapChannelAndModel g 8 longer map info m true = some (g, map) := by
  obtain ⟨info, hchannels⟩ : ∃ info, channelInfoListCreate (some (socketDocument "192.168.1.20"))
      true (fun _ => ⟨true, true⟩) = .ok (some [info]) := ⟨_, rfl⟩
  obtain ⟨pm, hmodel⟩ : ∃ pm, protocolInit (some (modelDocument "meter"))
      ⟨true, true, true, true, fun _ => ⟨true, true, true⟩⟩ = .ok (some pm) := ⟨_, rfl⟩
  obtain ⟨longer, hlonger⟩ : ∃ pm, protocolInit (some (modelDocument "meter2"))
      ⟨true, true, true, true, fun _ => ⟨true, true, true⟩⟩ = .ok (some pm) := ⟨_, rfl⟩
  refine ⟨info, pm, longer, hchannels, hmodel, hlonger, fun m g map => ⟨?_, ?_⟩⟩
  · obtain ⟨element, modeltype, name, helement, hmodeltype, hname, -, -, hmap⟩ :=
      attaches_iff hchannels (i := 0) rfl hmodel
    obtain rfl := Option.some.inj helement
    obtain rfl := Option.some.inj hmodeltype
    obtain rfl := Option.some.inj hname
    obtain ⟨after, hafter, hattached, -⟩ := (hmap m g 7 map true).1
    exact ⟨after, hafter, hattached rfl⟩
  · obtain ⟨element, modeltype, name, helement, hmodeltype, hname, -, -, hmap⟩ :=
      attaches_iff hchannels (i := 0) rfl hlonger
    obtain rfl := Option.some.inj helement
    obtain rfl := Option.some.inj hmodeltype
    obtain rfl := Option.some.inj hname
    obtain ⟨after, hafter, -, hkept⟩ := (hmap m g 8 map true).1
    exact hafter.trans (congrArg some (hkept (by decide)))

end IotEdgeAgent.Configuration.Binding
