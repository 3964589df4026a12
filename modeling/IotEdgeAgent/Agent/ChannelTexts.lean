import IotEdgeAgent.Agent.CharArrays
import IotEdgeAgent.Agent.ModelParsers

/-!
# The addresses of the channels

Host, port type and serial id of a channel stand one behind the other in memory that is not
cleared. Each is copied by `strncpy` into an array with room for one more byte, which nobody
writes. `channel_init_by_list` reads them as strings, and the id goes through two more copies before
the port is opened.
-/

namespace IotEdgeAgent.Configuration.ChannelTexts
open Collect Parson CharArrays Strings
open ByteWalk (bind_eq_ok)

structure PortTexts where
  host : String
  portType : String
  serialID : String

def portTexts (element : JsonValue) : Option PortTexts := do
  let port := jsonObjectDotgetObject (elementObject element) "port"
  return {
    host := ← jsonObjectDotgetString port "ip"
    portType := ← jsonObjectDotgetString port "portType"
    serialID := ← jsonObjectDotgetString port "serialID" }

theorem copyChecked_some {src : Option String} {count : ℕ} {bytes : List UInt8}
    (h : copyChecked src count = .ok (some bytes)) :
    ∃ s, src = some s ∧ bytes = written s count := by
  cases src with
  | none => cases h
  | some s =>
    cases h
    exact ⟨s, rfl, rfl⟩

theorem parsePort_ok {port : Option JsonObject} {options : DevicePortOption}
    (h : parsePort port = .ok (some options)) : ∃ host portType serialID,
      jsonObjectDotgetString port "ip" = some host ∧
      jsonObjectDotgetString port "portType" = some portType ∧
      jsonObjectDotgetString port "serialID" = some serialID ∧
      options.host = written host MAX_SIZE_OF_HOST ∧
      options.portType = written portType MAX_SIZE_OF_PORT_TYPE ∧
      options.serialID = written serialID MAX_SIZE_OF_SERIAL_ID := by
  rw [parsePort] at h
  obtain ⟨host?, hhost, h⟩ := bind_eq_ok h
  obtain ⟨serialID?, hserialID, h⟩ := bind_eq_ok h
  obtain ⟨portType?, hportType, h⟩ := bind_eq_ok h
  obtain ⟨parity?, -, h⟩ := bind_eq_ok h
  have h := Except.ok.inj h
  obtain ⟨baudRate, -, h⟩ := Option.bind_eq_some_iff.mp h
  obtain ⟨dataBit, -, h⟩ := Option.bind_eq_some_iff.mp h
  obtain ⟨stopBit, -, h⟩ := Option.bind_eq_some_iff.mp h
  obtain ⟨parity, -, h⟩ := Option.bind_eq_some_iff.mp h
  obtain ⟨portNumber, -, h⟩ := Option.bind_eq_some_iff.mp h
  obtain ⟨host, hhost', h⟩ := Option.bind_eq_some_iff.mp h
  obtain ⟨portType, hportType', h⟩ := Option.bind_eq_some_iff.mp h
  obtain ⟨serialID, hserialID', h⟩ := Option.bind_eq_some_iff.mp h
  obtain ⟨s, hs, hhostBytes⟩ := copyChecked_some (hhost' ▸ hhost)
  obtain ⟨t, ht, hportBytes⟩ := copyChecked_some (hportType' ▸ hportType)
  obtain ⟨u, hu, hserialBytes⟩ := copyChecked_some (hserialID' ▸ hserialID)
  cases h
  exact ⟨s, t, u, hs, ht, hu, hhostBytes, hportBytes, hserialBytes⟩

theorem parseChannel_ok {array : Option JsonObject} {info : ChannelModelInfo}
    (h : parseChannel array = .ok (some info)) : ∃ modeltype port,
      jsonObjectDotgetString array "modeltype" = some modeltype ∧
      info.modelNmae = written modeltype MAX_SIZE_OF_MODEL_TYPE ∧
      jsonObjectDotgetObject array "port" = some port ∧
      parsePort (some port) = .ok (some info.portOptions) := by
  rw [parseChannel] at h
  obtain ⟨device?, -, h⟩ := bind_eq_ok h
  obtain ⟨protoType?, -, h⟩ := bind_eq_ok h
  obtain ⟨modelNmae?, hmodel, h⟩ := bind_eq_ok h
  cases hport : jsonObjectDotgetObject array "port" with
  | none =>
    rw [hport] at h
    cases h
  | some port =>
    rw [hport] at h
    obtain ⟨portOptions?, hoptions, h⟩ := bind_eq_ok h
    have h := Except.ok.inj h
    obtain ⟨timeOut, -, h⟩ := Option.bind_eq_some_iff.mp h
    obtain ⟨device, -, h⟩ := Option.bind_eq_some_iff.mp h
    obtain ⟨protoType, -, h⟩ := Option.bind_eq_some_iff.mp h
    obtain ⟨modelNmae, hmodel', h⟩ := Option.bind_eq_some_iff.mp h
    obtain ⟨portOptions, hoptions', h⟩ := Option.bind_eq_some_iff.mp h
    obtain ⟨s, hs, hbytes⟩ := copyChecked_some (hmodel' ▸ hmodel)
    rw [hoptions'] at hoptions
    cases h
    exact ⟨s, port, hs, hbytes, rfl, hoptions⟩

theorem channelStep_cases {outcome : ℕ → ChannelElementOutcome} {i : ℕ} {element : JsonValue}
    {verdict : Verdict ChannelModelInfo} (h : channelStep outcome i element = .ok verdict) :
    verdict = .refuse ∨ ∃ info, verdict = .add info ∧
      parseChannel (elementObject element) = .ok (some info) := by
  rw [channelStep] at h
  cases hallocated : (outcome i).allocated with
  | false =>
    rw [hallocated] at h
    exact .inl (Except.ok.inj h).symm
  | true =>
    rw [hallocated] at h
    obtain ⟨info?, hparse, hverdict⟩ := map_eq_ok h
    cases info? with
    | none => exact .inl hverdict.symm
    | some info =>
      cases hadded : (outcome i).added with
      | false =>
        rw [hadded] at hverdict
        exact .inl hverdict.symm
      | true =>
        rw [hadded] at hverdict
        exact .inr ⟨info, hverdict.symm, hparse⟩

def channelBody (channelJson : Option JsonValue) : JsonArray :=
  (jsonObjectDotgetArray (jsonValueGetObject channelJson) "body").getD []

theorem channelInfoListCreate_ok {channelJson : Option JsonValue} {listCreated : Bool}
    {outcome : ℕ → ChannelElementOutcome} {infos : List ChannelModelInfo}
    (h : channelInfoListCreate channelJson listCreated outcome = .ok (some infos)) :
    infos.length = (channelBody channelJson).length ∧
    ∀ (i : ℕ) (info : ChannelModelInfo), infos[i]? = some info →
      ∃ element, (channelBody channelJson)[i]? = some element ∧
        parseChannel (elementObject element) = .ok (some info) := by
  rw [channelInfoListCreate] at h
  rw [channelBody]
  cases hbody : jsonObjectDotgetArray (jsonValueGetObject channelJson) "body" with
  | none =>
    rw [hbody] at h
    cases h
  | some body =>
    rw [hbody] at h
    simp only at h
    split_ifs at h
    · cases h
    · have hskip : ∀ i element, channelStep outcome i element ≠ .ok .skip := by
        intro i element hstep
        obtain hverdict | ⟨_, hverdict, _⟩ := channelStep_cases hstep
        · cases hverdict
        · cases hverdict
      obtain ⟨hlength, hadded⟩ := collect_added hskip h
      refine ⟨hlength, fun i info hinfo => ?_⟩
      obtain ⟨element, helement, hstep⟩ := hadded i info hinfo
      obtain hverdict | ⟨_, hverdict, hparse⟩ := channelStep_cases hstep
      · cases hverdict
      · cases hverdict
        exact ⟨element, helement, hparse⟩

def MAX_SIZE_OF_INTER_NAME : ℕ := 64

def serial : List UInt8 := "serial".toList.map Char.toUInt8
def socket : List UInt8 := "socket".toList.map Char.toUInt8

/-- What the memory of a channel, of the configuration of its port and of the port itself held
before, and what is behind each of them. -/
structure ChannelMemory where
  host : Vector UInt8 (MAX_SIZE_OF_HOST + 1)
  portType : Vector UInt8 (MAX_SIZE_OF_PORT_TYPE + 1)
  serialID : Vector UInt8 (MAX_SIZE_OF_SERIAL_ID + 1)
  behindOptions : List UInt8
  config : Vector UInt8 (MAX_SIZE_OF_INTER_NAME + 1)
  behindConfig : List UInt8
  serialIo : Vector UInt8 (MAX_SIZE_OF_INTER_NAME + 1)
  behindSerialIo : List UInt8

section
variable (options : DevicePortOption) (m : ChannelMemory)

def serialIDMemory : List UInt8 := store options.serialID m.serialID.toList ++ m.behindOptions

def portTypeMemory : List UInt8 :=
  store options.portType m.portType.toList ++ serialIDMemory options m

def hostMemory : List UInt8 := store options.host m.host.toList ++ portTypeMemory options m

/-- The name that `serialio_open` hands to `open`. -/
def openedName : Option (List UInt8) := do
  let config ← strncpy (serialIDMemory options m) MAX_SIZE_OF_INTER_NAME
  let name ← strncpy (store config m.config.toList ++ m.behindConfig) MAX_SIZE_OF_INTER_NAME
  readString (store name m.serialIo.toList ++ m.behindSerialIo)

/-- The texts that `channel_init_by_list` reads are those of the document. -/
structure AsConfigured (texts : PortTexts) : Prop where
  portType : readString (portTypeMemory options m) = some (cText texts.portType)
  serialID : strcmp (portTypeMemory options m) (serial ++ [0]) = some true →
    readString (serialIDMemory options m) = some (cText texts.serialID) ∧
    openedName options m = some (cText texts.serialID)
  host : strcmp (portTypeMemory options m) (socket ++ [0]) = some true →
    readString (hostMemory options m) = some (cText texts.host)

end

structure PortTexts.Fit (texts : PortTexts) : Prop where
  portType : (cText texts.portType).length < MAX_SIZE_OF_PORT_TYPE
  serialID : cText texts.portType = serial → (cText texts.serialID).length < MAX_SIZE_OF_SERIAL_ID
  host : cText texts.portType = socket → (cText texts.host).length < MAX_SIZE_OF_HOST

structure Stored (texts : PortTexts) (options : DevicePortOption) : Prop where
  host : options.host = written texts.host MAX_SIZE_OF_HOST
  portType : options.portType = written texts.portType MAX_SIZE_OF_PORT_TYPE
  serialID : options.serialID = written texts.serialID MAX_SIZE_OF_SERIAL_ID

section
variable {texts : PortTexts} {options : DevicePortOption} {m : ChannelMemory}

theorem serialIDMemory_eq (hstored : Stored texts options)
    (h : (cText texts.serialID).length < MAX_SIZE_OF_SERIAL_ID) :
    ∃ behind, serialIDMemory options m = cText texts.serialID ++ 0 :: behind := by
  rw [serialIDMemory, hstored.serialID]
  exact store_written h _ _

theorem openedName_eq (hstored : Stored texts options)
    (h : (cText texts.serialID).length < MAX_SIZE_OF_SERIAL_ID) :
    openedName options m = some (cText texts.serialID) := by
  have hnul := cText_noNul texts.serialID
  have hshort : (cText texts.serialID).length < MAX_SIZE_OF_INTER_NAME :=
    Nat.lt_trans h (by decide)
  obtain ⟨behind, hid⟩ := serialIDMemory_eq (m := m) hstored h
  obtain ⟨config, rest, hconfig, hmemory⟩ :=
    strncpy_store hnul hshort behind m.config.toList m.behindConfig
  obtain ⟨name, rest', hname, hmemory'⟩ :=
    strncpy_store hnul hshort rest m.serialIo.toList m.behindSerialIo
  rw [openedName, hid, hconfig]
  simp only [Option.bind_eq_bind, Option.bind_some]
  rw [hmemory, hname]
  simp only [Option.bind_some]
  rw [hmemory']
  exact readString_ended hnul rest'

theorem Stored.asConfigured (hstored : Stored texts options) (hfit : texts.Fit)
    (m : ChannelMemory) : AsConfigured options m texts := by
  have hportType : readString (portTypeMemory options m) = some (cText texts.portType) := by
    rw [portTypeMemory, hstored.portType]
    exact readString_store hfit.portType _ _
  have hbranch : ∀ constant : List UInt8, 0 ∉ constant →
      strcmp (portTypeMemory options m) (constant ++ [0]) = some true →
      cText texts.portType = constant := by
    intro constant hnul hsame
    have hread := (strcmp_eq_true_iff hnul _ []).mp hsame
    exact Option.some.inj (hportType.symm.trans hread)
  refine ⟨hportType, fun hsame => ?_, fun hsame => ?_⟩
  · have hid := hfit.serialID (hbranch serial (by decide) hsame)
    refine ⟨?_, openedName_eq hstored hid⟩
    rw [serialIDMemory, hstored.serialID]
    exact readString_store hid _ _
  · rw [hostMemory, hstored.host]
    exact readString_store (hfit.host (hbranch socket (by decide) hsame)) _ _

def memoryOf (b : UInt8) : ChannelMemory where
  host := Vector.replicate _ b
  portType := Vector.replicate _ b
  serialID := Vector.replicate _ b
  behindOptions := []
  config := Vector.replicate _ b
  behindConfig := []
  serialIo := Vector.replicate _ b
  behindSerialIo := []

theorem store_replicate (s : String) (count : ℕ) (b : UInt8) (behind : List UInt8) :
    store (written s count) (Vector.replicate (count + 1) b).toList ++ behind =
      written s count ++ b :: behind := by
  have hlast : count + 1 - count = 1 := Nat.add_sub_cancel_left count 1
  rw [store, written_length, Vector.toList_replicate, List.drop_replicate, hlast,
    List.append_assoc]
  rfl

theorem Stored.fit (hstored : Stored texts options)
    (h : ∀ m, AsConfigured options m texts) : texts.Fit := by
  have hbranch : ∀ m constant, 0 ∉ constant → cText texts.portType = constant →
      strcmp (portTypeMemory options m) (constant ++ [0]) = some true := by
    rintro m constant hnul rfl
    exact (strcmp_eq_true_iff hnul _ []).mpr (h m).portType
  refine ⟨?_, fun hserial => ?_, fun hsocket => ?_⟩
  · apply Classical.byContradiction
    intro hlong
    obtain ⟨last, hne⟩ := readString_written_ne (Nat.not_lt.mp hlong)
    have hread := (h (memoryOf last)).portType
    rw [portTypeMemory, hstored.portType] at hread
    exact hne _ (store_replicate _ _ last _ ▸ hread)
  · apply Classical.byContradiction
    intro hlong
    obtain ⟨last, hne⟩ := readString_written_ne (Nat.not_lt.mp hlong)
    have hread := ((h (memoryOf last)).serialID (hbranch _ _ (by decide) hserial)).1
    rw [serialIDMemory, hstored.serialID] at hread
    exact hne _ (store_replicate _ _ last _ ▸ hread)
  · apply Classical.byContradiction
    intro hlong
    obtain ⟨last, hne⟩ := readString_written_ne (Nat.not_lt.mp hlong)
    have hread := (h (memoryOf last)).host (hbranch _ _ (by decide) hsocket)
    rw [hostMemory, hstored.host] at hread
    exact hne _ (store_replicate _ _ last _ ▸ hread)

end

theorem stored_of_parse {element : JsonValue} {info : ChannelModelInfo}
    (h : parseChannel (elementObject element) = .ok (some info)) :
    ∃ texts, portTexts element = some texts ∧ Stored texts info.portOptions := by
  obtain ⟨_, port, _, _, hport, hparse⟩ := parseChannel_ok h
  obtain ⟨host, portType, serialID, hhost, hportType, hserialID, hbytes⟩ := parsePort_ok hparse
  refine ⟨⟨host, portType, serialID⟩, ?_, ⟨hbytes.1, hbytes.2.1, hbytes.2.2⟩⟩
  simp [portTexts, hport, hhost, hportType, hserialID]

def textsAt (channelJson : Option JsonValue) (i : ℕ) : Option PortTexts :=
  (channelBody channelJson)[i]?.bind portTexts

/-- The channels of an accepted message are used as they are configured, whatever the memory
held, exactly when each text that is read leaves room for its terminator. -/
theorem asConfigured_iff {channelJson : Option JsonValue} {listCreated : Bool}
    {outcome : ℕ → ChannelElementOutcome} {infos : List ChannelModelInfo}
    (h : channelInfoListCreate channelJson listCreated outcome = .ok (some infos)) :
    (∀ (i : ℕ) (info : ChannelModelInfo), infos[i]? = some info →
      ∃ texts, textsAt channelJson i = some texts ∧ ∀ m, AsConfigured info.portOptions m texts) ↔
    ∀ (i : ℕ) (texts : PortTexts), textsAt channelJson i = some texts → texts.Fit := by
  obtain ⟨hlength, hparsed⟩ := channelInfoListCreate_ok h
  have hstored : ∀ (i : ℕ) (info : ChannelModelInfo), infos[i]? = some info →
      ∃ texts, textsAt channelJson i = some texts ∧ Stored texts info.portOptions := by
    intro i info hinfo
    obtain ⟨element, helement, hparse⟩ := hparsed i info hinfo
    obtain ⟨texts, htexts, hstored⟩ := stored_of_parse hparse
    refine ⟨texts, ?_, hstored⟩
    rw [textsAt, helement, Option.bind_some, htexts]
  constructor
  · intro hall i texts htexts
    obtain ⟨element, helement, -⟩ := Option.bind_eq_some_iff.mp htexts
    have hi : i < infos.length := hlength ▸ (List.getElem?_eq_some_iff.mp helement).1
    have hinfo := List.getElem?_eq_getElem hi
    obtain ⟨texts', htexts', hconfigured⟩ := hall i _ hinfo
    obtain ⟨texts'', htexts'', hstores⟩ := hstored i _ hinfo
    obtain rfl := Option.some.inj (htexts'.symm.trans htexts)
    obtain rfl := Option.some.inj (htexts''.symm.trans htexts)
    exact hstores.fit hconfigured
  · intro hfit i info hinfo
    obtain ⟨texts, htexts, hstores⟩ := hstored i info hinfo
    exact ⟨texts, htexts, hstores.asConfigured (hfit i texts htexts)⟩

def socketDocument (host : String) : JsonValue :=
  .object [("body", .array [.object [("timeOut", .string "100"), ("dev", .string "meter"),
    ("protoType", .string "DLT698.45"), ("modeltype", .string "meter"),
    ("port", .object [("baudRate", .string "9600"), ("stopBit", .string "1"),
      ("dataBit", .string "8"), ("port", .string "502"), ("ip", .string host),
      ("serialID", .string ""), ("portType", .string "socket"), ("parity", .string "NONE")])]])]

theorem asConfigured_iff_address : ∃ infos,
    channelInfoListCreate (some (socketDocument "192.168.1.20")) true (fun _ => ⟨true, true⟩) =
      .ok (some infos) ∧
    ∀ (i : ℕ) (info : ChannelModelInfo), infos[i]? = some info →
      ∃ texts, textsAt (some (socketDocument "192.168.1.20")) i = some texts ∧
        ∀ m, AsConfigured info.portOptions m texts := by
  obtain ⟨infos, h⟩ : ∃ infos, channelInfoListCreate (some (socketDocument "192.168.1.20")) true
      (fun _ => ⟨true, true⟩) = .ok (some infos) := ⟨_, rfl⟩
  refine ⟨infos, h, (asConfigured_iff h).mpr fun i texts htexts => ?_⟩
  cases i with
  | zero =>
    obtain rfl := Option.some.inj htexts
    exact ⟨by decide, by decide, by decide⟩
  | succ i => cases htexts

/-- The name of a host is cut after 20 characters, and the channel is accepted. -/
theorem longHost_cut : ∃ info texts,
    channelInfoListCreate (some (socketDocument "meters.district7.example")) true
      (fun _ => ⟨true, true⟩) = .ok (some [info]) ∧
    textsAt (some (socketDocument "meters.district7.example")) 0 = some texts ∧
    readString (hostMemory info.portOptions (memoryOf 0)) = some ((cText texts.host).take 20) ∧
    ¬ AsConfigured info.portOptions (memoryOf 0) texts := by
  refine ⟨_, _, rfl, rfl, ?_, fun hconfigured => ?_⟩
  · decide
  · exact absurd (hconfigured.host (by decide)) (by decide)

end IotEdgeAgent.Configuration.ChannelTexts
