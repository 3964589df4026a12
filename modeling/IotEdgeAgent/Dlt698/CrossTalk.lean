import IotEdgeAgent.Dlt698.TextRoom
import IotEdgeAgent.Dlt698.UnitText

/-!
# One buffer for the texts of all units

`dlt698_response_parse` has one buffer for the texts and does not clear it between the units. So
the text of a unit can be that of a unit before it, and where the conversion leaves a unit the text
depends on the bytes behind it. `Carried` are responses with given values, to tell such texts apart.
-/

namespace IotEdgeAgent.Dlt698.CrossTalk
open LinkFrame Response Extraction Payload Conversion UnitText Protocol
open Strings (atoi)

section
variable (sprintf : ℤ → ℤ → String) (math : ℤ) (frame : List UInt8) (name : String)

def textAfter (units : List DataUnit) (res : String) : Option String :=
  units.foldlM (fun res unit => convertToStringFloat sprintf (frame.drop unit.ucPtr) res math) res

theorem responseBody_getElem? {units : List DataUnit} {res : String} {body : List NamedValue}
    (h : responseBody sprintf frame name math units res = some body) {i : ℕ} {unit : DataUnit}
    (hunit : units[i]? = some unit) :
    ∃ before text, (i = 0 → before = res) ∧
      convertToStringFloat sprintf (frame.drop unit.ucPtr) before math = some text ∧
      body[i]?.map NamedValue.val = some text := by
  induction units generalizing res body i with
  | nil => cases hunit
  | cons first units ih =>
    rw [responseBody] at h
    obtain ⟨text, htext, h⟩ := Option.bind_eq_some_iff.mp h
    obtain ⟨others, hothers, h⟩ := Option.bind_eq_some_iff.mp h
    cases h
    cases i with
    | zero =>
      cases hunit
      exact ⟨res, text, fun _ => rfl, ((convertInto_eq_some_iff sprintf).mp htext).1, rfl⟩
    | succ i =>
      obtain ⟨before, text', -, hconvert, hval⟩ := ih hothers hunit
      exact ⟨before, text', fun hzero => absurd hzero (Nat.succ_ne_zero i), hconvert, hval⟩

theorem responseBody_last {units : List DataUnit} {unit : DataUnit} {res before text : String}
    {body : List NamedValue}
    (h : responseBody sprintf frame name math (units ++ [unit]) res = some body)
    (hbefore : textAfter sprintf math frame units res = some before)
    (htext : convertToStringFloat sprintf (frame.drop unit.ucPtr) before math = some text) :
    body[units.length]?.map NamedValue.val = some text := by
  induction units generalizing res body with
  | nil =>
    cases hbefore
    obtain ⟨before, text', hfirst, hconvert, hval⟩ :=
      responseBody_getElem? sprintf math frame name h (i := 0) rfl
    rw [hfirst rfl, htext] at hconvert
    rw [Option.some.inj hconvert]
    exact hval
  | cons first units ih =>
    rw [textAfter, List.foldlM_cons] at hbefore
    obtain ⟨res', hfirst, hrest⟩ := Option.bind_eq_some_iff.mp hbefore
    rw [List.cons_append, responseBody] at h
    obtain ⟨text', htext', h⟩ := Option.bind_eq_some_iff.mp h
    obtain ⟨others, hothers, h⟩ := Option.bind_eq_some_iff.mp h
    cases h
    rw [((convertInto_eq_some_iff sprintf).mp htext').1] at hfirst
    obtain rfl := Option.some.inj hfirst
    exact ih hothers hrest

end

section
variable (sprintf : ℤ → ℤ → String) (now : String) (model : Dlt698ModelInfo)

def decodedUnits (response : DataResponse) : List DataUnit :=
  (dlt698ResponseAnaly response.data response.length.toNat).2.stDataUnit

def unitBytes (response : DataResponse) (i : ℕ) : Option (List UInt8) :=
  (decodedUnits response)[i]?.map fun unit => (response.data.drop unit.ucPtr).take unit.uwLen

/-- The analysis stays inside the response; so do the values of the units apart from one, and
their texts fit. -/
structure OthersDefined (response : DataResponse) (i : ℕ) : Prop where
  analysed : (dlt698ResponseAnaly response.data response.length.toNat).1 = some ()
  others : ∀ j unit, j ≠ i → (decodedUnits response)[j]? = some unit →
    arrayInside (response.data.drop unit.ucPtr) ∧
      TextFits sprintf (atoi model.acqFile.math) (response.data.drop unit.ucPtr)

/-- Any two responses with equally many units, whose units at the position have these bytes and
whose other units do no harm, are published with the same text there. -/
def SameVal (u : List UInt8) (i : ℕ) : Prop :=
  ∀ (info info' : PmDataInfo Dlt698ModelInfo) (response response' : DataResponse),
    OthersDefined sprintf model response i → OthersDefined sprintf model response' i →
    (decodedUnits response).length = (decodedUnits response').length →
    unitBytes response i = some u → unitBytes response' i = some u →
    ∃ payload payload',
      dlt698ResponseParse sprintf now (some model) (some info) (some response) =
        .ok (some payload) ∧
      dlt698ResponseParse sprintf now (some model) (some info') (some response') =
        .ok (some payload') ∧
      payload.payload.body[i]?.map NamedValue.val = payload'.payload.body[i]?.map NamedValue.val

variable {sprintf now model}

theorem responseBody_of_parse {info : PmDataInfo Dlt698ModelInfo} {response : DataResponse}
    {payload : DataPayload}
    (h : dlt698ResponseParse sprintf now (some model) (some info) (some response) =
      .ok (some payload)) :
    responseBody sprintf response.data model.acqFile.m (atoi model.acqFile.math)
      (decodedUnits response) "" = some payload.payload.body := by
  rw [dlt698ResponseParse] at h
  rw [decodedUnits]
  split at h
  · cases h
  · next coll hanaly =>
    split at h
    · cases h
    · next body hbody =>
      cases h
      rw [hanaly]
      exact hbody

theorem drop_of_unitBytes {response : DataResponse} {u : List UInt8} {i : ℕ} {unit : DataUnit}
    (hat : (decodedUnits response)[i]? = some unit) (hunit : unitBytes response i = some u) :
    response.data.drop unit.ucPtr = u ++ (response.data.drop unit.ucPtr).drop unit.uwLen := by
  rw [unitBytes, hat] at hunit
  rw [← Option.some.inj hunit, List.take_append_drop]

theorem val_of_unit {info : PmDataInfo Dlt698ModelInfo} {response : DataResponse}
    {payload : DataPayload} {u : List UInt8} {i : ℕ}
    (h : dlt698ResponseParse sprintf now (some model) (some info) (some response) =
      .ok (some payload)) (hunit : unitBytes response i = some u) (hinside : arrayInside u) :
    ∃ before, (i = 0 → before = "") ∧ payload.payload.body[i]?.map NamedValue.val =
      convertToStringFloat sprintf u before (atoi model.acqFile.math) := by
  obtain ⟨unit, hat, -⟩ := Option.map_eq_some_iff.mp hunit
  obtain ⟨before, text, hfirst, hconvert, hval⟩ :=
    responseBody_getElem? sprintf _ _ _ (responseBody_of_parse h) hat
  refine ⟨before, hfirst, ?_⟩
  rw [drop_of_unitBytes hat hunit, convertToStringFloat_append sprintf _ hinside] at hconvert
  rw [hval, hconvert]

theorem parse_of_othersDefined (info : PmDataInfo Dlt698ModelInfo) {response : DataResponse}
    {u : List UInt8} {i : ℕ} (hothers : OthersDefined sprintf model response i)
    (hunit : unitBytes response i = some u) (hinside : arrayInside u)
    (hfits : TextFits sprintf (atoi model.acqFile.math) u) :
    ∃ payload, dlt698ResponseParse sprintf now (some model) (some info) (some response) =
      .ok (some payload) := by
  rw [dlt698ResponseParse_hands_on]
  refine ⟨by rw [hothers.analysed]; rfl, fun unit hmem => ?_⟩
  obtain ⟨j, hj⟩ := List.mem_iff_getElem?.mp hmem
  by_cases hij : j = i
  · obtain rfl := hij
    rw [drop_of_unitBytes hj hunit]
    exact ⟨arrayInside_append hinside _,
      (textFits_append sprintf _ hinside _).mpr hfits⟩
  · exact hothers.others j unit hij hj

theorem sameVal_of_own {u : List UInt8} {i : ℕ} (hown : i = 0 ∨ OpensWithNumber u)
    (hinside : arrayInside u) (hfits : TextFits sprintf (atoi model.acqFile.math) u) :
    SameVal sprintf now model u i := by
  intro info info' response response' hothers hothers' _ hunit hunit'
  obtain ⟨payload, hparse⟩ := parse_of_othersDefined info hothers hunit hinside hfits
  obtain ⟨payload', hparse'⟩ := parse_of_othersDefined info' hothers' hunit' hinside hfits
  refine ⟨payload, payload', hparse, hparse', ?_⟩
  obtain ⟨before, hfirst, hval⟩ := val_of_unit hparse hunit hinside
  obtain ⟨before', hfirst', hval'⟩ := val_of_unit hparse' hunit' hinside
  rw [hval, hval']
  rcases hown with hzero | hopens
  · rw [hfirst hzero, hfirst' hzero]
  · exact convertToStringFloat_opens sprintf hopens before before' _

end

def dataResult (value : DataValue) : Result := .data ⟨0, 0, 0⟩ value

theorem encode_dataResults_length (values : List DataValue) :
    (encodeResults (values.map dataResult)).length ≤ 261 * values.length := by
  induction values with
  | nil => exact Nat.le_refl 0
  | cons value values ih =>
    have hsize := DataLenExact.dwDlt698DataLen_le value.measured
    have hone : (dataResult value).encode.length = value.bytes.length + 5 := rfl
    rw [encodeResults, List.map_cons, List.flatMap_cons, List.length_append, hone,
      List.length_cons]
    rw [encodeResults] at ih
    omega

theorem units_append (pos : ℕ) (results results' : List Result) :
    units pos (results ++ results') =
      units pos results ++ units (pos + (encodeResults results).length) results' := by
  induction results generalizing pos with
  | nil => rfl
  | cons result results ih =>
    have hlength : (encodeResults (result :: results)).length =
        result.encode.length + (encodeResults results).length := by
      rw [encodeResults, List.flatMap_cons, List.length_append]
      rfl
    rw [List.cons_append, units, ih, units, List.append_assoc, hlength, Nat.add_assoc]

theorem units_dataResults_length (pos : ℕ) (values : List DataValue) :
    (units pos (values.map dataResult)).length = values.length := by
  induction values generalizing pos with
  | nil => rfl
  | cons value values ih =>
    rw [List.map_cons, units, List.length_append, ih, List.length_cons, Nat.add_comm]
    rfl

def textOf (sprintf : ℤ → ℤ → String) (math : ℤ) (values : List DataValue) (res : String) :
    Option String :=
  values.foldlM (fun res value => convertToStringFloat sprintf value.bytes res math) res

theorem textAfter_values (sprintf : ℤ → ℤ → String) (math : ℤ) {frame tail : List UInt8}
    {pos : ℕ} {values : List DataValue} (hinside : ∀ value ∈ values, arrayInside value.bytes)
    (h : frame.drop pos = encodeResults (values.map dataResult) ++ tail) (res : String) :
    textAfter sprintf math frame (units pos (values.map dataResult)) res =
      textOf sprintf math values res := by
  induction values generalizing pos res with
  | nil => rfl
  | cons value values ih =>
    obtain ⟨hvalue, hinside⟩ := List.forall_mem_cons.mp hinside
    obtain ⟨hfirst, hrest⟩ := drop_encodeResults h
    have hbytes : frame.drop (pos + 5) = value.bytes ++ (encodeResults (values.map dataResult) ++
        tail) := drop_of_drop hfirst 5
    have hconvert := convertToStringFloat_append sprintf math hvalue
      (encodeResults (values.map dataResult) ++ tail) res
    rw [← hbytes] at hconvert
    have hunits : units pos ((value :: values).map dataResult) =
        ⟨⟨0, 0, 0⟩, value.bytes.length, pos + 5⟩ ::
          units (pos + (dataResult value).encode.length) (values.map dataResult) := rfl
    rw [hunits, textAfter, textOf, List.foldlM_cons, List.foldlM_cons, hconvert]
    cases convertToStringFloat sprintf value.bytes res math with
    | none => rfl
    | some text => exact ih hinside hrest text

/-- The conversion stays inside the value, and its text fits. -/
def Harmless (sprintf : ℤ → ℤ → String) (math : ℤ) (value : DataValue) : Prop :=
  arrayInside value.bytes ∧ TextFits sprintf math value.bytes

theorem units_harmless (sprintf : ℤ → ℤ → String) (math : ℤ) {frame tail : List UInt8}
    {pos : ℕ} {values : List DataValue} (hvalues : ∀ value ∈ values, Harmless sprintf math value)
    (h : frame.drop pos = encodeResults (values.map dataResult) ++ tail) :
    ∀ unit ∈ units pos (values.map dataResult), arrayInside (frame.drop unit.ucPtr) ∧
      TextFits sprintf math (frame.drop unit.ucPtr) := by
  induction values generalizing pos with
  | nil =>
    intro unit hunit
    cases hunit
  | cons value values ih =>
    obtain ⟨⟨hinside, hfits⟩, hvalues⟩ := List.forall_mem_cons.mp hvalues
    obtain ⟨hfirst, hrest⟩ := drop_encodeResults h
    have hbytes : frame.drop (pos + 5) = value.bytes ++ (encodeResults (values.map dataResult) ++
        tail) := drop_of_drop hfirst 5
    have hunits : units pos ((value :: values).map dataResult) =
        ⟨⟨0, 0, 0⟩, value.bytes.length, pos + 5⟩ ::
          units (pos + (dataResult value).encode.length) (values.map dataResult) := rfl
    rw [hunits, List.forall_mem_cons]
    refine ⟨?_, ih hvalues hrest⟩
    rw [hbytes]
    exact ⟨arrayInside_append hinside _, (textFits_append sprintf math hinside _).mpr hfits⟩

structure Carried where
  values : List DataValue
  tail : List UInt8
  few : values.length ≤ 127
  short : tail.length ≤ 10

namespace Carried
variable (c : Carried)

def response : GetResponse :=
  .normalList 0 (c.values.map dataResult) (by rw [List.length_map]; exact c.few)

theorem fits : ((0x05 : UInt8) &&& 0x0F).toNat + 1 + 9 + (c.response.encode ++ c.tail).length <
    65536 := by
  have hresults := encode_dataResults_length c.values
  have hfew := c.few
  have hshort := c.short
  have hheader : c.response.header.length = 4 := rfl
  have hlength : (c.response.encode ++ c.tail).length =
      4 + (encodeResults (c.values.map dataResult)).length + c.tail.length := by
    rw [List.length_append, GetResponse.encode, List.length_append, hheader]
    rfl
  have haddr : ((0x05 : UInt8) &&& 0x0F).toNat = 5 := by decide
  rw [hlength, haddr]
  omega

def frame : Frame where
  preamble := Fin.last 4
  control := 0xC3
  flag := 0x05
  addr := Vector.replicate 6 0
  ca := 0
  apdu := c.response.encode ++ c.tail
  fits := c.fits

def received : DataResponse := ⟨c.frame.bytes, UInt8.ofNat c.frame.bytes.length⟩

def behind : List UInt8 :=
  c.tail ++ lowByte c.frame.fcs :: highByte c.frame.fcs :: [0x16]

theorem frame_apduPos : c.frame.apduPos = 18 := by
  have haddr : ((0x05 : UInt8) &&& 0x0F).toNat + 1 = 6 := by decide
  change 4 + (((0x05 : UInt8) &&& 0x0F).toNat + 1) + 8 = 18
  rw [haddr]

theorem drop_response : c.received.data.drop 18 =
    c.response.header ++ (encodeResults (c.values.map dataResult) ++ c.behind) := by
  have hdrop := c.frame.bytes_drop_apdu
  have hencode : c.frame.apdu = c.response.header ++ encodeResults (c.values.map dataResult) ++
      c.tail := rfl
  rw [hencode, List.append_assoc, List.append_assoc, frame_apduPos] at hdrop
  exact hdrop

theorem drop_results : c.received.data.drop 22 =
    encodeResults (c.values.map dataResult) ++ c.behind :=
  drop_of_drop c.drop_response 4

theorem analysed : dlt698ResponseAnaly c.received.data c.received.length.toNat =
    (some (), ⟨.real, units 22 (c.values.map dataResult)⟩) := by
  have hleader : leaderCount c.frame.bytes = some c.frame.preamble.val :=
    c.frame.leaderCount_bytes
  have hanalyze := dwAPduAnalyze_encode c.drop_response (u32 c.frame.apdu.length)
  have hapdu : dwGet698Apdu c.received.data = some ⟨c.frame.apdu.length, some 18,
      some c.frame.addrPos, c.frame.addrLen⟩ := by
    rw [← c.frame_apduPos]
    exact c.frame.dwGet698Apdu_bytes hleader
  rw [dlt698ResponseAnaly, hapdu]
  dsimp only
  rw [hanalyze]
  rfl

def lastUnit (before : List DataValue) (value : DataValue) : DataUnit :=
  ⟨⟨0, 0, 0⟩, value.bytes.length, 22 + (encodeResults (before.map dataResult)).length + 5⟩

section
variable {c} {before : List DataValue} {value : DataValue} (hvalues : c.values = before ++ [value])
include hvalues

theorem decodedUnits_eq : decodedUnits c.received =
    units 22 (before.map dataResult) ++ [lastUnit before value] := by
  rw [decodedUnits, analysed, hvalues, List.map_append, units_append]
  rfl

theorem drop_before : c.received.data.drop 22 = encodeResults (before.map dataResult) ++
    (encodeResults [dataResult value] ++ c.behind) := by
  rw [drop_results, hvalues, List.map_append, ← List.append_assoc]
  congr 1
  exact List.flatMap_append

theorem drop_last : c.received.data.drop (lastUnit before value).ucPtr =
    value.bytes ++ c.behind := by
  have hlast := drop_of_drop (drop_before hvalues) (encodeResults (before.map dataResult)).length
  rw [List.drop_left] at hlast
  have hbytes := drop_of_drop hlast 5
  have hencode : (encodeResults [dataResult value] ++ c.behind).drop 5 =
      value.bytes ++ [] ++ c.behind := rfl
  rw [hencode, List.append_nil] at hbytes
  exact hbytes

theorem decodedUnits_length : (decodedUnits c.received).length = before.length + 1 := by
  rw [decodedUnits_eq hvalues, List.length_append, units_dataResults_length]
  rfl

theorem decodedUnits_last : (decodedUnits c.received)[before.length]? =
    some (lastUnit before value) := by
  rw [decodedUnits_eq hvalues, ← units_dataResults_length 22 before, List.getElem?_concat_length]

theorem unitBytes_last : unitBytes c.received before.length = some value.bytes := by
  rw [unitBytes, decodedUnits_last hvalues, Option.map_some, drop_last hvalues]
  exact congrArg some List.take_left

theorem othersDefined {sprintf : ℤ → ℤ → String} {model : Dlt698ModelInfo}
    (hbefore : ∀ value ∈ before, Harmless sprintf (atoi model.acqFile.math) value) :
    OthersDefined sprintf model c.received before.length where
  analysed := congrArg Prod.fst c.analysed
  others := by
    intro j unit hj hunit
    rw [decodedUnits_eq hvalues] at hunit
    have hlt : j < (units 22 (before.map dataResult)).length := by
      have hlength := (List.getElem?_eq_some_iff.mp hunit).1
      rw [List.length_append, units_dataResults_length, List.length_singleton] at hlength
      rw [units_dataResults_length]
      omega
    rw [List.getElem?_append_left hlt] at hunit
    exact units_harmless sprintf _ hbefore (drop_before hvalues) unit (List.mem_of_getElem? hunit)

theorem val_last {sprintf : ℤ → ℤ → String} {now : String} {model : Dlt698ModelInfo}
    {info : PmDataInfo Dlt698ModelInfo} {payload : DataPayload} {res text : String}
    (hinside : ∀ value ∈ before, arrayInside value.bytes)
    (hbefore : textOf sprintf (atoi model.acqFile.math) before "" = some res)
    (htext : convertToStringFloat sprintf (value.bytes ++ c.behind) res
      (atoi model.acqFile.math) = some text)
    (hparse : dlt698ResponseParse sprintf now (some model) (some info) (some c.received) =
      .ok (some payload)) :
    payload.payload.body[before.length]?.map NamedValue.val = some text := by
  rw [← textAfter_values sprintf _ hinside (drop_before hvalues)] at hbefore
  rw [← drop_last hvalues] at htext
  have hbody := responseBody_of_parse hparse
  rw [decodedUnits_eq hvalues] at hbody
  have hval := responseBody_last sprintf _ _ model.acqFile.m hbody hbefore htext
  rwa [units_dataResults_length] at hval

theorem textFits_of_parse {sprintf : ℤ → ℤ → String} {now : String} {model : Dlt698ModelInfo}
    {info : PmDataInfo Dlt698ModelInfo} {payload : DataPayload} (hinside : arrayInside value.bytes)
    (hparse : dlt698ResponseParse sprintf now (some model) (some info) (some c.received) =
      .ok (some payload)) : TextFits sprintf (atoi model.acqFile.math) value.bytes := by
  have hlast : lastUnit before value ∈
      (dlt698ResponseAnaly c.received.data c.received.length.toNat).2.stDataUnit := by
    have hunits := decodedUnits_eq hvalues
    rw [decodedUnits] at hunits
    rw [hunits]
    exact List.mem_append_right _ List.mem_cons_self
  have hfits := (((dlt698ResponseParse_hands_on sprintf now model info c.received).mp
    ⟨payload, hparse⟩).2 _ hlast).2
  rwa [drop_last hvalues, textFits_append sprintf _ hinside] at hfits

end

end Carried

section
variable {sprintf : ℤ → ℤ → String} {now : String} {model : Dlt698ModelInfo}

theorem not_sameVal_of_texts (now : String) (c c' : Carried) {before before' : List DataValue}
    {value : DataValue} (hvalues : c.values = before ++ [value])
    (hvalues' : c'.values = before' ++ [value]) (hlength : before'.length = before.length)
    (hharmless : ∀ value ∈ before, Harmless sprintf (atoi model.acqFile.math) value)
    (hharmless' : ∀ value ∈ before', Harmless sprintf (atoi model.acqFile.math) value)
    {res res' text text' : String}
    (hbefore : textOf sprintf (atoi model.acqFile.math) before "" = some res)
    (hbefore' : textOf sprintf (atoi model.acqFile.math) before' "" = some res')
    (htext : convertToStringFloat sprintf (value.bytes ++ c.behind) res
      (atoi model.acqFile.math) = some text)
    (htext' : convertToStringFloat sprintf (value.bytes ++ c'.behind) res'
      (atoi model.acqFile.math) = some text') (hne : text ≠ text') :
    ¬ SameVal sprintf now model value.bytes before.length := by
  intro hsame
  have hothers' := Carried.othersDefined hvalues' hharmless'
  have hunit' := Carried.unitBytes_last hvalues'
  rw [hlength] at hothers' hunit'
  obtain ⟨payload, payload', hparse, hparse', heq⟩ :=
    hsame ⟨none, none, some model⟩ ⟨none, none, some model⟩ c.received c'.received
      (Carried.othersDefined hvalues hharmless) hothers'
      (by rw [Carried.decodedUnits_length hvalues, Carried.decodedUnits_length hvalues', hlength])
      (Carried.unitBytes_last hvalues) hunit'
  have hval := Carried.val_last hvalues (fun v hv => (hharmless v hv).1) hbefore htext hparse
  have hval' := Carried.val_last hvalues' (fun v hv => (hharmless' v hv).1) hbefore' htext' hparse'
  rw [hlength] at hval'
  rw [hval, hval'] at heq
  exact hne (Option.some.inj heq)

def nullValue : DataValue := ⟨[0], by decide⟩

def readingValue : DataValue := ⟨[1, 1, 5, 0, 0, 0, 0], by decide⟩

theorem nullValue_inside : arrayInside nullValue.bytes := by
  intro harray
  cases harray

theorem readingValue_inside : arrayInside readingValue.bytes := fun _ =>
  ⟨1, [5, 0, 0, 0, 0], rfl, fun _ => ⟨by decide, trivial⟩⟩

theorem textOf_nulls (math : ℤ) (i : ℕ) (res : String) :
    textOf sprintf math (List.replicate i nullValue) res = some res := by
  induction i with
  | zero => rfl
  | succ i ih => exact ih

theorem convertToStringFloat_reading (math : ℤ) (res : String) :
    convertToStringFloat sprintf readingValue.bytes res math = some (sprintf 0 math) := by
  have hread : readInt32 [0, 0, 0, 0] = some 0 := by decide
  have hnumber : IsNumber 5 := Or.inl rfl
  change convertElements sprintf math 1 [5, 0, 0, 0, 0] 0 res = _
  rw [convertElements, if_pos hnumber, hread]
  exact congrArg some (writeAt_zero res _)

theorem textOf_reading (math : ℤ) (i : ℕ) (res : String) :
    textOf sprintf math (List.replicate i nullValue ++ [readingValue]) res =
      some (sprintf 0 math) := by
  induction i with
  | zero =>
    change (convertToStringFloat sprintf readingValue.bytes res math).bind some = _
    rw [convertToStringFloat_reading]
    rfl
  | succ i ih => exact ih

theorem nullValue_harmless (math : ℤ) : Harmless sprintf math nullValue := by
  refine ⟨nullValue_inside, fun text htext => ?_⟩
  rw [← Option.some.inj htext]
  exact empty_fits

theorem readingValue_harmless {math : ℤ} (h : (sprintf 0 math).length < sizeofRes) :
    Harmless sprintf math readingValue := by
  refine ⟨readingValue_inside, fun text htext => ?_⟩
  rw [convertToStringFloat_reading] at htext
  rwa [← Option.some.inj htext]

theorem nulls_harmless (math : ℤ) (i : ℕ) :
    ∀ value ∈ List.replicate i nullValue, Harmless sprintf math value := by
  intro value hvalue
  rw [List.eq_of_mem_replicate hvalue]
  exact nullValue_harmless math

theorem not_sameVal_of_silent {value : DataValue} (hinside : arrayInside value.bytes)
    (hsilent : ¬ OpensWithNumber value.bytes)
    (hsprintf : sprintf 0 (atoi model.acqFile.math) ≠ "")
    (hzero : (sprintf 0 (atoi model.acqFile.math)).length < sizeofRes) {i : ℕ} (hi : i + 1 < 127) :
    ¬ SameVal sprintf now model value.bytes (i + 1) := by
  have hconvert (tail : List UInt8) (res : String) : convertToStringFloat sprintf
      (value.bytes ++ tail) res (atoi model.acqFile.math) = some res := by
    rw [convertToStringFloat_append sprintf _ hinside,
      convertToStringFloat_silent sprintf hinside hsilent]
  let c : Carried :=
    ⟨List.replicate (i + 1) nullValue ++ [value], [], by simp; omega, Nat.zero_le 10⟩
  let c' : Carried :=
    ⟨List.replicate i nullValue ++ [readingValue] ++ [value], [], by simp; omega, Nat.zero_le 10⟩
  have hharmless' : ∀ value ∈ List.replicate i nullValue ++ [readingValue],
      Harmless sprintf (atoi model.acqFile.math) value := by
    intro value hvalue
    rcases List.mem_append.mp hvalue with hnull | hreading
    · exact nulls_harmless _ i value hnull
    · rw [List.mem_singleton.mp hreading]
      exact readingValue_harmless hzero
  have hfalse := not_sameVal_of_texts now c c' rfl rfl (by simp)
    (nulls_harmless _ (i + 1)) hharmless' (textOf_nulls _ _ _) (textOf_reading _ _ _)
    (hconvert _ _) (hconvert _ _) hsprintf.symm
  rwa [List.length_replicate] at hfalse

theorem not_sameVal_of_leaves {value : DataValue} (hleaves : ¬ arrayInside value.bytes)
    (hsprintf : ∀ temp, sprintf temp (atoi model.acqFile.math) ≠ "") {i : ℕ} (hi : i < 127) :
    ¬ SameVal sprintf now model value.bytes i := by
  obtain ⟨pad, text, text', hpad, hne, hconvert⟩ :=
    convertToStringFloat_leaves sprintf _ hsprintf value hleaves
  have hfew : (List.replicate i nullValue ++ [value]).length ≤ 127 := by
    rw [List.length_append, List.length_replicate]
    exact hi
  let c : Carried := ⟨List.replicate i nullValue ++ [value], pad ++ [0], hfew, by simp; omega⟩
  let c' : Carried :=
    ⟨List.replicate i nullValue ++ [value], pad ++ [5, 0, 0, 0, 0, 0], hfew, by simp; omega⟩
  have htext := (hconvert (lowByte c.frame.fcs :: highByte c.frame.fcs :: [0x16])).1
  have htext' := (hconvert (lowByte c'.frame.fcs :: highByte c'.frame.fcs :: [0x16])).2
  have hbehind : c.behind =
      pad ++ 0 :: (lowByte c.frame.fcs :: highByte c.frame.fcs :: [0x16]) :=
    List.append_assoc _ _ _
  have hbehind' : c'.behind = pad ++ 5 :: 0 :: 0 :: 0 :: 0 :: 0 ::
      (lowByte c'.frame.fcs :: highByte c'.frame.fcs :: [0x16]) :=
    List.append_assoc _ _ _
  rw [← hbehind] at htext
  rw [← hbehind'] at htext'
  have hfalse := not_sameVal_of_texts now c c' rfl rfl rfl (nulls_harmless _ i)
    (nulls_harmless _ i) (textOf_nulls _ _ _) (textOf_nulls _ _ _) htext htext' hne
  rwa [List.length_replicate] at hfalse

theorem textFits_of_sameVal {value : DataValue} {i : ℕ} (hi : i < 127)
    (hinside : arrayInside value.bytes) (hsame : SameVal sprintf now model value.bytes i) :
    TextFits sprintf (atoi model.acqFile.math) value.bytes := by
  have hfew : (List.replicate i nullValue ++ [value]).length ≤ 127 := by
    rw [List.length_append, List.length_replicate]
    exact hi
  let c : Carried := ⟨List.replicate i nullValue ++ [value], [], hfew, Nat.zero_le 10⟩
  have hothers : OthersDefined sprintf model c.received (List.replicate i nullValue).length :=
    Carried.othersDefined rfl (nulls_harmless _ i)
  have hunit : unitBytes c.received (List.replicate i nullValue).length = some value.bytes :=
    Carried.unitBytes_last rfl
  rw [List.length_replicate] at hothers hunit
  obtain ⟨payload, -, hparse, -⟩ := hsame ⟨none, none, some model⟩ ⟨none, none, some model⟩
    c.received c.received hothers hothers rfl hunit hunit
  exact @Carried.textFits_of_parse c (List.replicate i nullValue) value rfl _ _ _ _ _ hinside hparse

end

theorem printFixed_ne (temp math : ℤ) : printFixed temp math ≠ "" := by
  intro heq
  have hlength := congrArg String.length heq
  rw [TextRoom.printFixed_length, TextRoom.textWidth] at hlength
  cases hmagnitude : timesPow10 temp math with
  | finite units =>
    rw [hmagnitude] at hlength
    exact Nat.succ_ne_zero _ hlength
  | infinite =>
    rw [hmagnitude] at hlength
    exact Nat.succ_ne_zero _ hlength
  | nan =>
    rw [hmagnitude] at hlength
    cases hlength

theorem timesPow10_zero (math : ℤ) :
    timesPow10 0 math = .finite 0 ∨ timesPow10 0 math = .nan := by
  rw [timesPow10]
  cases pow10 math with
  | none => exact Or.inr rfl
  | some power =>
    have hproduct : Int.natAbs 0 * power = 0 := Nat.zero_mul power
    left
    simp only [hproduct]
    rw [if_pos (TextRoom.nearest_lt_overflow (Nat.zero_le _))]
    rfl

theorem printFixed_zero_length (math : ℤ) : (printFixed 0 math).length = 4 := by
  rw [TextRoom.printFixed_length, TextRoom.textWidth]
  rcases timesPow10_zero math with htimes | htimes
  · rw [htimes]
    decide +kernel
  · rw [htimes]

/-- If no number is printed as the empty text, and zero with one that fits: a unit has a text of
its own if it is the first or opens with a number, the conversion does not leave it, and its text
fits; for the values that are measured on their own, and every position that a response has, only
then. -/
theorem sameVal_iff (sprintf : ℤ → ℤ → String) (now : String) (model : Dlt698ModelInfo)
    (hsprintf : ∀ temp, sprintf temp (atoi model.acqFile.math) ≠ "")
    (hzero : (sprintf 0 (atoi model.acqFile.math)).length < sizeofRes) :
    (∀ u i, i = 0 ∨ OpensWithNumber u → arrayInside u →
      TextFits sprintf (atoi model.acqFile.math) u → SameVal sprintf now model u i) ∧
    ∀ (value : DataValue) (i : ℕ), i < 127 → (SameVal sprintf now model value.bytes i ↔
      (i = 0 ∨ OpensWithNumber value.bytes) ∧ arrayInside value.bytes ∧
        TextFits sprintf (atoi model.acqFile.math) value.bytes) := by
  refine ⟨fun u i => sameVal_of_own, fun value i hi => ⟨fun hsame => ?_, fun h =>
    sameVal_of_own h.1 h.2.1 h.2.2⟩⟩
  have hinside : arrayInside value.bytes := by
    by_contra hleaves
    exact not_sameVal_of_leaves hleaves hsprintf hi hsame
  refine ⟨?_, hinside, textFits_of_sameVal hi hinside hsame⟩
  cases i with
  | zero => exact Or.inl rfl
  | succ i =>
    right
    by_contra hsilent
    exact not_sameVal_of_silent hinside hsilent (hsprintf 0) hzero hi hsame

theorem sameVal_iff_energyModel : SameVal printFixed "" energyModel readingValue.bytes 3 ∧
    (SameVal printFixed "" energyModel readingValue.bytes 3 ↔
      (3 = 0 ∨ OpensWithNumber readingValue.bytes) ∧ arrayInside readingValue.bytes ∧
        TextFits printFixed (-2) readingValue.bytes) := by
  have hopens : OpensWithNumber readingValue.bytes :=
    ⟨1, 5, [0, 0, 0, 0], rfl, by decide, Or.inl rfl⟩
  have hzero : (printFixed 0 (-2)).length < sizeofRes := by
    rw [printFixed_zero_length]
    decide
  obtain ⟨hown, hiff⟩ :=
    sameVal_iff printFixed "" energyModel (fun temp => printFixed_ne temp _) hzero
  exact ⟨hown _ 3 (Or.inr hopens) readingValue_inside (readingValue_harmless hzero).2,
    hiff readingValue 3 (by decide)⟩

/-- A null value behind a reading is published with the text of the reading. -/
theorem nullValue_crossTalk : ¬ ∀ u i, SameVal printFixed "" energyModel u i := by
  intro hall
  have hsilent : ¬ OpensWithNumber nullValue.bytes := by
    rintro ⟨arrLen, dataType, data, hbytes, -⟩
    cases hbytes
  exact not_sameVal_of_silent nullValue_inside hsilent (printFixed_ne 0 _)
    ((printFixed_zero_length _).trans_lt (by decide)) (by decide) (hall nullValue.bytes 1)

end IotEdgeAgent.Dlt698.CrossTalk
