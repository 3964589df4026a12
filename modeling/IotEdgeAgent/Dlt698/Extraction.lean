import IotEdgeAgent.Dlt698.Response

/-!
# Extracting the results of a response

A GetResponseNormal carries one result, a GetResponseNormalList up to 127, each an OAD with an
error or a value. The analysis stores a unit for each value and steps over the errors. It measures
a value where it stands, with the rest of the response and whatever comes behind it.
-/

namespace IotEdgeAgent.Dlt698.Extraction
open ByteWalk DataLen LinkFrame Response

structure ResultOad where
  oi : UInt16
  attrId : UInt8
  attrIndex : UInt8

def ResultOad.encode (oad : ResultOad) : List UInt8 :=
  [highByte oad.oi, lowByte oad.oi, oad.attrId, oad.attrIndex]

def ResultOad.stored (oad : ResultOad) : Oad := ⟨oad.oi.toNat, oad.attrId, oad.attrIndex⟩

structure DataValue where
  bytes : List UInt8
  measured : dwDlt698DataLen bytes 256 = .ok bytes.length

inductive Result
  | errorInfo (oad : ResultOad) (dar : UInt8)
  | data (oad : ResultOad) (value : DataValue)

namespace Result

def encode : Result → List UInt8
  | .errorInfo oad dar => oad.encode ++ [ERROR_INFO, dar]
  | .data oad value => oad.encode ++ RES_DATA :: value.bytes

def data? : Result → Option (ResultOad × DataValue)
  | .errorInfo _ _ => none
  | .data oad value => some (oad, value)

def oad : Result → ResultOad
  | .errorInfo oad _ => oad
  | .data oad _ => oad

def unit? (pos : ℕ) : Result → Option DataUnit
  | .errorInfo _ _ => none
  | .data oad value => some ⟨oad.stored, value.bytes.length, pos + 5⟩

end Result

def encodeResults (results : List Result) : List UInt8 := results.flatMap Result.encode

def units (pos : ℕ) : List Result → List DataUnit
  | [] => []
  | result :: results => (result.unit? pos).toList ++ units (pos + result.encode.length) results

inductive GetResponse
  | normal (piid : UInt8) (result : Result)
  | normalList (piid : UInt8) (results : List Result) (fits : results.length ≤ 127)

namespace GetResponse

def header : GetResponse → List UInt8
  | .normal piid _ => [GET_Response, GetResponseNormal, piid]
  | .normalList piid results _ =>
    [GET_Response, GetResponseNormalList, piid, UInt8.ofNat results.length]

def results : GetResponse → List Result
  | .normal _ result => [result]
  | .normalList _ results _ => results

def encode (response : GetResponse) : List UInt8 :=
  response.header ++ encodeResults response.results

def units (response : GetResponse) (pos : ℕ) : List DataUnit :=
  Extraction.units (pos + response.header.length) response.results

theorem results_length (response : GetResponse) : response.results.length ≤ 127 := by
  cases response with
  | normal piid result => exact Nat.le_of_ble_eq_true rfl
  | normalList piid results fits => exact fits

end GetResponse

section Loop
variable {f tail : List UInt8} {pos : ℕ}

theorem getElem?_of_drop {bytes : List UInt8} (h : f.drop pos = bytes) (i : ℕ) :
    f[pos + i]? = bytes[i]? := by
  rw [← h, List.getElem?_drop]

theorem drop_of_drop {bytes : List UInt8} (h : f.drop pos = bytes) (i : ℕ) :
    f.drop (pos + i) = bytes.drop i := by
  rw [← h, List.drop_drop]

theorem dwGetOad_encode {result : Result} (h : f.drop pos = result.encode ++ tail) :
    dwGetOad f pos = some result.oad.stored := by
  obtain ⟨rest, hrest⟩ : ∃ rest, result.encode = result.oad.encode ++ rest := by
    cases result with
    | errorInfo oad dar => exact ⟨_, rfl⟩
    | data oad value => exact ⟨_, rfl⟩
  rw [hrest, List.append_assoc] at h
  have hat := getElem?_of_drop h
  have h0 : f[pos]? = some (highByte result.oad.oi) := hat 0
  have h1 : f[pos + 1]? = some (lowByte result.oad.oi) := hat 1
  have h2 : f[pos + 2]? = some result.oad.attrId := hat 2
  have h3 : f[pos + 3]? = some result.oad.attrIndex := hat 3
  rw [dwGetOad, h0, h1, h2, h3, ResultOad.stored, ← makeWord_split]
  rfl

theorem dwDlt698DataLenByOAD_value (oad : Oad) (value : DataValue) (rest : List UInt8) :
    dwDlt698DataLenByOAD oad (value.bytes ++ rest) = some (value.bytes.length : ℤ) := by
  have hmeasured := DataLenExact.dwDlt698DataLen_persists _ _ 256 _ (List.prefix_append value.bytes rest)
    value.measured
  rw [dwDlt698DataLenByOAD, hmeasured]

theorem getResults_result {result : Result} (h : f.drop pos = result.encode ++ tail) (n : ℕ)
    (coll : CollStoreData) :
    getResults f (n + 1) pos coll = getResults f n (pos + result.encode.length)
      { coll with stDataUnit := coll.stDataUnit ++ (result.unit? pos).toList } := by
  have hoad := dwGetOad_encode h
  cases result with
  | errorInfo oad dar =>
    have hchoice : f[pos + 4]? = some ERROR_INFO := getElem?_of_drop h 4
    rw [getResults, hoad, hchoice]
    simp only [if_true, Result.unit?, Option.toList_none, List.append_nil]
    rfl
  | data oad value =>
    have hchoice : f[pos + 4]? = some RES_DATA := getElem?_of_drop h 4
    have hvalue : f.drop (pos + 5) = value.bytes ++ tail := drop_of_drop h 5
    have hnext : pos + (Result.data oad value).encode.length = pos + 5 + value.bytes.length := by
      simp only [Result.encode, ResultOad.encode, List.cons_append, List.nil_append,
        List.length_cons]
      omega
    have hdistinct : ¬ RES_DATA = ERROR_INFO := by decide
    rw [getResults, hoad, hchoice, hvalue, hnext]
    simp only [if_neg hdistinct, if_true, dwDlt698DataLenByOAD_value, Result.unit?,
      Option.toList_some]
    exact if_neg (Int.not_lt.mpr (Int.natCast_nonneg _))

theorem drop_encodeResults {result : Result} {results : List Result}
    (h : f.drop pos = encodeResults (result :: results) ++ tail) :
    f.drop pos = result.encode ++ (encodeResults results ++ tail) ∧
      f.drop (pos + result.encode.length) = encodeResults results ++ tail := by
  have hresult : f.drop pos = result.encode ++ (encodeResults results ++ tail) := by
    rw [h, encodeResults, List.flatMap_cons, List.append_assoc]
    rfl
  exact ⟨hresult, (drop_of_drop hresult _).trans List.drop_left⟩

theorem getResults_encode {results : List Result} (h : f.drop pos = encodeResults results ++ tail)
    (coll : CollStoreData) :
    getResults f results.length pos coll =
      ⟨some 1, { coll with stDataUnit := coll.stDataUnit ++ units pos results }⟩ := by
  induction results generalizing pos coll with
  | nil =>
    rw [units, List.append_nil]
    rfl
  | cons result results ih =>
    obtain ⟨hresult, hrest⟩ := drop_encodeResults h
    rw [List.length_cons, getResults_result hresult, ih hrest, units, List.append_assoc]

theorem dwAPduAnalyze_encode {response : GetResponse}
    (h : f.drop pos = response.header ++ (encodeResults response.results ++ tail)) (dwlen : ℕ) :
    dwAPduAnalyze f (some pos) dwlen emptyStore = ⟨some 1, ⟨.real, response.units pos⟩⟩ := by
  have hresults : f.drop (pos + response.header.length) =
      encodeResults response.results ++ tail := by
    rw [drop_of_drop h, List.drop_left]
  have hloop := getResults_encode hresults { emptyStore with eDataCls := .real }
  have hat := getElem?_of_drop h
  have hdistinct : ¬ GetResponseNormalList = GetResponseNormal := by decide
  cases response with
  | normal piid result =>
    have htag : f[pos]? = some GET_Response := hat 0
    have hchoice : f[pos + 1]? = some GetResponseNormal := hat 1
    simp only [dwAPduAnalyze, dwGetResponseNormal, htag, hchoice, ne_eq, not_true_eq_false,
      if_false, true_or, if_true]
    exact hloop
  | normalList piid results fits =>
    have htag : f[pos]? = some GET_Response := hat 0
    have hchoice : f[pos + 1]? = some GetResponseNormalList := hat 1
    have hcount : f[pos + 3]? = some (UInt8.ofNat results.length) := hat 3
    have hnum : (UInt8.ofNat results.length).toNat = results.length := by
      rw [UInt8.toNat_ofNat', Nat.mod_eq_of_lt (by omega)]
    have hfits : ¬ UInt8.ofNat results.length > 127 := by
      rw [gt_iff_lt, UInt8.lt_iff_toNat_lt, hnum]
      exact Nat.not_lt.mpr fits
    simp only [dwAPduAnalyze, dwGetResponseNormal, htag, hchoice, hcount, ne_eq, not_true_eq_false,
      if_false, or_true, if_true, if_neg hdistinct, if_neg hfits, hnum]
    exact hloop

end Loop

/-- The unit belongs to the value: it has its OAD, and its bytes stand where it points. -/
structure Carries (f : List UInt8) (entry : ResultOad × DataValue) (unit : DataUnit) : Prop where
  stOAD : unit.stOAD = entry.1.stored
  uwLen : unit.uwLen = entry.2.bytes.length
  ucPtr : (f.drop unit.ucPtr).take unit.uwLen = entry.2.bytes

theorem units_carry {f tail : List UInt8} {pos : ℕ} {results : List Result}
    (h : f.drop pos = encodeResults results ++ tail) :
    List.Forall₂ (Carries f) (results.filterMap Result.data?) (units pos results) := by
  induction results generalizing pos with
  | nil => exact List.Forall₂.nil
  | cons result results ih =>
    obtain ⟨hresult, hrest⟩ := drop_encodeResults h
    cases result with
    | errorInfo oad dar => exact ih hrest
    | data oad value =>
      refine List.Forall₂.cons ⟨rfl, rfl, ?_⟩ (ih hrest)
      have hvalue : f.drop (pos + 5) = value.bytes ++ (encodeResults results ++ tail) :=
        drop_of_drop hresult 5
      exact (congrArg _ hvalue).trans List.take_left

/-- For every response, wherever it stands and whatever comes behind it, the analysis returns 1 and
stores exactly its values, in order, each with its OAD, its length and the offset of its first
byte. -/
theorem dwAPduAnalyze_extracts (before trailing : List UInt8) (dwlen : ℕ)
    (response : GetResponse) :
    dwAPduAnalyze (before ++ (response.encode ++ trailing)) (some before.length) dwlen emptyStore =
      ⟨some 1, ⟨.real, response.units before.length⟩⟩ ∧
    List.Forall₂ (Carries (before ++ (response.encode ++ trailing)))
      (response.results.filterMap Result.data?) (response.units before.length) ∧
    (response.units before.length).length = (response.results.filterMap Result.data?).length ∧
    (response.units before.length).length ≤ 127 := by
  have hencoded : (before ++ (response.encode ++ trailing)).drop before.length =
      response.header ++ (encodeResults response.results ++ trailing) := by
    rw [List.drop_left, GetResponse.encode, List.append_assoc]
  generalize before ++ (response.encode ++ trailing) = f at hencoded ⊢
  have hresults : f.drop (before.length + response.header.length) =
      encodeResults response.results ++ trailing := by
    rw [drop_of_drop hencoded, List.drop_left]
  have hcarried := units_carry hresults
  refine ⟨dwAPduAnalyze_encode hencoded dwlen, hcarried, hcarried.length_eq.symm, ?_⟩
  calc (response.units before.length).length
      = (response.results.filterMap Result.data?).length := hcarried.length_eq.symm
    _ ≤ response.results.length := List.length_filterMap_le _ _
    _ ≤ 127 := response.results_length

example : (GetResponse.normalList 5 [.errorInfo ⟨0x0010, 2, 0⟩ 6,
    .data ⟨0x2000, 2, 0⟩ ⟨[18, 0, 7], by decide⟩] (by decide)).units 0 =
      [⟨⟨0x2000, 2, 0⟩, 3, 15⟩] := by decide

end IotEdgeAgent.Dlt698.Extraction
