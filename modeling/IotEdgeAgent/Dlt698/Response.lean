import IotEdgeAgent.Dlt698.DataLenExact
import IotEdgeAgent.Dlt698.LinkFrame

/-!
# Analysing a meter's response

`dlt698_response_analy` takes a received buffer apart: the link frame, the APDU, its
results, and a unit for each result that carries data. A pointer into the buffer is an
offset. A call that reads outside the buffer has no return value, but the units it had
stored by then are kept, as the source writes them through a pointer.

`announced` lists what the bytes at an APDU position announce, result by result, up to
the first that is malformed or cut off by the end of the buffer. The analysis stores
exactly the data results of that list (`dwAPduAnalyze_eq`).
-/

namespace IotEdgeAgent.Dlt698.Response
open ByteWalk DataLen LinkFrame Checksum

def GET_Response : UInt8 := 133
def GetResponseNormal : UInt8 := 1
def GetResponseNormalList : UInt8 := 2
def ERROR_INFO : UInt8 := 0
def RES_DATA : UInt8 := 1

structure Oad where
  oiDate : ℕ
  attrId : UInt8
  attrIndex : UInt8
  deriving DecidableEq, Repr

structure DataUnit where
  stOAD : Oad
  uwLen : ℕ
  ucPtr : ℕ
  deriving DecidableEq, Repr

inductive DataClass
  | null
  | real
  deriving DecidableEq, Repr

/-- `COLL_STORE_DATA`, with the first `ucDataNum` entries of `stDataUnit`. -/
structure CollStoreData where
  eDataCls : DataClass
  stDataUnit : List DataUnit
  deriving DecidableEq, Repr

structure Outcome where
  ret : Option ℤ
  coll : CollStoreData
  deriving DecidableEq, Repr

def dwGetOad (f : List UInt8) (pos : ℕ) : Option Oad := do
  let hbyte ← f[pos]?
  let lbyte ← f[pos + 1]?
  let attrId ← f[pos + 2]?
  let attrIndex ← f[pos + 3]?
  return ⟨makeWord hbyte lbyte, attrId, attrIndex⟩

def dwDlt698DataLenByOAD (_ : Oad) (pucBuf : List UInt8) : Option ℤ :=
  match dwDlt698DataLen pucBuf 256 with
  | .ok dwLen => some dwLen
  | .error .reject => some (-1)
  | .error .fault => none

def getResults (f : List UInt8) : ℕ → ℕ → CollStoreData → Outcome
  | 0, _, coll => ⟨some 1, coll⟩
  | n + 1, pos, coll =>
    match dwGetOad f pos, f[pos + 4]? with
    | some stOADtmp, some choice =>
      if choice = ERROR_INFO then
        getResults f n (pos + 6) coll
      else if choice = RES_DATA then
        match dwDlt698DataLenByOAD stOADtmp (f.drop (pos + 5)) with
        | none => ⟨none, coll⟩
        | some dwLen =>
          if dwLen < 0 then ⟨some (-1), coll⟩ else
            getResults f n (pos + 5 + dwLen.toNat)
              { coll with stDataUnit := coll.stDataUnit ++ [⟨stOADtmp, dwLen.toNat, pos + 5⟩] }
      else ⟨some (-1), coll⟩
    | _, _ => ⟨none, coll⟩

def dwGetResponseNormal (f : List UInt8) (pucBuf : ℕ) (coll : CollStoreData) : Outcome :=
  match f[pucBuf + 1]? with
  | none => ⟨none, coll⟩
  | some choice =>
    if choice = GetResponseNormal then
      getResults f 1 (pucBuf + 3) { coll with eDataCls := .real }
    else if choice = GetResponseNormalList then
      match f[pucBuf + 3]? with
      | none => ⟨none, coll⟩
      | some ucResultNum =>
        if ucResultNum > 127 then ⟨some (-1), coll⟩ else
          getResults f ucResultNum.toNat (pucBuf + 4) { coll with eDataCls := .real }
    else ⟨some (-1), coll⟩

/-- `pucBuf` is `none` for the null pointer; the APDU length is a parameter nothing reads. -/
def dwAPduAnalyze (f : List UInt8) (pucBuf : Option ℕ) (_dwlen : ℕ) (coll : CollStoreData) :
    Outcome :=
  match pucBuf with
  | none => ⟨some (-1), coll⟩
  | some a =>
    match f[a]? with
    | none => ⟨none, coll⟩
    | some tag =>
      if tag ≠ GET_Response then ⟨some (-1), coll⟩ else
        match f[a + 1]? with
        | none => ⟨none, coll⟩
        | some choice =>
          if choice = GetResponseNormal ∨ choice = GetResponseNormalList then
            dwGetResponseNormal f a coll
          else ⟨some (-1), coll⟩

def emptyStore : CollStoreData := ⟨.null, []⟩

/-- The store that the caller gets back, and whether the call stayed inside the buffer. The
length of the buffer and the results of both steps go unused. -/
def dlt698ResponseAnaly (frame : List UInt8) (_length : ℤ) : Option Unit × CollStoreData :=
  match dwGet698Apdu frame with
  | none => (none, emptyStore)
  | some r =>
    let analyzed := dwAPduAnalyze frame r.pAPDU (u32 r.ret) emptyStore
    (analyzed.ret.map fun _ => (), analyzed.coll)

inductive Entry
  | errorInfo
  | data (unit : DataUnit)
  | malformed
  | cut
  deriving DecidableEq, Repr

def Entry.unit? : Entry → Option DataUnit
  | .data unit => some unit
  | _ => none

/-- `n` results from `pos` on, up to the first that is malformed or cut off. -/
def results (f : List UInt8) : ℕ → ℕ → List Entry
  | 0, _ => []
  | n + 1, pos =>
    match dwGetOad f pos, f[pos + 4]? with
    | some oad, some choice =>
      if choice = ERROR_INFO then
        .errorInfo :: results f n (pos + 6)
      else if choice = RES_DATA then
        match dwDlt698DataLen (f.drop (pos + 5)) 256 with
        | .ok len => .data ⟨oad, len, pos + 5⟩ :: results f n (pos + 5 + len)
        | .error .reject => [.malformed]
        | .error .fault => [.cut]
      else [.malformed]
    | _, _ => [.cut]

/-- The results of a GetResponseNormal or GetResponseNormalList at `a`; any other APDU is
malformed. -/
def announced (f : List UInt8) (a : ℕ) : List Entry :=
  match f[a]? with
  | none => [.cut]
  | some tag =>
    if tag ≠ GET_Response then [.malformed] else
      match f[a + 1]? with
      | none => [.cut]
      | some choice =>
        if choice = GetResponseNormal then results f 1 (a + 3)
        else if choice = GetResponseNormalList then
          match f[a + 3]? with
          | none => [.cut]
          | some num => if num > 127 then [.malformed] else results f num.toNat (a + 4)
        else [.malformed]

def unitsOf (es : List Entry) : List DataUnit := es.filterMap Entry.unit?

def retOf (es : List Entry) : Option ℤ :=
  if .cut ∈ es then none else if .malformed ∈ es then some (-1) else some 1

theorem mem_unitsOf {es : List Entry} {unit : DataUnit} :
    unit ∈ unitsOf es ↔ .data unit ∈ es := by
  simp only [unitsOf, List.mem_filterMap]
  constructor
  · rintro ⟨entry, hmem, hunit⟩
    cases entry <;> simp [Entry.unit?] at hunit
    rwa [← hunit]
  · intro hmem
    exact ⟨_, hmem, rfl⟩

@[simp] theorem unitsOf_nil : unitsOf [] = [] := rfl

@[simp] theorem unitsOf_cons (entry : Entry) (es : List Entry) :
    unitsOf (entry :: es) = entry.unit?.toList ++ unitsOf es := by
  cases entry <;> rfl

@[simp] theorem unit?_errorInfo : Entry.errorInfo.unit? = none := rfl
@[simp] theorem unit?_malformed : Entry.malformed.unit? = none := rfl
@[simp] theorem unit?_cut : Entry.cut.unit? = none := rfl
@[simp] theorem unit?_data (unit : DataUnit) : (Entry.data unit).unit? = some unit := rfl

theorem getResults_eq (f : List UInt8) (n pos : ℕ) (coll : CollStoreData) :
    getResults f n pos coll = ⟨retOf (results f n pos),
      { coll with stDataUnit := coll.stDataUnit ++ unitsOf (results f n pos) }⟩ := by
  induction n generalizing pos coll with
  | zero => simp [getResults, results, retOf]
  | succ n ih =>
    rw [getResults, results]
    split
    · split_ifs with herr hdata
      · simp [ih, retOf]
      · rw [dwDlt698DataLenByOAD]
        cases hlen : dwDlt698DataLen (f.drop (pos + 5)) 256 with
        | ok len => simp [ih, retOf]
        | error stop =>
          cases stop with
          | reject => simp [retOf]
          | fault => simp [retOf]
      · simp [retOf]
    · simp [retOf]

theorem dwAPduAnalyze_eq (f : List UInt8) (a dwlen : ℕ) :
    (dwAPduAnalyze f (some a) dwlen emptyStore).ret = retOf (announced f a) ∧
    (dwAPduAnalyze f (some a) dwlen emptyStore).coll.stDataUnit = unitsOf (announced f a) := by
  simp only [dwAPduAnalyze, announced]
  cases htag : f[a]? with
  | none => simp [retOf, emptyStore]
  | some tag =>
    by_cases hne : tag = GET_Response
    · cases hchoice : f[a + 1]? with
      | none => simp [hne, retOf, emptyStore]
      | some choice =>
        simp only [hne, ne_eq, not_true_eq_false, if_false, dwGetResponseNormal, hchoice]
        by_cases hnormal : choice = GetResponseNormal
        · simp [hnormal, getResults_eq, emptyStore]
        · have hdistinct : GetResponseNormalList ≠ GetResponseNormal := by decide
          by_cases hlist : choice = GetResponseNormalList
          · cases hnum : f[a + 3]? with
            | none => simp [hdistinct, hlist, retOf, emptyStore]
            | some num =>
              by_cases hmany : num > 127
              · simp [hdistinct, hlist, hmany, retOf, emptyStore]
              · simp [hdistinct, hlist, hmany, getResults_eq, emptyStore]
          · simp [hnormal, hlist, retOf, emptyStore]
    · simp [hne, retOf, emptyStore]

theorem dlt698ResponseAnaly_length (f : List UInt8) (n n' : ℤ) :
    dlt698ResponseAnaly f n = dlt698ResponseAnaly f n' := rfl

theorem dlt698ResponseAnaly_refused {f : List UInt8} (h : ∀ p len k, ¬ FrameOk f p len k)
    (n : ℤ) : dlt698ResponseAnaly f n = ((dwGet698Apdu f).map fun _ => (), emptyStore) := by
  rw [dlt698ResponseAnaly]
  cases hr : dwGet698Apdu f with
  | none => rfl
  | some r =>
    have hnull : r.pAPDU = none := by
      by_contra hsome
      obtain ⟨a, ha⟩ := Option.ne_none_iff_exists'.mp hsome
      obtain ⟨p, len, k, hok, -⟩ := dwGet698Apdu_accepts hr ha
      exact h p len k hok
    simp [hnull, dwAPduAnalyze]

def apduPos (p k : ℕ) : ℕ := p + (k + 5) + 2

theorem dlt698ResponseAnaly_ret {f : List UInt8} {p len k : ℕ} (h : FrameOk f p len k)
    (n : ℤ) :
    (dlt698ResponseAnaly f n).1 = (retOf (announced f (apduPos p k))).map fun _ => () := by
  have hret := (dwAPduAnalyze_eq f (apduPos p k) (u32 (len - k - 8))).1
  rw [dlt698ResponseAnaly, h.dwGet698Apdu_eq, ← hret]
  rfl

theorem dlt698ResponseAnaly_units {f : List UInt8} {p len k : ℕ} (h : FrameOk f p len k)
    (n : ℤ) :
    (dlt698ResponseAnaly f n).2.stDataUnit = unitsOf (announced f (apduPos p k)) := by
  have hunits := (dwAPduAnalyze_eq f (apduPos p k) (u32 (len - k - 8))).2
  rw [dlt698ResponseAnaly, h.dwGet698Apdu_eq, ← hunits]
  rfl

def energyResponse : List UInt8 :=
  [0xfe, 0xfe, 0xfe, 0xfe, 0x68, 0x34, 0x00, 0xc3, 0x05, 0x01, 0x00, 0x27, 0x11, 0x19, 0x00, 0x00,
    0x95, 0xa8, 0x85, 0x01, 0x01, 0x00, 0x00, 0x02, 0x00, 0x01, 0x01, 0x05, 0x05, 0x00, 0x00, 0x00,
    0x00, 0x05, 0x00, 0x00, 0x00, 0x00, 0x05, 0x00, 0x00, 0x00, 0x00, 0x05, 0x00, 0x00, 0x00, 0x00,
    0x05, 0x00, 0x00, 0x00, 0x00, 0x00, 0x00, 0x5a, 0x69, 0x16]

example : dlt698ResponseAnaly energyResponse 58 =
    (some (), ⟨.real, [⟨⟨0, 2, 0⟩, 27, 26⟩]⟩) := by decide +kernel

end IotEdgeAgent.Dlt698.Response
