import Mathlib.Data.Vector.Basic
import Mathlib.Data.Nat.Notation

/-!
# The protocol manager

A protocol instance holds the list of its data entries and three positions in it: the
entry to poll next, the one polled last, and the one whose request was sent last. The
model of an entry and the parser for responses belong to the protocol and are
parameters. A list item handle is a position in the list, the null handle is `none`.
-/

namespace IotEdgeAgent.Protocol

inductive Undefined
  | outsideAccess
  | nullDereference
  | uninitialised
  deriving DecidableEq, Repr

structure Schedule where
  mons : Vector UInt8 12
  days : Vector UInt8 32
  hous : Vector UInt8 24
  mins : Vector UInt8 60
  deriving DecidableEq, Repr

structure TimeToSend where
  acqMode : String
  packetSendTime : ℕ
  acqInt : ℤ
  startTime : Schedule
  endTime : Schedule
  freezing : Bool
  isLastOne : Bool
  deriving DecidableEq, Repr

/-- `DATA_REQUEST`, without the predicted length, which nothing reads. -/
structure DataRequest where
  data : List UInt8
  length : UInt8
  deriving DecidableEq, Repr

structure DataResponse where
  data : List UInt8
  length : UInt8
  deriving DecidableEq, Repr

structure NamedValue where
  name : String
  val : String
  deriving DecidableEq, Repr

structure Document where
  timestamp : String
  token : String
  dataRaw : Option String
  body : List NamedValue
  deriving DecidableEq, Repr

structure DataPayload where
  payload : Document
  DBTopic : String
  deriving DecidableEq, Repr

variable {μ : Type}

structure PmDataInfo (μ : Type) where
  dataRequest : Option DataRequest
  timeToSend : Option TimeToSend
  modelInfo : Option μ

abbrev ResponseParse (μ : Type) :=
  μ → PmDataInfo μ → DataResponse → Except Undefined (Option DataPayload)

structure PmInstance (μ : Type) where
  dmInfoList : List (PmDataInfo μ)
  nextDataInfo : Option ℕ
  prevDataInfo : Option ℕ
  currDataInfo : Option ℕ

namespace PmInstance

def item (handle : PmInstance μ) (i : Option ℕ) : Option (PmDataInfo μ) :=
  i.bind fun i => handle.dmInfoList[i]?

def headItem (handle : PmInstance μ) : Option ℕ :=
  if handle.dmInfoList = [] then none else some 0

def nextItem (handle : PmInstance μ) (i : Option ℕ) : Option ℕ :=
  i.bind fun i => if i + 1 < handle.dmInfoList.length then some (i + 1) else none

def setTimeToSend (handle : PmInstance μ) (i : Option ℕ) (sendTime : TimeToSend) : PmInstance μ :=
  match i with
  | none => handle
  | some i =>
    { handle with
      dmInfoList := handle.dmInfoList.modify i fun info => { info with timeToSend := sendTime } }

end PmInstance

def getNextSendTime (handle : PmInstance μ) : Option TimeToSend × PmInstance μ :=
  match (handle.item handle.nextDataInfo).bind PmDataInfo.timeToSend with
  | none => (none, handle)
  | some sendTime =>
    match handle.nextItem handle.nextDataInfo with
    | none =>
      let result := { sendTime with isLastOne := true }
      (some result, { handle.setTimeToSend handle.nextDataInfo result with
        prevDataInfo := handle.nextDataInfo, nextDataInfo := handle.headItem })
    | some next =>
      let result := { sendTime with isLastOne := false }
      (some result, { handle.setTimeToSend handle.nextDataInfo result with
        prevDataInfo := handle.nextDataInfo, nextDataInfo := some next })

def getRequestData (handle : PmInstance μ) : Option DataRequest × PmInstance μ :=
  match (handle.item handle.prevDataInfo).bind PmDataInfo.dataRequest with
  | none => (none, handle)
  | some request => (some request, { handle with currDataInfo := handle.prevDataInfo })

/-- Without a current entry the source reads through a null pointer; without a model it returns
a variable that was never set. -/
def dataResponseParse (parse : ResponseParse μ) (handle : PmInstance μ) (response : DataResponse) :
    Except Undefined (Option DataPayload) :=
  match handle.item handle.currDataInfo with
  | none => .error .nullDereference
  | some info =>
    match info.modelInfo with
    | none => .error .uninitialised
    | some model => parse model info response

theorem dataResponseParse_ok {parse : ResponseParse μ} {handle : PmInstance μ}
    {response : DataResponse} {result : Option DataPayload}
    (h : dataResponseParse parse handle response = .ok result) :
    ∃ info model, handle.item handle.currDataInfo = some info ∧ info.modelInfo = some model ∧
      parse model info response = .ok result := by
  rw [dataResponseParse.eq_def] at h
  split at h
  · cases h
  · rename_i info hinfo
    split at h
    · cases h
    · rename_i model hmodel
      exact ⟨info, model, hinfo, hmodel, h⟩

namespace PmInstance
variable (handle : PmInstance μ)

def modelAt (i : Option ℕ) : Option μ := (handle.item i).bind PmDataInfo.modelInfo

def requestAt (i : Option ℕ) : Option DataRequest := (handle.item i).bind PmDataInfo.dataRequest

theorem setTimeToSend_item (i j : Option ℕ) (sendTime : TimeToSend) :
    (handle.setTimeToSend i sendTime).item j = if i = j then
      (handle.item j).map fun info => { info with timeToSend := sendTime } else handle.item j := by
  cases i with
  | none => cases j <;> simp [setTimeToSend, item]
  | some i =>
    cases j with
    | none => simp [setTimeToSend, item]
    | some j =>
      simp only [setTimeToSend, item, Option.bind_some, List.getElem?_modify, Option.some.injEq]
      split_ifs with h
      · rfl
      · simp

def Keeps (handle handle' : PmInstance μ) : Prop :=
  ∀ i, handle'.modelAt i = handle.modelAt i ∧ handle'.requestAt i = handle.requestAt i

theorem Keeps.refl : handle.Keeps handle := fun _ => ⟨rfl, rfl⟩

theorem Keeps.trans {handle handle' handle'' : PmInstance μ} (h : handle.Keeps handle')
    (h' : handle'.Keeps handle'') : handle.Keeps handle'' := by
  intro i
  exact ⟨(h' i).1.trans (h i).1, (h' i).2.trans (h i).2⟩

theorem setTimeToSend_keeps (i : Option ℕ) (sendTime : TimeToSend) :
    handle.Keeps (handle.setTimeToSend i sendTime) := by
  intro j
  simp only [modelAt, requestAt, setTimeToSend_item]
  split_ifs
  · cases handle.item j <;> exact ⟨rfl, rfl⟩
  · exact ⟨rfl, rfl⟩

@[simp] theorem setTimeToSend_currDataInfo (i : Option ℕ) (sendTime : TimeToSend) :
    (handle.setTimeToSend i sendTime).currDataInfo = handle.currDataInfo := by
  cases i <;> rfl

end PmInstance

theorem getNextSendTime_keeps (handle : PmInstance μ) :
    handle.Keeps (getNextSendTime handle).2 ∧
      (getNextSendTime handle).2.currDataInfo = handle.currDataInfo := by
  rw [getNextSendTime]
  split
  · exact ⟨PmInstance.Keeps.refl handle, rfl⟩
  · split
    · exact ⟨handle.setTimeToSend_keeps _ _, handle.setTimeToSend_currDataInfo _ _⟩
    · exact ⟨handle.setTimeToSend_keeps _ _, handle.setTimeToSend_currDataInfo _ _⟩

theorem getNextSendTime_none {handle handle' : PmInstance μ}
    (h : getNextSendTime handle = (none, handle')) : handle' = handle := by
  rw [getNextSendTime] at h
  split at h
  · exact (Prod.ext_iff.mp h).2.symm
  · split at h
    · cases h
    · cases h

theorem getRequestData_some {handle handle' : PmInstance μ} {request : DataRequest}
    (h : getRequestData handle = (some request, handle')) :
    handle.requestAt handle.prevDataInfo = some request ∧
      handle' = { handle with currDataInfo := handle.prevDataInfo } := by
  rw [getRequestData] at h
  split at h
  · cases h
  · rename_i found hfound
    cases h
    exact ⟨hfound, rfl⟩

end IotEdgeAgent.Protocol
