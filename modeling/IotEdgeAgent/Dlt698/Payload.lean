import IotEdgeAgent.Dlt698.ResponseBounds
import IotEdgeAgent.Library.Binary64
import IotEdgeAgent.Library.Strings
import IotEdgeAgent.Protocol.Manager

/-!
# From a response to a payload

`dlt698_response_parse` analyses a response and writes the units it got into the
document that is published under the entry's name and topic. It does not look at the
outcome of the analysis. The texts go through a buffer of 32 bytes. `sprintf` stands for the text
of `"%.2f"` for a number times a power of ten, `now` for the current time as text.
-/

namespace IotEdgeAgent.Dlt698.Payload
open ByteWalk DataLen LinkFrame Response ResponseBounds Protocol
open Strings (atoi)

structure AcqFile where
  oad : Vector UInt8 4
  addr : Vector UInt8 6
  m : String
  math : String

structure Dlt698ModelInfo where
  acqMode : String
  DBTopic : String
  acqFile : AcqFile

def takeBytes : ℕ → List Char → List Char
  | _, [] => []
  | n, c :: cs => if c.utf8Size ≤ n then c :: takeBytes (n - c.utf8Size) cs else []

/-- `strncpy` into the 64 bytes of a topic. -/
def copyTopic (topic : String) : String := String.ofList (takeBytes 64 topic.toList)

/-- `int32_t temp`: four bytes, copied and reversed on a little-endian machine. -/
def readInt32 : List UInt8 → Option ℤ
  | b0 :: b1 :: b2 :: b3 :: _ =>
    some (Int.bmod (((b0.toNat * 256 + b1.toNat) * 256 + b2.toNat) * 256 + b3.toNat) 4294967296)
  | _ => none

def writeAt (res : String) (index : ℕ) (text : String) : String :=
  String.ofList (res.toList.take index ++ text.toList)

section
variable (sprintf : ℤ → ℤ → String) (now : String)

/-- The loop over `n` elements that are left; another type than a 32-bit number ends it. -/
def convertElements (math : ℤ) : ℕ → List UInt8 → ℕ → String → Option String
  | 0, _, _, res => some res
  | _ + 1, [], _, _ => none
  | n + 1, dataType :: data, index, res =>
    if dataType = DltData.dLong.code ∨ dataType = DltData.dLongUns.code then
      match readInt32 data with
      | none => none
      | some temp =>
        let text := if n = 0 then sprintf temp math else sprintf temp math ++ ","
        convertElements math n (data.drop 4) (index + text.length) (writeAt res index text)
    else some res

/-- The text in `res` after the call; it stays as it was for anything but an array. -/
def convertToStringFloat (ptr : List UInt8) (res : String) (math : ℤ) : Option String :=
  match ptr with
  | [] => none
  | dataType :: ptr =>
    if dataType = DltData.array.code then
      match ptr with
      | [] => none
      | arrLen :: ptr => convertElements sprintf math arrLen.toNat ptr 0 res
    else some res

def sizeofRes : ℕ := 32

/-- The texts are written one behind the other, each with a terminator: they are inside `res` if
the whole text and its terminator are. -/
def convertInto (ptr : List UInt8) (res : String) (math : ℤ) : Option String :=
  (convertToStringFloat sprintf ptr res math).filter fun text => text.length < sizeofRes

def responseBody (frame : List UInt8) (name : String) (math : ℤ) :
    List DataUnit → String → Option (List NamedValue)
  | [], _ => some []
  | unit :: units, res => do
    let res ← convertInto sprintf (frame.drop unit.ucPtr) res math
    let body ← responseBody frame name math units res
    return ⟨name, res⟩ :: body

def dlt698ResponseParse (modelInfo : Option Dlt698ModelInfo)
    (dataInfo : Option (PmDataInfo Dlt698ModelInfo)) (dataResponse : Option DataResponse) :
    Except Undefined (Option DataPayload) :=
  match modelInfo, dataInfo, dataResponse with
  | some model, some _, some response =>
    match dlt698ResponseAnaly response.data response.length.toNat with
    | (none, _) => .error .outsideAccess
    | (some (), analyRes) =>
      match responseBody sprintf response.data model.acqFile.m (atoi model.acqFile.math)
          analyRes.stDataUnit "" with
      | none => .error .outsideAccess
      | some body =>
        .ok (some
          { payload :=
              { timestamp := now
                token := "077de87b3a04"
                dataRaw := if model.acqMode = "realtime" then some "single" else none
                body := body }
            DBTopic := copyTopic model.DBTopic })
  | _, _, _ => .ok none

def responseParse : ResponseParse Dlt698ModelInfo := fun model info response =>
  dlt698ResponseParse sprintf now (some model) (some info) (some response)

end

def elementsInside : ℕ → List UInt8 → Prop
  | 0, _ => True
  | _ + 1, [] => False
  | n + 1, dataType :: data =>
    dataType = DltData.dLong.code ∨ dataType = DltData.dLongUns.code →
      4 ≤ data.length ∧ elementsInside n (data.drop 4)

def arrayInside : List UInt8 → Prop
  | [] => False
  | dataType :: ptr => dataType = DltData.array.code →
    ∃ arrLen data, ptr = arrLen :: data ∧ elementsInside arrLen.toNat data

abbrev IsNumber (dataType : UInt8) : Prop :=
  dataType = DltData.dLong.code ∨ dataType = DltData.dLongUns.code

def OpensWithNumber (u : List UInt8) : Prop :=
  ∃ arrLen dataType data, u = DltData.array.code :: arrLen :: dataType :: data ∧ arrLen ≠ 0 ∧
    IsNumber dataType

section
variable (sprintf : ℤ → ℤ → String) (now : String)

theorem readInt32_isSome (data : List UInt8) : (readInt32 data).isSome ↔ 4 ≤ data.length := by
  match data with
  | b0 :: b1 :: b2 :: b3 :: ptr => simp [readInt32]
  | [] => simp [readInt32]
  | [_] => simp [readInt32]
  | [_, _] => simp [readInt32]
  | [_, _, _] => simp [readInt32]

theorem convertElements_isSome (math : ℤ) (n : ℕ) (ptr : List UInt8) (index : ℕ) (res : String) :
    (convertElements sprintf math n ptr index res).isSome ↔ elementsInside n ptr := by
  induction n generalizing ptr index res with
  | zero => simp [convertElements, elementsInside]
  | succ n ih =>
    match ptr with
    | [] => simp [convertElements, elementsInside]
    | dataType :: data =>
      rw [convertElements, elementsInside]
      by_cases htype : dataType = DltData.dLong.code ∨ dataType = DltData.dLongUns.code
      · have hread := readInt32_isSome data
        cases htemp : readInt32 data with
        | none =>
          rw [htemp] at hread
          simp [← hread, htype]
        | some temp =>
          rw [htemp] at hread
          simp [← hread, htype, ih]
      · simp [htype]

theorem convertToStringFloat_isSome (ptr : List UInt8) (res : String) (math : ℤ) :
    (convertToStringFloat sprintf ptr res math).isSome ↔ arrayInside ptr := by
  match ptr with
  | [] => simp [convertToStringFloat, arrayInside]
  | dataType :: ptr =>
    simp only [convertToStringFloat, arrayInside]
    split_ifs with htype
    · match ptr with
      | [] => simp [htype]
      | arrLen :: data => simp [htype, convertElements_isSome]
    · simp [htype]

theorem writeAt_zero (res text : String) : writeAt res 0 text = text := by
  rw [writeAt, List.take_zero, List.nil_append, String.ofList_toList]

theorem convertToStringFloat_opens {u : List UInt8} (h : OpensWithNumber u) (res res' : String)
    (math : ℤ) :
    convertToStringFloat sprintf u res math = convertToStringFloat sprintf u res' math := by
  obtain ⟨arrLen, dataType, data, rfl, hcount, htype⟩ := h
  have hpos : arrLen.toNat ≠ 0 := fun h => hcount (UInt8.toNat_inj.mp h)
  obtain ⟨n, hn⟩ := Nat.exists_eq_succ_of_ne_zero hpos
  simp only [convertToStringFloat, if_true, hn, convertElements, if_pos htype, writeAt_zero]

theorem convertToStringFloat_silent {u : List UInt8} (hinside : arrayInside u)
    (h : ¬ OpensWithNumber u) (res : String) (math : ℤ) :
    convertToStringFloat sprintf u res math = some res := by
  cases u with
  | nil => exact hinside.elim
  | cons dataType ptr =>
    simp only [convertToStringFloat]
    by_cases harray : dataType = DltData.array.code
    · obtain ⟨arrLen, data, rfl, hdata⟩ := hinside harray
      simp only [if_pos harray]
      cases hcount : arrLen.toNat with
      | zero => rfl
      | succ n =>
        rw [hcount] at hdata
        cases data with
        | nil => exact hdata.elim
        | cons first data =>
          have hother : ¬ IsNumber first := by
            intro hnumber
            refine h ⟨arrLen, first, data, by rw [harray], ?_, hnumber⟩
            rintro rfl
            cases hcount
          rw [convertElements, if_neg hother]
    · rw [if_neg harray]

/-- The text of a unit leaves room for its terminator. -/
def TextFits (math : ℤ) (ptr : List UInt8) : Prop :=
  ∀ text, convertToStringFloat sprintf ptr "" math = some text → text.length < sizeofRes

theorem convertInto_eq_some_iff {ptr : List UInt8} {res text : String} {math : ℤ} :
    convertInto sprintf ptr res math = some text ↔
      convertToStringFloat sprintf ptr res math = some text ∧ text.length < sizeofRes := by
  rw [convertInto, Option.filter_eq_some_iff, decide_eq_true_iff]

theorem convertInto_isSome {res : String} (hres : res.length < sizeofRes) (ptr : List UInt8)
    (math : ℤ) : (convertInto sprintf ptr res math).isSome ↔
      arrayInside ptr ∧ TextFits sprintf math ptr := by
  have hinside := convertToStringFloat_isSome sprintf ptr res math
  simp only [Option.isSome_iff_exists] at hinside ⊢
  simp only [convertInto_eq_some_iff, ← hinside]
  constructor
  · rintro ⟨text, htext, hlength⟩
    refine ⟨⟨text, htext⟩, fun text' htext' => ?_⟩
    by_cases hopens : OpensWithNumber ptr
    · rw [convertToStringFloat_opens sprintf hopens "" res, htext] at htext'
      rwa [← Option.some.inj htext']
    · rw [convertToStringFloat_silent sprintf (hinside.mp ⟨text, htext⟩) hopens] at htext'
      rw [← Option.some.inj htext']
      decide
  · rintro ⟨⟨text, htext⟩, hfits⟩
    refine ⟨text, htext, ?_⟩
    by_cases hopens : OpensWithNumber ptr
    · exact hfits text ((convertToStringFloat_opens sprintf hopens "" res math).trans htext)
    · rw [convertToStringFloat_silent sprintf (hinside.mp ⟨text, htext⟩) hopens] at htext
      rwa [← Option.some.inj htext]

theorem empty_fits : "".length < sizeofRes := by decide

theorem responseBody_isSome (frame : List UInt8) (name : String) (math : ℤ)
    (units : List DataUnit) {res : String} (hres : res.length < sizeofRes) :
    (responseBody sprintf frame name math units res).isSome ↔
      ∀ unit ∈ units, arrayInside (frame.drop unit.ucPtr) ∧
        TextFits sprintf math (frame.drop unit.ucPtr) := by
  induction units generalizing res with
  | nil => simp [responseBody]
  | cons unit units ih =>
    have hconv := convertInto_isSome sprintf hres (frame.drop unit.ucPtr) math
    rw [responseBody, List.forall_mem_cons, ← hconv]
    cases htext : convertInto sprintf (frame.drop unit.ucPtr) res math with
    | none => simp
    | some text =>
      have hbody := ih ((convertInto_eq_some_iff sprintf).mp htext).2
      cases hrest : responseBody sprintf frame name math units text with
      | none => simpa [hrest] using hbody
      | some body => simpa [hrest] using hbody

theorem dlt698ResponseParse_hands_on (model : Dlt698ModelInfo) (info : PmDataInfo Dlt698ModelInfo)
    (response : DataResponse) :
    (∃ payload, dlt698ResponseParse sprintf now (some model) (some info) (some response) =
        .ok (some payload)) ↔
      (dlt698ResponseAnaly response.data response.length.toNat).1.isSome ∧
        ∀ unit ∈ (dlt698ResponseAnaly response.data response.length.toNat).2.stDataUnit,
          arrayInside (response.data.drop unit.ucPtr) ∧
            TextFits sprintf (atoi model.acqFile.math) (response.data.drop unit.ucPtr) := by
  generalize hanaly : dlt698ResponseAnaly response.data response.length.toNat = analy
  obtain ⟨ret, coll⟩ := analy
  have hbody := responseBody_isSome sprintf response.data model.acqFile.m
    (atoi model.acqFile.math) coll.stDataUnit empty_fits
  rw [dlt698ResponseParse, hanaly, ← hbody]
  cases ret with
  | none => simp
  | some u =>
    cases htext : responseBody sprintf response.data model.acqFile.m (atoi model.acqFile.math)
        coll.stDataUnit "" with
    | none => simp [htext]
    | some body => simp [htext]

end

section
variable {sprintf : ℤ → ℤ → String}

/-- The value has the name, and the text that the conversion of the unit leaves in the buffer. -/
def MadeOf (sprintf : ℤ → ℤ → String) (frame : List UInt8) (name : String) (math : ℤ)
    (unit : DataUnit) (value : NamedValue) : Prop :=
  value.name = name ∧
    ∃ before, convertInto sprintf (frame.drop unit.ucPtr) before math = some value.val

theorem responseBody_madeOf {frame : List UInt8} {name : String} {math : ℤ}
    {units : List DataUnit} {res : String} {body : List NamedValue}
    (h : responseBody sprintf frame name math units res = some body) :
    List.Forall₂ (MadeOf sprintf frame name math) units body := by
  induction units generalizing res body with
  | nil =>
    cases h
    exact List.Forall₂.nil
  | cons unit units ih =>
    rw [responseBody] at h
    obtain ⟨text, htext, h⟩ := Option.bind_eq_some_iff.mp h
    obtain ⟨others, hothers, h⟩ := Option.bind_eq_some_iff.mp h
    cases h
    exact List.Forall₂.cons ⟨rfl, res, htext⟩ (ih hothers)

theorem dlt698ResponseParse_madeOf {now : String} {model : Dlt698ModelInfo}
    {info : PmDataInfo Dlt698ModelInfo} {response : DataResponse} {payload : DataPayload}
    (h : dlt698ResponseParse sprintf now (some model) (some info) (some response) =
      .ok (some payload)) :
    payload.DBTopic = copyTopic model.DBTopic ∧
      List.Forall₂ (MadeOf sprintf response.data model.acqFile.m (atoi model.acqFile.math))
        (dlt698ResponseAnaly response.data response.length.toNat).2.stDataUnit
        payload.payload.body := by
  rw [dlt698ResponseParse] at h
  split at h
  · cases h
  · next coll hanaly =>
    split at h
    · cases h
    · next body hbody =>
      cases h
      rw [hanaly]
      exact ⟨rfl, responseBody_madeOf hbody⟩

end

def Analysed (f : List UInt8) : Prop :=
  ∃ p len k, FrameOk f p len k ∧
    (dwAPduAnalyze f (some (apduPos p k)) (u32 (len - k - 8)) emptyStore).ret = some 1

/-- The frame is accepted and every result it announces is an error or measurable data. -/
def WellFormed (f : List UInt8) : Prop :=
  ∃ p len k, FrameOk f p len k ∧
    .malformed ∉ announced f (apduPos p k) ∧ .cut ∉ announced f (apduPos p k)

def EachValue (f : List UInt8) (P : List UInt8 → Prop) : Prop :=
  ∀ p len k, FrameOk f p len k → ∀ unit, .data unit ∈ announced f (apduPos p k) →
    P (f.drop unit.ucPtr)

def ValuesInside (f : List UInt8) : Prop := EachValue f arrayInside

def TextsFit (sprintf : ℤ → ℤ → String) (math : ℤ) (f : List UInt8) : Prop :=
  EachValue f (TextFits sprintf math)

theorem retOf_eq_one_iff (es : List Entry) : retOf es = some 1 ↔ .malformed ∉ es ∧ .cut ∉ es := by
  simp only [retOf]
  split_ifs with hcut hbad
  · simp [hcut]
  · simp [hbad]
  · simp [hcut, hbad]

theorem analysed_iff (f : List UInt8) : Analysed f ↔ WellFormed f := by
  simp only [Analysed, WellFormed, (dwAPduAnalyze_eq f _ _).1, retOf_eq_one_iff]

theorem eachValue_iff (f : List UInt8) (n : ℤ) (P : List UInt8 → Prop) : EachValue f P ↔
    ∀ unit ∈ (dlt698ResponseAnaly f n).2.stDataUnit, P (f.drop unit.ucPtr) := by
  by_cases hok : ∃ p len k, FrameOk f p len k
  · obtain ⟨p, len, k, hok⟩ := hok
    simp only [dlt698ResponseAnaly_units hok, mem_unitsOf]
    constructor
    · intro h
      exact h p len k hok
    · intro h p' len' k' hok'
      obtain ⟨rfl, rfl, rfl⟩ := hok.unique hok'
      exact h
  · have hnone : ∀ p len k, ¬ FrameOk f p len k := by
      intro p len k h
      exact hok ⟨p, len, k, h⟩
    rw [dlt698ResponseAnaly_refused hnone]
    constructor
    · simp [emptyStore]
    · intro _ p len k h
      exact absurd h (hnone p len k)

theorem dlt698ResponseParse_gated_iff (sprintf : ℤ → ℤ → String) (now : String)
    (model : Dlt698ModelInfo) (info : PmDataInfo Dlt698ModelInfo) (response : DataResponse)
    (hf : response.data.length < 2147483648) :
    (∀ payload, dlt698ResponseParse sprintf now (some model) (some info) (some response) =
        .ok (some payload) → Analysed response.data) ↔
      (Inside response.data → ValuesInside response.data →
        TextsFit sprintf (atoi model.acqFile.math) response.data → WellFormed response.data) := by
  have hhands := dlt698ResponseParse_hands_on sprintf now model info response
  simp only [dlt698ResponseAnaly_isSome hf, forall_and] at hhands
  rw [← eachValue_iff, ← eachValue_iff] at hhands
  rw [← analysed_iff]
  constructor
  · intro h hin hvalues htexts
    obtain ⟨payload, hpayload⟩ := hhands.mpr ⟨hin, hvalues, htexts⟩
    exact h payload hpayload
  · intro h payload hpayload
    obtain ⟨hin, hvalues, htexts⟩ := hhands.mp ⟨payload, hpayload⟩
    exact h hin hvalues htexts

/-- The magnitude of `pow(10, math)`, if it is finite. -/
def pow10 (math : ℤ) : Option ℕ :=
  if 308 < math then none
  else if math < -323 then some 0
  else some (Binary64.nearest (10 ^ math.toNat * Binary64.one) (10 ^ (-math).toNat))

inductive Magnitude
  | finite (units : ℕ)
  | infinite
  | nan
  deriving DecidableEq, Repr

def timesPow10 (temp math : ℤ) : Magnitude :=
  match pow10 math with
  | none => if temp = 0 then .nan else .infinite
  | some power =>
    let units := Binary64.nearest (temp.natAbs * power) 1
    if units < Binary64.overflow then .finite units else .infinite

def hundredths (units : ℕ) : ℕ := Binary64.roundHalfEven (100 * units) Binary64.one

def minus (temp : ℤ) : String := if temp < 0 then "-" else ""

/-- `sprintf` with `"%.2f"`; zero times an infinite number is negative on an x86-64 machine. -/
def printFixed (temp math : ℤ) : String :=
  match timesPow10 temp math with
  | .finite units =>
    minus temp ++ toString (hundredths units / 100) ++ "." ++
      toString (hundredths units / 10 % 10) ++ toString (hundredths units % 10)
  | .infinite => minus temp ++ "inf"
  | .nan => "-nan"

def energyModel : Dlt698ModelInfo where
  acqMode := "realtime"
  DBTopic := "rspData/energy"
  acqFile := ⟨#v[0x00, 0x00, 0x02, 0x00], #v[0x00, 0x19, 0x11, 0x27, 0x00, 0x01], "PapE", "-2"⟩

theorem energyResponse_frameOk : FrameOk energyResponse 4 52 7 where
  leader := by decide
  start := by decide
  length := by decide
  address := ⟨0x05, by decide, by decide⟩
  hcs := ⟨0xa895, by decide +kernel, by decide⟩
  fcs := ⟨0x695a, 0x69, 0x5a, by decide +kernel, by decide, by decide, by decide⟩

theorem dlt698ResponseParse_gated_iff_energyResponse :
    energyResponse.length < 2147483648 ∧
      ∀ payload, dlt698ResponseParse printFixed "" (some energyModel)
        (some ⟨none, none, some energyModel⟩) (some ⟨energyResponse, 58⟩) = .ok (some payload) →
          Analysed energyResponse := by
  have hwell : WellFormed energyResponse :=
    ⟨4, 52, 7, energyResponse_frameOk, by decide +kernel, by decide +kernel⟩
  refine ⟨by decide, ?_⟩
  exact (dlt698ResponseParse_gated_iff _ _ energyModel _ ⟨energyResponse, 58⟩ (by decide)).mpr
    fun _ _ _ => hwell

/-- Four bytes without a start byte are published as a document with an empty body. -/
theorem dlt698ResponseParse_publishes_noise :
    ¬ ∀ payload, dlt698ResponseParse printFixed "" (some energyModel)
      (some ⟨none, none, some energyModel⟩) (some ⟨[0, 0, 0, 0], 4⟩) = .ok (some payload) →
        Analysed [0, 0, 0, 0] := by
  intro h
  obtain ⟨p, len, k, hok, -⟩ := h ⟨⟨"", "077de87b3a04", some "single", []⟩, "rspData/energy"⟩ rfl
  have hp : some 0 = some p := hok.leader
  obtain rfl := Option.some.inj hp
  have hstart : some 0 = some (0x68 : UInt8) := hok.start
  revert hstart
  decide

end IotEdgeAgent.Dlt698.Payload
