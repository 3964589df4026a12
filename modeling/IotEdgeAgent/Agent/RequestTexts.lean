import IotEdgeAgent.Agent.DataCreate
import IotEdgeAgent.Agent.MissingStrings
import IotEdgeAgent.Dlt698.Request

/-!
# The request asks for what the model says

The object and the address that a request asks for are two texts of the model. `sscanf` reads them
byte by byte into memory that nothing clears, and what it returns is not looked at: a text of any
kind is accepted, and behind the first failure the bytes are those of the memory.
-/

namespace IotEdgeAgent.Configuration.RequestTexts
open ByteWalk (bind_eq_ok)
open Parson Protocol DataCreate
open Dlt698.Request
open Dlt698.LinkFrame (Frame)

def isSpace (b : UInt8) : Bool := b == 0x20 || (0x09 ≤ b && b ≤ 0x0D)

def hexDigit (b : UInt8) : Option UInt8 :=
  if 0x30 ≤ b ∧ b ≤ 0x39 then some (b - 0x30)
  else if 0x41 ≤ b ∧ b ≤ 0x46 then some (b - 0x37)
  else if 0x61 ≤ b ∧ b ≤ 0x66 then some (b - 0x57)
  else none

/-- One `%02hhx`: behind white space, a number of at most two characters that may have a sign. The
text "0x" starts a number and is none. -/
def scanByte (text : List UInt8) : Option (UInt8 × List UInt8) :=
  match text.dropWhile isSpace with
  | [] => none
  | first :: rest =>
    if first = 0x2B ∨ first = 0x2D then
      match rest with
      | [] => none
      | second :: rest =>
        (hexDigit second).map fun digit => (if first = 0x2D then -digit else digit, rest)
    else
      (hexDigit first).bind fun high =>
        match rest with
        | [] => some (high, [])
        | second :: behind =>
          if first = 0x30 ∧ (second = 0x78 ∨ second = 0x58) then none
          else
            match hexDigit second with
            | some low => some (high * 16 + low, behind)
            | none => some (high, rest)

/-- Behind the first failure nothing is stored. -/
def sscanf : List UInt8 → List UInt8 → List UInt8
  | [], _ => []
  | byte :: memory, text =>
    match scanByte text with
    | some (value, rest) => value :: sscanf memory rest
    | none => byte :: memory

theorem sscanf_length (memory text : List UInt8) : (sscanf memory text).length = memory.length := by
  induction memory generalizing text with
  | nil => rfl
  | cons byte memory ih =>
    rw [sscanf]
    split
    · rw [List.length_cons, ih, List.length_cons]
    · rfl

theorem sscanf_size {n : ℕ} (memory : Vector UInt8 n) (text : List UInt8) :
    (sscanf memory.toList text).toArray.size = n := by
  rw [List.size_toArray, sscanf_length, Vector.length_toList]

def scanned {n : ℕ} (memory : Vector UInt8 n) (text : String) : Vector UInt8 n :=
  ⟨(sscanf memory.toList (bytesOf text)).toArray, sscanf_size memory (bytesOf text)⟩

theorem scanned_toList {n : ℕ} (memory : Vector UInt8 n) (text : String) :
    (scanned memory text).toList = sscanf memory.toList (bytesOf text) := rfl

structure AcqMemory where
  oad : Vector UInt8 4
  addr : Vector UInt8 6

def builtRequest (memory : AcqMemory) (b : Buffer) (packet : Option (Vector UInt8 512))
    (model : Dlt698ModelInfo) : Option DataRequest :=
  match dlt698PacketBuild b packet (some (scanned memory.oad model.acqFile.oad))
    (some (scanned memory.addr model.acqFile.addr)) with
  | some (some packet, _) => some ⟨packet.data.toList, packet.length⟩
  | _ => none

def HexText (count : ℕ) (text : List UInt8) : Prop :=
  text.length = count ∧ ∀ b ∈ text, (hexDigit b).isSome

def hexBytes : List UInt8 → Option (List UInt8)
  | [] => some []
  | [_] => none
  | first :: second :: text => do
    let high ← hexDigit first
    let low ← hexDigit second
    return (high * 16 + low) :: (← hexBytes text)

def acqText (jsonObject : Option JsonObject) (name : String) : Option String :=
  jsonObjectDotgetString (jsonObjectDotgetObject jsonObject "AcqFile") name

/-- The object is carried in the order of the text, the address in reverse order. -/
structure Carries (request : DataRequest) (oad addr : String) : Prop where
  oad : hexBytes (bytesOf oad) =
    some (((request.data.take request.length.toNat).drop DLT698_OAD_LOC).take 4)
  addr : hexBytes (bytesOf addr) =
    some (((request.data.take request.length.toNat).drop (DLT698_SA_LOC + 1)).take 6).reverse

structure Exact (oad addr : String) : Prop where
  oad : HexText 8 (bytesOf oad)
  addr : HexText 12 (bytesOf addr)

def TextsExact (jsonObject : Option JsonObject) : Prop :=
  ∃ oad addr, acqText jsonObject "oad" = some oad ∧ acqText jsonObject "addr" = some addr ∧
    Exact oad addr

/-- Whatever the memory holds, an entry that is created from the model has such a request. -/
def Requests (model : Dlt698ModelInfo) (oad addr : String) : Prop :=
  ∀ memory b packet allocations info,
    dlt698DataCreate (builtRequest memory b packet model) (some model) allocations =
        .ok (some info) →
      ∃ request, info.dataRequest = some request ∧ Carries request oad addr

/-- A model is accepted for exact texts only, and the requests made from it carry their bytes. -/
def AsksAsConfigured (jsonObject : Option JsonObject) (allocated : Bool) : Prop :=
  ∀ model, parseDlt698ModelByJson jsonObject allocated = .ok (some model) →
    ∃ oad addr, acqText jsonObject "oad" = some oad ∧ acqText jsonObject "addr" = some addr ∧
      Exact oad addr ∧ Requests model oad addr

section
variable {first second : UInt8} {high low : UInt8}

theorem hexDigit_some (h : hexDigit first = some high) :
    isSpace first = false ∧ first ≠ 0x2B ∧ first ≠ 0x2D ∧ first ≠ 0x78 ∧ first ≠ 0x58 := by
  have hrange : 0x30 ≤ first ∧ first ≤ 0x39 ∨ 0x41 ≤ first ∧ first ≤ 0x46 ∨
      0x61 ≤ first ∧ first ≤ 0x66 := by
    unfold hexDigit at h
    split_ifs at h with hdecimal hupper hlower
    · exact Or.inl hdecimal
    · exact Or.inr (Or.inl hupper)
    · exact Or.inr (Or.inr hlower)
  simp only [UInt8.le_iff_toNat_le, UInt8.reduceToNat] at hrange
  simp only [isSpace, Bool.or_eq_false_iff, Bool.and_eq_false_iff, beq_eq_false_iff_ne, ne_eq,
    decide_eq_false_iff_not, UInt8.le_iff_toNat_le, ← UInt8.toNat_inj, UInt8.reduceToNat]
  omega

theorem scanByte_pair (hfirst : hexDigit first = some high) (hsecond : hexDigit second = some low)
    (text : List UInt8) :
    scanByte (first :: second :: text) = some (high * 16 + low, text) := by
  obtain ⟨hspace, hplus, hminus, -, -⟩ := hexDigit_some hfirst
  obtain ⟨-, -, -, hlower, hupper⟩ := hexDigit_some hsecond
  rw [scanByte, List.dropWhile_cons_of_neg (by rw [hspace]; exact Bool.false_ne_true)]
  simp only [hplus, hminus, or_self, if_false, hfirst, Option.bind_some, hlower, hupper, and_false,
    hsecond]

end

theorem sscanf_of_hexBytes {memory text bytes : List UInt8} (h : hexBytes text = some bytes)
    (hlength : memory.length = bytes.length) : sscanf memory text = bytes := by
  induction memory generalizing text bytes with
  | nil => exact (List.length_eq_zero_iff.mp hlength.symm).symm
  | cons byte memory ih =>
    cases text using hexBytes.fun_cases with
    | case1 =>
      cases h
      exact absurd hlength (Nat.succ_ne_zero _)
    | case2 => cases h
    | case3 first second text =>
      obtain ⟨high, hhigh, h⟩ := Option.bind_eq_some_iff.mp h
      obtain ⟨low, hlow, h⟩ := Option.bind_eq_some_iff.mp h
      obtain ⟨rest, hrest, h⟩ := Option.bind_eq_some_iff.mp h
      cases h
      rw [sscanf, scanByte_pair hhigh hlow]
      exact congrArg _ (ih hrest (Nat.succ.inj hlength))

theorem sscanf_of_none {memory text : List UInt8} (h : scanByte text = none) :
    sscanf memory text = memory := by
  cases memory with
  | nil => rfl
  | cons byte memory => rw [sscanf, h]

theorem hexBytes_of_hexText {count : ℕ} {text : List UInt8} (h : HexText (2 * count) text) :
    ∃ bytes, hexBytes text = some bytes ∧ bytes.length = count := by
  obtain ⟨hlength, hdigits⟩ := h
  induction count generalizing text with
  | zero =>
    obtain rfl := List.length_eq_zero_iff.mp hlength
    exact ⟨[], rfl, rfl⟩
  | succ count ih =>
    cases text using hexBytes.fun_cases with
    | case1 => cases hlength
    | case2 => cases hlength
    | case3 first second text =>
      obtain ⟨hfirst, hdigits⟩ := List.forall_mem_cons.mp hdigits
      obtain ⟨hsecond, hdigits⟩ := List.forall_mem_cons.mp hdigits
      obtain ⟨high, hhigh⟩ := Option.isSome_iff_exists.mp hfirst
      obtain ⟨low, hlow⟩ := Option.isSome_iff_exists.mp hsecond
      have hlength : text.length + 2 = 2 * count + 2 := hlength
      obtain ⟨bytes, hbytes, rfl⟩ := ih (Nat.add_right_cancel hlength) hdigits
      refine ⟨(high * 16 + low) :: bytes, ?_, rfl⟩
      rw [hexBytes, hhigh, hlow, hbytes]
      rfl

theorem scanned_of_hexText {n : ℕ} (memory : Vector UInt8 n) {text : String}
    (h : HexText (2 * n) (bytesOf text)) :
    hexBytes (bytesOf text) = some (scanned memory text).toList := by
  obtain ⟨bytes, hbytes, hlength⟩ := hexBytes_of_hexText h
  rw [scanned_toList, hbytes, sscanf_of_hexBytes hbytes]
  rw [Vector.length_toList, hlength]

theorem requestFrame_fields (oad : Vector UInt8 4) (sa : Vector UInt8 6) :
    ((requestFrame oad sa).bytes.drop DLT698_OAD_LOC).take 4 = oad.toList ∧
      ((requestFrame oad sa).bytes.drop (DLT698_SA_LOC + 1)).take 6 = sa.toList.reverse := by
  have hapdu := (requestFrame oad sa).bytes_apdu
  have haddr := (requestFrame oad sa).bytes_addr
  rw [Frame.apduPos, requestFrame_addrLen, requestFrame_apdu_length] at hapdu
  rw [Frame.addrPos, requestFrame_addrLen] at haddr
  constructor
  · calc ((requestFrame oad sa).bytes.drop 21).take 4
        = ((((requestFrame oad sa).bytes.drop 18).take 8).drop 3).take 4 := by
          rw [List.drop_take, List.take_take, List.drop_drop]
          rfl
      _ = ((requestFrame oad sa).apdu.drop 3).take 4 := congrArg (fun l => (l.drop 3).take 4) hapdu
      _ = (oad.toList ++ [DLT698_TIME_LABER]).take 4 := rfl
      _ = oad.toList := List.take_left' oad.length_toList
  · rw [← Vector.toList_reverse]
    exact haddr

theorem builtRequest_some {memory : AcqMemory} {b : Buffer} {packet : Option (Vector UInt8 512)}
    {model : Dlt698ModelInfo} {request : DataRequest}
    (h : builtRequest memory b packet model = some request) :
    request.data.take request.length.toNat =
      (requestFrame (scanned memory.oad model.acqFile.oad)
        (scanned memory.addr model.acqFile.addr)).bytes := by
  unfold builtRequest at h
  split at h
  next built b' hbuild =>
    cases h
    cases packet with
    | none => cases hbuild
    | some data => exact dlt698PacketBuild_bytes hbuild
  · cases h

theorem dlt698DataCreate_request {packet : Option DataRequest} {model : Dlt698ModelInfo}
    {allocations : Allocations Dlt698ModelInfo} {info : PmDataInfo Dlt698ModelInfo}
    (h : dlt698DataCreate packet (some model) allocations = .ok (some info)) :
    ∃ request, packet = some request ∧ info.dataRequest = some request := by
  obtain ⟨request, hbuilt, hrequest⟩ := dataCreate_request h
  cases packet with
  | none => cases hbuilt
  | some packet =>
    cases hbuilt
    exact ⟨_, rfl, hrequest⟩

theorem created_fields {memory : AcqMemory} {b : Buffer} {packet : Option (Vector UInt8 512)}
    {model : Dlt698ModelInfo} {allocations : Allocations Dlt698ModelInfo}
    {info : PmDataInfo Dlt698ModelInfo}
    (h : dlt698DataCreate (builtRequest memory b packet model) (some model) allocations =
      .ok (some info)) :
    ∃ request, info.dataRequest = some request ∧
      ((request.data.take request.length.toNat).drop DLT698_OAD_LOC).take 4 =
        (scanned memory.oad model.acqFile.oad).toList ∧
      ((request.data.take request.length.toNat).drop (DLT698_SA_LOC + 1)).take 6 =
        (scanned memory.addr model.acqFile.addr).toList.reverse := by
  obtain ⟨request, hbuilt, hrequest⟩ := dlt698DataCreate_request h
  refine ⟨request, hrequest, ?_⟩
  rw [builtRequest_some hbuilt]
  exact requestFrame_fields _ _

theorem requests_of_exact {model : Dlt698ModelInfo}
    (h : Exact model.acqFile.oad model.acqFile.addr) :
    Requests model model.acqFile.oad model.acqFile.addr := by
  intro memory b packet allocations info hcreate
  obtain ⟨request, hrequest, hoad, haddr⟩ := created_fields hcreate
  refine ⟨request, hrequest, ?_, ?_⟩
  · rw [hoad]
    exact scanned_of_hexText memory.oad h.oad
  · rw [haddr, List.reverse_reverse]
    exact scanned_of_hexText memory.addr h.addr

section
variable {jsonObject : Option JsonObject} {allocated : Bool}

theorem parseAcqFile_texts {acqFile : Option JsonObject} {tag : AcqfileTag}
    (h : parseAcqFile acqFile = .ok (some tag)) :
    jsonObjectDotgetString acqFile "oad" = some tag.oad ∧
      jsonObjectDotgetString acqFile "addr" = some tag.addr := by
  cases acqFile with
  | none => cases h
  | some members =>
    obtain ⟨m, -, h⟩ := bind_eq_ok h
    obtain ⟨math, -, h⟩ := bind_eq_ok h
    have h := Except.ok.inj h
    obtain ⟨oad, hoad, h⟩ := Option.bind_eq_some_iff.mp h
    obtain ⟨addr, haddr, h⟩ := Option.bind_eq_some_iff.mp h
    obtain ⟨_, _, h⟩ := Option.bind_eq_some_iff.mp h
    obtain ⟨_, _, h⟩ := Option.bind_eq_some_iff.mp h
    cases h
    exact ⟨hoad, haddr⟩

theorem parseDlt698_texts {model : Dlt698ModelInfo}
    (h : parseDlt698ModelByJson jsonObject allocated = .ok (some model)) :
    acqText jsonObject "oad" = some model.acqFile.oad ∧
      acqText jsonObject "addr" = some model.acqFile.addr := by
  obtain ⟨_, _, _, _, _, acqFile, -, -, hfile, rfl⟩ := parseDlt698ModelByJson_ok h
  exact parseAcqFile_texts hfile

end

/-- The requests of a document are as configured if and only if the parser would refuse it for a
missing member anyway or both texts are exact. -/
theorem asksAsConfigured_iff (jsonObject : Option JsonObject) (allocated : Bool) :
    AsksAsConfigured jsonObject allocated ↔
      (jsonObject.isSome ∧ allocated ∧ Dlt698Complete jsonObject → TextsExact jsonObject) := by
  rw [← (parseDlt698ModelByJson_spec jsonObject allocated).accepts_iff]
  constructor
  · rintro hasks ⟨model, hmodel⟩
    obtain ⟨oad, addr, hoad, haddr, hexact, -⟩ := hasks model hmodel
    exact ⟨oad, addr, hoad, haddr, hexact⟩
  · intro htexts model hmodel
    obtain ⟨hoad, haddr⟩ := parseDlt698_texts hmodel
    obtain ⟨oad, addr, hoad', haddr', hexact⟩ := htexts ⟨model, hmodel⟩
    obtain rfl : oad = model.acqFile.oad := Option.some.inj (hoad'.symm.trans hoad)
    obtain rfl : addr = model.acqFile.addr := Option.some.inj (haddr'.symm.trans haddr)
    exact ⟨_, _, hoad, haddr, hexact, requests_of_exact hexact⟩

def oadDocument (oad : String) : JsonObject :=
  [("acqMode", .string "realtime"), ("DBTopic", .string "rspData/energy"), ("acqInt", .number 60),
    ("startTime", .object []), ("endTime", .object []),
    ("AcqFile", .object [("oad", .string oad), ("addr", .string "001911270001"),
      ("m", .string "PapE"), ("math", .string "-2")])]

/-- The text "zz" has no digits, and the request asks for what was in the memory. -/
theorem oadDocument_asksForMemory :
    (∃ model, parseDlt698ModelByJson (some (oadDocument "zz")) true = .ok (some model) ∧
      ∀ memory b packet allocations info,
        dlt698DataCreate (builtRequest memory b packet model) (some model) allocations =
            .ok (some info) →
          ∃ request, info.dataRequest = some request ∧
            ((request.data.take request.length.toNat).drop DLT698_OAD_LOC).take 4 =
              memory.oad.toList) ∧
      ¬ AsksAsConfigured (some (oadDocument "zz")) true := by
  constructor
  · refine ⟨_, rfl, fun memory b packet allocations info hcreate => ?_⟩
    obtain ⟨request, hrequest, hoad, -⟩ := created_fields hcreate
    refine ⟨request, hrequest, hoad.trans ?_⟩
    rw [scanned_toList]
    exact sscanf_of_none (by decide)
  · intro hasks
    obtain ⟨oad, addr, hoad, -, hexact, -⟩ := hasks _ rfl
    obtain rfl := Option.some.inj hoad
    exact absurd hexact.oad.1 (by decide)

end IotEdgeAgent.Configuration.RequestTexts
