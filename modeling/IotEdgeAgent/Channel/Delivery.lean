import IotEdgeAgent.Channel.RequestThread
import IotEdgeAgent.Dlt698.Payload

/-!
# Responses that arrive in pieces

The transport hands the bytes of a response to `on_io_bytes_received` in one or more
calls. A call parses its own bytes as one complete response. Nothing of a call is kept
for the next, so an answer is published as it would be in one call only if it comes in
one piece.
-/

namespace IotEdgeAgent.Channel.Delivery
open Protocol Dlt698.Response Dlt698.Payload

variable {μ : Type}

/-- The bytes of one call, the memory that lies behind them in the receive buffer, and the time
of the call. -/
structure Piece where
  bytes : List UInt8
  behind : List UInt8
  now : String

section
variable (parse : String → ResponseParse μ)

def receivePiece (map : PmChannelMap μ) (piece : Piece) :
    Except Undefined (PmChannelMap μ × Option DataPayload) :=
  onIoBytesReceived (parse piece.now) map (piece.bytes ++ piece.behind) piece.bytes.length

def alone (map : PmChannelMap μ) (piece : Piece) : Except Undefined (Option DataPayload) :=
  (receivePiece parse map piece).map Prod.snd

/-- What consecutive calls publish, up to the first without a defined result. -/
def deliver : PmChannelMap μ → List Piece → List (Except Undefined (Option DataPayload))
  | _, [] => []
  | map, piece :: pieces =>
    match receivePiece parse map piece with
    | .error e => [.error e]
    | .ok (map', payload) => .ok payload :: deliver map' pieces

end

def untilError {ε α : Type} : List (Except ε α) → List (Except ε α)
  | [] => []
  | .error e :: _ => [.error e]
  | .ok a :: rest => .ok a :: untilError rest

def payloadOf : Except Undefined (Option DataPayload) → Option DataPayload
  | .ok payload => payload
  | .error _ => none

def published (results : List (Except Undefined (Option DataPayload))) : List DataPayload :=
  results.filterMap payloadOf

theorem published_ok (payload : Option DataPayload)
    (results : List (Except Undefined (Option DataPayload))) :
    published (.ok payload :: results) = payload.toList ++ published results := by
  cases payload <;> rfl

def Piece.received (piece : Piece) : Bool := piece.bytes ≠ []

section
variable {parse : String → ResponseParse μ} {map map' : PmChannelMap μ}

theorem alone_eq (piece : Piece) : alone parse map piece =
    if piece.received then
      match map.pmHandle with
      | none => .ok none
      | some pm => dataResponseParse (parse piece.now) pm
          ⟨piece.bytes ++ piece.behind, UInt8.ofNat piece.bytes.length⟩
    else .ok none := by
  rw [alone, receivePiece, onIoBytesReceived]
  by_cases hempty : piece.bytes = []
  · simp [hempty, Piece.received, Except.map]
  · cases hpm : map.pmHandle with
    | none => simp [hempty, Piece.received, Except.map]
    | some pm =>
      cases hparse : dataResponseParse (parse piece.now) pm
          ⟨piece.bytes ++ piece.behind, UInt8.ofNat piece.bytes.length⟩ <;>
        simp [hempty, hparse, Piece.received, Except.map]

theorem deliver_eq (pieces : List Piece) :
    deliver parse map pieces = untilError (pieces.map (alone parse map)) := by
  induction pieces generalizing map with
  | nil => rfl
  | cons piece pieces ih =>
    rw [deliver, List.map_cons, alone]
    cases hcall : receivePiece parse map piece with
    | error e => rfl
    | ok result =>
      obtain ⟨map', payload⟩ := result
      have hpm : map'.pmHandle = map.pmHandle := onIoBytesReceived_pmHandle hcall
      have hrest : pieces.map (alone parse map') = pieces.map (alone parse map) := by
        apply List.map_congr_left
        intro other _
        rw [alone_eq, alone_eq, hpm]
      simp only [ih, hrest]
      rfl

theorem published_received (pieces : List Piece) :
    published (deliver parse map pieces) =
      published (deliver parse map (pieces.filter Piece.received)) := by
  rw [deliver_eq, deliver_eq]
  induction pieces with
  | nil => rfl
  | cons piece pieces ih =>
    by_cases hreceived : piece.received
    · rw [List.filter_cons_of_pos hreceived, List.map_cons, List.map_cons]
      cases alone parse map piece with
      | error e => rfl
      | ok payload => rw [untilError, untilError, published_ok, published_ok, ih]
    · have hnone : alone parse map piece = .ok none := by
        rw [alone_eq, if_neg hreceived]
      rw [List.filter_cons_of_neg hreceived, List.map_cons, hnone]
      exact ih

end

/-- For every parser: each call is parsed on its own, so the calls publish what the non-empty ones
publish, and a frame that comes in one of them is published as in one call. -/
theorem deliver_each_alone (parse : String → ResponseParse μ) (map : PmChannelMap μ)
    (pieces : List Piece) :
    deliver parse map pieces = untilError (pieces.map (alone parse map)) ∧
      (∀ piece, alone parse map piece =
        if piece.received then
          match map.pmHandle with
          | none => .ok none
          | some pm => dataResponseParse (parse piece.now) pm
              ⟨piece.bytes ++ piece.behind, UInt8.ofNat piece.bytes.length⟩
        else .ok none) ∧
      published (deliver parse map pieces) =
        published (deliver parse map (pieces.filter Piece.received)) ∧
      ∀ whole, pieces.filter Piece.received = [whole] →
        published (deliver parse map pieces) = published (deliver parse map [whole]) := by
  refine ⟨deliver_eq pieces, alone_eq, published_received pieces, fun whole hwhole => ?_⟩
  rw [published_received, hwhole]

theorem dlt698ResponseParse_ne_null {sprintf : ℤ → ℤ → String} {now : String}
    {model : Dlt698ModelInfo} {info : PmDataInfo Dlt698ModelInfo} {response : DataResponse}
    {result : Option DataPayload}
    (h : responseParse sprintf now model info response = .ok result) : result.isSome := by
  rw [responseParse, dlt698ResponseParse] at h
  split at h
  · cases h
  · split at h
    · cases h
    · cases h
      rfl

theorem published_length (sprintf : ℤ → ℤ → String) {map : PmChannelMap Dlt698ModelInfo}
    {pm : PmInstance Dlt698ModelInfo} (pieces : List Piece) (hpm : map.pmHandle = some pm)
    (hdefined : ∀ piece ∈ pieces, ∃ result, alone (responseParse sprintf) map piece = .ok result) :
    (published (deliver (responseParse sprintf) map pieces)).length =
      (pieces.filter Piece.received).length := by
  rw [deliver_eq]
  induction pieces with
  | nil => rfl
  | cons piece pieces ih =>
    rw [List.forall_mem_cons] at hdefined
    obtain ⟨⟨result, hresult⟩, hrest⟩ := hdefined
    rw [List.map_cons, hresult, untilError, published_ok, List.length_append, ih hrest]
    rw [alone_eq] at hresult
    by_cases hreceived : piece.received
    · rw [if_pos hreceived, hpm] at hresult
      have hsome : result.isSome := by
        obtain ⟨info, model, -, -, hparse⟩ := dataResponseParse_ok hresult
        exact dlt698ResponseParse_ne_null hparse
      obtain ⟨payload, rfl⟩ := Option.isSome_iff_exists.mp hsome
      rw [List.filter_cons_of_pos hreceived, List.length_cons, Option.toList_some,
        List.length_singleton, Nat.add_comm]
    · rw [if_neg hreceived] at hresult
      cases hresult
      rw [List.filter_cons_of_neg hreceived, Option.toList_none, List.length_nil, Nat.zero_add]

def waitingChannel : PmChannelMap Dlt698ModelInfo where
  pmHandle := some ⟨[⟨none, none, some energyModel⟩], some 0, some 0, some 0⟩
  taskStop := false
  taskLock := true
  timeOutCount := 0

def wholeAnswer : Piece := ⟨energyResponse, [], ""⟩
def firstHalf : Piece := ⟨energyResponse.take 30, List.replicate 34 0, ""⟩
def emptyCall : Piece := ⟨[], energyResponse, ""⟩
def secondHalf : Piece := ⟨energyResponse.drop 30, List.replicate 36 0, ""⟩

theorem waitingChannel_pmHandle : waitingChannel.pmHandle =
    some ⟨[⟨none, none, some energyModel⟩], some 0, some 0, some 0⟩ := rfl

theorem alone_defined {piece : Piece}
    (hanaly : (dlt698ResponseAnaly (piece.bytes ++ piece.behind) 0).1.isSome)
    (hvalues : (responseBody printFixed (piece.bytes ++ piece.behind) "PapE" (-2)
      (dlt698ResponseAnaly (piece.bytes ++ piece.behind) 0).2.stDataUnit "").isSome) :
    ∃ result, alone (responseParse printFixed) waitingChannel piece = .ok result := by
  rw [alone_eq]
  split_ifs with hreceived
  · have hhands := (dlt698ResponseParse_hands_on printFixed piece.now energyModel
      ⟨none, none, some energyModel⟩
      ⟨piece.bytes ++ piece.behind, UInt8.ofNat piece.bytes.length⟩).mpr
    obtain ⟨payload, hpayload⟩ :=
      hhands ⟨hanaly, (responseBody_isSome _ _ _ _ _ empty_fits).mp hvalues⟩
    exact ⟨some payload, hpayload⟩
  · exact ⟨none, rfl⟩

theorem deliver_each_alone_split :
    published (deliver (responseParse printFixed) waitingChannel
        [firstHalf, emptyCall, secondHalf]) =
      published (deliver (responseParse printFixed) waitingChannel [firstHalf, secondHalf]) ∧
    published (deliver (responseParse printFixed) waitingChannel [emptyCall, wholeAnswer]) =
      published (deliver (responseParse printFixed) waitingChannel [wholeAnswer]) :=
  ⟨(deliver_each_alone (responseParse printFixed) waitingChannel
      [firstHalf, emptyCall, secondHalf]).2.2.1,
    (deliver_each_alone (responseParse printFixed) waitingChannel
      [emptyCall, wholeAnswer]).2.2.2 wholeAnswer rfl⟩

theorem split_answer_published_twice :
    ¬ published (deliver (responseParse printFixed) waitingChannel [firstHalf, secondHalf]) =
      published (deliver (responseParse printFixed) waitingChannel [wholeAnswer]) := by
  have hfirst : ∃ result, alone (responseParse printFixed) waitingChannel firstHalf = .ok result :=
    alone_defined (by decide +kernel) (by decide +kernel)
  have hsecond : ∃ result,
      alone (responseParse printFixed) waitingChannel secondHalf = .ok result :=
    alone_defined (by decide +kernel) (by decide +kernel)
  have hwhole : ∃ result,
      alone (responseParse printFixed) waitingChannel wholeAnswer = .ok result :=
    alone_defined (by decide +kernel) (by decide +kernel)
  have htwo := published_length printFixed [firstHalf, secondHalf] waitingChannel_pmHandle
    (by simpa using ⟨hfirst, hsecond⟩)
  have hone := published_length printFixed [wholeAnswer] waitingChannel_pmHandle
    (by simpa using hwhole)
  intro h
  rw [h, hone] at htwo
  revert htwo
  decide

end IotEdgeAgent.Channel.Delivery
