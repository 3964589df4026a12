import Mathlib.Data.Int.Notation
import Mathlib.Data.Nat.Notation
import Mathlib.Data.List.Basic

/-!
# The receive side of the serial port

The second half of `serialio_dowork` reads into `recv_bytes` as long as there is something to read
and room is left, and hands the bytes to the callback. Each `read` may return as many bytes as the
whole array holds, whatever room is left. Bytes that do not fit are stored behind the array, so the
memory from `recv_bytes` on grows in the model where the source writes past it.
-/

namespace IotEdgeAgent.Serial.Receive

def MAX_RECEIVE_BYTES : ℕ := 256

/-- The bytes that `read` stores, none at the end of the file, or −1 with the `errno`. -/
inductive ReadResult
  | read (data : List UInt8)
  | again
  | failed
  deriving DecidableEq, Repr

inductive SelectResult
  | failed
  | timedOut
  | ready
  deriving DecidableEq, Repr

structure SerialIoInstance (κ : Type*) where
  onBytesReceived : Option κ
  onIoError : Option κ
  recvBytes : List UInt8
  deriving DecidableEq, Repr

inductive ReceiveEvent (κ : Type*)
  | bytesReceived (onBytesReceived : κ) (bytes : List UInt8)
  | ioError (onIoError : κ)
  deriving DecidableEq, Repr

structure Receiving where
  recvBytes : List UInt8
  tempBuf : ℕ
  left : ℤ
  received : ℕ
  deriving DecidableEq, Repr

def Receiving.store (r : Receiving) (data : List UInt8) : Receiving where
  recvBytes := r.recvBytes.take r.tempBuf ++ data ++ r.recvBytes.drop (r.tempBuf + data.length)
  tempBuf := r.tempBuf + data.length
  left := r.left - data.length
  received := r.received + data.length

/-- The loop, with the results of `read` in order, and whether it was left with an error. There is
no result for a list that is longer or shorter than the loop runs. The state of the port is not
tested, since nothing in the loop changes it. -/
def readLoop : Receiving → List ReadResult → Option (Receiving × Bool)
  | _, [] => none
  | r, .again :: reads => if reads = [] then some (r, false) else none
  | r, .failed :: reads => if reads = [] then some (r, true) else none
  | r, .read data :: reads =>
    if data ≠ [] ∧ 0 < (r.store data).left then readLoop (r.store data) reads
    else if reads = [] then some (r.store data, false) else none

variable {κ : Type*}

def indicateError (io : SerialIoInstance κ) : List (ReceiveEvent κ) :=
  io.onIoError.toList.map .ioError

structure Outcome (κ : Type*) where
  io : SerialIoInstance κ
  stored : ℕ
  events : List (ReceiveEvent κ)
  deriving DecidableEq, Repr

def serialioReceive (io : SerialIoInstance κ) : SelectResult → List ReadResult →
    Option (Outcome κ)
  | .failed, [] => some ⟨io, 0, indicateError io⟩
  | .timedOut, [] => some ⟨io, 0, []⟩
  | .ready, reads => (readLoop ⟨io.recvBytes, 0, MAX_RECEIVE_BYTES, 0⟩ reads).map fun (r, failed) =>
    ⟨{ io with recvBytes := r.recvBytes }, r.tempBuf,
      (if failed then indicateError io else []) ++
        if r.received ≠ 0 then
          io.onBytesReceived.toList.map (.bytesReceived · (r.recvBytes.take r.received))
        else []⟩
  | _, _ :: _ => none

def ReadResult.bytes : ReadResult → List UInt8
  | .read data => data
  | _ => []

def bytesRead (reads : List ReadResult) : List UInt8 := reads.flatMap ReadResult.bytes

def ReceiveEvent.handed : ReceiveEvent κ → Option (κ × List UInt8)
  | .bytesReceived callback bytes => some (callback, bytes)
  | .ioError _ => none

/-- All that was read fits into the array, and it is handed over in one call. -/
structure Bounded (io : SerialIoInstance κ) (reads : List ReadResult) (outcome : Outcome κ) :
    Prop where
  stored : outcome.stored ≤ MAX_RECEIVE_BYTES
  handed : outcome.events.filterMap ReceiveEvent.handed =
    if bytesRead reads = [] then [] else io.onBytesReceived.toList.map (·, bytesRead reads)

/-- No read returns more bytes than the reads before it have left room for. -/
def RoomLeft (reads : List ReadResult) : Prop :=
  ∀ before result after, reads = before ++ result :: after →
    (bytesRead before).length + result.bytes.length ≤ MAX_RECEIVE_BYTES

structure Receiving.Holds (r : Receiving) (bytes : List UInt8) : Prop where
  tempBuf : r.tempBuf = bytes.length
  received : r.received = bytes.length
  left : r.left = MAX_RECEIVE_BYTES - bytes.length
  recvBytes : r.recvBytes.take bytes.length = bytes

section
variable {r t : Receiving} {bytes : List UInt8} {reads : List ReadResult} {failed : Bool}

theorem Receiving.Holds.store (h : r.Holds bytes) (data : List UInt8) :
    (r.store data).Holds (bytes ++ data) := by
  have htake : r.recvBytes.take r.tempBuf = bytes := by
    rw [h.tempBuf]
    exact h.recvBytes
  refine ⟨?_, ?_, ?_, ?_⟩
  · rw [Receiving.store, h.tempBuf, List.length_append]
  · rw [Receiving.store, h.received, List.length_append]
  · have hleft : (r.store data).left = r.left - data.length := rfl
    rw [hleft, h.left, List.length_append]
    omega
  · rw [Receiving.store, htake, List.take_left']
    rfl

theorem Receiving.Holds.readLoop (h : r.Holds bytes)
    (hloop : Receive.readLoop r reads = some (t, failed)) : t.Holds (bytes ++ bytesRead reads) := by
  induction reads generalizing r bytes with
  | nil => cases hloop
  | cons result reads ih =>
    cases result with
    | again =>
      obtain ⟨rfl, hleft⟩ := Option.ite_none_right_eq_some.mp hloop
      cases hleft
      exact (List.append_nil bytes).symm ▸ h
    | failed =>
      obtain ⟨rfl, hleft⟩ := Option.ite_none_right_eq_some.mp hloop
      cases hleft
      exact (List.append_nil bytes).symm ▸ h
    | read data =>
      have hassoc :
          bytes ++ bytesRead (.read data :: reads) = bytes ++ data ++ bytesRead reads := by
        rw [List.append_assoc]
        rfl
      rw [Receive.readLoop] at hloop
      rw [hassoc]
      split_ifs at hloop with hgoes hlast
      · exact ih (h.store data) hloop
      · cases hloop
        rw [hlast]
        exact (List.append_nil (bytes ++ data)).symm ▸ h.store data

theorem exists_readLoop (reads : List ReadResult) (hleft : r.left.toNat < reads.length) :
    ∃ n, (readLoop r (reads.take n)).isSome = true := by
  induction reads generalizing r with
  | nil => exact absurd hleft (Nat.not_lt_zero _)
  | cons result reads ih =>
    cases result with
    | again => exact ⟨1, rfl⟩
    | failed => exact ⟨1, rfl⟩
    | read data =>
      by_cases hgoes : data ≠ [] ∧ 0 < (r.store data).left
      · have hpos := List.length_pos_iff.mpr hgoes.1
        have hless : (r.store data).left = r.left - data.length := rfl
        have hrest : (r.store data).left.toNat < reads.length := by
          rw [List.length_cons] at hleft
          omega
        obtain ⟨n, hn⟩ := ih hrest
        exact ⟨n + 1, by rwa [List.take_succ_cons, readLoop, if_pos hgoes]⟩
      · exact ⟨1, by simp [readLoop, hgoes]⟩

end

theorem bytesRead_append (before after : List ReadResult) :
    bytesRead (before ++ after) = bytesRead before ++ bytesRead after :=
  List.flatMap_append

theorem roomLeft_iff (reads : List ReadResult) :
    RoomLeft reads ↔ (bytesRead reads).length ≤ MAX_RECEIVE_BYTES := by
  constructor
  · intro h
    rcases List.eq_nil_or_concat reads with rfl | ⟨before, result, rfl⟩
    · exact Nat.zero_le _
    · rw [List.concat_eq_append, bytesRead_append, List.length_append]
      have hone : bytesRead [result] = result.bytes := List.append_nil _
      rw [hone]
      exact h before result [] List.concat_eq_append
  · intro h before result after hreads
    rw [hreads, bytesRead_append, List.length_append] at h
    have hcons : bytesRead (result :: after) = result.bytes ++ bytesRead after := rfl
    rw [hcons, List.length_append] at h
    omega

section
variable {io : SerialIoInstance κ} {reads : List ReadResult} {outcome : Outcome κ}

theorem handed_indicateError (io : SerialIoInstance κ) :
    (indicateError io).filterMap ReceiveEvent.handed = [] := by
  rw [indicateError]
  cases io.onIoError <;> rfl

theorem serialioReceive_ready (h : serialioReceive io .ready reads = some outcome) :
    outcome.stored = (bytesRead reads).length ∧
      outcome.events.filterMap ReceiveEvent.handed =
        if bytesRead reads = [] then []
        else io.onBytesReceived.toList.map (·, bytesRead reads) := by
  obtain ⟨⟨r, failed⟩, hloop, rfl⟩ := Option.map_eq_some_iff.mp h
  have hstart : Receiving.Holds ⟨io.recvBytes, 0, MAX_RECEIVE_BYTES, 0⟩ [] :=
    ⟨rfl, rfl, rfl, rfl⟩
  have hholds := hstart.readLoop hloop
  rw [List.nil_append] at hholds
  refine ⟨hholds.tempBuf, ?_⟩
  have herror : (if failed then indicateError io else []).filterMap ReceiveEvent.handed = [] := by
    split_ifs
    · exact handed_indicateError io
    · rfl
  rw [List.filterMap_append, herror, List.nil_append, hholds.received, hholds.recvBytes]
  by_cases hnone : bytesRead reads = []
  · rw [hnone, if_pos rfl]
    rfl
  · rw [if_neg hnone, if_pos (fun h => hnone (List.length_eq_zero_iff.mp h))]
    cases io.onBytesReceived <;> rfl

/-- The bytes handed over are always those that were read. They were all stored in the array if
each read returned no more than there was room for, and only then. Every call returns. -/
theorem bounded_iff_roomLeft (io : SerialIoInstance κ) (reads : List ReadResult) :
    (∀ outcome, serialioReceive io .ready reads = some outcome →
      (Bounded io reads outcome ↔ RoomLeft reads)) ∧
    (MAX_RECEIVE_BYTES < reads.length →
      ∃ n, (serialioReceive io .ready (reads.take n)).isSome = true) := by
  constructor
  · intro outcome h
    obtain ⟨hstored, hhanded⟩ := serialioReceive_ready h
    rw [roomLeft_iff, ← hstored]
    exact ⟨fun hbounded => hbounded.stored, fun hle => ⟨hle, hhanded⟩⟩
  · intro hmany
    obtain ⟨n, hloop⟩ := @exists_readLoop ⟨io.recvBytes, 0, MAX_RECEIVE_BYTES, 0⟩ reads hmany
    exact ⟨n, Option.isSome_map.trans hloop⟩

end

def listening : SerialIoInstance Unit := ⟨some (), none, List.replicate MAX_RECEIVE_BYTES 0⟩

theorem bounded_of_two_reads :
    ∃ outcome, serialioReceive listening .ready [.read [0x68, 0x16], .again] = some outcome ∧
      (Bounded listening [.read [0x68, 0x16], .again] outcome ↔
        RoomLeft [.read [0x68, 0x16], .again]) := by
  obtain ⟨outcome, h⟩ :
      ∃ outcome, serialioReceive listening .ready [.read [0x68, 0x16], .again] = some outcome :=
    ⟨_, rfl⟩
  exact ⟨outcome, h, (bounded_iff_roomLeft listening _).1 outcome h⟩

def overfull : List ReadResult := [.read (List.replicate 255 0x68), .read [0x16, 0x16]]

theorem stored_behind_recvBytes :
    (∀ result ∈ overfull, result.bytes.length ≤ MAX_RECEIVE_BYTES) ∧
      ∃ outcome, serialioReceive listening .ready overfull = some outcome ∧
        outcome.stored = 257 ∧ ¬ Bounded listening overfull outcome := by
  have hlength : (bytesRead overfull).length = 257 := by
    simp [-List.reduceReplicate, bytesRead, overfull, ReadResult.bytes]
  obtain ⟨outcome, h⟩ : ∃ outcome, serialioReceive listening .ready overfull = some outcome :=
    Option.isSome_iff_exists.mp (by
      simp [-List.reduceReplicate, serialioReceive, overfull, readLoop, Receiving.store,
        MAX_RECEIVE_BYTES])
  have hstored : outcome.stored = 257 := (serialioReceive_ready h).1.trans hlength
  refine ⟨?_, outcome, h, hstored, ?_⟩
  · simp [-List.reduceReplicate, overfull, ReadResult.bytes, MAX_RECEIVE_BYTES]
  · intro hbounded
    exact absurd (hstored ▸ hbounded.stored) (by decide)

end IotEdgeAgent.Serial.Receive
