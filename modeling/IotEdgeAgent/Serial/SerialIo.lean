import Mathlib.Data.Nat.Notation

/-!
# The transmit side of the serial port

`serialio_send` writes to the descriptor at once when nothing is pending and queues what is
left; `serialio_dowork` writes what is pending. The answers of `write` and of the allocator are
given to each call, and what happens on the descriptor and through the callbacks is returned as
events. A callback together with its context is a parameter `κ`. The receiving half of
`serialio_dowork` neither reads nor changes anything of this.
-/

namespace IotEdgeAgent.Serial

inductive IoState
  | stateClosed
  | stateOpening
  | stateOpen
  | stateClosing
  | stateError
  deriving DecidableEq, Repr

/-- What `write` returns: the number of bytes that it took, or −1 with the `errno`. -/
inductive WriteResult
  | wrote (count : ℕ)
  | again
  | failed
  deriving DecidableEq, Repr

structure PendingSerialIo (κ : Type*) where
  bytes : List UInt8
  onSendComplete : Option κ
  deriving DecidableEq, Repr

structure SerialIoInstance (κ : Type*) where
  ioState : IoState
  pendingIoList : List (PendingSerialIo κ)

inductive PortEvent (κ : Type*)
  | accepted (bytes : List UInt8)
  | sendComplete (onSendComplete : κ)

variable {κ : Type*}

def addPendingIo (io : SerialIoInstance κ) (buffer : List UInt8) (onSendComplete : Option κ)
    (allocated : Bool) : SerialIoInstance κ × Bool :=
  if allocated then
    ({ io with pendingIoList := io.pendingIoList ++ [⟨buffer, onSendComplete⟩] }, true)
  else (io, false)

structure Sent (κ : Type*) where
  io : SerialIoInstance κ
  result : Bool
  events : List (PortEvent κ)

def completion (onSendComplete : Option κ) : List (PortEvent κ) :=
  onSendComplete.toList.map .sendComplete

def serialioSend (io : SerialIoInstance κ) (buffer : Option (List UInt8))
    (onSendComplete : Option κ) (write : WriteResult) (allocated : Bool) : Sent κ :=
  match buffer with
  | none => ⟨io, false, []⟩
  | some buffer =>
    if buffer.length = 0 then ⟨io, false, []⟩
    else if io.ioState ≠ .stateOpen then ⟨io, false, []⟩
    else if io.pendingIoList ≠ [] then
      let added := addPendingIo io buffer onSendComplete allocated
      ⟨added.1, added.2, []⟩
    else
      match write with
      -- "come back later": the call succeeds without keeping the buffer.
      | .again => ⟨io, true, []⟩
      | .failed => ⟨io, false, []⟩
      | .wrote count =>
        if buffer.length ≤ count then ⟨io, true, .accepted buffer :: completion onSendComplete⟩
        else
          let added := addPendingIo io (buffer.drop count) onSendComplete allocated
          ⟨added.1, added.2, [.accepted (buffer.take count)]⟩

/-- The `memmove` of the bytes that were not taken to the front. The size is not changed, so
the last bytes stay there a second time. -/
def PendingSerialIo.moveRest (pending : PendingSerialIo κ) (count : ℕ) : PendingSerialIo κ :=
  { pending with
    bytes := pending.bytes.drop count ++ pending.bytes.drop (pending.bytes.length - count) }

/-- The loop over the pending sends, with the answers of `write` in order. There is no result
when another answer is needed. Since `write` returns nothing below −1, the branch to
`IO_STATE_ERROR` is left out. -/
def sendPending : List WriteResult → List (PendingSerialIo κ) →
    Option (List (PendingSerialIo κ) × List (PortEvent κ))
  | _, [] => some ([], [])
  | [], _ :: _ => none
  | .again :: _, pending => some (pending, [])
  | .failed :: _, pending => some (pending, [])
  | .wrote count :: writes, first :: pending =>
    if first.bytes.length ≤ count then
      (sendPending writes pending).map fun (rest, events) =>
        (rest, .accepted first.bytes :: (completion first.onSendComplete ++ events))
    else
      (sendPending writes (first.moveRest count :: pending)).map fun (rest, events) =>
        (rest, .accepted (first.bytes.take count) :: events)

def serialioDowork (io : SerialIoInstance κ) (writes : List WriteResult) :
    Option (SerialIoInstance κ × List (PortEvent κ)) :=
  if io.ioState = .stateOpen then
    (sendPending writes io.pendingIoList).map fun (pending, events) =>
      ({ io with pendingIoList := pending }, events)
  else some (io, [])

end IotEdgeAgent.Serial
