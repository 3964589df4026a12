import IotEdgeAgent.Library.Custody
import IotEdgeAgent.Library.Runs
import IotEdgeAgent.Serial.Receive
import IotEdgeAgent.Serial.SerialIo

/-!
# The descriptor of a serial port

All functions of the port with the system calls that they make on its descriptor. The answers of
the system are given to each call. Every failure behind `open` closes the descriptor again; a
failure of `open` itself is not noticed before `isatty`, and then -1 is closed.
-/

namespace IotEdgeAgent.Serial.Descriptors
open Custody Runs
open Receive (ReadResult SelectResult serialioReceive)

variable {κ : Type*}

def INVALID_SERIAL_FD : ℤ := -1

inductive Syscall
  | opened (result : ℤ)
  | closed (serialFd : ℤ)
  | write (serialFd : ℤ)
  | read (serialFd : ℤ)
  | select (serialFd : ℤ)
  deriving DecidableEq, Repr

structure Port (κ : Type*) where
  serialFd : ℤ
  io : SerialIoInstance κ
  receiver : Receive.SerialIoInstance κ

/-- What the system answers to `serialio_open`. A descriptor that is -1 is no terminal. -/
structure OpenAnswers where
  fd : ℤ
  isatty : Bool
  fcntl : Bool
  cfsetspeed : Bool
  tcsetattr : Bool
  fd_ge : INVALID_SERIAL_FD ≤ fd
  noTerminal : fd = INVALID_SERIAL_FD → isatty = false

def serialioCreate (config allocated listCreated : Bool) (memory : List UInt8) :
    Option (Port κ) :=
  if config && allocated && listCreated then
    some ⟨INVALID_SERIAL_FD, ⟨.stateClosed, []⟩, ⟨none, none, memory⟩⟩
  else none

def Port.opened (port : Port κ) (onBytesReceived onIoError : Option κ) : Port κ :=
  { port with
    io := { port.io with ioState := .stateOpen }
    receiver := { port.receiver with
      onBytesReceived := onBytesReceived
      onIoError := onIoError } }

def serialioOpen (port : Port κ) (onBytesReceived onIoError : Option κ) (answers : OpenAnswers) :
    Port κ × List Syscall :=
  let refused := ({ port with serialFd := INVALID_SERIAL_FD },
    [Syscall.opened answers.fd, Syscall.closed answers.fd])
  if port.io.ioState ≠ .stateClosed then (port, [])
  else if port.serialFd ≠ INVALID_SERIAL_FD then (port.opened onBytesReceived onIoError, [])
  else if answers.fd < INVALID_SERIAL_FD then
    ({ port with serialFd := answers.fd }, [.opened answers.fd])
  else if !answers.isatty then refused
  else if !answers.fcntl then refused
  else if !answers.cfsetspeed then refused
  else if !answers.tcsetattr then refused
  else ({ port with serialFd := answers.fd }.opened onBytesReceived onIoError,
    [.opened answers.fd])

def serialioClose (port : Port κ) : Port κ × List Syscall :=
  if port.io.ioState ≠ .stateClosed ∧ port.io.ioState ≠ .stateClosing then
    ({ port with
      serialFd := INVALID_SERIAL_FD
      io := { port.io with ioState := .stateClosed } }, [.closed port.serialFd])
  else (port, [])

def serialioDestroy (port : Port κ) : List Syscall :=
  if port.serialFd ≠ INVALID_SERIAL_FD then [.closed port.serialFd] else []

def serialioSend (port : Port κ) (buffer : Option (List UInt8)) (onSendComplete : Option κ)
    (write : WriteResult) (allocated : Bool) : Port κ × List Syscall :=
  ({ port with io := (Serial.serialioSend port.io buffer onSendComplete write allocated).io },
    if buffer.getD [] ≠ [] ∧ port.io.ioState = .stateOpen ∧ port.io.pendingIoList = [] then
      [.write port.serialFd]
    else [])

/-- The loop over the pending sends, where `none` is a result of `write` below -1, with the state
that it leaves. -/
def pendingLoop (serialFd : ℤ) : List (Option WriteResult) → List (PendingSerialIo κ) →
    Option (SerialIoInstance κ × List Syscall)
  | _, [] => some (⟨.stateOpen, []⟩, [])
  | [], _ :: _ => none
  | none :: _, pending => some (⟨.stateError, pending⟩, [.write serialFd])
  | some .again :: _, pending => some (⟨.stateOpen, pending⟩, [.write serialFd])
  | some .failed :: _, pending => some (⟨.stateOpen, pending⟩, [.write serialFd])
  | some (.wrote count) :: writes, first :: pending =>
    (pendingLoop serialFd writes
      (if first.bytes.length ≤ count then pending else first.moveRest count :: pending)).map
      fun (io, log) => (io, .write serialFd :: log)

def serialioDowork (port : Port κ) (writes : List (Option WriteResult)) (select : SelectResult)
    (reads : List ReadResult) : Option (Port κ × List Syscall) :=
  if port.io.ioState = .stateOpen then
    (pendingLoop port.serialFd writes port.io.pendingIoList).bind fun (io, log) =>
      if io.ioState = .stateOpen then
        (serialioReceive port.receiver select reads).map fun outcome =>
          ({ port with io := io, receiver := outcome.io },
            log ++ .select port.serialFd :: reads.map fun _ => .read port.serialFd)
      else some ({ port with io := io }, log)
  else some (port, [])

inductive Call (κ : Type*)
  | create (config allocated listCreated : Bool) (memory : List UInt8)
  | openPort (onBytesReceived onIoError : Option κ) (answers : OpenAnswers)
  | close
  | send (buffer : Option (List UInt8)) (onSendComplete : Option κ) (write : WriteResult)
      (allocated : Bool)
  | dowork (writes : List (Option WriteResult)) (select : SelectResult) (reads : List ReadResult)
  | destroy

structure System (κ : Type*) where
  handle : Option (Port κ)
  log : List Syscall

/-- A call with a handle. Without one, all functions but the first return at once. -/
def step (s : System κ) (c : Call κ) (t : System κ) : Prop :=
  match c, s.handle with
  | .create config allocated listCreated memory, none =>
    t = { s with handle := serialioCreate config allocated listCreated memory }
  | .create .., some _ => False
  | _, none => t = s
  | .openPort onBytesReceived onIoError answers, some port =>
    let r := serialioOpen port onBytesReceived onIoError answers
    t = ⟨some r.1, s.log ++ r.2⟩
  | .close, some port => t = ⟨some (serialioClose port).1, s.log ++ (serialioClose port).2⟩
  | .send buffer onSendComplete write allocated, some port =>
    let r := serialioSend port buffer onSendComplete write allocated
    t = ⟨some r.1, s.log ++ r.2⟩
  | .dowork writes select reads, some port =>
    ∃ r, serialioDowork port writes select reads = some r ∧ t = ⟨some r.1, s.log ++ r.2⟩
  | .destroy, some port => t = ⟨none, s.log ++ serialioDestroy port⟩

def start : System κ := ⟨none, []⟩

def Syscall.use : Syscall → Option (Use ℤ)
  | .opened result => if result = INVALID_SERIAL_FD then none else some (.acquired result)
  | .closed serialFd => if serialFd = INVALID_SERIAL_FD then none else some (.released serialFd)
  | .write serialFd => some (.used serialFd)
  | .read serialFd => some (.used serialFd)
  | .select serialFd => some (.used serialFd)

def uses (log : List Syscall) : List (Use ℤ) := log.filterMap Syscall.use

namespace Port

def Live (port : Port κ) : Prop :=
  port.io.ioState = .stateOpen ∨ port.io.ioState = .stateError

def held (port : Port κ) : Option ℤ :=
  if port.serialFd = INVALID_SERIAL_FD then none else some port.serialFd

structure InOrder (port : Port κ) : Prop where
  live : port.serialFd ≠ INVALID_SERIAL_FD → port.Live
  idle : port.serialFd = INVALID_SERIAL_FD → port.io.ioState = .stateClosed

end Port

def Keeps (port : Port κ) (r : Port κ × List Syscall) : Prop :=
  r.1.InOrder ∧ (uses r.2).foldlM next port.held = some r.1.held

section
variable {port : Port κ}

theorem Port.InOrder.held_of_live (h : port.InOrder) (hlive : port.Live) :
    port.serialFd ≠ INVALID_SERIAL_FD ∧ port.held = some port.serialFd := by
  have hfd : port.serialFd ≠ INVALID_SERIAL_FD := by
    intro hfd
    rw [Port.Live, h.idle hfd] at hlive
    rcases hlive with hstate | hstate <;> cases hstate
  exact ⟨hfd, if_neg hfd⟩

theorem Port.InOrder.closed (h : port.InOrder) (hstate : ¬ port.Live) :
    port.serialFd = INVALID_SERIAL_FD ∧ port.io.ioState = .stateClosed ∧ port.held = none := by
  have hfd : port.serialFd = INVALID_SERIAL_FD := by
    by_contra hfd
    exact hstate (h.live hfd)
  exact ⟨hfd, h.idle hfd, if_pos hfd⟩

theorem keeps_same (h : port.InOrder) : Keeps port (port, []) := ⟨h, rfl⟩

theorem uses_append (log log' : List Syscall) : uses (log ++ log') = uses log ++ uses log' :=
  List.filterMap_append

theorem pass_opened (fd : ℤ) :
    (uses [.opened fd, .closed fd]).foldlM next none = some none := by
  by_cases hfd : fd = INVALID_SERIAL_FD
  · simp [uses, Syscall.use, hfd]
  · have huses : uses [.opened fd, .closed fd] = [.acquired fd, .released fd] := by
      simp [uses, Syscall.use, hfd]
    rw [huses]
    exact pass

theorem serialioOpen_keeps (h : port.InOrder) (onBytesReceived onIoError : Option κ)
    (answers : OpenAnswers) : Keeps port (serialioOpen port onBytesReceived onIoError answers) := by
  have hrefused (hclosed : port.io.ioState = .stateClosed) (hheld : port.held = none) :
      Keeps port ({ port with serialFd := INVALID_SERIAL_FD },
        [.opened answers.fd, .closed answers.fd]) := by
    refine ⟨⟨fun hfd => absurd rfl hfd, fun _ => hclosed⟩, ?_⟩
    rw [hheld]
    exact pass_opened answers.fd
  unfold serialioOpen
  by_cases hopen : port.io.ioState ≠ .stateClosed
  · rw [if_pos hopen]
    exact keeps_same h
  have hclosed := not_not.mp hopen
  have hdead : ¬ port.Live := by
    rw [Port.Live, hclosed]
    intro hlive
    rcases hlive with hstate | hstate <;> cases hstate
  obtain ⟨hfd, -, hheld⟩ := h.closed hdead
  rw [if_neg hopen, if_neg (not_not_intro hfd),
    if_neg (Int.not_lt.mpr answers.fd_ge)]
  split_ifs with hisatty hfcntl hspeed hattr
  · exact hrefused hclosed hheld
  · exact hrefused hclosed hheld
  · exact hrefused hclosed hheld
  · exact hrefused hclosed hheld
  · have hvalid : answers.fd ≠ INVALID_SERIAL_FD := by
      intro hinvalid
      rw [answers.noTerminal hinvalid] at hisatty
      exact hisatty rfl
    refine ⟨⟨fun _ => Or.inl rfl, fun hinvalid => absurd hinvalid hvalid⟩, ?_⟩
    have huses : uses [.opened answers.fd] = [.acquired answers.fd] := by
      simp [uses, Syscall.use, hvalid]
    rw [huses, hheld]
    exact acquire.trans (congrArg some (if_neg hvalid).symm)

theorem release_held (h : port.InOrder) (hlive : port.Live) :
    (uses [.closed port.serialFd]).foldlM next port.held = some none := by
  obtain ⟨hfd, hheld⟩ := h.held_of_live hlive
  have huses : uses [.closed port.serialFd] = [.released port.serialFd] := by
    simp [uses, Syscall.use, hfd]
  rw [huses, hheld]
  exact release

theorem serialioClose_keeps (h : port.InOrder) : Keeps port (serialioClose port) := by
  unfold serialioClose
  split_ifs with hopen
  · have hlive : port.Live := by
      by_contra hdead
      exact hopen.1 (h.closed hdead).2.1
    exact ⟨⟨fun hfd => absurd rfl hfd, fun _ => rfl⟩, release_held h hlive⟩
  · exact keeps_same h

theorem serialioDestroy_releases (h : port.InOrder) :
    (uses (serialioDestroy port)).foldlM next port.held = some none := by
  unfold serialioDestroy
  split_ifs with hfd
  · exact release_held h (h.live hfd)
  · rw [Port.held, if_pos (not_not.mp hfd)]
    rfl

theorem keeps_of_uses {port' : Port κ} {log : List Syscall} (h : port.InOrder)
    (hlive : port.Live) (hfd : port'.serialFd = port.serialFd) (hlive' : port'.Live)
    (hlog : ∀ use ∈ uses log, use = .used port.serialFd) : Keeps port (port', log) := by
  obtain ⟨hvalid, hheld⟩ := h.held_of_live hlive
  have hheld' : port'.held = some port.serialFd := by
    rw [Port.held, hfd, if_neg hvalid]
  refine ⟨⟨fun _ => hlive', fun hinvalid => absurd (hfd.symm.trans hinvalid) hvalid⟩, ?_⟩
  rw [hheld, hheld']
  exact use_all _ hlog

theorem serialioSend_ioState (io : SerialIoInstance κ) (buffer : Option (List UInt8))
    (onSendComplete : Option κ) (write : WriteResult) (allocated : Bool) :
    (Serial.serialioSend io buffer onSendComplete write allocated).io.ioState = io.ioState := by
  have hadd (bytes : List UInt8) :
      (addPendingIo io bytes onSendComplete allocated).1.ioState = io.ioState := by
    cases allocated <;> rfl
  unfold Serial.serialioSend
  cases buffer with
  | none => rfl
  | some buffer =>
    dsimp only
    split_ifs
    · rfl
    · rfl
    · exact hadd buffer
    · cases write with
      | again => rfl
      | failed => rfl
      | wrote count =>
        dsimp only
        split_ifs
        · rfl
        · exact hadd (buffer.drop count)

theorem serialioSend_keeps (h : port.InOrder) (buffer : Option (List UInt8))
    (onSendComplete : Option κ) (write : WriteResult) (allocated : Bool) :
    Keeps port (serialioSend port buffer onSendComplete write allocated) := by
  have hstate := serialioSend_ioState port.io buffer onSendComplete write allocated
  unfold serialioSend
  split_ifs with hwrites
  · refine keeps_of_uses h (Or.inl hwrites.2.1) rfl ?_ fun use huse => ?_
    · exact Or.inl (hstate.trans hwrites.2.1)
    · exact List.mem_singleton.mp huse
  · refine ⟨⟨fun hfd => ?_, fun hfd => hstate.trans (h.idle hfd)⟩, rfl⟩
    rw [Port.Live, hstate]
    exact h.live hfd

theorem pendingLoop_uses {serialFd : ℤ} {writes : List (Option WriteResult)}
    {pending : List (PendingSerialIo κ)} {io : SerialIoInstance κ} {log : List Syscall}
    (h : pendingLoop serialFd writes pending = some (io, log)) :
    (io.ioState = .stateOpen ∨ io.ioState = .stateError) ∧
      ∀ call ∈ log, call = .write serialFd := by
  induction writes generalizing pending io log with
  | nil =>
    cases pending with
    | nil =>
      cases h
      exact ⟨Or.inl rfl, fun call hcall => by cases hcall⟩
    | cons first pending => cases h
  | cons write writes ih =>
    cases pending with
    | nil =>
      cases h
      exact ⟨Or.inl rfl, fun call hcall => by cases hcall⟩
    | cons first pending =>
      rcases write with _ | write
      · cases h
        exact ⟨Or.inr rfl, fun call hcall => List.mem_singleton.mp hcall⟩
      · cases write with
        | again =>
          cases h
          exact ⟨Or.inl rfl, fun call hcall => List.mem_singleton.mp hcall⟩
        | failed =>
          cases h
          exact ⟨Or.inl rfl, fun call hcall => List.mem_singleton.mp hcall⟩
        | wrote count =>
          obtain ⟨⟨io', log'⟩, hrest, heq⟩ := Option.map_eq_some_iff.mp h
          cases heq
          obtain ⟨hstate, hlog⟩ := ih hrest
          exact ⟨hstate, List.forall_mem_cons.mpr ⟨rfl, hlog⟩⟩

/-- As long as `write` returns nothing below -1, it is the loop of the transmit side. -/
theorem pendingLoop_eq_sendPending (serialFd : ℤ) (writes : List WriteResult)
    (pending : List (PendingSerialIo κ)) :
    (pendingLoop serialFd (writes.map some) pending).map Prod.fst =
      (sendPending writes pending).map fun r => ⟨.stateOpen, r.1⟩ := by
  induction writes generalizing pending with
  | nil => cases pending <;> rfl
  | cons write writes ih =>
    cases pending with
    | nil => rfl
    | cons first pending =>
      cases write with
      | again => rfl
      | failed => rfl
      | wrote count =>
        rw [List.map_cons, pendingLoop, sendPending, Option.map_map]
        split_ifs
        · rw [Option.map_map]
          exact ih pending
        · rw [Option.map_map]
          exact ih (first.moveRest count :: pending)

theorem serialioDowork_keeps (h : port.InOrder) {writes : List (Option WriteResult)}
    {select : SelectResult} {reads : List ReadResult} {r : Port κ × List Syscall}
    (hwork : serialioDowork port writes select reads = some r) : Keeps port r := by
  unfold serialioDowork at hwork
  split_ifs at hwork with hopen
  · obtain ⟨⟨io, log⟩, hloop, hrest⟩ := Option.bind_eq_some_iff.mp hwork
    obtain ⟨hstate, hwrites⟩ := pendingLoop_uses hloop
    have huses : ∀ use ∈ uses log, use = .used port.serialFd := by
      intro use huse
      obtain ⟨call, hcall, huse⟩ := List.mem_filterMap.mp huse
      rw [hwrites call hcall] at huse
      exact (Option.some.inj huse).symm
    dsimp only at hrest
    split_ifs at hrest with hstill
    · obtain ⟨outcome, -, rfl⟩ := Option.map_eq_some_iff.mp hrest
      refine keeps_of_uses h (Or.inl hopen) rfl hstate fun use huse => ?_
      rw [uses_append, List.mem_append] at huse
      rcases huse with huse | huse
      · exact huses use huse
      · obtain ⟨call, hcall, huse⟩ := List.mem_filterMap.mp huse
        rcases List.mem_cons.mp hcall with rfl | hread
        · exact (Option.some.inj huse).symm
        · obtain ⟨result, -, rfl⟩ := List.mem_map.mp hread
          exact (Option.some.inj huse).symm
    · cases hrest
      exact keeps_of_uses h (Or.inl hopen) rfl hstate huses
  · cases hwork
    exact keeps_same h

end

/-- The descriptor that `open` returned last is used and closed only while it is held. The port
holds it exactly when it is open or in error, and behind the end of the port it is closed. -/
structure Disciplined (s : System κ) (held : Option ℤ) : Prop where
  custody : heldAfter (uses s.log) = some held
  live : ∀ port ∈ s.handle, (port.Live ↔ held = some port.serialFd)
  idle : ∀ port ∈ s.handle, ¬ port.Live →
    port.serialFd = INVALID_SERIAL_FD ∧ port.io.ioState = .stateClosed
  destroyed : s.handle = none → held = none ∧ ∀ fd,
    (uses s.log).count (.acquired fd) = (uses s.log).count (.released fd)

structure Invariant (s : System κ) : Prop where
  custody : heldAfter (uses s.log) = some (s.handle.bind Port.held)
  inOrder : ∀ port ∈ s.handle, port.InOrder

section
variable {s t : System κ} {c : Call κ}

theorem Invariant.call {port : Port κ} {r : Port κ × List Syscall} (h : Invariant s)
    (hport : s.handle = some port) (hkeeps : port.InOrder → Keeps port r) :
    Invariant ⟨some r.1, s.log ++ r.2⟩ := by
  obtain ⟨hinOrder, hlog⟩ := hkeeps (h.inOrder port hport)
  refine ⟨?_, fun port' hport' => ?_⟩
  · have hcustody := h.custody
    rw [hport] at hcustody
    rw [uses_append, heldAfter_append hcustody]
    exact hlog
  · cases hport'
    exact hinOrder

theorem Invariant.step (h : Invariant s) (hstep : Descriptors.step s c t) : Invariant t := by
  cases hport : s.handle with
  | none =>
    cases c with
    | create config allocated listCreated memory =>
      simp only [Descriptors.step, hport] at hstep
      subst hstep
      have hcustody := h.custody
      rw [hport] at hcustody
      unfold serialioCreate
      split_ifs
      · refine ⟨hcustody, fun port hcreated => ?_⟩
        cases hcreated
        exact ⟨fun hfd => absurd rfl hfd, fun _ => rfl⟩
      · exact ⟨hcustody, fun port hcreated => by cases hcreated⟩
    | _ =>
      simp only [Descriptors.step, hport] at hstep
      rwa [hstep]
  | some port =>
    cases c with
    | create => simp only [Descriptors.step, hport] at hstep
    | openPort onBytesReceived onIoError answers =>
      simp only [Descriptors.step, hport] at hstep
      rw [hstep]
      exact h.call hport fun hin => serialioOpen_keeps hin onBytesReceived onIoError answers
    | close =>
      simp only [Descriptors.step, hport] at hstep
      rw [hstep]
      exact h.call hport serialioClose_keeps
    | send buffer onSendComplete write allocated =>
      simp only [Descriptors.step, hport] at hstep
      rw [hstep]
      exact h.call hport fun hin => serialioSend_keeps hin buffer onSendComplete write allocated
    | dowork writes select reads =>
      simp only [Descriptors.step, hport] at hstep
      obtain ⟨r, hwork, rfl⟩ := hstep
      exact h.call hport fun hin => serialioDowork_keeps hin hwork
    | destroy =>
      simp only [Descriptors.step, hport] at hstep
      subst hstep
      have hcustody := h.custody
      rw [hport] at hcustody
      refine ⟨?_, fun port' hnone => by cases hnone⟩
      rw [uses_append, heldAfter_append hcustody]
      exact serialioDestroy_releases (h.inOrder port hport)

theorem invariant_start : Invariant (start : System κ) :=
  ⟨rfl, fun _ hnone => by cases hnone⟩

/-- In every run the calls keep the custody of the descriptor. -/
theorem descriptor_discipline {calls : List (Call κ)} (hrun : Run Descriptors.step start calls s) :
    ∃ held, Disciplined s held := by
  have hinv := hrun.invariant invariant_start fun _ _ _ h hstep => h.step hstep
  refine ⟨_, hinv.custody, fun port hport => ?_, fun port hport hdead => ?_, fun hnone => ?_⟩
  · have hin := hinv.inOrder port hport
    rw [hport, Option.bind_some]
    constructor
    · exact fun hlive => (hin.held_of_live hlive).2
    · intro hheld
      by_contra hdead
      rw [(hin.closed hdead).2.2] at hheld
      cases hheld
  · obtain ⟨hfd, hstate, -⟩ := (hinv.inOrder port hport).closed hdead
    exact ⟨hfd, hstate⟩
  · have hcustody := hinv.custody
    rw [hnone] at hcustody
    exact ⟨congrArg (Option.bind · Port.held) hnone, fun fd => count_acquired hcustody fd⟩

end

theorem terminal_fd : INVALID_SERIAL_FD ≤ 3 := by decide

theorem terminal_isatty : (3 : ℤ) = INVALID_SERIAL_FD → true = false := by decide

def terminal : OpenAnswers := ⟨3, true, true, true, true, terminal_fd, terminal_isatty⟩

def portWith (serialFd : ℤ) (ioState : IoState) : Port Unit :=
  ⟨serialFd, ⟨ioState, []⟩, ⟨none, none, []⟩⟩

theorem descriptor_discipline_terminal :
    ∃ s : System Unit, Run step start [.create true true true [], .openPort none none terminal,
        .dowork [] .ready [.read []], .destroy] s ∧
      s.log = [.opened 3, .select 3, .read 3, .closed 3] ∧ ∃ held, Disciplined s held := by
  have hcreate : step start (.create true true true [])
      ⟨some (portWith INVALID_SERIAL_FD .stateClosed), []⟩ := rfl
  have hopen : step ⟨some (portWith INVALID_SERIAL_FD .stateClosed), []⟩
      (.openPort none none terminal) ⟨some (portWith 3 .stateOpen), [.opened 3]⟩ := rfl
  have hwork : step ⟨some (portWith 3 .stateOpen), [.opened 3]⟩ (.dowork [] .ready [.read []])
      ⟨some (portWith 3 .stateOpen), [.opened 3, .select 3, .read 3]⟩ := ⟨_, rfl, rfl⟩
  have hdestroy : step ⟨some (portWith 3 .stateOpen), [.opened 3, .select 3, .read 3]⟩ .destroy
      ⟨none, [.opened 3, .select 3, .read 3, .closed 3]⟩ := rfl
  have hrun := (((Run.start.next hcreate).next hopen).next hwork).next hdestroy
  exact ⟨_, hrun, rfl, descriptor_discipline hrun⟩

end IotEdgeAgent.Serial.Descriptors
