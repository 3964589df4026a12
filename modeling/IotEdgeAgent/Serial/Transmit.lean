import IotEdgeAgent.Library.Items
import IotEdgeAgent.Library.Runs
import IotEdgeAgent.Serial.SerialIo

/-!
# The bytes on the line

What the descriptor accepts, followed by what is pending, is to be the concatenation of the
buffers of the sends that were accepted, and a send is to be reported complete once, when its
last byte is out. Both follow from one account of the stream: some sends are done, and the
first of the others is out up to the bytes that are pending of it.
-/

namespace IotEdgeAgent.Serial
open Runs Chunks

variable {κ : Type*}

structure System (κ : Type*) where
  io : SerialIoInstance κ
  sends : List (PendingSerialIo κ)
  trace : List (PortEvent κ)

inductive Action (κ : Type*)
  | send (buffer : Option (List UInt8)) (onSendComplete : Option κ) (write : WriteResult)
      (allocated : Bool)
  | dowork (writes : List WriteResult)

def step (s : System κ) (a : Action κ) (t : System κ) : Prop :=
  match a with
  | .send buffer onSendComplete write allocated =>
    let sent := serialioSend s.io buffer onSendComplete write allocated
    t = {
      io := sent.io
      sends := s.sends ++ if sent.result then [⟨buffer.getD [], onSendComplete⟩] else []
      trace := s.trace ++ sent.events }
  | .dowork writes => ∃ io events,
      serialioDowork s.io writes = some (io, events) ∧
      t = { s with io := io, trace := s.trace ++ events }

structure Initial (s : System κ) : Prop where
  ioState : s.io.ioState = .stateOpen
  pendingIoList : s.io.pendingIoList = []
  sends : s.sends = []
  trace : s.trace = []

def written : List (PortEvent κ) → List UInt8
  | [] => []
  | .accepted bytes :: events => bytes ++ written events
  | .sendComplete _ :: events => written events

def completed : List (PortEvent κ) → List κ
  | [] => []
  | .accepted _ :: events => completed events
  | .sendComplete onSendComplete :: events => onSendComplete :: completed events

def PendingSerialIo.size (pending : PendingSerialIo κ) : ℕ := pending.bytes.length

def bytesOf (sends : List (PendingSerialIo κ)) : List UInt8 := sends.flatMap (·.bytes)

def callbacksOf (sends : List (PendingSerialIo κ)) : List κ := sends.filterMap (·.onSendComplete)

def NeverEarly (sends : List (PendingSerialIo κ)) (trace : List (PortEvent κ)) : Prop :=
  ∀ before, before <+: trace →
    completed before <+: callbacksOf (covered PendingSerialIo.size (written before).length sends)

/-- The stream is complete and in order, and the sends that are out have been reported once. -/
structure Intact (s : System κ) : Prop where
  bytes : written s.trace ++ bytesOf s.io.pendingIoList = bytesOf s.sends
  reported : completed s.trace =
    callbacksOf (covered PendingSerialIo.size (written s.trace).length s.sends)
  early : NeverEarly s.sends s.trace

def NoneCut : List WriteResult → List (PendingSerialIo κ) → Prop
  | _, [] => True
  | [], _ :: _ => True
  | .again :: _, _ :: _ => True
  | .failed :: _, _ :: _ => True
  | .wrote count :: writes, first :: pending =>
    if first.bytes.length ≤ count then NoneCut writes pending
    else count = 0 ∧ NoneCut writes (first :: pending)

/-- A send that finds nothing pending is not put off with `EAGAIN`, and what is left of it after
a partial write can be queued. -/
def Keeping (s : System κ) : Action κ → Prop
  | .send buffer _ write allocated =>
    s.io.pendingIoList = [] → ∀ bytes ∈ buffer, bytes ≠ [] →
      write ≠ .again ∧ ∀ count, write = .wrote count → 0 < count → count < bytes.length → allocated
  | .dowork writes => NoneCut writes s.io.pendingIoList

inductive SendCase (io : SerialIoInstance κ) (onSendComplete : Option κ) :
    Option (List UInt8) → WriteResult → Bool → Sent κ → Prop
  | refused {buffer : Option (List UInt8)} {write : WriteResult} {allocated : Bool} :
    SendCase io onSendComplete buffer write allocated ⟨io, false, []⟩
  | queued {bytes : List UInt8} {write : WriteResult} (hbytes : bytes ≠ [])
      (hpending : io.pendingIoList ≠ []) :
    SendCase io onSendComplete (some bytes) write true
      ⟨{ io with pendingIoList := io.pendingIoList ++ [⟨bytes, onSendComplete⟩] }, true, []⟩
  | putOff {bytes : List UInt8} {allocated : Bool} (hbytes : bytes ≠ [])
      (hpending : io.pendingIoList = []) :
    SendCase io onSendComplete (some bytes) .again allocated ⟨io, true, []⟩
  | whole {bytes : List UInt8} {count : ℕ} {allocated : Bool} (hbytes : bytes ≠ [])
      (hpending : io.pendingIoList = []) (hcount : bytes.length ≤ count) :
    SendCase io onSendComplete (some bytes) (.wrote count) allocated
      ⟨io, true, .accepted bytes :: completion onSendComplete⟩
  | rest {bytes : List UInt8} {count : ℕ} (hbytes : bytes ≠ [])
      (hpending : io.pendingIoList = []) (hcount : count < bytes.length) :
    SendCase io onSendComplete (some bytes) (.wrote count) true
      ⟨{ io with pendingIoList := [⟨bytes.drop count, onSendComplete⟩] }, true,
        [.accepted (bytes.take count)]⟩
  | lost {bytes : List UInt8} {count : ℕ} (hbytes : bytes ≠ [])
      (hpending : io.pendingIoList = []) (hcount : count < bytes.length) :
    SendCase io onSendComplete (some bytes) (.wrote count) false
      ⟨io, false, [.accepted (bytes.take count)]⟩

theorem serialioSend_cases {io : SerialIoInstance κ} (hopen : io.ioState = .stateOpen)
    (buffer : Option (List UInt8)) (onSendComplete : Option κ) (write : WriteResult)
    (allocated : Bool) :
    SendCase io onSendComplete buffer write allocated
      (serialioSend io buffer onSendComplete write allocated) := by
  cases buffer with
  | none => exact .refused
  | some bytes =>
    unfold serialioSend
    dsimp only
    by_cases hempty : bytes.length = 0
    · rw [if_pos hempty]
      exact .refused
    have hbytes : bytes ≠ [] := mt List.length_eq_zero_iff.mpr hempty
    rw [if_neg hempty, if_neg (not_not.mpr hopen)]
    by_cases hpending : io.pendingIoList = []
    · rw [if_neg (not_not.mpr hpending)]
      cases write with
      | again => exact .putOff hbytes hpending
      | failed => exact .refused
      | wrote count =>
        by_cases hcount : bytes.length ≤ count
        · simp only [if_pos hcount]
          exact .whole hbytes hpending hcount
        · simp only [if_neg hcount, addPendingIo, hpending, List.nil_append]
          cases allocated with
          | false => exact .lost hbytes hpending (Nat.not_le.mp hcount)
          | true => exact .rest hbytes hpending (Nat.not_le.mp hcount)
    · rw [if_pos hpending]
      cases allocated with
      | false => exact .refused
      | true => exact .queued hbytes hpending

@[simp] theorem written_append (trace events : List (PortEvent κ)) :
    written (trace ++ events) = written trace ++ written events := by
  induction trace with
  | nil => rfl
  | cons event trace ih => cases event <;> simp [written, ih]

@[simp] theorem completed_append (trace events : List (PortEvent κ)) :
    completed (trace ++ events) = completed trace ++ completed events := by
  induction trace with
  | nil => rfl
  | cons event trace ih => cases event <;> simp [completed, ih]

@[simp] theorem written_completion (onSendComplete : Option κ) :
    written (completion onSendComplete) = [] := by
  cases onSendComplete <;> rfl

@[simp] theorem completed_completion (onSendComplete : Option κ) :
    completed (completion onSendComplete) = onSendComplete.toList := by
  cases onSendComplete <;> rfl

theorem length_bytesOf (sends : List (PendingSerialIo κ)) :
    (bytesOf sends).length = total PendingSerialIo.size sends := by
  induction sends with
  | nil => rfl
  | cons send sends ih =>
    rw [bytesOf, List.flatMap_cons, List.length_append, total, ← ih]
    rfl

theorem bytesOf_append (sends rest : List (PendingSerialIo κ)) :
    bytesOf (sends ++ rest) = bytesOf sends ++ bytesOf rest :=
  List.flatMap_append ..

theorem callbacksOf_append (sends rest : List (PendingSerialIo κ)) :
    callbacksOf (sends ++ rest) = callbacksOf sends ++ callbacksOf rest :=
  List.filterMap_append ..

theorem callbacksOf_singleton (send : PendingSerialIo κ) :
    callbacksOf [send] = send.onSendComplete.toList := by
  cases h : send.onSendComplete <;> simp [callbacksOf, h]

def resume (out : List UInt8) : List (PendingSerialIo κ) → List (PendingSerialIo κ)
  | [] => []
  | first :: pending => { first with bytes := out ++ first.bytes } :: pending

theorem bytesOf_resume {out : List UInt8} {pending : List (PendingSerialIo κ)}
    (h : pending = [] → out = []) : bytesOf (resume out pending) = out ++ bytesOf pending := by
  cases pending with
  | nil => simp [resume, bytesOf, h rfl]
  | cons first pending => simp [resume, bytesOf]

/-- The sends in `done` are out, and of the next one the bytes in `out`. -/
structure Account (sends pending : List (PendingSerialIo κ)) (trace : List (PortEvent κ))
    (done : List (PendingSerialIo κ)) (out : List UInt8) : Prop where
  sends_eq : sends = done ++ resume out pending
  out_eq : pending = [] → out = []
  left : ∀ first ∈ pending, first.bytes ≠ []
  written_eq : written trace = bytesOf done ++ out
  completed_eq : completed trace = callbacksOf done
  early : NeverEarly sends trace

section Account
variable {sends pending done : List (PendingSerialIo κ)} {trace : List (PortEvent κ)}
  {out : List UInt8} {first : PendingSerialIo κ}

theorem Account.length_written (h : Account sends pending trace done out) :
    (written trace).length = total PendingSerialIo.size done + out.length := by
  rw [h.written_eq, List.length_append, length_bytesOf]

theorem Account.covered_eq (h : Account sends pending trace done out) :
    covered PendingSerialIo.size (written trace).length sends = done := by
  rw [h.length_written, h.sends_eq, covered_total_append]
  cases pending with
  | nil => simp [resume, covered]
  | cons first pending =>
    rw [resume, covered_cons_of_lt, List.append_nil]
    have hleft := List.length_pos_of_ne_nil (h.left first List.mem_cons_self)
    simp only [PendingSerialIo.size, List.length_append]
    omega

theorem NeverEarly.snoc (h : NeverEarly sends trace) (event : PortEvent κ) (hdone : done <+: sends)
    (hcompleted : completed (trace ++ [event]) = callbacksOf done)
    (hwritten : total PendingSerialIo.size done ≤ (written (trace ++ [event])).length) :
    NeverEarly sends (trace ++ [event]) := by
  intro before hbefore
  rcases List.prefix_concat_iff.mp hbefore with rfl | hbefore
  · rw [hcompleted]
    exact (prefix_covered hdone hwritten).filterMap _
  · exact h before hbefore

theorem NeverEarly.more (h : NeverEarly sends trace) (rest : List (PendingSerialIo κ)) :
    NeverEarly (sends ++ rest) trace :=
  fun before hbefore =>
    (h before hbefore).trans ((covered_isPrefix_append sends rest _).filterMap _)

theorem Account.enqueue (h : Account sends pending trace done out) (hleft : first.bytes ≠ []) :
    Account (sends ++ [first]) (pending ++ [first]) trace done out := by
  refine ⟨?_, by simp, ?_, h.written_eq, h.completed_eq, h.early.more _⟩
  · cases pending with
    | nil => simp [h.sends_eq, h.out_eq, resume]
    | cons other pending => simp [h.sends_eq, resume]
  · intro other hother
    rcases List.mem_append.mp hother with hother | hother
    · exact h.left other hother
    · rwa [List.mem_singleton.mp hother]

theorem Account.advance (h : Account sends (first :: pending) trace done out)
    {front back : List UInt8} (hbytes : first.bytes = front ++ back) (hback : back ≠ []) :
    Account sends ({ first with bytes := back } :: pending) (trace ++ [.accepted front]) done
      (out ++ front) := by
  have hsends : sends = done ++ { first with bytes := out ++ front ++ back } :: pending := by
    simp [h.sends_eq, resume, hbytes]
  refine ⟨hsends, by simp, ?_, ?_, ?_, ?_⟩
  · intro other hother
    rcases List.mem_cons.mp hother with rfl | hother
    · exact hback
    · exact h.left other (List.mem_cons_of_mem _ hother)
  · simp [written, h.written_eq]
  · simp [completed, h.completed_eq]
  · refine h.early.snoc _ ⟨_, hsends.symm⟩ ?_ ?_
    · simp [completed, h.completed_eq]
    · rw [written_append, List.length_append, h.length_written]
      omega

theorem Account.nothing (h : Account sends pending trace done out) :
    Account sends pending (trace ++ [.accepted []]) done out := by
  have hwritten : written (trace ++ [.accepted []]) = written trace := by simp [written]
  have hcompleted : completed (trace ++ [.accepted []]) = callbacksOf done := by
    simp [completed, h.completed_eq]
  refine ⟨h.sends_eq, h.out_eq, h.left, hwritten.trans h.written_eq, hcompleted, ?_⟩
  refine h.early.snoc _ ⟨_, h.sends_eq.symm⟩ hcompleted ?_
  rw [hwritten, h.length_written]
  exact Nat.le_add_right _ _

theorem Account.complete (h : Account sends (first :: pending) trace done out) :
    Account sends pending (trace ++ .accepted first.bytes :: completion first.onSendComplete)
      (done ++ [{ first with bytes := out ++ first.bytes }]) [] := by
  obtain ⟨send, hsend⟩ : ∃ send, send = { first with bytes := out ++ first.bytes } := ⟨_, rfl⟩
  have hcallback : first.onSendComplete = send.onSendComplete := by rw [hsend]
  have hsends : sends = done ++ send :: pending := by rw [h.sends_eq, resume, hsend]
  have hdone : done ++ [send] <+: sends := ⟨pending, by simp [hsends]⟩
  have hwritten : written (trace ++ [.accepted first.bytes]) = bytesOf (done ++ [send]) := by
    simp [written, h.written_eq, bytesOf, hsend]
  have hlength : total PendingSerialIo.size (done ++ [send]) =
      (written (trace ++ [.accepted first.bytes])).length := by
    rw [hwritten, length_bytesOf]
  have haccepted : NeverEarly sends (trace ++ [.accepted first.bytes]) := by
    refine h.early.snoc _ ((List.prefix_append done [send]).trans hdone) ?_ ?_
    · simp [completed, h.completed_eq]
    · rw [← hlength, total_append]
      exact Nat.le_add_right _ _
  rw [← hsend, hcallback]
  refine ⟨?_, fun _ => rfl, fun other hother => h.left other (List.mem_cons_of_mem _ hother),
    ?_, ?_, ?_⟩
  · cases pending <;> simp [hsends, resume]
  · simpa [written] using hwritten
  · simp [completed, h.completed_eq, callbacksOf_append, callbacksOf_singleton]
  · -- The report follows the last byte.
    cases hreport : send.onSendComplete with
    | none => simpa [completion] using haccepted
    | some onSendComplete =>
      have hreported := haccepted.snoc (.sendComplete onSendComplete) hdone
        (by simp [completed, h.completed_eq, callbacksOf_append, callbacksOf_singleton, hreport])
        (by simp [hlength, written])
      simpa [completion] using hreported

theorem moveRest_zero (first : PendingSerialIo κ) : first.moveRest 0 = first := by
  simp [PendingSerialIo.moveRest]

theorem Account.sendPending {writes : List WriteResult} {rest : List (PendingSerialIo κ)}
    {events : List (PortEvent κ)} (h : Account sends pending trace done out)
    (hcut : NoneCut writes pending)
    (hsend : Serial.sendPending writes pending = some (rest, events)) :
    ∃ done' out', Account sends rest (trace ++ events) done' out' := by
  induction writes generalizing pending trace done out events with
  | nil =>
    cases pending with
    | nil =>
      cases hsend
      exact ⟨done, out, by simpa using h⟩
    | cons first pending => cases hsend
  | cons write writes ih =>
    cases pending with
    | nil =>
      cases hsend
      exact ⟨done, out, by simpa using h⟩
    | cons first pending =>
      cases write with
      | again =>
        cases hsend
        exact ⟨done, out, by simpa using h⟩
      | failed =>
        cases hsend
        exact ⟨done, out, by simpa using h⟩
      | wrote count =>
        rw [Serial.sendPending] at hsend
        rw [NoneCut] at hcut
        split_ifs at hsend hcut with hfull
        · obtain ⟨⟨rest', events'⟩, hloop, heq⟩ := Option.map_eq_some_iff.mp hsend
          cases heq
          obtain ⟨done', out', haccount⟩ := ih h.complete hcut hloop
          exact ⟨done', out', by simpa using haccount⟩
        · obtain ⟨⟨rest', events'⟩, hloop, heq⟩ := Option.map_eq_some_iff.mp hsend
          cases heq
          obtain ⟨rfl, hcut⟩ := hcut
          rw [moveRest_zero] at hloop
          -- The write took nothing, and the loop goes on as it was.
          obtain ⟨done', out', haccount⟩ := ih h.nothing hcut hloop
          exact ⟨done', out', by simpa using haccount⟩

end Account

section Runs
variable {s t : System κ} {a : Action κ}

structure Inv (s : System κ) : Prop where
  ioState : s.io.ioState = .stateOpen
  account : ∃ done out, Account s.sends s.io.pendingIoList s.trace done out

theorem inv_of_initial (h : Initial s) : Inv s := by
  refine ⟨h.ioState, [], [], ?_⟩
  rw [h.sends, h.pendingIoList, h.trace]
  refine ⟨rfl, fun _ => rfl, by simp, rfl, rfl, ?_⟩
  intro before hbefore
  rw [List.prefix_nil.mp hbefore]
  exact List.nil_prefix

theorem Inv.intact (h : Inv s) : Intact s := by
  obtain ⟨done, out, haccount⟩ := h.account
  refine ⟨?_, ?_, haccount.early⟩
  · rw [haccount.written_eq, haccount.sends_eq, bytesOf_append, bytesOf_resume haccount.out_eq,
      List.append_assoc]
  · rw [haccount.covered_eq, haccount.completed_eq]

theorem Inv.send (h : Inv s) {buffer : Option (List UInt8)} {onSendComplete : Option κ}
    {write : WriteResult} {allocated : Bool}
    (hkeep : Keeping s (.send buffer onSendComplete write allocated))
    (hstep : Serial.step s (.send buffer onSendComplete write allocated) t) : Inv t := by
  subst hstep
  obtain ⟨done, out, haccount⟩ := h.account
  have hcases := serialioSend_cases h.ioState buffer onSendComplete write allocated
  revert hcases
  generalize serialioSend s.io buffer onSendComplete write allocated = sent
  intro hcases
  cases hcases with
  | refused =>
    refine ⟨h.ioState, done, out, ?_⟩
    simpa using haccount
  | queued hbytes hpending =>
    refine ⟨h.ioState, done, out, ?_⟩
    simpa using haccount.enqueue hbytes
  | putOff hbytes hpending => exact absurd rfl (hkeep hpending _ rfl hbytes).1
  | @whole bytes _ _ hbytes hpending hcount =>
    rw [hpending] at haccount
    refine ⟨h.ioState, done ++ [⟨out ++ bytes, onSendComplete⟩], [], ?_⟩
    simpa [hpending] using (haccount.enqueue hbytes).complete
  | @rest bytes count hbytes hpending hcount =>
    rw [hpending] at haccount
    refine ⟨h.ioState, done, out ++ bytes.take count, ?_⟩
    have hback := mt List.drop_eq_nil_iff.mp (Nat.not_le.mpr hcount)
    simpa using (haccount.enqueue hbytes).advance (List.take_append_drop _ _).symm hback
  | @lost bytes count hbytes hpending hcount =>
    -- The rest could be queued unless nothing was taken.
    have hnone : count = 0 := by
      by_contra hsome
      cases (hkeep hpending _ rfl hbytes).2 count rfl (Nat.pos_of_ne_zero hsome) hcount
    subst hnone
    refine ⟨h.ioState, done, out, ?_⟩
    simpa using haccount.nothing

theorem Inv.step (h : Inv s) (hstep : Guarded Keeping Serial.step s a t) : Inv t := by
  obtain ⟨hkeep, hstep⟩ := hstep
  cases a with
  | send buffer onSendComplete write allocated => exact h.send hkeep hstep
  | dowork writes =>
    obtain ⟨io, events, hdowork, rfl⟩ := hstep
    rw [serialioDowork, if_pos h.ioState] at hdowork
    obtain ⟨⟨pending, events'⟩, hloop, heq⟩ := Option.map_eq_some_iff.mp hdowork
    cases heq
    obtain ⟨done, out, haccount⟩ := h.account
    exact ⟨h.ioState, haccount.sendPending hkeep hloop⟩

/-- In a run of steps that keep it, the stream is intact. -/
theorem intact_of_keeping {as : List (Action κ)} (hinit : Initial s)
    (hrun : Run (Guarded Keeping Serial.step) s as t) : Intact t := by
  have hinv : Inv t := hrun.invariant (inv_of_initial hinit) fun _ _ _ => Inv.step
  exact hinv.intact

end Runs

def openPort : System ℕ := ⟨⟨.stateOpen, []⟩, [], []⟩

theorem openPort_initial : Initial openPort := ⟨rfl, rfl, rfl, rfl⟩

def halfSent : System ℕ :=
  ⟨⟨.stateOpen, [⟨[0x11, 0x16], some 1⟩]⟩, [⟨[0x68, 0x11, 0x16], some 1⟩], [.accepted [0x68]]⟩

def sendFirst : Action ℕ := .send (some [0x68, 0x11, 0x16]) (some 1) (.wrote 1) true

def bothPending : System ℕ :=
  ⟨⟨.stateOpen, [⟨[0x11, 0x16], some 1⟩, ⟨[0x68, 0x16], some 2⟩]⟩,
    [⟨[0x68, 0x11, 0x16], some 1⟩, ⟨[0x68, 0x16], some 2⟩], [.accepted [0x68]]⟩

theorem intact_of_keeping_requests :
    ∃ as t, Run (Guarded Keeping Serial.step) openPort as t ∧
      written t.trace = [0x68, 0x11, 0x16, 0x68, 0x16] ∧ completed t.trace = [1, 2] ∧
      Intact t := by
  have hfirst : Guarded Keeping Serial.step openPort sendFirst halfSent :=
    ⟨fun _ _ _ _ => ⟨by simp, fun _ _ _ _ => rfl⟩, rfl⟩
  have hsecond : Guarded Keeping Serial.step halfSent
      (.send (some [0x68, 0x16]) (some 2) .again true) bothPending :=
    ⟨fun hpending => absurd hpending (List.cons_ne_nil _ _), rfl⟩
  have hdowork : Guarded Keeping Serial.step bothPending
      (.dowork [.wrote 0, .wrote 2, .wrote 2]) _ :=
    ⟨⟨rfl, trivial⟩, _, _, rfl, rfl⟩
  have hrun := ((Run.start.next hfirst).next hsecond).next hdowork
  exact ⟨_, _, hrun, rfl, rfl, intact_of_keeping openPort_initial hrun⟩

/-- What is pending is written in part, and as many bytes as before stay pending. -/
theorem partial_write_repeats :
    Initial openPort ∧ ∃ t, Run Serial.step openPort [sendFirst, .dowork [.wrote 1, .again]] t ∧
      written t.trace = [0x68, 0x11] ∧ bytesOf t.io.pendingIoList = [0x16, 0x16] ∧
      ¬ Intact t := by
  have hsend : Serial.step openPort sendFirst halfSent := rfl
  have hdowork : Serial.step halfSent (.dowork [.wrote 1, .again]) _ := ⟨_, _, rfl, rfl⟩
  refine ⟨openPort_initial, _, (Run.start.next hsend).next hdowork, rfl, rfl, fun h => ?_⟩
  have hbytes := congrArg List.length h.bytes
  cases hbytes

end IotEdgeAgent.Serial
