import IotEdgeAgent.Serial.SerialIo
import IotEdgeAgent.Library.Loops
import Mathlib.Algebra.BigOperators.Group.List.Basic
import Mathlib.Algebra.Ring.Nat

/-!
# Whether the transmit loop comes to an end

The loop of `serialio_dowork` is put round by round. A device answers each write by the number of
writes before and the size it was asked for. A write that takes only a part of its entry moves the
rest of the bytes to the front and leaves the size, so that nothing is gained: a device that never
takes a whole entry keeps the loop running forever.
-/

namespace IotEdgeAgent.Serial.TransmitLoop
open Loops

variable {κ : Type*}

abbrev Device := ℕ → ℕ → WriteResult

/-- Each write fails, or takes at least one byte and no more than it was asked to. -/
def Device.Takes (device : Device) : Prop :=
  ∀ calls size count, 0 < size → device calls size = .wrote count → 0 < count ∧ count ≤ size

structure Pending (κ : Type*) where
  calls : ℕ
  list : List (PendingSerialIo κ)

def pendingRound (write : WriteResult) (first : PendingSerialIo κ)
    (pending : List (PendingSerialIo κ)) : Option (List (PendingSerialIo κ)) :=
  match write with
  | .wrote count =>
    if first.bytes.length ≤ count then some pending else some (first.moveRest count :: pending)
  | _ => none

def round (device : Device) (s : Pending κ) : Option (Pending κ) :=
  match s.list with
  | [] => none
  | first :: pending =>
    (pendingRound (device s.calls first.bytes.length) first pending).map (⟨s.calls + 1, ·⟩)

def queuedBytes (s : Pending κ) : ℕ := (s.list.map (·.bytes.length)).sum

/-- The loop comes to an end, and each round that goes on leaves fewer bytes. -/
def Progress (device : Device) (s : Pending κ) : Prop :=
  Terminates (round device) s ∧ Descends queuedBytes (round device) s

/-- One write after the other takes a whole entry, until one fails. -/
def WholeWrites (device : Device) : ℕ → List (PendingSerialIo κ) → Prop
  | _, [] => True
  | calls, first :: pending => ∀ count, device calls first.bytes.length = .wrote count →
      count = first.bytes.length ∧ WholeWrites device (calls + 1) pending

def answers (device : Device) : ℕ → Pending κ → List WriteResult
  | 0, _ => []
  | n + 1, s =>
    match s.list with
    | [] => []
    | first :: _ =>
      device s.calls first.bytes.length :: (round device s).elim [] (answers device n)

theorem sendPending_isSome_cons (write : WriteResult) (writes : List WriteResult)
    (first : PendingSerialIo κ) (pending : List (PendingSerialIo κ)) :
    (sendPending (write :: writes) (first :: pending)).isSome =
      (pendingRound write first pending).elim true
        fun rest => (sendPending writes rest).isSome := by
  cases write with
  | again => rfl
  | failed => rfl
  | wrote count =>
    rw [sendPending, pendingRound]
    split_ifs
    · rw [Option.isSome_map, Option.elim_some]
    · rw [Option.isSome_map, Option.elim_some]

section
variable {device : Device} {s t : Pending κ} {n : ℕ}

theorem sendPending_of_stateAt (h : stateAt (round device) n s = none) :
    (sendPending (answers device n s) s.list).isSome = true := by
  induction n generalizing s with
  | zero => cases h
  | succ n ih =>
    obtain ⟨calls, list⟩ := s
    cases list with
    | nil => rfl
    | cons first pending =>
      simp only [answers, sendPending_isSome_cons]
      cases hround : pendingRound (device calls first.bytes.length) first pending with
      | none => rfl
      | some rest =>
        have hbody : round device ⟨calls, first :: pending⟩ = some ⟨calls + 1, rest⟩ := by
          simp only [round, hround, Option.map_some]
        rw [stateAt_succ hbody] at h
        rw [hbody]
        exact ih h

theorem stateAt_of_sendPending
    (h : (sendPending (answers device n s) s.list).isSome = true) :
    stateAt (round device) (n + 1) s = none := by
  induction n generalizing s with
  | zero =>
    obtain ⟨calls, list⟩ := s
    cases list with
    | nil => rfl
    | cons first pending => cases h
  | succ n ih =>
    obtain ⟨calls, list⟩ := s
    cases list with
    | nil => rfl
    | cons first pending =>
      simp only [answers, sendPending_isSome_cons] at h
      cases hround : pendingRound (device calls first.bytes.length) first pending with
      | none =>
        refine stateAt_of_left ?_ (n + 1)
        simp only [round, hround, Option.map_none]
      | some rest =>
        have hbody : round device ⟨calls, first :: pending⟩ = some ⟨calls + 1, rest⟩ := by
          simp only [round, hround, Option.map_some]
        rw [stateAt_succ hbody]
        rw [hround, hbody] at h
        exact ih h

/-- The rounds come to an end exactly where the loop has a result. -/
theorem terminates_iff_sendPending (device : Device) (s : Pending κ) :
    Terminates (round device) s ↔
      ∃ n, (sendPending (answers device n s) s.list).isSome = true := by
  constructor
  · intro h
    obtain ⟨n, hn⟩ := h
    exact ⟨n, sendPending_of_stateAt hn⟩
  · intro h
    obtain ⟨n, hn⟩ := h
    exact ⟨n + 1, stateAt_of_sendPending hn⟩

theorem queuedBytes_cons (calls : ℕ) (first : PendingSerialIo κ)
    (pending : List (PendingSerialIo κ)) :
    queuedBytes ⟨calls, first :: pending⟩ = first.bytes.length + queuedBytes ⟨calls, pending⟩ :=
  List.sum_cons

theorem length_moveRest (first : PendingSerialIo κ) {count : ℕ}
    (hcount : count ≤ first.bytes.length) :
    (first.moveRest count).bytes.length = first.bytes.length := by
  rw [PendingSerialIo.moveRest, List.length_append, List.length_drop, List.length_drop]
  omega

theorem descends_iff_wholeWrites (hdevice : device.Takes) {calls : ℕ}
    {list : List (PendingSerialIo κ)} (hsizes : ∀ pending ∈ list, 0 < pending.bytes.length) :
    Descends queuedBytes (round device) ⟨calls, list⟩ ↔ WholeWrites device calls list := by
  induction list generalizing calls with
  | nil => exact iff_of_true (descends_of_left rfl) trivial
  | cons first pending ih =>
    obtain ⟨hpos, hsizes⟩ := List.forall_mem_cons.mp hsizes
    rw [WholeWrites]
    cases hwrite : device calls first.bytes.length with
    | again =>
      refine iff_of_true (descends_of_left ?_) (fun count h => by cases h)
      simp only [round, hwrite, pendingRound, Option.map_none]
    | failed =>
      refine iff_of_true (descends_of_left ?_) (fun count h => by cases h)
      simp only [round, hwrite, pendingRound, Option.map_none]
    | wrote count =>
      obtain ⟨-, hle⟩ := hdevice calls _ count hpos hwrite
      rcases Nat.eq_or_lt_of_le hle with rfl | hpart
      · have hbody : round device ⟨calls, first :: pending⟩ = some ⟨calls + 1, pending⟩ := by
          simp only [round, hwrite, pendingRound, if_pos (Nat.le_refl _), Option.map_some]
        rw [descends_iff hbody, ih hsizes, queuedBytes_cons]
        have hless : queuedBytes ⟨calls + 1, pending⟩ <
            first.bytes.length + queuedBytes ⟨calls, pending⟩ := by
          have hsame : queuedBytes ⟨calls + 1, pending⟩ = queuedBytes ⟨calls, pending⟩ := rfl
          omega
        constructor
        · intro h count hcount
          cases hcount
          exact ⟨rfl, h.2⟩
        · intro h
          exact ⟨hless, (h _ rfl).2⟩
      · have hbody : round device ⟨calls, first :: pending⟩ =
            some ⟨calls + 1, first.moveRest count :: pending⟩ := by
          simp only [round, hwrite, pendingRound, if_neg (Nat.not_le.mpr hpart), Option.map_some]
        rw [descends_iff hbody, queuedBytes_cons, queuedBytes_cons, length_moveRest first hle]
        refine iff_of_false (fun h => ?_) fun h => ?_
        · exact absurd h.1 (Nat.lt_irrefl _)
        · exact absurd (h count rfl).1 (Nat.ne_of_lt hpart)

/-- The loop makes progress exactly when each write takes a whole entry or fails. -/
theorem progress_iff_wholeWrites (hdevice : device.Takes) {list : List (PendingSerialIo κ)}
    (hsizes : ∀ pending ∈ list, 0 < pending.bytes.length) :
    Progress device ⟨0, list⟩ ↔ WholeWrites device 0 list := by
  rw [← descends_iff_wholeWrites hdevice hsizes]
  exact ⟨fun h => h.2, fun h => ⟨h.terminates, h⟩⟩

end

def twoBytes : List (PendingSerialIo Unit) := [⟨[0x68, 0x16], none⟩]

def byteByByte : Device := fun _ _ => .wrote 1

theorem byteByByte_takes : byteByByte.Takes := by
  intro calls size count hsize h
  cases h
  exact ⟨Nat.one_pos, hsize⟩

theorem progress_iff_wholeWrites_twoBytes :
    Progress (fun _ size => .wrote size) ⟨0, twoBytes⟩ ↔
      WholeWrites (fun _ size => .wrote size) 0 twoBytes := by
  refine progress_iff_wholeWrites (fun calls size count hsize h => ?_) (by decide)
  cases h
  exact ⟨hsize, Nat.le_refl _⟩

/-- The loop asks for two bytes again and again. -/
theorem transmit_loop_spins :
    byteByByte.Takes ∧ (∀ pending ∈ twoBytes, 0 < pending.bytes.length) ∧
      ¬ Terminates (round byteByByte) ⟨0, twoBytes⟩ ∧ ¬ Progress byteByByte ⟨0, twoBytes⟩ := by
  have hspins : ¬ Terminates (round byteByByte) ⟨0, twoBytes⟩ := by
    refine not_terminates (fun s => ∃ first : PendingSerialIo Unit,
      s.list = [first] ∧ first.bytes.length = 2) ⟨_, rfl, rfl⟩ fun s hs => ?_
    obtain ⟨calls, list⟩ := s
    obtain ⟨first, rfl, hlength⟩ := hs
    refine ⟨⟨calls + 1, [first.moveRest 1]⟩, ?_, _, rfl, ?_⟩
    · simp [round, pendingRound, byteByByte, hlength]
    · rw [length_moveRest first (by omega), hlength]
  exact ⟨byteByByte_takes, by decide, hspins, fun h => hspins h.1⟩

end IotEdgeAgent.Serial.TransmitLoop
