import IotEdgeAgent.Modbus.SlaveRequests

/-!
# Frames of any kind

Whatever frames arrive, with any bytes in any order, the slave stays inside of its arrays, its
memory is one that requests lead to, and what it sends is well formed.
-/

namespace IotEdgeAgent.Modbus.Slave
open Master (ModbusError ModbusFrameError wordBytes modbusCRC)
open Response (Message checksumOk modbusBitsToBytes)
open Device (Memory Request Data Kept)
open Refinement (steps)

structure Arrival where
  request : Message
  allocated : Bool

def Arrival.Whole (arrival : Arrival) : Prop :=
  ∀ frame, arrival.request.frame = some frame → arrival.request.length.toNat ≤ frame.length

/-- Nothing is sent, or a frame of the slave with its checksum. -/
def Proper (address : UInt8) (response : Message) : Prop :=
  response.length = 0 ∨ ∃ frame, response.frame = some frame ∧
    frame.length = response.length.toNat ∧ frame.head? = some address ∧ checksumOk frame = true

structure Allowed (before after : ModbusSlave) : Prop where
  follows : Follows before after
  proper : Proper before.address after.response
  requests : ∃ requests, memoryOf after = ((memoryOf before).run requests).2

/-- The functions of the user work through requests as well. -/
def Obedient (userFunctions : List ModbusSlaveUserFunction) : Prop :=
  ∀ user ∈ userFunctions, ∀ handler, user.handler = some handler → ∀ s parser, WellFormed s →
    ∃ error after, handler s parser = some (error, after) ∧ Allowed s after

theorem proper_frameOf {address : UInt8} {body : List UInt8} (h : body.length ≤ 252) :
    Proper address (frameOf (address :: body)) := by
  refine Or.inr ⟨_, rfl, ?_, rfl, Response.checksumOk_append _⟩
  rw [frameOf, List.length_append, List.length_cons, UInt8.toNat_ofNat',
    Nat.mod_eq_of_lt (by omega)]
  rfl

section
variable {s after : ModbusSlave} {allocated : Bool} {address function : UInt8}
  {parser : List UInt8}

theorem Allowed.refl_of {after : ModbusSlave} (hs : WellFormed after)
    (haddress : after.address = s.address) (hmemory : memoryOf after = memoryOf s)
    (hresponse : Proper s.address after.response) : Allowed s after :=
  ⟨⟨hs, haddress⟩, hresponse, [], hmemory⟩

def cleared (s : ModbusSlave) : ModbusSlave :=
  { s with response := ⟨none, 0⟩, parseError := .ok }

theorem Allowed.of_cleared (h : Allowed (cleared s) after) : Allowed s after :=
  ⟨⟨h.follows.wellFormed, h.follows.address⟩, h.proper, h.requests⟩

theorem exceptionErr_allowed (hs : WellFormed s) (hidle : s.response.length = 0)
    (code : ModbusExceptionCode) (error : ModbusFrameError) :
    Allowed s (modbusBuildExceptionErr s allocated function code error).2 := by
  unfold modbusBuildExceptionErr modbusBuildException
  dsimp only
  by_cases hall : s.request.frame.bind List.head? = some 0
  · rw [if_pos hall]
    exact .refl_of { hs with } rfl rfl (Or.inl rfl)
  · rw [if_neg hall]
    cases allocated with
    | false => exact .refl_of { hs with } rfl rfl (Or.inl hidle)
    | true => exact .refl_of { hs with } rfl rfl (proper_frameOf (Nat.le_of_ble_eq_true rfl))

theorem carries_small {memory memory' : Memory} {request : Request} {data : Data}
    {payload : List UInt8} (hperform : memory.perform request = (.ok data, memory'))
    (hcarries : Carries function parser payload data) : payload.length ≤ 251 := by
  have hsmall := Device.perform_small hperform
  cases data with
  | bits list =>
    obtain ⟨values, rfl, hvalues, -⟩ := hcarries
    rw [Device.Small] at hsmall
    rw [List.length_cons]
    omega
  | words list =>
    rw [Device.Small] at hsmall
    rw [show payload = _ from hcarries, List.length_cons, wordsBytes, Response.values_length]
    omega
  | done =>
    rw [show payload = _ from hcarries, List.length_take]
    split <;> omega

theorem reacts_allowed (hs : WellFormed s) (hidle : s.response.length = 0)
    {request : Option Request} {error : ModbusError}
    (h : Reacts s allocated address function parser request (error, after)) : Allowed s after := by
  generalize houtcome : (error, after) = outcome at h
  cases h with
  | silent error' hall hread =>
    cases houtcome
    exact .refl_of { hs with } rfl rfl (Or.inl hidle)
  | refused error' hrefuses =>
    rw [show after = _ from congrArg Prod.snd houtcome]
    exact exceptionErr_allowed hs hidle _ _
  | starved hstarved =>
    cases houtcome
    exact .refl_of { hs with } rfl rfl (Or.inl hidle)
  | performed hallocated hperform hcarries hfollows hbroadcast hresponse =>
    cases houtcome
    refine ⟨hfollows, ?_, [_], (congrArg Prod.snd hperform).symm⟩
    by_cases hall : address = 0
    · exact Or.inl (hbroadcast hall)
    · rw [hresponse hall]
      refine proper_frameOf ?_
      have hsmall := carries_small hperform hcarries
      rw [List.length_cons]
      omega

theorem modbusParseRequest_allowed {userFunctions : List ModbusSlaveUserFunction}
    (husers : Obedient userFunctions) (hs : WellFormed s)
    (hwhole : ∀ frame, s.request.frame = some frame → s.request.length.toNat ≤ frame.length) :
    ∃ error after, modbusParseRequest userFunctions allocated s = some (error, after) ∧
      Allowed s after := by
  unfold modbusParseRequest
  dsimp only
  cases hframe : s.request.frame with
  | none => exact ⟨_, _, rfl, .refl_of { hs with } rfl rfl (Or.inl rfl)⟩
  | some frame =>
    dsimp only
    have hbytes := hwhole frame hframe
    by_cases hshort : s.request.length < 4
    · rw [if_pos hshort]
      exact ⟨_, _, rfl, .refl_of { hs with } rfl rfl (Or.inl rfl)⟩
    rw [if_neg hshort, if_neg (Nat.not_lt.mpr hbytes)]
    by_cases hcrc : (!checksumOk (frame.take s.request.length.toNat)) = true
    · rw [if_pos hcrc]
      exact ⟨_, _, rfl, .refl_of { hs with } rfl rfl (Or.inl rfl)⟩
    rw [if_neg hcrc]
    have hlength : (frame.take s.request.length.toNat).length = s.request.length.toNat := by
      rw [List.length_take, Nat.min_eq_left hbytes]
    rw [UInt8.lt_iff_toNat_lt] at hshort
    generalize frame.take s.request.length.toNat = parser at hlength
    match parser, hlength with
    | [], hlength => exact absurd (hlength ▸ Nat.zero_lt_succ 3) hshort
    | [_], hlength => exact absurd (hlength ▸ Nat.succ_lt_succ (Nat.zero_lt_succ 2)) hshort
    | address :: function :: fields, hlength =>
      dsimp only
      have hclear : WellFormed (cleared s) := { hs with }
      by_cases hforeign : address ≠ s.address ∧ address ≠ 0
      · rw [if_pos hforeign]
        exact ⟨_, _, rfl, .refl_of { hs with } rfl rfl (Or.inl rfl)⟩
      rw [if_neg hforeign]
      cases hfind : userFunctions.find? fun user => user.function == function with
      | none =>
        obtain ⟨⟨error, after⟩, houtcome, hreacts⟩ :=
          builtin_reacts (s := cleared s) ⟨hclear, rfl, hlength.symm⟩ allocated
        exact ⟨error, after, houtcome, (reacts_allowed hclear rfl hreacts).of_cleared⟩
      | some user =>
        obtain ⟨number, _ | handler⟩ := user
        · exact ⟨_, _, rfl, (exceptionErr_allowed hclear rfl _ _).of_cleared⟩
        · obtain ⟨error, after, houtcome, hallowed⟩ :=
            husers _ (List.mem_of_find?_eq_some hfind) handler rfl (cleared s)
              (address :: function :: fields) hclear
          exact ⟨error, after, houtcome, hallowed.of_cleared⟩

section
variable {α : Type} {array : Option (List α)} {count : UInt16}

theorem sourceOf_fits {size : UInt16 → ℕ} (h : ∀ xs, array = some xs → xs.length = size count) :
    ∀ xs, (sourceOf array count).1 = some xs → xs.length = size (sourceOf array count).2 := by
  by_cases hnone : count = 0 ∨ array = none
  · rw [sourceOf, if_pos hnone]
    exact fun xs hxs => by cases hxs
  · rw [sourceOf, if_neg hnone]
    exact h

theorem sourceOf_getD (h : ∀ xs, array = some xs → xs.length = count.toNat) :
    (sourceOf array count).1.getD [] = array.getD [] := by
  by_cases hnone : count = 0 ∨ array = none
  · rw [sourceOf, if_pos hnone]
    cases harray : array with
    | none => rfl
    | some xs =>
      obtain hzero | hempty := hnone
      · have hlength := h xs harray
        rw [hzero] at hlength
        exact (List.eq_nil_of_length_eq_zero hlength).symm
      · rw [harray] at hempty
        cases hempty
  · rw [sourceOf, if_neg hnone]

theorem coilsOf_sourceOf (coils : Option (List UInt8)) (count : UInt16) :
    coilsOf (sourceOf coils count).1 (sourceOf coils count).2 = coilsOf coils count := by
  by_cases hnone : count = 0 ∨ coils = none
  · rw [sourceOf, if_pos hnone]
    obtain rfl | rfl := hnone
    · cases coils <;> rfl
    · rfl
  · rw [sourceOf, if_neg hnone]

end

theorem modbusSlaveInit_keeps (hs : WellFormed s) :
    WellFormed (modbusSlaveInit s).2 ∧ memoryOf (modbusSlaveInit s).2 = memoryOf s := by
  unfold modbusSlaveInit
  dsimp only
  by_cases haddress : s.address = 0
  · rw [if_pos haddress]
    exact ⟨{ hs with }, rfl⟩
  rw [if_neg haddress]
  have hcoils := @sourceOf_fits _ _ s.coilCount (fun n => (modbusBitsToBytes n).toNat) hs.coils
  have hdiscrete := @sourceOf_fits _ _ s.discreteInputCount (fun n => (modbusBitsToBytes n).toNat)
    hs.discreteInputs
  constructor
  · exact { hs with
      registers := sourceOf_fits hs.registers
      inputRegisters := sourceOf_fits hs.inputRegisters
      coils := hcoils
      discreteInputs := hdiscrete }
  · simp only [memoryOf, sourceOf_getD hs.registers, sourceOf_getD hs.inputRegisters,
      coilsOf_sourceOf]

def receive (userFunctions : List ModbusSlaveUserFunction) (s : ModbusSlave) (arrival : Arrival) :
    Option ((ModbusError × Message) × ModbusSlave) :=
  (modbusParseRequest userFunctions arrival.allocated { s with request := arrival.request }).map
    fun (error, after) => ((error, after.response), after)

/-- A slave that was set up is well formed and holds what it was given. From there a run of frames
is a run of requests; so what is protected and what is only read stays as it is. -/
theorem frames_keep_memory {userFunctions : List ModbusSlaveUserFunction}
    (husers : Obedient userFunctions) (hs : WellFormed s) {arrivals : List Arrival}
    (hwhole : ∀ arrival ∈ arrivals, arrival.Whole) :
    (WellFormed (modbusSlaveInit s).2 ∧ memoryOf (modbusSlaveInit s).2 = memoryOf s) ∧
    ∃ outputs after, steps (receive userFunctions) s arrivals = some (outputs, after) ∧
      Follows s after ∧ (∀ output ∈ outputs, Proper s.address output.2) ∧
      Kept (memoryOf s) (memoryOf after) ∧
      ∃ requests, memoryOf after = ((memoryOf s).run requests).2 := by
  refine ⟨modbusSlaveInit_keeps hs, ?_⟩
  have hstep : ∀ t arrival, Follows s t → arrival.Whole →
      ∃ output u, receive userFunctions t arrival = some (output, u) ∧ Follows s u ∧
        Proper s.address output.2 ∧
        ∃ requests, memoryOf u = (Refinement.answers Memory.perform (memoryOf t) requests).2 := by
    intro t arrival ht harrival
    obtain ⟨error, u, houtcome, hallowed⟩ :=
      modbusParseRequest_allowed (s := { t with request := arrival.request }) husers
        { ht.wellFormed with } harrival
    refine ⟨(error, u.response), u, ?_,
      ⟨hallowed.follows.wellFormed, hallowed.follows.address.trans ht.address⟩, ?_,
      hallowed.requests⟩
    · rw [receive, houtcome]
      rfl
    · rw [← ht.address]
      exact hallowed.proper
  obtain ⟨outputs, after, hsteps, hafter, hproper, requests, hrequests⟩ :=
    Refinement.steps_run hstep ⟨hs, rfl⟩ hwhole
  refine ⟨outputs, after, hsteps, hafter, hproper, ?_, requests, hrequests⟩
  rw [hrequests]
  exact Kept.run (memoryOf s) requests

def twoRegisters : ModbusSlave where
  address := 1
  registers := some [7, 8]
  inputRegisters := none
  registerMask := some [1]
  registerMaskLength := 1
  registerCount := 2
  inputRegisterCount := 0
  coils := none
  discreteInputs := none
  coilMask := none
  coilMaskLength := 0
  coilCount := 0
  discreteInputCount := 0
  lastException := none
  parseError := .ok
  response := ⟨none, 0⟩
  request := ⟨none, 0⟩

theorem twoRegisters_wellFormed : WellFormed twoRegisters where
  registers := fun _ h => by cases h; rfl
  inputRegisters := fun _ h => by cases h
  registerMask := fun _ h => by cases h; rfl
  coils := fun _ h => by cases h
  discreteInputs := fun _ h => by cases h
  coilMask := fun _ h => by cases h

def bothWritten : List Arrival :=
  [⟨frameOf [1, 6, 0, 0, 0, 5], true⟩, ⟨frameOf [1, 6, 0, 1, 0, 5], true⟩]

theorem bothWritten_whole : ∀ arrival ∈ bothWritten, arrival.Whole :=
  List.forall_mem_cons.mpr ⟨fun _ h => by cases h; exact Nat.le_refl 8,
    List.forall_mem_cons.mpr ⟨fun _ h => by cases h; exact Nat.le_refl 8,
      List.forall_mem_nil _⟩⟩

theorem frames_keep_memory_bothWritten :
    ∃ outputs after, steps (receive []) twoRegisters bothWritten = some (outputs, after) ∧
      Follows twoRegisters after ∧ (∀ output ∈ outputs, Proper twoRegisters.address output.2) ∧
      Kept (memoryOf twoRegisters) (memoryOf after) ∧
      ∃ requests, memoryOf after = ((memoryOf twoRegisters).run requests).2 :=
  (frames_keep_memory (fun _ h => by cases h) twoRegisters_wellFormed bothWritten_whole).2

example : (steps (receive []) twoRegisters bothWritten).map (fun r => r.2.registers) =
    some (some [7, 5]) := by decide +kernel

end

end IotEdgeAgent.Modbus.Slave
