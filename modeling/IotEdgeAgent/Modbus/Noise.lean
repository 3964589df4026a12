import IotEdgeAgent.Dlt698.BurstErrors
import IotEdgeAgent.Modbus.Exchange

/-!
# Calls over a line with noise

A disturbance of up to 16 consecutive bits of a frame, its checksum included, is found by the
slave and by the master. So a disturbed request is not performed, and from a disturbed response
nothing is learned.
-/

namespace IotEdgeAgent.Modbus.Noise
open Dlt698.FcsTable (bitsOf low_bit byte_word byte_shifted_out)
open Dlt698.BurstErrors (length_of_burst)
open Dlt698.LinkFrame (lowByte highByte)
open Master (ModbusError ModbusMaster crcBit crcByte modbusCRC wordBytes)
open Response (Message Reception noData modbusParseResponse checksumOk)
open Crc (Burst)
open Calls (Call)
open Device (Memory Request Data)
open Exchange (messageOf requestOf received learned)
open Refinement (answers steps)
open Slave (ModbusSlave ModbusSlaveUserFunction ModbusExceptionCode modbusParseRequest
  WellFormed memoryOf frameOf)

def polynomial : BitVec 16 := 0xA001#16

theorem crcBit_toBitVec (crc : UInt16) :
    (crcBit crc).toBitVec = Crc.step polynomial crc.toBitVec := by
  have hlow : crc &&& 1 ≠ 0 ↔ crc.toBitVec.getLsbD 0 = true := by
    rw [Ne, ← UInt16.toBitVec_inj, low_bit]
    cases crc.toBitVec.getLsbD 0 <;> decide
  rw [crcBit, Crc.step]
  by_cases h : crc.toBitVec.getLsbD 0 = true
  · rw [if_pos (hlow.mpr h), if_pos h]
    rfl
  · rw [if_neg (mt hlow.mp h), if_neg h]
    rfl

theorem crcBits_toBitVec (n : ℕ) (crc : UInt16) :
    (crcBit^[n] crc).toBitVec = Crc.steps polynomial n crc.toBitVec := by
  induction n generalizing crc with
  | zero => rfl
  | succ n ih => rw [Function.iterate_succ_apply, ih, crcBit_toBitVec, Crc.steps]

theorem crcByte_toBitVec (crc : UInt16) (b : UInt8) :
    (crcByte crc b).toBitVec =
      Crc.feed polynomial crc.toBitVec ((List.range 8).map b.toBitVec.getLsbD) := by
  have hshort : ((List.range 8).map b.toBitVec.getLsbD).length ≤ 16 := by simp
  rw [crcByte, crcBits_toBitVec, Crc.feed_eq_steps polynomial hshort, byte_word,
    UInt16.toBitVec_xor, List.length_map, List.length_range]

theorem foldl_crcByte_toBitVec (crc : UInt16) (bytes : List UInt8) :
    (bytes.foldl crcByte crc).toBitVec = Crc.feed polynomial crc.toBitVec (bitsOf bytes) := by
  induction bytes generalizing crc with
  | nil => rfl
  | cons b bytes ih =>
    rw [List.foldl_cons, ih, crcByte_toBitVec, ← Crc.feed_append]
    rfl

theorem low_bits_cleared (crc : UInt16) {i : ℕ} (hi : i < 8) :
    (crc ^^^ (lowByte crc).toUInt16).toBitVec.getLsbD i = false := by
  have hlow : (lowByte crc).toUInt16.toBitVec =
      ((crc.toBitVec &&& 0xff#16).setWidth 8).setWidth 16 := rfl
  have hmask : (0xff#16).getLsbD i = true := by
    have hall : ∀ k < 8, (0xff#16).getLsbD k = true := by decide
    exact hall i hi
  rw [UInt16.toBitVec_xor, hlow, BitVec.getLsbD_xor, BitVec.getLsbD_setWidth,
    BitVec.getLsbD_setWidth, BitVec.getLsbD_and, hmask, decide_eq_true hi,
    decide_eq_true (Nat.lt_trans hi (by decide : 8 < 16)), Bool.and_true, Bool.true_and,
    Bool.true_and, Bool.xor_self]

theorem crc_residue (crc : UInt16) : (wordBytes crc).foldl crcByte crc = 0 := by
  have hfirst : crcByte crc (lowByte crc) = (highByte crc).toUInt16 := by
    apply UInt16.toBitVec_inj.mp
    rw [crcByte, crcBits_toBitVec, Crc.steps_of_low polynomial fun i hi => low_bits_cleared crc hi,
      byte_shifted_out]
    apply BitVec.eq_of_toNat_eq
    have hsmall : crc.toNat / 256 < 256 := by
      have hcrc := crc.toNat_lt
      omega
    have hhigh : (highByte crc).toNat = crc.toNat / 256 := by
      rw [highByte, UInt16.toNat_toUInt8, UInt16.toNat_shiftRight]
      change crc.toNat >>> 8 % 256 = _
      rw [Nat.shiftRight_eq_div_pow]
      exact Nat.mod_eq_of_lt hsmall
    rw [BitVec.toNat_ushiftRight, Nat.shiftRight_eq_div_pow]
    exact hhigh.symm
  change crcByte (crcByte crc (lowByte crc)) (highByte crc) = 0
  rw [hfirst, crcByte, UInt16.xor_self]
  rfl

theorem crc_zero {frame : List UInt8} (h : checksumOk frame = true) :
    frame.foldl crcByte 0xFFFF = 0 := by
  have hsum : frame.drop (frame.length - 2) =
      wordBytes (modbusCRC (frame.take (frame.length - 2))) := eq_of_beq h
  have hsplit := List.take_append_drop (frame.length - 2) frame
  rw [hsum] at hsplit
  rw [← hsplit, List.foldl_append]
  exact crc_residue _

theorem checksum_burst {frame frame' : List UInt8} (h : checksumOk frame = true)
    (hburst : Burst 16 (bitsOf frame) (bitsOf frame')) : checksumOk frame' = false := by
  by_contra hok
  have hsame := (crc_zero h).trans (crc_zero (Bool.not_eq_false _ ▸ hok)).symm
  have hbits := congrArg UInt16.toBitVec hsame
  rw [foldl_crcByte_toBitVec, foldl_crcByte_toBitVec] at hbits
  have hpoly : polynomial.msb = true := by decide
  exact Crc.feed_ne_of_burst hpoly hburst _ hbits

section
variable {frame frame' : List UInt8} {length : UInt8}

theorem slave_refuses (h : checksumOk frame = true)
    (hburst : Burst 16 (bitsOf frame) (bitsOf frame')) (hlength : length.toNat = frame.length)
    (hlong : 4 ≤ frame.length) (userFunctions : List ModbusSlaveUserFunction) (s : ModbusSlave) :
    modbusParseRequest userFunctions true { s with request := ⟨some frame', length⟩ } =
      some (.parse, { s with
        request := ⟨some frame', length⟩
        response := ⟨none, 0⟩
        parseError := .crc }) := by
  have hsame : length.toNat = frame'.length := hlength.trans (length_of_burst hburst)
  have hfour : ¬ length < 4 := by
    rw [UInt8.lt_iff_toNat_lt, hlength]
    exact Nat.not_lt.mpr hlong
  unfold modbusParseRequest
  dsimp only
  rw [if_neg hfour, hsame, if_neg (Nat.lt_irrefl _), List.take_length, checksum_burst h hburst,
    if_pos (by decide)]

theorem master_refuses {address : UInt8} {call : Call} (hcall : call.Good address)
    (h : checksumOk frame = true) (hburst : Burst 16 (bitsOf frame) (bitsOf frame'))
    (hlength : length.toNat = frame.length) (hlong : 4 ≤ frame.length) :
    ∃ after, modbusParseResponse true (received address call ⟨some frame', length⟩) =
      some (.parse, after) := by
  have hbytes := Calls.bytes_length address call
  have hrequest := Exchange.message_length hcall
  have hsame : length.toNat = frame'.length := hlength.trans (length_of_burst hburst)
  have hfour : ¬ (length < 4 ∨ (messageOf address call).length < 4) := by
    rw [UInt8.lt_iff_toNat_lt, UInt8.lt_iff_toNat_lt, hlength, hrequest, hbytes]
    change ¬ (frame.length < 4 ∨ call.body.length + 4 < 4)
    omega
  have hframe : (messageOf address call).frame = some (call.bytes address) := rfl
  refine ⟨{ received address call ⟨some frame', length⟩ with parseError := .crc }, ?_⟩
  unfold modbusParseResponse received
  dsimp only
  rw [hframe]
  dsimp only
  rw [if_neg hfour, hrequest, hsame, if_neg (by omega : ¬ (frame'.length < frame'.length ∨
      (call.bytes address).length < (call.bytes address).length)), List.take_length,
    List.take_length, checksum_burst h hburst, if_pos (by rfl)]

end

def carry (noise : Option (List UInt8 → List UInt8)) (message : Message) : Message :=
  match noise with
  | none => message
  | some disturb => { message with frame := message.frame.map disturb }

def Bursts (noise : Option (List UInt8 → List UInt8)) : Prop :=
  ∀ disturb, noise = some disturb →
    ∀ frame, frame ≠ [] → Burst 16 (bitsOf frame) (bitsOf (disturb frame))

structure Trip where
  number : ℕ
  call : Call
  there : Option (List UInt8 → List UInt8)
  back : Option (List UInt8 → List UInt8)

/-- If the slave does not answer, the master has nothing to parse. -/
def noisyExchange (userFunctions : List ModbusSlaveUserFunction) (address : UInt8)
    (s : ModbusMaster × ModbusSlave) (trip : Trip) :
    Option (Option (ModbusError × Reception) × ModbusMaster × ModbusSlave) := do
  let (_, master) ← trip.call.build s.1 (some trip.number) address
  let (_, slave) ← modbusParseRequest userFunctions true
    { s.2 with request := carry trip.there (requestOf master) }
  if slave.response.length = 0 then return (none, master, slave)
  else
    let result ← modbusParseResponse true
      ⟨requestOf master, carry trip.back slave.response, noData, ⟨0, 0, 0⟩, .ok⟩
    return (some result, master, slave)

def heard (result : Option (ModbusError × Reception)) : Option (Except ModbusExceptionCode Data) :=
  result.bind learned

/-- A memory behind a line that may lose a request, or the answer to it. -/
def overLine (memory : Memory) (asked : Request × Bool × Bool) :
    Option (Except ModbusExceptionCode Data) × Memory :=
  if asked.2.1 then
    (if asked.2.2 then some (memory.perform asked.1).1 else none, (memory.perform asked.1).2)
  else (none, memory)

namespace Trip

structure Real (address : UInt8) (userFunctions : List ModbusSlaveUserFunction) (trip : Trip) :
    Prop where
  good : trip.call.Good address
  plain : ∀ user ∈ userFunctions, user.function ≠ trip.call.function
  there : Bursts trip.there
  back : Bursts trip.back

def asked (trip : Trip) : Request × Bool × Bool :=
  (trip.call.request, trip.there.isNone, trip.back.isNone)

end Trip

section
variable {address : UInt8} {userFunctions : List ModbusSlaveUserFunction}
  {s : ModbusMaster × ModbusSlave} {trip : Trip}

theorem noisyExchange_eq (h : trip.call.Good address) :
    ∃ master, noisyExchange userFunctions address s trip =
      (modbusParseRequest userFunctions true
        { s.2 with request := carry trip.there (messageOf address trip.call) }).bind fun outcome =>
          if outcome.2.response.length = 0 then some (none, master, outcome.2)
          else (modbusParseResponse true (received address trip.call
            (carry trip.back outcome.2.response))).bind fun result =>
              some (some result, master, outcome.2) := by
  obtain ⟨master, hbuild, hmessage⟩ := Exchange.message_sent h trip.number s.1
  refine ⟨master, ?_⟩
  rw [noisyExchange, hbuild]
  change (modbusParseRequest userFunctions true
    { s.2 with request := carry trip.there (requestOf master) }).bind _ = _
  rw [hmessage]
  rfl

theorem noisy_performs (h : trip.Real address userFunctions) (haddress : address ≠ 0)
    (hs : WellFormed s.2) (hslave : s.2.address = address) :
    ∃ result t, noisyExchange userFunctions address s trip = some (result, t) ∧
      Slave.Follows s.2 t.2 ∧
      overLine (memoryOf s.2) trip.asked = (heard result, memoryOf t.2) := by
  obtain ⟨master, hnoisy⟩ := @noisyExchange_eq address userFunctions s trip h.good
  cases hthere : trip.there with
  | some disturb =>
    have hbytes := Calls.bytes_length address trip.call
    have hburst := h.there disturb hthere (trip.call.bytes address) (List.cons_ne_nil _ _)
    have hrefused := slave_refuses (Response.checksumOk_append _) hburst
      (Exchange.message_length h.good) (hbytes ▸ Nat.le_add_left 4 _) userFunctions s.2
    rw [hthere] at hnoisy
    refine ⟨none, (master, _), hnoisy.trans ((congrArg (Option.bind · _) hrefused).trans rfl),
      ⟨{ hs with }, rfl⟩, ?_⟩
    rw [overLine, Trip.asked, hthere]
    rfl
  | none =>
    obtain ⟨error, after, hparse, hanswered⟩ :=
      Exchange.call_answered h.good haddress h.plain hs hslave
    obtain ⟨body, hbody, htwo, hmost⟩ := hanswered.response
    obtain ⟨result, answer, hresult, hlearned, hperform⟩ := hanswered.learned
    have hlength : (frameOf body).length.toNat = body.length + 2 := by
      rw [frameOf, UInt8.toNat_ofNat', Nat.mod_eq_of_lt (by omega)]
    have hanswer : ¬ after.response.length = 0 := by
      rw [hbody, ← UInt8.toNat_inj, hlength]
      exact Nat.succ_ne_zero _
    have hsent : noisyExchange userFunctions address s trip =
        (modbusParseResponse true (received address trip.call
          (carry trip.back after.response))).bind fun result =>
            some (some result, master, after) := by
      rw [hnoisy, hthere]
      refine (congrArg (Option.bind · _) hparse).trans ?_
      exact if_neg hanswer
    cases hback : trip.back with
    | none =>
      refine ⟨some result, (master, after), ?_, hanswered.follows, ?_⟩
      · rw [hsent, hback]
        exact congrArg (Option.bind · _) hresult
      · rw [overLine, Trip.asked, hthere, hback]
        change (some ((memoryOf s.2).perform trip.call.request).1,
          ((memoryOf s.2).perform trip.call.request).2) = _
        rw [hperform, heard, Option.bind_some, hlearned]
    | some disturb =>
      have hframe : (body ++ wordBytes (modbusCRC body)).length = body.length + 2 :=
        List.length_append
      have hburst := h.back disturb hback (body ++ wordBytes (modbusCRC body))
        (fun hnil => by rw [hnil] at hframe; cases hframe)
      obtain ⟨after', hrefused⟩ := master_refuses h.good (Response.checksumOk_append body) hburst
        (hlength.trans hframe.symm) (hframe ▸ Nat.add_le_add_right htwo 2)
      refine ⟨some (.parse, after'), (master, after), ?_, hanswered.follows, ?_⟩
      · rw [hsent, hback, hbody]
        exact congrArg (Option.bind · _) hrefused
      · rw [overLine, Trip.asked, hthere, hback]
        change (none, ((memoryOf s.2).perform trip.call.request).2) = _
        rw [hperform]
        rfl

/-- Over a line with bursts just the requests that arrive are performed, and what the master hears
are their answers. -/
theorem noisy_calls_performed (haddress : address ≠ 0) (hs : WellFormed s.2)
    (hslave : s.2.address = address) {trips : List Trip}
    (htrips : ∀ trip ∈ trips, trip.Real address userFunctions) :
    ∃ results t, steps (noisyExchange userFunctions address) s trips = some (results, t) ∧
      answers overLine (memoryOf s.2) (trips.map Trip.asked) =
        (results.map heard, memoryOf t.2) := by
  have hstep : ∀ (t : ModbusMaster × ModbusSlave) (trip : Trip),
      (WellFormed t.2 ∧ t.2.address = address) → trip.Real address userFunctions →
      ∃ result u, noisyExchange userFunctions address t trip = some (result, u) ∧
        (WellFormed u.2 ∧ u.2.address = address) ∧
        overLine (memoryOf t.2) trip.asked = (heard result, memoryOf u.2) := by
    intro t trip ht htrip
    obtain ⟨result, u, hexchange, hfollows, hperform⟩ := noisy_performs htrip haddress ht.1 ht.2
    exact ⟨result, u, hexchange,
      ⟨hfollows.wellFormed, hfollows.address.trans ht.2⟩, hperform⟩
  obtain ⟨results, t, hsteps, -, hanswers⟩ := Refinement.steps_answer hstep ⟨hs, hslave⟩ htrips
  exact ⟨results, t, hsteps, hanswers⟩

def flipFirst : List UInt8 → List UInt8
  | [] => []
  | b :: bytes => (b ^^^ 1) :: bytes

theorem flipFirst_burst {frame : List UInt8} (h : frame ≠ []) :
    Burst 16 (bitsOf frame) (bitsOf (flipFirst frame)) := by
  obtain ⟨b, bytes, rfl⟩ := List.exists_cons_of_ne_nil h
  have hsplit : ∀ c : UInt8, bitsOf (c :: bytes) =
      (List.range 8).map c.toBitVec.getLsbD ++ bitsOf bytes := fun _ => rfl
  have height : ∀ c : UInt8, ((List.range 8).map c.toBitVec.getLsbD).length = 8 := by
    intro c
    rw [List.length_map, List.length_range]
  change Burst 16 (bitsOf (b :: bytes)) (bitsOf ((b ^^^ 1) :: bytes))
  rw [hsplit, hsplit]
  refine ⟨?_, fun hsame => ?_, 0, fun i hi => ⟨Nat.zero_le i, ?_⟩⟩
  · rw [List.length_append, List.length_append, height, height]
  · have hfirst : b.toBitVec.getLsbD 0 = (b ^^^ 1).toBitVec.getLsbD 0 :=
      (List.cons.inj hsame).1
    rw [UInt8.toBitVec_xor, BitVec.getLsbD_xor] at hfirst
    change b.toBitVec.getLsbD 0 = (b.toBitVec.getLsbD 0 ^^ true) at hfirst
    rw [Bool.xor_true] at hfirst
    exact Bool.not_ne_self _ hfirst.symm
  · by_contra hlate
    apply hi
    rw [List.getElem?_append_right (by rw [height]; omega),
      List.getElem?_append_right (by rw [height]; omega), height, height]

def threeTrips : List Trip :=
  [⟨0, .request06 1 5, none, some flipFirst⟩, ⟨1, .request06 1 6, some flipFirst, none⟩,
    ⟨2, .request0304 3 0 2, none, none⟩]

theorem threeTrips_real : ∀ trip ∈ threeTrips, trip.Real 1 [] := by
  have hnone : Bursts none := fun _ h => by cases h
  have hflip : Bursts (some flipFirst) := fun disturb h frame hframe => by
    cases h
    exact flipFirst_burst hframe
  exact List.forall_mem_cons.mpr ⟨⟨trivial, fun _ h => (by cases h), hnone, hflip⟩,
    List.forall_mem_cons.mpr ⟨⟨trivial, fun _ h => (by cases h), hflip, hnone⟩,
      List.forall_mem_cons.mpr ⟨⟨⟨Or.inl rfl, by decide, by decide⟩,
        fun _ h => (by cases h), hnone, hnone⟩, List.forall_mem_nil _⟩⟩⟩

theorem noisy_calls_performed_threeTrips :
    ∃ results t, steps (noisyExchange [] 1) Exchange.onLine threeTrips = some (results, t) ∧
      answers overLine (memoryOf Exchange.onLine.2) (threeTrips.map Trip.asked) =
        (results.map heard, memoryOf t.2) :=
  @noisy_calls_performed 1 [] Exchange.onLine (by decide) Slave.twoRegisters_wellFormed rfl
    threeTrips threeTrips_real

end

end IotEdgeAgent.Modbus.Noise
