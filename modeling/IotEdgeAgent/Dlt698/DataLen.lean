import IotEdgeAgent.Library.ByteWalk

/-!
# The recursive length functions of the DL/T 698.45 library

`dwDlt698Len`, `dwDlt698MsLen`, `dwDlt698RSDLen` and `dwDlt698DataLen` as the
library computes them. A pointer is the list of the bytes behind it; the pair
`Ptr += k; Len += k` is one `step`, with the 16-bit counter `Len` reduced after
every addition while the pointer is not. Reading behind the end of the memory
is a `fault`, the return value -1 is a `reject`.

`dwDlt698DataLen` calls itself through the other two. `dataLenFuel` bounds the
depth of these calls; every call is made on memory shorter than its caller's, so
the length of the memory is always enough.
-/

namespace IotEdgeAgent.Dlt698.DataLen
open ByteWalk

inductive DltData
  | null | array | struct | bool | bitStr | dLong | dLongUns | octetStr | visibleStr | utf8Str
  | integer | long | charUns | longUns | long64 | long64Uns | enum | float32 | float64
  | dateTime | date | time | dateTimeS | oi | oad | road | omd | ti | tsa | mac | rn | region
  | scalerUnit | rsd | csd | ms | sid | sidMac | comdcb | rcsd
  deriving DecidableEq, Repr

def DltData.code : DltData → UInt8
  | .null => 0 | .array => 1 | .struct => 2 | .bool => 3 | .bitStr => 4 | .dLong => 5
  | .dLongUns => 6 | .octetStr => 9 | .visibleStr => 10 | .utf8Str => 12 | .integer => 15
  | .long => 16 | .charUns => 17 | .longUns => 18 | .long64 => 20 | .long64Uns => 21
  | .enum => 22 | .float32 => 23 | .float64 => 24 | .dateTime => 25 | .date => 26 | .time => 27
  | .dateTimeS => 28 | .oi => 80 | .oad => 81 | .road => 82 | .omd => 83 | .ti => 84
  | .tsa => 85 | .mac => 86 | .rn => 87 | .region => 88 | .scalerUnit => 89 | .rsd => 90
  | .csd => 91 | .ms => 92 | .sid => 93 | .sidMac => 94 | .comdcb => 95 | .rcsd => 96

def DltData.ofByte (b : UInt8) : Option DltData :=
  match b.toNat with
  | 0 => some .null | 1 => some .array | 2 => some .struct | 3 => some .bool | 4 => some .bitStr
  | 5 => some .dLong | 6 => some .dLongUns | 9 => some .octetStr | 10 => some .visibleStr
  | 12 => some .utf8Str | 15 => some .integer | 16 => some .long | 17 => some .charUns
  | 18 => some .longUns | 20 => some .long64 | 21 => some .long64Uns | 22 => some .enum
  | 23 => some .float32 | 24 => some .float64 | 25 => some .dateTime | 26 => some .date
  | 27 => some .time | 28 => some .dateTimeS | 80 => some .oi | 81 => some .oad
  | 82 => some .road | 83 => some .omd | 84 => some .ti | 85 => some .tsa | 86 => some .mac
  | 87 => some .rn | 88 => some .region | 89 => some .scalerUnit | 90 => some .rsd
  | 91 => some .csd | 92 => some .ms | 93 => some .sid | 94 => some .sidMac
  | 95 => some .comdcb | 96 => some .rcsd | _ => none

theorem DltData.ofByte_code (t : DltData) : DltData.ofByte t.code = some t := by
  cases t <;> rfl

def byteAt (buf : List UInt8) (i : ℕ) : Except Stop ℕ :=
  match buf[i]? with
  | some b => .ok b.toNat
  | none => .error .fault

def dwDlt698Len (ucRcvBuf : List UInt8) : Except Stop (ℕ × ℕ) := do
  let b0 ← byteAt ucRcvBuf 0
  if b0 &&& 0x80 = 0 then
    return (b0, 1)
  let bytes := b0 &&& 0x7F
  if bytes = 1 then
    return (← byteAt ucRcvBuf 1, 2)
  else if bytes = 2 then
    return ((← byteAt ucRcvBuf 1) <<< 8 ||| (← byteAt ucRcvBuf 2), 3)
  else if bytes = 3 then
    -- the source joins the low byte with `&`, not `|`
    return (((← byteAt ucRcvBuf 1) <<< 16 ||| (← byteAt ucRcvBuf 2) <<< 8) &&&
      (← byteAt ucRcvBuf 3), 4)
  else if bytes = 4 then
    return ((((← byteAt ucRcvBuf 1) <<< 24 ||| (← byteAt ucRcvBuf 2) <<< 16) &&&
      (← byteAt ucRcvBuf 3) <<< 8) &&& (← byteAt ucRcvBuf 4), 5)
  else
    throw .reject

abbrev lenModulus : ℕ := 65536

def step (k : ℕ) : Walk UInt8 := skip lenModulus k

def varLen (body : ℕ → Walk UInt8) : Walk UInt8 := field lenModulus dwDlt698Len body

def octets : Walk UInt8 := varLen step

/-- `for (i = 0; i < varLen; i++)` behind a count field. -/
def sequenceOf (w : Walk UInt8) : Walk UInt8 := varLen (loop w)

section
variable (dataLen : Measure UInt8) (dwRcvLen : ℤ)

/-- `if ((Res = dwDlt698DataLen(Ptr, dwRcvLen - Len)) < 0) return -1;` -/
def data : Walk UInt8 := nested lenModulus dataLen 0 dwRcvLen

/-- The element of an array or structure, where a result of 0 is refused too. -/
def element : Walk UInt8 := nested lenModulus dataLen 1 dwRcvLen

def msChoice (choice : UInt8) : Walk UInt8 :=
  match choice.toNat with
  | 0 | 1 => step 0
  | 2 => sequenceOf (step 1)
  | 3 => sequenceOf octets
  | 4 => sequenceOf (step 2)
  | 5 | 6 | 7 =>
    sequenceOf (andThen (step 1) (andThen (data dataLen dwRcvLen) (data dataLen dwRcvLen)))
  | _ => refuse

end

def dwDlt698MsLen (dataLen : Measure UInt8) : Measure UInt8 := fun ucRcvBuf dwRcvLen =>
  measureWith (branch fun choice => andThen (step 1) (msChoice dataLen dwRcvLen choice))
    ucRcvBuf dwRcvLen

section
variable (dataLen : Measure UInt8) (dwRcvLen : ℤ)

def meterSet : Walk UInt8 := nested lenModulus (dwDlt698MsLen dataLen) 0 dwRcvLen

def selection : Walk UInt8 :=
  andThen (step 4) (andThen (data dataLen dwRcvLen)
    (andThen (data dataLen dwRcvLen) (data dataLen dwRcvLen)))

def rsdChoice (choice : UInt8) : Walk UInt8 :=
  match choice.toNat with
  | 0 => step 0
  | 1 => andThen (step 4) (data dataLen dwRcvLen)
  | 2 => selection dataLen dwRcvLen
  | 3 => sequenceOf (selection dataLen dwRcvLen)
  | 4 | 5 => andThen (step 7) (meterSet dataLen dwRcvLen)
  | 6 | 7 | 8 =>
    andThen (step 7) (andThen (step 7) (andThen (step 3) (meterSet dataLen dwRcvLen)))
  | 9 => step 1
  | 10 => andThen (step 1) (meterSet dataLen dwRcvLen)
  | _ => refuse

end

def dwDlt698RSDLen (dataLen : Measure UInt8) : Measure UInt8 := fun ucRcvBuf dwRcvLen =>
  measureWith (branch fun choice => andThen (step 1) (rsdChoice dataLen dwRcvLen choice))
    ucRcvBuf dwRcvLen

section
variable (dataLen : Measure UInt8) (dwRcvLen : ℤ)

/-- The column selection of `DL_CSD` and `DL_RCSD`, behind its choice byte. -/
def csdChoice (choice : UInt8) : Walk UInt8 :=
  match choice.toNat with
  | 0 => step 4
  | 1 => andThen (step 4) (sequenceOf (andThen (within dwRcvLen) (step 4)))
  | _ => refuse

def columnSelection : Walk UInt8 :=
  branch fun choice => andThen (step 1) (csdChoice dwRcvLen choice)

def dataContents : DltData → Walk UInt8
  | .null => step 0
  | .array | .struct => sequenceOf (element dataLen dwRcvLen)
  | .bool => step 1
  | .bitStr => varLen fun bits => if bits % 8 = 0 then step (bits / 8) else step (bits / 8 + 1)
  | .dLong | .dLongUns => step 4
  | .octetStr | .visibleStr | .utf8Str => octets
  | .integer => step 1
  | .long => step 2
  | .charUns => step 1
  | .longUns => step 2
  | .long64 | .long64Uns => step 8
  | .enum => step 1
  | .float32 => step 4
  | .float64 => step 8
  | .dateTime => step 10
  | .date => step 5
  | .time => step 3
  | .dateTimeS => step 7
  | .oi => step 2
  | .oad => step 4
  | .road => andThen (step 4) (sequenceOf (step 4))
  | .omd => step 4
  | .ti => step 3
  | .tsa | .mac | .rn => octets
  | .region => andThen (step 1) (andThen (data dataLen dwRcvLen) (data dataLen dwRcvLen))
  | .scalerUnit => andThen (step 1) (step 1)
  | .rsd => nested lenModulus (dwDlt698RSDLen dataLen) 0 dwRcvLen
  | .csd => columnSelection dwRcvLen
  | .ms => meterSet dataLen dwRcvLen
  | .sid => andThen (step 4) octets
  | .sidMac => andThen (step 4) (andThen octets octets)
  | .comdcb => step 5
  | .rcsd => sequenceOf (andThen (within dwRcvLen) (columnSelection dwRcvLen))

def typeContents (b : UInt8) : Walk UInt8 :=
  match DltData.ofByte b with
  | some t => dataContents dataLen dwRcvLen t
  | none => refuse

end

def dataLenBody (dataLen : Measure UInt8) : Measure UInt8 := fun ucRcvBuf dwRcvLen =>
  measureWith (branch fun b => andThen (step 1) (typeContents dataLen dwRcvLen b))
    ucRcvBuf dwRcvLen

def dataLenFuel : ℕ → Measure UInt8
  | 0 => fun _ _ => .error .fault
  | fuel + 1 => dataLenBody (dataLenFuel fuel)

def dwDlt698DataLen : Measure UInt8 := fun ucRcvBuf dwRcvLen =>
  dataLenFuel (ucRcvBuf.length + 1) ucRcvBuf dwRcvLen

theorem byteAt_persists {b b' : List UInt8} {i v : ℕ} (hb : b <+: b') (h : byteAt b i = .ok v) :
    byteAt b' i = .ok v := by
  obtain ⟨rest, rfl⟩ := hb
  unfold byteAt at h ⊢
  split at h
  · rename_i x hx
    have hi : i < b.length := (List.getElem?_eq_some_iff.mp hx).1
    rw [List.getElem?_append_left hi, hx]
    exact h
  · cases h

theorem dwDlt698Len_short {b : UInt8} (h : b.toNat < 128) (rest : List UInt8) :
    dwDlt698Len (b :: rest) = .ok (b.toNat, 1) := by
  have hbit : b.toNat &&& 0x80 = 0 := by
    have hall : ∀ n < 128, n &&& 0x80 = 0 := by decide
    exact hall _ h
  simp [dwDlt698Len, byteAt, hbit, bind, Except.bind, pure, Except.pure]

theorem dwDlt698Len_persists : ReadPersists dwDlt698Len := by
  intro b b' r hb h
  have hbyte : ∀ (i : ℕ) {f g : ℕ → Except Stop (ℕ × ℕ)}, (∀ v, f v = .ok r → g v = .ok r) →
      (byteAt b i).bind f = .ok r → (byteAt b' i).bind g = .ok r := by
    intro i f g hfg hi
    obtain ⟨v, hv, hrest⟩ := bind_eq_ok hi
    rw [byteAt_persists hb hv]
    exact hfg v hrest
  refine hbyte 0 (fun b0 h0 => ?_) h
  dsimp only at h0 ⊢
  split_ifs at h0 ⊢
  · exact h0
  · exact hbyte 1 (fun _ => id) h0
  · exact hbyte 1 (fun _ => hbyte 2 fun _ => id) h0
  · exact hbyte 1 (fun _ => hbyte 2 fun _ => hbyte 3 fun _ => id) h0
  · exact hbyte 1 (fun _ => hbyte 2 fun _ => hbyte 3 fun _ => hbyte 4 fun _ => id) h0

example : dwDlt698DataLen [1, 2, 5, 0, 0, 0, 1, 18, 0, 7, 0xAA] 256 = .ok 10 := by decide

end IotEdgeAgent.Dlt698.DataLen
