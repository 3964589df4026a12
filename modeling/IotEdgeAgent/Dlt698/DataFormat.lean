import IotEdgeAgent.Dlt698.LengthField
import IotEdgeAgent.Library.ByteFormat

/-!
# The Data format of DL/T 698.45

The abstract side of the length functions. `dataShape` gives, for every type of
`DLT_DATA`, the layout of its contents, and `Prescribes` the number of bytes that
a byte string's own type, count and length fields prescribe, in unbounded
arithmetic. `Term` is the syntax of the values themselves; a value carries the
form in which each of its lengths is written, and a length that does not fit its
form cannot be built.
-/

namespace IotEdgeAgent.Dlt698.DataFormat
open ByteWalk DataLen

/-- A length field in one of the three forms: below 128 in one byte, 0x81 with one
byte, 0x82 with two bytes, high byte first. -/
def lengthField : List UInt8 → Option (ℕ × ℕ)
  | [] => none
  | b :: rest =>
    if b.toNat < 128 then some (b.toNat, 1)
    else match b.toNat, rest with
      | 0x81, b1 :: _ => some (b1.toNat, 2)
      | 0x82, b1 :: b2 :: _ => some (256 * b1.toNat + b2.toNat, 3)
      | _, _ => none

/-- A length field in any of the five forms; 0x83 stands before three bytes, 0x84 before four. -/
def lengthValue : List UInt8 → Option (ℕ × ℕ)
  | [] => none
  | b :: rest =>
    if b.toNat < 128 then some (b.toNat, 1)
    else match b.toNat, rest with
      | 0x81, b1 :: _ => some (b1.toNat, 2)
      | 0x82, b1 :: b2 :: _ => some (256 * b1.toNat + b2.toNat, 3)
      | 0x83, b1 :: b2 :: b3 :: _ => some (65536 * b1.toNat + 256 * b2.toNat + b3.toNat, 4)
      | 0x84, b1 :: b2 :: b3 :: b4 :: _ =>
        some (16777216 * b1.toNat + 65536 * b2.toNat + 256 * b3.toNat + b4.toNat, 5)
      | _, _ => none

def shortLengthValue (b : List UInt8) : Option (ℕ × ℕ) :=
  (lengthValue b).map fun r => if r.2 ≤ 3 then r else (0, r.2)

theorem lengthValue_pos {b : List UInt8} {r : ℕ × ℕ} (h : lengthValue b = some r) : 0 < r.2 := by
  unfold lengthValue at h
  split at h
  · cases h
  · split_ifs at h
    · cases h
      exact Nat.one_pos
    · split at h <;> cases h <;> exact Nat.succ_pos _

theorem shortLengthValue_pos {b : List UInt8} {r : ℕ × ℕ} (h : shortLengthValue b = some r) :
    0 < r.2 := by
  obtain ⟨r', hvalue, rfl⟩ := Option.map_eq_some_iff.mp h
  have hpos := lengthValue_pos hvalue
  split_ifs
  · exact hpos
  · exact hpos

def lengthWidth (b : UInt8) : ℕ :=
  match b.toNat with
  | 0x81 => 2
  | 0x82 => 3
  | 0x83 => 4
  | 0x84 => 5
  | _ => 1

def octetString : Shape UInt8 := .sized id

def roadShape : Shape UInt8 := .seq (.fixed 4) (.counted (.fixed 4))

def regionShape : Shape UInt8 := .seq (.fixed 1) (.seq (.item false) (.item false))

def selectionShape : Shape UInt8 :=
  .seq (.fixed 4) (.seq (.item false) (.seq (.item false) (.item false)))

def msTable (choice : UInt8) : Shape UInt8 :=
  match choice.toNat with
  | 0 | 1 => .fixed 0
  | 2 => .counted (.fixed 1)
  | 3 => .counted octetString
  | 4 => .counted (.fixed 2)
  | 5 | 6 | 7 => .counted regionShape
  | _ => .refused

def msShape : Shape UInt8 := .call (.choice msTable)

def rsdTable (choice : UInt8) : Shape UInt8 :=
  match choice.toNat with
  | 0 => .fixed 0
  | 1 => .seq (.fixed 4) (.item false)
  | 2 => selectionShape
  | 3 => .counted selectionShape
  | 4 | 5 => .seq (.fixed 7) msShape
  | 6 | 7 | 8 => .seq (.fixed 7) (.seq (.fixed 7) (.seq (.fixed 3) msShape))
  | 9 => .fixed 1
  | 10 => .seq (.fixed 1) msShape
  | _ => .refused

def rsdShape : Shape UInt8 := .call (.choice rsdTable)

def csdTable (choice : UInt8) : Shape UInt8 :=
  match choice.toNat with
  | 0 => .fixed 4
  | 1 => .seq (.fixed 4) (.counted (.checked (.fixed 4)))
  | _ => .refused

def csdShape : Shape UInt8 := .choice csdTable

def fixedWidth : DltData → Option ℕ
  | .null => some 0
  | .bool | .integer | .charUns | .enum => some 1
  | .long | .longUns | .oi | .scalerUnit => some 2
  | .time | .ti => some 3
  | .dLong | .dLongUns | .float32 | .oad | .omd => some 4
  | .date | .comdcb => some 5
  | .dateTimeS => some 7
  | .long64 | .long64Uns | .float64 => some 8
  | .dateTime => some 10
  | _ => none

def isOctets : DltData → Bool
  | .octetStr | .visibleStr | .utf8Str | .tsa | .mac | .rn => true
  | _ => false

def dataShape (t : DltData) : Shape UInt8 :=
  match t with
  | .array | .struct => .counted (.item true)
  | .bitStr => .sized fun bits => (bits + 7) / 8
  | .octetStr | .visibleStr | .utf8Str | .tsa | .mac | .rn => octetString
  | .road => roadShape
  | .region => regionShape
  | .rsd => rsdShape
  | .csd => csdShape
  | .ms => msShape
  | .sid => .seq (.fixed 4) octetString
  | .sidMac => .seq (.fixed 4) (.seq octetString octetString)
  | .rcsd => .counted (.checked csdShape)
  | t => .fixed ((fixedWidth t).getD 0)

def dataTable (b : UInt8) : Shape UInt8 :=
  match DltData.ofByte b with
  | some t => dataShape t
  | none => .refused

/-- The fields of the Data item at the front of the memory prescribe this many bytes. -/
def Prescribes (buf : List UInt8) (size : ℕ) : Prop :=
  Spans lengthValue dataTable (.choice dataTable) buf size

inductive LenForm
  | short | one | two
  deriving DecidableEq, Repr

def LenForm.capacity : LenForm → ℕ
  | .short => 128
  | .one => 256
  | .two => 65536

structure LenField where
  form : LenForm
  value : ℕ
  fits : value < form.capacity

def LenField.encode (n : LenField) : List UInt8 :=
  match n.form with
  | .short => [UInt8.ofNat n.value]
  | .one => [0x81, UInt8.ofNat n.value]
  | .two => [0x82, UInt8.ofNat (n.value / 256), UInt8.ofNat (n.value % 256)]

inductive Kind
  | data | csd | rsd | ms

/-- Values of the Data format and of the selectors it contains. -/
inductive Term : Kind → Type
  | fixed (t : DltData) (k : ℕ) (h : fixedWidth t = some k) (content : Vector UInt8 k) : Term .data
  | array (n : LenField) (items : Fin n.value → Term .data) : Term .data
  | struct (n : LenField) (items : Fin n.value → Term .data) : Term .data
  | bitStr (n : LenField) (content : Vector UInt8 ((n.value + 7) / 8)) : Term .data
  | octets (t : DltData) (h : isOctets t = true) (n : LenField)
      (content : Vector UInt8 n.value) : Term .data
  | road (oad : Vector UInt8 4) (n : LenField) (assoc : Fin n.value → Vector UInt8 4) : Term .data
  | region (unit : UInt8) (start stop : Term .data) : Term .data
  | rsd (selector : Term .rsd) : Term .data
  | csd (column : Term .csd) : Term .data
  | ms (meters : Term .ms) : Term .data
  | sid (id : Vector UInt8 4) (n : LenField) (extra : Vector UInt8 n.value) : Term .data
  | sidMac (id : Vector UInt8 4) (n : LenField) (extra : Vector UInt8 n.value)
      (k : LenField) (mac : Vector UInt8 k.value) : Term .data
  | rcsd (n : LenField) (columns : Fin n.value → Term .csd) : Term .data
  | csdOad (oad : Vector UInt8 4) : Term .csd
  | csdRoad (oad : Vector UInt8 4) (n : LenField) (assoc : Fin n.value → Vector UInt8 4) : Term .csd
  | selector0 : Term .rsd
  | selector1 (oad : Vector UInt8 4) (value : Term .data) : Term .rsd
  | selector2 (oad : Vector UInt8 4) (start stop interval : Term .data) : Term .rsd
  | selector3 (n : LenField) (oad : Fin n.value → Vector UInt8 4)
      (start stop interval : Fin n.value → Term .data) : Term .rsd
  | selector45 (choice : UInt8) (h : choice = 4 ∨ choice = 5) (time : Vector UInt8 7)
      (meters : Term .ms) : Term .rsd
  | selector678 (choice : UInt8) (h : choice = 6 ∨ choice = 7 ∨ choice = 8)
      (start stop : Vector UInt8 7) (interval : Vector UInt8 3) (meters : Term .ms) : Term .rsd
  | selector9 (last : UInt8) : Term .rsd
  | selector10 (last : UInt8) (meters : Term .ms) : Term .rsd
  | noMeter : Term .ms
  | allMeters : Term .ms
  | userTypes (n : LenField) (types : Fin n.value → UInt8) : Term .ms
  | addresses (n : LenField) (size : Fin n.value → LenField)
      (address : (i : Fin n.value) → Vector UInt8 (size i).value) : Term .ms
  | configNos (n : LenField) (no : Fin n.value → Vector UInt8 2) : Term .ms
  | regions (choice : UInt8) (h : choice = 5 ∨ choice = 6 ∨ choice = 7) (n : LenField)
      (unit : Fin n.value → UInt8) (start stop : Fin n.value → Term .data) : Term .ms

abbrev Data := Term .data

def Term.encode : {k : Kind} → Term k → List UInt8
  | _, .fixed t _ _ content => t.code :: content.toList
  | _, .array n items =>
    DltData.array.code :: (n.encode ++ (List.ofFn fun i => (items i).encode).flatten)
  | _, .struct n items =>
    DltData.struct.code :: (n.encode ++ (List.ofFn fun i => (items i).encode).flatten)
  | _, .bitStr n content => DltData.bitStr.code :: (n.encode ++ content.toList)
  | _, .octets t _ n content => t.code :: (n.encode ++ content.toList)
  | _, .road oad n assoc =>
    DltData.road.code :: (oad.toList ++ (n.encode ++ (List.ofFn fun i => (assoc i).toList).flatten))
  | _, .region unit start stop =>
    DltData.region.code :: ([unit] ++ (start.encode ++ stop.encode))
  | _, .rsd selector => DltData.rsd.code :: selector.encode
  | _, .csd column => DltData.csd.code :: column.encode
  | _, .ms meters => DltData.ms.code :: meters.encode
  | _, .sid id n extra => DltData.sid.code :: (id.toList ++ (n.encode ++ extra.toList))
  | _, .sidMac id n extra k mac =>
    DltData.sidMac.code ::
      (id.toList ++ ((n.encode ++ extra.toList) ++ (k.encode ++ mac.toList)))
  | _, .rcsd n columns =>
    DltData.rcsd.code :: (n.encode ++ (List.ofFn fun i => (columns i).encode).flatten)
  | _, .csdOad oad => 0 :: oad.toList
  | _, .csdRoad oad n assoc =>
    1 :: (oad.toList ++ (n.encode ++ (List.ofFn fun i => (assoc i).toList).flatten))
  | _, .selector0 => [0]
  | _, .selector1 oad value => 1 :: (oad.toList ++ value.encode)
  | _, .selector2 oad start stop interval =>
    2 :: (oad.toList ++ (start.encode ++ (stop.encode ++ interval.encode)))
  | _, .selector3 n oad start stop interval =>
    3 :: (n.encode ++ (List.ofFn fun i => (oad i).toList ++
      ((start i).encode ++ ((stop i).encode ++ (interval i).encode))).flatten)
  | _, .selector45 choice _ time meters => choice :: (time.toList ++ meters.encode)
  | _, .selector678 choice _ start stop interval meters =>
    choice :: (start.toList ++ (stop.toList ++ (interval.toList ++ meters.encode)))
  | _, .selector9 last => 9 :: [last]
  | _, .selector10 last meters => 10 :: ([last] ++ meters.encode)
  | _, .noMeter => [0]
  | _, .allMeters => [1]
  | _, .userTypes n types => 2 :: (n.encode ++ (List.ofFn fun i => [types i]).flatten)
  | _, .addresses n size address =>
    3 :: (n.encode ++ (List.ofFn fun i => (size i).encode ++ (address i).toList).flatten)
  | _, .configNos n no => 4 :: (n.encode ++ (List.ofFn fun i => (no i).toList).flatten)
  | _, .regions choice _ n unit start stop =>
    choice :: (n.encode ++ (List.ofFn fun i => [unit i] ++
      ((start i).encode ++ (stop i).encode)).flatten)

def Term.size {k : Kind} (v : Term k) : ℕ := v.encode.length

theorem LenField.lengthField_encode (n : LenField) (rest : List UInt8) :
    lengthField (n.encode ++ rest) = some (n.value, n.encode.length) := by
  obtain ⟨form, value, fits⟩ := n
  cases form with
  | short =>
    have hv : value < 128 := fits
    simp [LenField.encode, lengthField, UInt8.toNat_ofNat',
      Nat.mod_eq_of_lt (show value < 256 by omega), hv]
  | one =>
    have hv : value < 256 := fits
    simp [LenField.encode, lengthField, UInt8.toNat_ofNat', Nat.mod_eq_of_lt hv]
  | two =>
    have hv : value < 65536 := fits
    have hd : value / 256 < 256 := by omega
    simp [LenField.encode, lengthField, UInt8.toNat_ofNat', Nat.mod_eq_of_lt hd]
    omega

theorem lengthValue_of_lengthField {b : List UInt8} {r : ℕ × ℕ} (h : lengthField b = some r) :
    lengthValue b = some r := by
  match b with
  | [] => cases h
  | b0 :: rest =>
    simp only [lengthField, lengthValue] at h ⊢
    split_ifs at h ⊢ with hshort
    · exact h
    · split at h
      · next hbyte =>
        rw [hbyte]
        exact h
      · next hbyte =>
        rw [hbyte]
        exact h
      · cases h

def ReadsForms (len : List UInt8 → Option (ℕ × ℕ)) : Prop :=
  ∀ (n : LenField) (rest : List UInt8), len (n.encode ++ rest) = some (n.value, n.encode.length)

theorem lengthField_width {b : List UInt8} {r : ℕ × ℕ} (h : lengthField b = some r) :
    r.2 ≤ 3 := by
  unfold lengthField at h
  split at h
  · cases h
  · split_ifs at h
    · cases h
      exact Nat.le_of_ble_eq_true rfl
    · split at h
      · cases h
        exact Nat.le_of_ble_eq_true rfl
      · cases h
        exact Nat.le_of_ble_eq_true rfl
      · cases h

theorem shortLengthValue_of_lengthField {b : List UInt8} {r : ℕ × ℕ}
    (h : lengthField b = some r) : shortLengthValue b = some r := by
  rw [shortLengthValue, lengthValue_of_lengthField h, Option.map_some,
    if_pos (lengthField_width h)]

theorem shortLengthValue_readsForms : ReadsForms shortLengthValue := fun n rest =>
  shortLengthValue_of_lengthField (n.lengthField_encode rest)

def kindShape : Kind → Shape UInt8
  | .data => .choice dataTable
  | .csd => csdShape
  | .rsd => rsdShape
  | .ms => msShape

section Spelling
variable {len : List UInt8 → Option (ℕ × ℕ)}

abbrev Spells (len : List UInt8 → Option (ℕ × ℕ)) (p : Shape UInt8) (bytes : List UInt8) : Prop :=
  ByteWalk.Spells len dataTable p bytes

theorem spells_content {k : ℕ} (v : Vector UInt8 k) : Spells len (.fixed k) v.toList :=
  ByteWalk.Spells.fixed v.length_toList

theorem spells_byte (b : UInt8) : Spells len (.fixed 1) [b] := ByteWalk.Spells.fixed rfl

theorem spells_octets (hlen : ReadsForms len) (n : LenField) (v : Vector UInt8 n.value) :
    Spells len octetString (n.encode ++ v.toList) :=
  ByteWalk.Spells.sized (hlen n) v.length_toList

theorem spells_counted (hlen : ReadsForms len) (n : LenField) {p : Shape UInt8}
    {f : Fin n.value → List UInt8} (h : ∀ i, Spells len p (f i)) :
    Spells len (.counted p) (n.encode ++ (List.ofFn f).flatten) :=
  ByteWalk.Spells.counted (hlen n) (ByteWalk.Spells.rep h)

theorem spells_road (hlen : ReadsForms len) {column : Shape UInt8}
    (hcolumn : ∀ v : Vector UInt8 4, Spells len column v.toList) (oad : Vector UInt8 4)
    (n : LenField) (assoc : Fin n.value → Vector UInt8 4) :
    Spells len (.seq (.fixed 4) (.counted column))
      (oad.toList ++ (n.encode ++ (List.ofFn fun i => (assoc i).toList).flatten)) :=
  (spells_content oad).seq (spells_counted hlen n fun i => hcolumn (assoc i))

theorem spells_region (unit : UInt8) {x y : List UInt8} (hx : Spells len (.choice dataTable) x)
    (hy : Spells len (.choice dataTable) y) : Spells len regionShape ([unit] ++ (x ++ y)) :=
  (spells_byte unit).seq (hx.item.seq hy.item)

theorem spells_selection (oad : Vector UInt8 4) {x y z : List UInt8}
    (hx : Spells len (.choice dataTable) x) (hy : Spells len (.choice dataTable) y)
    (hz : Spells len (.choice dataTable) z) :
    Spells len selectionShape (oad.toList ++ (x ++ (y ++ z))) :=
  (spells_content oad).seq (hx.item.seq (hy.item.seq hz.item))

theorem spells_type (t : DltData) {y : List UInt8} (hy : Spells len (dataShape t) y) :
    Spells len (.choice dataTable) (t.code :: y) :=
  ByteWalk.Spells.choice (by simp [dataTable, DltData.ofByte_code]) hy

variable {choice : UInt8} {p : Shape UInt8} {y : List UInt8}

theorem spells_rsd (hchoice : rsdTable choice = p) (hy : Spells len p y) :
    Spells len rsdShape (choice :: y) := (ByteWalk.Spells.choice hchoice hy).call

theorem spells_ms (hchoice : msTable choice = p) (hy : Spells len p y) :
    Spells len msShape (choice :: y) := (ByteWalk.Spells.choice hchoice hy).call

end Spelling

theorem dataShape_fixed {t : DltData} {k : ℕ} (h : fixedWidth t = some k) :
    dataShape t = .fixed k := by
  cases t <;> simp_all [fixedWidth, dataShape]

theorem dataShape_octets {t : DltData} (h : isOctets t = true) : dataShape t = octetString := by
  cases t <;> simp_all [isOctets, dataShape]

theorem Term.spells_encode {len : List UInt8 → Option (ℕ × ℕ)} (hlen : ReadsForms len) {k : Kind}
    (v : Term k) : Spells len (kindShape k) v.encode := by
  induction v with
  | fixed t k h content =>
    refine spells_type t ?_
    rw [dataShape_fixed h]
    exact spells_content content
  | array n items ih => exact spells_type .array (spells_counted hlen n fun i => (ih i).item)
  | struct n items ih => exact spells_type .struct (spells_counted hlen n fun i => (ih i).item)
  | bitStr n content =>
    exact spells_type .bitStr (ByteWalk.Spells.sized (hlen n) content.length_toList)
  | octets t h n content =>
    refine spells_type t ?_
    rw [dataShape_octets h]
    exact spells_octets hlen n content
  | road oad n assoc => exact spells_type .road (spells_road hlen spells_content oad n assoc)
  | region unit start stop ihs ihe => exact spells_type .region (spells_region unit ihs ihe)
  | rsd selector ih => exact spells_type .rsd ih
  | csd column ih => exact spells_type .csd ih
  | ms meters ih => exact spells_type .ms ih
  | sid id n extra => exact spells_type .sid ((spells_content id).seq (spells_octets hlen n extra))
  | sidMac id n extra k mac =>
    exact spells_type .sidMac
      ((spells_content id).seq ((spells_octets hlen n extra).seq (spells_octets hlen k mac)))
  | rcsd n columns ih => exact spells_type .rcsd (spells_counted hlen n fun i => (ih i).checked)
  | csdOad oad => exact ByteWalk.Spells.choice rfl (spells_content oad)
  | csdRoad oad n assoc =>
    exact ByteWalk.Spells.choice rfl (spells_road hlen (fun v => (spells_content v).checked) oad n assoc)
  | selector0 => exact spells_rsd rfl (ByteWalk.Spells.fixed rfl)
  | selector1 oad value ih => exact spells_rsd rfl ((spells_content oad).seq ih.item)
  | selector2 oad start stop interval ihs ihe ihi =>
    exact spells_rsd rfl (spells_selection oad ihs ihe ihi)
  | selector3 n oad start stop interval ihs ihe ihi =>
    exact spells_rsd rfl
      (spells_counted hlen n fun i => spells_selection (oad i) (ihs i) (ihe i) (ihi i))
  | selector45 choice h time meters ih =>
    refine spells_rsd ?_ ((spells_content time).seq ih)
    rcases h with rfl | rfl <;> rfl
  | selector678 choice h start stop interval meters ih =>
    refine spells_rsd ?_ ((spells_content start).seq
      ((spells_content stop).seq ((spells_content interval).seq ih)))
    rcases h with rfl | rfl | rfl <;> rfl
  | selector9 last => exact spells_rsd rfl (spells_byte last)
  | selector10 last meters ih =>
    exact spells_rsd rfl ((spells_byte last).seq ih)
  | noMeter => exact spells_ms rfl (ByteWalk.Spells.fixed rfl)
  | allMeters => exact spells_ms rfl (ByteWalk.Spells.fixed rfl)
  | userTypes n types =>
    exact spells_ms rfl (spells_counted hlen n fun i => spells_byte (types i))
  | addresses n size address =>
    exact spells_ms rfl (spells_counted hlen n fun i => spells_octets hlen (size i) (address i))
  | configNos n no =>
    exact spells_ms rfl (spells_counted hlen n fun i => spells_content (no i))
  | regions choice h n unit start stop ihs ihe =>
    refine spells_ms ?_
      (spells_counted hlen n fun i => spells_region (unit i) (ihs i) (ihe i))
    rcases h with rfl | rfl | rfl <;> rfl

end IotEdgeAgent.Dlt698.DataFormat
