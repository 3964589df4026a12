import Mathlib.Data.List.Basic
import Mathlib.Tactic.SplitIfs

/-!
# The address of the broker

`get_broker_endpiont` and the part of `iotea_client_init` that uses it. A text is the list of its
bytes in front of the terminator. One loop finds the first colon and the last one behind it; 0
stands for a position that is not set.
-/

namespace IotEdgeAgent.Agent.BrokerAddress

inductive MqttConnectionType
  | tcp | tls | mutualTls
  deriving DecidableEq, Repr

def colon : UInt8 := ':'.toUInt8
def tcp : List UInt8 := ['t'.toUInt8, 'c'.toUInt8, 'p'.toUInt8]
def ssl : List UInt8 := ['s'.toUInt8, 's'.toUInt8, 'l'.toUInt8]
def slashes : List UInt8 := ['/'.toUInt8, '/'.toUInt8]

def charAt (broker : List UInt8) (pos : ℕ) : UInt8 := (broker[pos]?).getD 0

structure Marks where
  pos : ℕ
  head : ℕ
  stop : ℕ
  deriving DecidableEq, Repr

def Marks.next (marks : Marks) (c : UInt8) : Marks :=
  if c = colon then
    { pos := marks.pos + 1
      head := if marks.head = 0 then marks.pos + 3 else marks.head
      stop := if marks.head = 0 then marks.stop else marks.pos }
  else { marks with pos := marks.pos + 1 }

def scan (broker : List UInt8) : Marks := broker.foldl Marks.next ⟨0, 0, 0⟩

def copyEndpoint (broker : List UInt8) (head length : ℕ) : List UInt8 :=
  (List.range (length - 1)).map fun pos => charAt broker (head + pos)

def endpointOf (broker : List UInt8) (allocated : Bool) : Option (List UInt8) :=
  let marks := scan broker
  if marks.head = 0 ∨ marks.stop ≤ marks.head then none
  else if allocated then some (copyEndpoint broker marks.head (marks.stop - marks.head + 1))
  else none

/-- The endpoint, and the connection type that the caller is left with. -/
def getBrokerEndpiont (broker : List UInt8) (mqttConnType : MqttConnectionType)
    (allocated : Bool) : Option (List UInt8) × MqttConnectionType :=
  if charAt broker 0 = 't'.toUInt8 ∧ charAt broker 1 = 'c'.toUInt8 ∧
      charAt broker 2 = 'p'.toUInt8 then (endpointOf broker allocated, .tcp)
  else if charAt broker 0 = 's'.toUInt8 ∧ charAt broker 1 = 's'.toUInt8 ∧
      charAt broker 2 = 'l'.toUInt8 then (endpointOf broker allocated, .tls)
  else (none, mqttConnType)

theorem charAt_prefix_iff {x y z : UInt8} (hx : x ≠ 0) (hy : y ≠ 0) (hz : z ≠ 0)
    (broker : List UInt8) : charAt broker 0 = x ∧ charAt broker 1 = y ∧ charAt broker 2 = z ↔
      [x, y, z] <+: broker := by
  constructor
  · rintro ⟨h0, h1, h2⟩
    cases broker with
    | nil => exact absurd h0.symm hx
    | cons a broker =>
      cases broker with
      | nil => exact absurd h1.symm hy
      | cons b broker =>
        cases broker with
        | nil => exact absurd h2.symm hz
        | cons c broker =>
          have ha : a = x := h0
          have hb : b = y := h1
          have hc : c = z := h2
          rw [ha, hb, hc]
          exact ⟨broker, rfl⟩
  · rintro ⟨rest, rfl⟩
    exact ⟨rfl, rfl, rfl⟩

theorem getBrokerEndpiont_tcp {broker : List UInt8} (h : tcp <+: broker)
    (mqttConnType : MqttConnectionType) (allocated : Bool) :
    getBrokerEndpiont broker mqttConnType allocated = (endpointOf broker allocated, .tcp) := by
  have hchars := (charAt_prefix_iff (by decide) (by decide) (by decide) broker).mpr h
  rw [getBrokerEndpiont, if_pos hchars]

theorem getBrokerEndpiont_ssl {broker : List UInt8} (h : ssl <+: broker)
    (mqttConnType : MqttConnectionType) (allocated : Bool) :
    getBrokerEndpiont broker mqttConnType allocated = (endpointOf broker allocated, .tls) := by
  have hchars := (charAt_prefix_iff (by decide) (by decide) (by decide) broker).mpr h
  have hother : ¬ (charAt broker 0 = 't'.toUInt8 ∧ charAt broker 1 = 'c'.toUInt8 ∧
      charAt broker 2 = 'p'.toUInt8) := by
    rintro ⟨hchar, _⟩
    exact absurd (hchars.1.symm.trans hchar) (by decide)
  rw [getBrokerEndpiont, if_neg hother, if_pos hchars]

theorem getBrokerEndpiont_fst (broker : List UInt8) (mqttConnType : MqttConnectionType)
    (allocated : Bool) (host : List UInt8) :
    (getBrokerEndpiont broker mqttConnType allocated).1 = some host ↔
      (tcp <+: broker ∨ ssl <+: broker) ∧ endpointOf broker allocated = some host := by
  by_cases htcp : tcp <+: broker
  · rw [getBrokerEndpiont_tcp htcp]
    simp [htcp]
  · by_cases hssl : ssl <+: broker
    · rw [getBrokerEndpiont_ssl hssl]
      simp [hssl]
    · have hno := mt (charAt_prefix_iff (by decide) (by decide) (by decide) broker).mp htcp
      have hno' := mt (charAt_prefix_iff (by decide) (by decide) (by decide) broker).mp hssl
      rw [getBrokerEndpiont, if_neg hno, if_neg hno']
      simp [htcp, hssl]

theorem foldl_next_plain {text : List UInt8} (h : colon ∉ text) (marks : Marks) :
    text.foldl Marks.next marks = { marks with pos := marks.pos + text.length } := by
  induction text generalizing marks with
  | nil => rfl
  | cons c text ih =>
    have hc : c ≠ colon := fun hc => h (hc ▸ List.mem_cons_self ..)
    have hnext : marks.next c = { marks with pos := marks.pos + 1 } := if_neg hc
    rw [List.foldl_cons, hnext, ih (fun hin => h (List.mem_cons_of_mem c hin)), List.length_cons]
    simp only [Nat.add_assoc, Nat.add_comm 1]

theorem next_head {marks : Marks} (h : marks.head ≠ 0) (c : UInt8) :
    (marks.next c).head = marks.head ∧ (marks.next c).pos = marks.pos + 1 := by
  rw [Marks.next]
  by_cases hc : c = colon
  · rw [if_pos hc]
    exact ⟨if_neg h, rfl⟩
  · rw [if_neg hc]
    exact ⟨rfl, rfl⟩

theorem foldl_next_head (text : List UInt8) (marks : Marks) (h : marks.head ≠ 0) :
    (text.foldl Marks.next marks).head = marks.head ∧
    (text.foldl Marks.next marks).pos = marks.pos + text.length := by
  induction text generalizing marks with
  | nil => exact ⟨rfl, rfl⟩
  | cons c text ih =>
    obtain ⟨hhead, hpos⟩ := next_head h c
    obtain ⟨hhead', hpos'⟩ := ih (marks.next c) (hhead ▸ h)
    rw [List.foldl_cons, List.length_cons]
    constructor
    · rw [hhead', hhead]
    · rw [hpos', hpos]
      omega

theorem scan_none {broker : List UInt8} (h : colon ∉ broker) : (scan broker).head = 0 := by
  rw [scan, foldl_next_plain h]

theorem scan_one {scheme rest : List UInt8} (hscheme : colon ∉ scheme) (hrest : colon ∉ rest) :
    (scan (scheme ++ colon :: rest)).stop = 0 := by
  rw [scan, List.foldl_append, foldl_next_plain hscheme, List.foldl_cons,
    foldl_next_plain hrest]
  rfl

theorem scan_many {scheme port : List UInt8} (hscheme : colon ∉ scheme) (hport : colon ∉ port)
    (middle : List UInt8) : (scan (scheme ++ colon :: (middle ++ colon :: port))).head =
        scheme.length + 3 ∧
      (scan (scheme ++ colon :: (middle ++ colon :: port))).stop =
        scheme.length + 1 + middle.length := by
  have hfirst : Marks.next ⟨0 + scheme.length, 0, 0⟩ colon =
      ⟨scheme.length + 1, scheme.length + 3, 0⟩ := by
    rw [Nat.zero_add]
    rfl
  have hhead : scheme.length + 3 ≠ 0 := Nat.succ_ne_zero _
  obtain ⟨hkeeps, hpos⟩ := foldl_next_head middle ⟨scheme.length + 1, scheme.length + 3, 0⟩ hhead
  rw [scan, List.foldl_append, foldl_next_plain hscheme, List.foldl_cons, hfirst,
    List.foldl_append, List.foldl_cons, foldl_next_plain hport]
  generalize middle.foldl Marks.next _ = marks at hkeeps hpos
  rw [Marks.next, if_pos rfl]
  have hmarks : marks.head ≠ 0 := hkeeps ▸ hhead
  rw [if_neg hmarks, if_neg hmarks]
  exact ⟨hkeeps, hpos⟩

theorem copyEndpoint_eq {broker : List UInt8} {head stop : ℕ} (h : stop ≤ broker.length) :
    copyEndpoint broker head (stop - head + 1) = (broker.drop head).take (stop - head) := by
  apply List.ext_getElem
  · simp only [copyEndpoint, List.length_map, List.length_range, List.length_take,
      List.length_drop]
    omega
  · intro i hi hi'
    have hin : head + i < broker.length := by
      rw [List.length_take, List.length_drop] at hi'
      omega
    simp [copyEndpoint, charAt, List.getElem?_eq_getElem hin]

structure Colons (broker : List UInt8) (first last : ℕ) : Prop where
  at_first : broker[first]? = some colon
  at_last : broker[last]? = some colon
  between : ∀ pos, broker[pos]? = some colon → first ≤ pos ∧ pos ≤ last

theorem Colons.unique {broker : List UInt8} {first last first' last' : ℕ}
    (h : Colons broker first last) (h' : Colons broker first' last') :
    first = first' ∧ last = last' := by
  have hf := h.between _ h'.at_first
  have hl := h.between _ h'.at_last
  have hf' := h'.between _ h.at_first
  have hl' := h'.between _ h.at_last
  omega

theorem not_colon_at {text : List UInt8} (h : colon ∉ text) (i : ℕ) :
    text[i]? ≠ some colon := fun hi => h (List.mem_of_getElem? hi)

theorem Colons.of_split {broker scheme rest front port : List UInt8}
    (hfirst : broker = scheme ++ colon :: rest) (hscheme : colon ∉ scheme)
    (hlast : broker = front ++ colon :: port) (hport : colon ∉ port) :
    Colons broker scheme.length front.length := by
  have hat : ∀ x y : List UInt8, (x ++ colon :: y)[x.length]? = some colon := by
    intro x y
    rw [List.getElem?_append_right (Nat.le_refl _), Nat.sub_self]
    rfl
  refine ⟨hfirst ▸ hat scheme rest, hlast ▸ hat front port, fun pos hpos => ⟨?_, ?_⟩⟩
  · apply Classical.byContradiction
    intro hlt
    rw [hfirst, List.getElem?_append_left (Nat.lt_of_not_le hlt)] at hpos
    exact not_colon_at hscheme pos hpos
  · apply Classical.byContradiction
    intro hlt
    obtain ⟨k, rfl⟩ := Nat.exists_eq_add_of_lt (Nat.lt_of_not_le hlt)
    have hindex : front.length + k + 1 - front.length = k + 1 := by omega
    rw [hlast, List.getElem?_append_right (by omega), hindex, List.getElem?_cons_succ] at hpos
    exact not_colon_at hport k hpos

theorem exists_first {broker : List UInt8} (h : colon ∈ broker) :
    ∃ scheme rest, broker = scheme ++ colon :: rest ∧ colon ∉ scheme :=
  List.eq_append_cons_of_mem h

theorem exists_last {broker : List UInt8} (h : colon ∈ broker) :
    ∃ front port, broker = front ++ colon :: port ∧ colon ∉ port := by
  obtain ⟨port, front, hreverse, hport⟩ := List.eq_append_cons_of_mem (List.mem_reverse.mpr h)
  refine ⟨front.reverse, port.reverse, ?_, fun hin => hport (List.mem_reverse.mp hin)⟩
  rw [← List.reverse_reverse broker, hreverse, List.reverse_append, List.reverse_cons,
    List.append_assoc]
  rfl

theorem scan_colons {broker : List UInt8} (h : colon ∈ broker) :
    ∃ first last, Colons broker first last ∧ first ≤ last ∧ last < broker.length ∧
      (last = first → (scan broker).stop = 0) ∧
      (first < last → 2 ≤ broker.count colon ∧ (scan broker).head = first + 3 ∧
        (scan broker).stop = last) := by
  obtain ⟨scheme, rest, rfl, hscheme⟩ := exists_first h
  by_cases hmore : colon ∈ rest
  · obtain ⟨middle, port, rfl, hport⟩ := exists_last hmore
    have hfront : scheme ++ colon :: (middle ++ colon :: port) =
        (scheme ++ colon :: middle) ++ colon :: port := by
      rw [List.append_assoc, List.cons_append]
    have hlength : (scheme ++ colon :: middle).length = scheme.length + 1 + middle.length := by
      rw [List.length_append, List.length_cons]
      omega
    have hcolons := Colons.of_split rfl hscheme hfront hport
    rw [hlength] at hcolons
    refine ⟨_, _, hcolons, by omega, ?_, fun hsame => by omega, fun _ => ⟨?_, ?_⟩⟩
    · simp only [List.length_append, List.length_cons]
      omega
    · rw [List.count_append, List.count_cons_self, List.count_append, List.count_cons_self]
      omega
    · exact scan_many hscheme hport middle
  · have hcolons := Colons.of_split rfl hscheme rfl hmore
    refine ⟨_, _, hcolons, Nat.le_refl _, ?_, fun _ => scan_one hscheme hmore, fun hlt => ?_⟩
    · simp only [List.length_append, List.length_cons]
      omega
    · exact absurd hlt (Nat.lt_irrefl _)

theorem endpointOf_eq_some {broker host : List UInt8} {allocated : Bool} :
    endpointOf broker allocated = some host ↔ allocated = true ∧ 2 ≤ broker.count colon ∧
      ∃ first last, Colons broker first last ∧ first + 3 < last ∧
        host = (broker.drop (first + 3)).take (last - (first + 3)) := by
  by_cases hmem : colon ∈ broker
  · obtain ⟨first, last, hcolons, hle, hlast, hone, hmany⟩ := scan_colons hmem
    rw [endpointOf]
    constructor
    · intro h
      split_ifs at h with hmarks hallocated
      obtain ⟨_, hstop⟩ := not_or.mp hmarks
      obtain rfl | hlt := Nat.eq_or_lt_of_le hle
      · rw [hone rfl] at hstop
        exact absurd (Nat.zero_le _) hstop
      · obtain ⟨hcount, hhead, hend⟩ := hmany hlt
        rw [hhead, hend] at hstop
        rw [hhead, hend, copyEndpoint_eq (Nat.le_of_lt hlast)] at h
        exact ⟨hallocated, hcount, first, last, hcolons, Nat.lt_of_not_le hstop,
          (Option.some.inj h).symm⟩
    · rintro ⟨hallocated, _, first', last', hcolons', hfar, rfl⟩
      obtain ⟨rfl, rfl⟩ := hcolons.unique hcolons'
      obtain ⟨_, hhead, hend⟩ := hmany (by omega)
      rw [hhead, hend, if_neg (by omega), if_pos hallocated,
        copyEndpoint_eq (Nat.le_of_lt hlast)]
  · have hnone : endpointOf broker allocated = none := by
      rw [endpointOf, if_pos (.inl (scan_none hmem))]
    rw [hnone]
    constructor
    · exact fun h => nomatch h
    · rintro ⟨_, _, first, _, hcolons, _⟩
      exact absurd hcolons.at_first (not_colon_at hmem first)

theorem endpointOf_address {scheme host port : List UInt8} (hscheme : colon ∉ scheme)
    (hhost : host ≠ []) (hport : colon ∉ port) :
    endpointOf (scheme ++ colon :: (slashes ++ host ++ colon :: port)) true = some host := by
  have hfront : scheme ++ colon :: (slashes ++ host ++ colon :: port) =
      (scheme ++ colon :: (slashes ++ host)) ++ colon :: port := by
    rw [List.append_assoc, List.append_assoc, List.cons_append, List.append_assoc]
  have hpos : 0 < host.length := List.length_pos_of_ne_nil hhost
  have hlength : (scheme ++ colon :: (slashes ++ host)).length =
      scheme.length + 3 + host.length := by
    simp only [List.length_append, List.length_cons, slashes, List.length_nil]
    omega
  have hcolons := Colons.of_split rfl hscheme hfront hport
  rw [hlength] at hcolons
  apply endpointOf_eq_some.mpr
  refine ⟨rfl, ?_, _, _, hcolons, Nat.lt_add_of_pos_right hpos, ?_⟩
  · rw [List.count_append, List.count_cons_self, List.count_append, List.count_cons_self]
    omega
  · have hdrop : (scheme ++ colon :: (slashes ++ host ++ colon :: port)).drop
        (scheme.length + 3) = host ++ colon :: port := by
      rw [← List.drop_drop, List.drop_left]
      rfl
    rw [hdrop, Nat.add_sub_cancel_left, List.take_left]

structure Handle where
  endpoint : List UInt8
  mqttConnType : MqttConnectionType
  devname : List UInt8
  proType : List UInt8

/-- What `iotea_client_init` meets: the memory of the handle holds some connection type, and each
of the three allocations may fail. -/
structure InitMoment where
  mqttConnType : MqttConnectionType
  handleAllocated : Bool
  endpointAllocated : Bool
  tickCounter : Bool

def ioteaClientInit (broker name type : Option (List UInt8)) (moment : InitMoment) :
    Option Handle :=
  match broker, name, type with
  | some broker, some name, some type =>
    if moment.handleAllocated then
      let found := getBrokerEndpiont broker moment.mqttConnType moment.endpointAllocated
      match found.1 with
      | none => none
      | some endpoint =>
        if moment.tickCounter then some ⟨endpoint, found.2, name, type⟩ else none
    else none
  | _, _, _ => none

theorem ioteaClientInit_endpoint {broker name type : List UInt8} {moment : InitMoment}
    {handle : Handle} (h : ioteaClientInit (some broker) (some name) (some type) moment =
      some handle) :
    getBrokerEndpiont broker moment.mqttConnType moment.endpointAllocated =
      (some handle.endpoint, handle.mqttConnType) := by
  rw [ioteaClientInit] at h
  generalize getBrokerEndpiont broker moment.mqttConnType moment.endpointAllocated = found at h ⊢
  obtain ⟨endpoint, mqttConnType⟩ := found
  cases endpoint with
  | none => split_ifs at h
  | some endpoint =>
    split_ifs at h
    obtain rfl := Option.some.inj h
    rfl

/-- Which addresses have a host, and the host of the usual ones. The client gets this host. -/
theorem getBrokerEndpiont_host :
    (∀ broker mqttConnType allocated host,
      (getBrokerEndpiont broker mqttConnType allocated).1 = some host ↔
        allocated = true ∧ (tcp <+: broker ∨ ssl <+: broker) ∧ 2 ≤ broker.count colon ∧
        ∃ first last, Colons broker first last ∧ first + 3 < last ∧
          host = (broker.drop (first + 3)).take (last - (first + 3))) ∧
    (∀ host port mqttConnType, host ≠ [] → colon ∉ port →
      getBrokerEndpiont (tcp ++ colon :: (slashes ++ host ++ colon :: port)) mqttConnType true =
        (some host, .tcp) ∧
      getBrokerEndpiont (ssl ++ colon :: (slashes ++ host ++ colon :: port)) mqttConnType true =
        (some host, .tls)) ∧
    ∀ broker name type moment handle,
      ioteaClientInit (some broker) (some name) (some type) moment = some handle →
        getBrokerEndpiont broker moment.mqttConnType moment.endpointAllocated =
          (some handle.endpoint, handle.mqttConnType) := by
  refine ⟨fun broker mqttConnType allocated host => ?_, fun host port mqttConnType hhost hport =>
    ⟨?_, ?_⟩, fun _ _ _ _ _ => ioteaClientInit_endpoint⟩
  · rw [getBrokerEndpiont_fst, endpointOf_eq_some, and_left_comm]
  · rw [getBrokerEndpiont_tcp (List.prefix_append _ _),
      endpointOf_address (by decide) hhost hport]
  · rw [getBrokerEndpiont_ssl (List.prefix_append _ _),
      endpointOf_address (by decide) hhost hport]

/-- An address of IP version 6 on port 1. -/
theorem getBrokerEndpiont_host_inner :
    getBrokerEndpiont (ssl ++ colon :: (slashes ++ [colon, colon, 49] ++ colon :: [49])) .tcp true =
      (some [colon, colon, 49], .tls) :=
  (getBrokerEndpiont_host.2.1 [colon, colon, 49] [49] .tcp (by decide) (by decide)).2

end IotEdgeAgent.Agent.BrokerAddress
