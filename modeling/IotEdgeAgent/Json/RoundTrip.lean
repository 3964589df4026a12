import IotEdgeAgent.Json.Documents
import IotEdgeAgent.Json.Quoted
import Mathlib.Tactic.SplitIfs

/-!
# Reading back what was written

The parser undoes the serializer for every document that is not nested too deeply.
-/

namespace IotEdgeAgent.Json

open Strings Separated

variable {ν : Type} {numbers : Numbers ν} {isPretty : Bool} {level levels : ℕ}
  {text rest : List UInt8} {c : UInt8}

def Ends (rest : List UInt8) : Prop :=
  ∀ c ∈ rest.head?, c = byte ',' ∨ c = byte ']' ∨ c = byte '}' ∨ isspace c

def NumberStart (c : UInt8) : Prop := c = byte '-' ∨ isdigit c

/-- The seventeen digits that are printed lead back to the number. -/
structure Numbers.Restores (numbers : Numbers ν) (number : ν) : Prop where
  finite : numbers.isFinite number
  start : ∃ c text, (numbers.print number).bytes = c :: text ∧ NumberStart c
  decimal : isDecimal (numbers.print number).bytes (numbers.print number).bytes.length
  strtod : ∀ rest, Ends rest → numbers.strtod ((numbers.print number).bytes ++ rest) =
    ⟨number, (numbers.print number).bytes.length, false⟩

/-- A number in the document is restored. -/
def Value.Restored (numbers : Numbers ν) : Value ν → Prop
  | .number value => numbers.Restores value
  | _ => True

theorem space_indentIf (isPretty : Bool) (level : ℕ) :
    ∀ c ∈ indentIf isPretty level, isspace c := by
  intro c hc
  cases isPretty with
  | false => exact absurd hc List.not_mem_nil
  | true =>
    obtain ⟨four, hfour, hmem⟩ := List.mem_flatten.mp hc
    rw [List.eq_of_mem_replicate hfour] at hmem
    have hspace : c = byte ' ' := by simpa [bytes] using hmem
    rw [hspace]
    decide

theorem space_newlineIf (isPretty : Bool) : ∀ c ∈ newlineIf isPretty, isspace c := by
  intro c hc
  cases isPretty with
  | false => exact absurd hc List.not_mem_nil
  | true =>
    rw [List.mem_singleton.mp hc]
    decide

theorem space_blankIf (isPretty : Bool) : ∀ c ∈ blankIf isPretty, isspace c := by
  intro c hc
  cases isPretty with
  | false => exact absurd hc List.not_mem_nil
  | true =>
    rw [List.mem_singleton.mp hc]
    decide

theorem layout {closing : UInt8} (h : closing = byte ']' ∨ closing = byte '}') :
    Layout isspace (byte ',') closing (indentIf isPretty (level + 1)) (newlineIf isPretty)
      (indentIf isPretty level) where
  separator_ne := by decide
  closing_ne := by obtain rfl | rfl := h <;> decide
  distinct := by obtain rfl | rfl := h <;> decide
  before_space := space_indentIf _ _
  behind_space := space_newlineIf _
  ending_space := space_indentIf _ _

theorem parseValue_skip (hgap : ∀ c ∈ text, isspace c) (rest : List UInt8) :
    parseValue numbers levels (text ++ rest) = parseValue numbers levels rest := by
  cases levels with
  | zero => rfl
  | succ levels => rw [parseValue, parseValue, skip_append hgap]

theorem parseToken_append {token : List Char} {value : Value ν} (rest : List UInt8) :
    parseToken token value (bytes token ++ rest) = .ok (value, rest) := by
  have hlen : token.length = (bytes token).length := (List.length_map _).symm
  rw [parseToken, hlen, List.take_left, if_pos rfl, List.drop_left]

theorem starts_apart (c : UInt8) :
    (c = byte '-' ∨ isdigit c → isspace c = false ∧ c ≠ byte '{' ∧ c ≠ byte '[' ∧ c ≠ byte '"' ∧
      ¬ (c = byte 'f' ∨ c = byte 't')) ∧
    (c ∈ bytes ['{', '[', '"', 't', 'f', 'n'] ∨ c = byte '-' ∨ isdigit c →
      isspace c = false ∧ c ≠ byte ']' ∧ c ≠ 0xef) := by
  apply @forall_byte _ 256 _ c c.toNat_lt
  decide +kernel

theorem ends_apart (c : UInt8) :
    (c = byte ',' ∨ c = byte ']' ∨ c = byte '}' ∨ isspace c → isdigit c = false) ∧
    0 ∉ escape c := by
  apply @forall_byte _ 256 _ c c.toNat_lt
  decide +kernel

theorem numberStart_ne (h : NumberStart c) :
    isspace c = false ∧ c ≠ byte '{' ∧ c ≠ byte '[' ∧ c ≠ byte '"' ∧
      ¬ (c = byte 'f' ∨ c = byte 't') :=
  (starts_apart c).1 h

theorem parseValue_number (hc : NumberStart c) (text : List UInt8) :
    parseValue numbers (levels + 1) (c :: text) = parseNumberValue numbers (c :: text) := by
  obtain ⟨hspace, hobject, harray, hquote, htoken⟩ := numberStart_ne hc
  rw [parseValue, skip_cons hspace]
  dsimp only
  rw [if_neg hobject, if_neg harray, if_neg hquote, if_neg htoken]
  exact if_pos hc

theorem isDecimal_append {string : List UInt8} (h : isDecimal string string.length) :
    isDecimal (string ++ rest) string.length := by
  rcases string with _ | ⟨c0, _ | ⟨c1, _ | ⟨c2, string⟩⟩⟩
  · rfl
  all_goals simpa [isDecimal] using h

theorem parseNumberValue_print {number : ν} (h : numbers.Restores number) (hrest : Ends rest) :
    parseNumberValue numbers ((numbers.print number).bytes ++ rest) =
      .ok (.number number, rest) := by
  rw [parseNumberValue, h.strtod rest hrest]
  dsimp only
  rw [if_neg, List.drop_left]
  simp [isDecimal_append h.decimal, h.finite]

section Items
variable {σ β : Type} {closing : UInt8} {item : σ → List UInt8 → Except Stop (σ × List UInt8)}
  {write : β → List UInt8} {add : σ → β → σ} {good : β → Prop} [DecidablePred good] {empty : σ}
  {xs : List β}

theorem parseItems_serialize (hclosing : closing = byte ']' ∨ closing = byte '}')
    (hstart : ∀ x ∈ xs, ∃ c text, write x = c :: text ∧ isspace c = false ∧ c ≠ closing)
    (hreads : Reads isspace (byte ',') closing item write add good empty xs) :
    parseItems closing item empty
        (serializeItems isPretty level (xs.map write) ++ closing :: rest) =
      if ∀ x ∈ xs, good x then .ok (xs.foldl add empty, rest) else .error .rejected := by
  have hlayout := @layout isPretty level closing hclosing
  cases xs with
  | nil =>
    rw [if_pos (List.forall_mem_nil _)]
    simp only [parseItems, serializeItems, List.map_nil, if_pos, List.nil_append,
      skip_cons hlayout.closing_ne, List.foldl_nil]
  | cons x xs =>
    have hspaceless : ∀ x' ∈ x :: xs, ∃ c text, write x' = c :: text ∧ isspace c = false := by
      intro x' hx'
      obtain ⟨c, text, hwrite, hc, -⟩ := hstart x' hx'
      exact ⟨c, text, hwrite, hc⟩
    obtain ⟨c, text, hwrite, -, hne⟩ := hstart x List.mem_cons_self
    obtain ⟨others, hothers⟩ := @skip_entries _ _ _ _ _ _ _ _ _ x xs hlayout
      (hspaceless x List.mem_cons_self) (indentIf isPretty level ++ closing :: rest)
    have hlength := length_le_entries hlayout hspaceless
      (indentIf isPretty level ++ closing :: rest)
    rw [hothers, hwrite, List.cons_append, List.length_cons] at hlength
    rw [hwrite, List.cons_append] at hothers
    rw [serializeItems, if_neg (mt List.map_eq_nil_iff.mp (List.cons_ne_nil x xs)), parseItems,
      List.append_assoc, List.append_assoc, skip_append hlayout.behind_space, hothers]
    dsimp only
    rw [if_neg hne, ← hothers]
    exact readItems_entries (List.cons_ne_nil x xs) hlayout hspaceless hreads
      (Nat.le_succ_of_le hlength)

end Items

theorem ends_of_follows {closing : UInt8} (hclosing : closing = byte ']' ∨ closing = byte '}')
    (h : Follows isspace (byte ',') closing rest) : Ends rest := by
  obtain ⟨c, behind, rfl, hc⟩ := h
  intro c' hc'
  cases hc'
  rcases hc with hc | hc | hc
  · exact .inl hc
  · rcases hclosing with h | h
    · exact .inr (.inl (hc.trans h))
    · exact .inr (.inr (.inl (hc.trans h)))
  · exact .inr (.inr (.inr hc))

def ValueStart (c : UInt8) : Prop := c ∈ bytes ['{', '[', '"', 't', 'f', 'n'] ∨ NumberStart c

theorem valueStart_ne (h : ValueStart c) : isspace c = false ∧ c ≠ byte ']' ∧ c ≠ 0xef :=
  (starts_apart c).2 h

theorem serialize_start {value : Value ν} (h : value.Restored numbers) :
    ∃ c text, serialize numbers isPretty level value = c :: text ∧ ValueStart c := by
  cases value with
  | null => exact ⟨_, _, rfl, .inl (by decide)⟩
  | boolean value => cases value <;> exact ⟨_, _, rfl, .inl (by decide)⟩
  | number value =>
    obtain ⟨c, text, hprint, hc⟩ := Numbers.Restores.start h
    exact ⟨c, text, hprint, .inr hc⟩
  | string value => exact ⟨_, _, rfl, .inl (by decide)⟩
  | array items => exact ⟨_, _, rfl, .inl (by decide)⟩
  | object members => exact ⟨_, _, rfl, .inl (by decide)⟩

theorem item_start {value : Value ν} (h : value.Restored numbers) :
    ∃ c text, serialize numbers isPretty level value = c :: text ∧ isspace c = false ∧
      c ≠ byte ']' := by
  obtain ⟨c, text, htext, hc⟩ := @serialize_start _ _ isPretty level _ h
  exact ⟨c, text, htext, (valueStart_ne hc).1, (valueStart_ne hc).2.1⟩

def memberText (numbers : Numbers ν) (isPretty : Bool) (level : ℕ) (member : CText × Value ν) :
    List UInt8 :=
  jsonSerializeString member.1 ++ byte ':' :: blankIf isPretty ++
    serialize numbers isPretty level member.2

theorem memberText_start (member : CText × Value ν) :
    ∃ c text, memberText numbers isPretty level member = c :: text ∧ isspace c = false ∧
      c ≠ byte '}' := ⟨_, _, rfl, by decide, by decide⟩

theorem lookup_member {members : List (CText × Value ν)} (h : (members.map (·.1)).Nodup)
    {member : CText × Value ν} (hmember : member ∈ members) :
    (memberTexts numbers isPretty level members).lookup member.1 =
      some (serialize numbers isPretty level member.2) := by
  induction members with
  | nil => exact absurd hmember List.not_mem_nil
  | cons first members ih =>
    rw [List.map_cons, List.nodup_cons] at h
    rw [memberTexts]
    rcases List.mem_cons.mp hmember with rfl | hmember
    · exact List.lookup_cons_self
    · have hne : (member.1 == first.1) = false := by
        rw [beq_eq_false_iff_ne]
        exact fun heq => h.1 (heq ▸ List.mem_map_of_mem hmember)
      rw [List.lookup_cons, hne]
      exact ih h.2 hmember

theorem serialize_object {members : List (CText × Value ν)} (h : (members.map (·.1)).Nodup) :
    serialize numbers isPretty level (.object members) =
      byte '{' :: serializeItems isPretty level
        (members.map (memberText numbers isPretty (level + 1))) ++ [byte '}'] := by
  have hnames : ∀ text : CText → List UInt8,
      (memberTexts numbers isPretty (level + 1) members).map (fun member => text member.1) =
        members.map fun member => text member.1 := by
    intro text
    rw [memberTexts_eq, List.map_map]
    rfl
  have hmembers := hnames
    (serializeMember isPretty (memberTexts numbers isPretty (level + 1) members))
  rw [serialize, hmembers]
  congr 3
  refine List.map_congr_left fun member hmember => ?_
  rw [serializeMember, lookup_member h hmember]
  rfl

def Reading (numbers : Numbers ν) (isPretty : Bool) (value : Value ν) : Prop :=
  ∀ {level levels : ℕ} {rest : List UInt8}, Ends rest →
    parseValue numbers levels (serialize numbers isPretty level value ++ rest) =
      if value.height < levels then .ok (value, rest) else .error .rejected

theorem reads_items {items read : List (Value ν)}
    (h : ∀ item ∈ items, Reading numbers isPretty item) :
    Reads isspace (byte ',') (byte ']') (parseItem (parseValue numbers levels))
      (serialize numbers isPretty level) (fun items item => items ++ [item])
      (fun item => item.height < levels) read items := by
  induction items generalizing read with
  | nil => trivial
  | cons item items ih =>
    refine ⟨fun rest hrest => ?_, ih fun item hitem => h item (List.mem_cons_of_mem _ hitem)⟩
    rw [parseItem, h item List.mem_cons_self (ends_of_follows (.inl rfl) hrest)]
    split_ifs <;> rfl

theorem reads_members {members read : List (CText × Value ν)}
    (h : ∀ member ∈ members, Reading numbers isPretty member.2)
    (hnames : ((read ++ members).map (·.1)).Nodup) :
    Reads isspace (byte ',') (byte '}') (parseMember (parseValue numbers levels))
      (memberText numbers isPretty level) (fun members member => members ++ [member])
      (fun member => member.2.height < levels) read members := by
  induction members generalizing read with
  | nil => trivial
  | cons member members ih =>
    refine ⟨fun rest hrest => ?_, ih (fun other hother => h other (List.mem_cons_of_mem _ hother))
      (by rwa [List.append_assoc])⟩
    have hnew : member.1 ∉ read.map (·.1) := by
      rw [List.map_append, List.map_cons, List.nodup_append] at hnames
      exact fun hmem => hnames.2.2 _ hmem _ List.mem_cons_self rfl
    have hvalue := @h member List.mem_cons_self level levels rest
      (ends_of_follows (.inr rfl) hrest)
    have hcolon : isspace (byte ':') = false := by decide
    rw [parseMember, memberText, List.append_assoc, List.append_assoc, getQuotedString_serialize,
      List.cons_append]
    dsimp only
    rw [skip_cons hcolon]
    dsimp only
    rw [if_neg (not_not.mpr rfl), parseValue_skip (space_blankIf _), hvalue]
    by_cases hheight : member.2.height < levels
    · rw [if_pos hheight, if_pos hheight]
      exact if_neg hnew
    · rw [if_neg hheight, if_neg hheight]

theorem reading_of_start {value : Value ν} (hheight : value.height = 0)
    (hread : ∀ {level levels : ℕ} {rest : List UInt8}, Ends rest →
      parseValue numbers (levels + 1) (serialize numbers isPretty level value ++ rest) =
        .ok (value, rest)) : Reading numbers isPretty value := by
  intro level levels rest hrest
  cases levels with
  | zero => rfl
  | succ levels =>
    rw [hheight, if_pos (Nat.succ_pos levels)]
    exact hread hrest

theorem foldl_items {α : Type} (xs read : List α) :
    xs.foldl (fun read x => read ++ [x]) read = read ++ xs := by
  induction xs generalizing read with
  | nil => exact (List.append_nil read).symm
  | cons x xs ih => rw [List.foldl_cons, ih, List.append_assoc, List.singleton_append]

theorem reading_array {items : List (Value ν)} (h : ∀ item ∈ items, Reading numbers isPretty item)
    (hnumbers : ∀ item ∈ items, item.Restored numbers) :
    Reading numbers isPretty (.array items) := by
  intro level levels rest hrest
  cases levels with
  | zero => rfl
  | succ levels =>
    have hitems := @parseItems_serialize isPretty level rest _ _ _ _ _ _ _ _ [] items (.inl rfl)
      (fun item hitem => item_start (hnumbers item hitem))
      (@reads_items _ _ _ (level + 1) levels _ _ h)
    have hopening : isspace (byte '[') = false := by decide
    rw [serialize, itemTexts_eq, List.cons_append, List.cons_append, List.append_assoc,
      List.singleton_append, parseValue, skip_cons hopening]
    dsimp only
    rw [if_neg (by decide), if_pos rfl, parseArrayValue, hitems, foldl_items, List.nil_append]
    simp only [Value.height, Value.heightItems_lt]
    split_ifs <;> rfl

theorem reading_object {members : List (CText × Value ν)}
    (h : ∀ member ∈ members, Reading numbers isPretty member.2)
    (hnames : (members.map (·.1)).Nodup) : Reading numbers isPretty (.object members) := by
  intro level levels rest hrest
  cases levels with
  | zero => rfl
  | succ levels =>
    have hmembers := @parseItems_serialize isPretty level rest _ _ _ _ _ _ _ _ [] members (.inr rfl)
      (fun member _ => memberText_start member)
      (@reads_members _ _ _ (level + 1) levels _ _ h hnames)
    have hopening : isspace (byte '{') = false := by decide
    rw [serialize_object hnames, List.cons_append, List.cons_append, List.append_assoc,
      List.singleton_append, parseValue, skip_cons hopening]
    dsimp only
    rw [if_pos rfl, parseObjectValue, hmembers, foldl_items, List.nil_append]
    simp only [Value.height, Value.heightMembers_lt]
    split_ifs <;> rfl

theorem reading {value : Value ν} (hnames : value.Everywhere Value.DistinctNames)
    (hnumbers : value.Everywhere (Value.Restored numbers)) :
    Reading numbers isPretty value := by
  induction value using Value.induction with
  | null =>
    refine reading_of_start rfl fun {level levels rest} _ => ?_
    exact @parseToken_append _ ['n', 'u', 'l', 'l'] _ rest
  | boolean value =>
    refine reading_of_start rfl fun {level levels rest} _ => ?_
    cases value with
    | false => exact @parseToken_append _ ['f', 'a', 'l', 's', 'e'] _ rest
    | true => exact @parseToken_append _ ['t', 'r', 'u', 'e'] _ rest
  | number value =>
    refine reading_of_start rfl fun {level levels rest} hrest => ?_
    obtain ⟨c, text, hprint, hc⟩ := Numbers.Restores.start hnumbers
    rw [serialize, hprint, List.cons_append, parseValue_number hc, ← List.cons_append, ← hprint]
    exact parseNumberValue_print hnumbers hrest
  | string value =>
    refine reading_of_start rfl fun {level levels rest} _ => ?_
    have hquote : isspace (byte '"') = false := by decide
    have hfront : jsonSerializeString value ++ rest =
        byte '"' :: (value.bytes.flatMap escape ++ [byte '"'] ++ rest) := rfl
    rw [serialize, hfront, parseValue, skip_cons hquote]
    dsimp only
    rw [if_neg (by decide), if_neg (by decide), if_pos rfl, ← hfront, parseStringValue,
      getQuotedString_serialize]
  | array items ih =>
    rw [Value.everywhere_array] at hnames hnumbers
    refine reading_array (fun item hitem => ih item hitem (hnames.2 item hitem)
      (hnumbers.2 item hitem)) fun item hitem => ?_
    exact (hnumbers.2 item hitem).self
  | object members ih =>
    rw [Value.everywhere_object] at hnames hnumbers
    exact reading_object (fun member hmember => ih member hmember (hnames.2 member hmember)
      (hnumbers.2 member hmember)) hnames.1

theorem zero_notMem_escape (c : UInt8) : 0 ∉ escape c := (ends_apart c).2

theorem zero_notMem_quoted (string : CText) : 0 ∉ jsonSerializeString string := by
  rw [jsonSerializeString, List.mem_append, List.mem_cons, List.mem_flatMap]
  rintro ((h | ⟨c, -, h⟩) | h)
  · exact absurd h (by decide)
  · exact zero_notMem_escape c h
  · exact absurd h (by decide)

theorem zero_notMem_items {texts : List (List UInt8)} (h : ∀ text ∈ texts, 0 ∉ text) :
    0 ∉ serializeItems isPretty level texts := by
  have hspace : ∀ {gap : List UInt8}, (∀ c ∈ gap, isspace c) → 0 ∉ gap := fun hgap hmem =>
    absurd (hgap 0 hmem) (by decide)
  have hindent : ∀ level, 0 ∉ indentIf isPretty level := fun level =>
    hspace (space_indentIf isPretty level)
  have hnewline : 0 ∉ newlineIf isPretty := hspace (space_newlineIf isPretty)
  rw [serializeItems]
  split
  · exact List.not_mem_nil
  · rw [List.mem_append, List.mem_append]
    rintro ((hmem | hmem) | hmem)
    · exact hnewline hmem
    · obtain hmem | hmem | hmem | ⟨text, htext, hmem⟩ := mem_entries hmem
      · exact absurd hmem (by decide)
      · exact hindent _ hmem
      · exact hnewline hmem
      · exact h text htext hmem
    · exact hindent _ hmem

theorem zero_notMem_block {opening closing : UInt8} {texts : List (List UInt8)}
    (hopening : 0 ≠ opening) (hclosing : 0 ≠ closing) (h : ∀ text ∈ texts, 0 ∉ text) :
    0 ∉ opening :: serializeItems isPretty level texts ++ [closing] := by
  rw [List.mem_append, List.mem_cons, List.mem_singleton]
  rintro ((h0 | h0) | h0)
  · exact hopening h0
  · exact zero_notMem_items h h0
  · exact hclosing h0

theorem zero_notMem_serialize {value : Value ν} (hnames : value.Everywhere Value.DistinctNames) :
    0 ∉ serialize numbers isPretty level value := by
  induction value using Value.induction generalizing level with
  | null =>
    rw [serialize]
    decide
  | boolean value =>
    rw [serialize]
    cases value <;> decide
  | number value => exact (numbers.print value).noNul
  | string value => exact zero_notMem_quoted value
  | array items ih =>
    rw [Value.everywhere_array] at hnames
    rw [serialize, itemTexts_eq]
    refine zero_notMem_block (by decide) (by decide) fun text htext => ?_
    obtain ⟨item, hitem, rfl⟩ := List.mem_map.mp htext
    exact ih item hitem (hnames.2 item hitem)
  | object members ih =>
    rw [Value.everywhere_object] at hnames
    rw [serialize_object hnames.1]
    refine zero_notMem_block (by decide) (by decide) fun text htext => ?_
    obtain ⟨member, hmember, rfl⟩ := List.mem_map.mp htext
    have hvalue := @ih member hmember (level + 1) (hnames.2 member hmember)
    rw [memberText, List.mem_append, List.mem_append, List.mem_cons]
    rintro ((h | h | h) | h)
    · exact zero_notMem_quoted _ h
    · exact absurd h (by decide)
    · exact absurd (space_blankIf isPretty 0 h) (by decide)
    · exact hvalue h

/-- The string that the caller finds in the buffer. -/
def jsonSerializeToString (numbers : Numbers ν) (isPretty : Bool) (value : Value ν) : CText :=
  cString (serialize numbers isPretty 0 value)

theorem bytes_cString (h : 0 ∉ text) : (cString text).bytes = text :=
  congrArg CText.bytes (cString_bytes ⟨text, h⟩)

theorem skipByteOrderMark_cons (hc : c ≠ 0xef) (text : List UInt8) :
    skipByteOrderMark (c :: text) = c :: text := by
  refine if_neg fun h => hc ?_
  rw [List.take_succ_cons] at h
  exact (List.cons.inj h).1

theorem document_read_back (value : Value ν) (hnames : value.Everywhere Value.DistinctNames)
    (hnumbers : value.Everywhere (Value.Restored numbers)) :
    jsonParseString numbers (jsonSerializeToString numbers isPretty value) =
      if value.height ≤ MAX_NESTING then .ok value else .error .rejected := by
  have hends : Ends [] := fun c hc => (by cases hc)
  have hread := @reading _ _ isPretty _ hnames hnumbers 0 (MAX_NESTING + 1) [] hends
  obtain ⟨c, text, htext, hc⟩ := @serialize_start _ _ isPretty 0 _ hnumbers.self
  rw [List.append_nil] at hread
  rw [jsonParseString, jsonSerializeToString, bytes_cString (zero_notMem_serialize hnames), htext,
    skipByteOrderMark_cons (valueStart_ne hc).2.2, ← htext, hread]
  simp only [Nat.lt_succ_iff]
  split_ifs <;> rfl

def wholeNumbers : Numbers ℕ where
  print n := cString ((Nat.toDigits 10 n).map byte)
  strtod text :=
    ⟨(text.takeWhile isdigit).foldl (fun n c => 10 * n + (c - byte '0').toNat) 0,
      (text.takeWhile isdigit).length, false⟩
  isFinite _ := true

theorem ends_takeWhile (h : Ends rest) : rest.takeWhile isdigit = [] := by
  cases rest with
  | nil => rfl
  | cons c rest =>
    have hc : isdigit c = false := (ends_apart c).1 (h c rfl)
    rw [List.takeWhile_cons, hc]
    rfl

theorem restores_twelve : wholeNumbers.Restores 12 where
  finite := rfl
  start := ⟨byte '1', [byte '2'], by decide, .inr (by decide)⟩
  decimal := by decide
  strtod := by
    intro rest hrest
    have hprint : (wholeNumbers.print 12).bytes = [byte '1', byte '2'] := by decide
    have hboth : ∀ c ∈ [byte '1', byte '2'], isdigit c :=
      List.forall_mem_cons.mpr ⟨rfl, List.forall_mem_singleton.mpr rfl⟩
    have hdigits : ([byte '1', byte '2'] ++ rest).takeWhile isdigit = [byte '1', byte '2'] := by
      rw [List.takeWhile_append_of_pos hboth, ends_takeWhile hrest, List.append_nil]
    rw [hprint, wholeNumbers]
    dsimp only
    rw [hdigits]
    rfl

def twelve : Value ℕ := .object [(cString (bytes ['a']), .array [.number 12, .null])]

theorem twelve_read_back :
    jsonParseString wholeNumbers (jsonSerializeToString wholeNumbers true twelve) = .ok twelve :=
  (document_read_back twelve
    ⟨List.nodup_cons.mpr ⟨List.not_mem_nil, List.nodup_nil⟩,
      ⟨trivial, trivial, trivial, trivial⟩, trivial⟩
    ⟨trivial, ⟨trivial, restores_twelve, trivial, trivial⟩, trivial⟩).trans (if_pos (by decide))

end IotEdgeAgent.Json
