import IotEdgeAgent.Json.RoundTrip

/-!
# What the parser accepts

Whatever the text, the parser comes to an end, and the documents that it returns are among those
that can be written and read again. A property of texts is followed along the parser.
-/

namespace IotEdgeAgent.Json

open Strings Separated

variable {ν : Type} {numbers : Numbers ν} {levels : ℕ} {text rest : List UInt8}
  {T : List UInt8 → Prop} {S : CText → Prop} {read : List UInt8 → Parsed ν}

structure Lasting (numbers : Numbers ν) (T : List UInt8 → Prop) (S : CText → Prop) : Prop where
  behind : ∀ {c text}, c < 0x80 → T (c :: text) → T text
  quoted : ∀ {text string rest}, T text → getQuotedString text = some (string, rest) →
    S string ∧ T rest
  number : ∀ {text}, T text → T (text.drop (numbers.strtod text).length)

def Value.Texts (S : CText → Prop) : Value ν → Prop
  | .string text => S text
  | .object members => ∀ member ∈ members, S member.1
  | _ => True

structure Fits (S : CText → Prop) (levels : ℕ) (value : Value ν) : Prop where
  names : value.Everywhere Value.DistinctNames
  texts : value.Everywhere (Value.Texts S)
  height : value.height < levels

/-- A reader that ends, does not lengthen the text and returns documents that fit. -/
def Sound (T : List UInt8 → Prop) (S : CText → Prop) (levels : ℕ)
    (read : List UInt8 → Parsed ν) : Prop :=
  ∀ text, T text → Ensures
    (fun next => Fits S levels next.1 ∧ T next.2 ∧ next.2.length ≤ text.length) (read text)

theorem Sound.longer (hread : Sound T S levels read) {ahead : List UInt8} (hahead : T ahead)
    (hlen : ahead.length ≤ text.length) :
    Ensures (fun next => Fits S levels next.1 ∧ T next.2 ∧ next.2.length ≤ text.length)
      (read ahead) :=
  (hread ahead hahead).mono fun _ hnext =>
    ⟨hnext.1, hnext.2.1, Nat.le_trans hnext.2.2 hlen⟩

theorem behindQuote_length (h : behindQuote text = some rest) : rest.length ≤ text.length := by
  fun_induction behindQuote text with
  | case1 => cases h
  | case2 =>
    cases h
    exact Nat.zero_le _
  | case3 => cases h
  | case4 =>
    cases h
    exact Nat.le_succ _
  | case5 _ _ _ ih => exact Nat.le_succ_of_le (Nat.le_succ_of_le (ih h))
  | case6 _ _ _ _ _ ih => exact Nat.le_succ_of_le (ih h)

theorem getQuotedString_length {string : CText}
    (h : getQuotedString text = some (string, rest)) : rest.length ≤ text.length := by
  obtain ⟨behind, hskip, h⟩ := Option.bind_eq_some_iff.mp h
  obtain ⟨read, -, h⟩ := Option.bind_eq_some_iff.mp h
  cases h
  cases text with
  | nil => cases hskip
  | cons c text =>
    rw [skipQuotes] at hskip
    split at hskip
    · exact Nat.le_succ_of_le (behindQuote_length hskip)
    · cases hskip

theorem lasting_skip (h : Lasting numbers T S) (htext : T text) : T (skip isspace text) := by
  induction text with
  | nil => exact htext
  | cons c text ih =>
    by_cases hc : isspace c
    · have hsmall : c < 0x80 := by
        rw [isspace, Bool.or_eq_true, Bool.and_eq_true, decide_eq_true_eq, decide_eq_true_eq,
          decide_eq_true_eq] at hc
        obtain rfl | ⟨-, hlast⟩ := hc
        · decide
        · exact UInt8.lt_of_le_of_lt hlast (by decide)
      rw [skip, List.dropWhile_cons_of_pos hc]
      exact ih (h.behind hsmall htext)
    · rwa [skip_cons (Bool.eq_false_iff.mpr hc)]

def Ascii (text : List UInt8) : Prop := ∀ c ∈ text, c < 0x80

theorem ascii_bytes {token : List Char} (h : token.all fun c => c.toNat < 0x80) :
    Ascii (bytes token) := by
  intro b hb
  obtain ⟨c, hc, rfl⟩ := List.mem_map.mp hb
  have hsmall := of_decide_eq_true (List.all_eq_true.mp h c hc)
  rw [byte, UInt8.lt_iff_toNat_lt, UInt8.toNat_ofNat', Nat.mod_eq_of_lt (by omega)]
  exact hsmall

theorem behind_ascii {ascii : List UInt8} (h : ∀ {c text}, c < 0x80 → T (c :: text) → T text)
    (hascii : Ascii ascii) (htext : T (ascii ++ text)) : T text := by
  induction ascii with
  | nil => exact htext
  | cons c ascii ih =>
    rw [Ascii, List.forall_mem_cons] at hascii
    exact ih hascii.2 (h hascii.1 htext)

theorem fits_leaf {value : Value ν} (hheight : value.height = 0)
    (hnames : value.Everywhere Value.DistinctNames) (htexts : value.Everywhere (Value.Texts S)) :
    Fits S (levels + 1) value := ⟨hnames, htexts, hheight ▸ Nat.succ_pos levels⟩

theorem parseToken_sound {token : List Char} {value : Value ν} (h : Lasting numbers T S)
    (htoken : Ascii (bytes token)) (hvalue : Fits S levels value) :
    Sound T S levels (parseToken token value) := by
  intro text htext
  rw [parseToken]
  split
  · rename_i htake
    refine ⟨hvalue, behind_ascii h.behind htoken ?_, (List.drop_suffix _ _).length_le⟩
    rwa [← htake, List.take_append_drop]
  · exact ensures_rejected

theorem parseBooleanValue_sound (h : Lasting numbers T S) :
    Sound T S (levels + 1) (@parseBooleanValue ν) := by
  intro text htext
  rw [parseBooleanValue]
  split
  · have hvalue : Fits S (levels + 1) (@Value.boolean ν true) :=
      fits_leaf rfl trivial trivial
    exact parseToken_sound h (ascii_bytes rfl) hvalue text htext
  · have hvalue : Fits S (levels + 1) (@Value.boolean ν false) :=
      fits_leaf rfl trivial trivial
    exact parseToken_sound h (ascii_bytes rfl) hvalue text htext

theorem parseStringValue_sound (h : Lasting numbers T S) :
    Sound T S (levels + 1) (@parseStringValue ν) := by
  intro text htext
  rw [parseStringValue]
  split
  · exact ensures_rejected
  · rename_i string rest hquoted
    obtain ⟨hstring, hrest⟩ := h.quoted htext hquoted
    exact ⟨fits_leaf rfl trivial hstring, hrest, getQuotedString_length hquoted⟩

theorem parseNumberValue_sound (h : Lasting numbers T S) :
    Sound T S (levels + 1) (parseNumberValue numbers) := by
  intro text htext
  rw [parseNumberValue]
  split
  · exact ensures_rejected
  · exact ⟨fits_leaf rfl trivial trivial, h.number htext, (List.drop_suffix _ _).length_le⟩

theorem parseItems_sound {σ : Type} {closing : UInt8} {P : σ → Prop} {empty : σ}
    {item : σ → List UInt8 → Except Stop (σ × List UInt8)} (h : Lasting numbers T S)
    (hclosing : closing < 0x80) (hempty : P empty)
    (hitem : ∀ read text, P read → T text → Ensures
      (fun next => P next.1 ∧ T next.2 ∧ next.2.length ≤ text.length) (item read text))
    (htext : T text) :
    Ensures (fun next => P next.1 ∧ T next.2 ∧ next.2.length ≤ text.length)
      (parseItems closing item empty text) := by
  have hskip := lasting_skip h htext
  have hlen := length_skip_le isspace text
  rw [parseItems]
  split
  · exact ensures_rejected
  · rename_i c ahead hahead
    rw [hahead] at hskip hlen
    split_ifs with hc
    · exact ⟨hempty, h.behind (hc ▸ hclosing) hskip, Nat.le_of_succ_le hlen⟩
    · have hdrop : ∀ {c text}, c = byte ',' ∨ c = closing → T (c :: text) → T text := by
        rintro c text (rfl | rfl)
        · exact h.behind (by decide)
        · exact h.behind hclosing
      have hread := readItems_ensures (P := P) (T := T) (fun _ => lasting_skip h) hdrop hitem
        hempty hskip (Nat.lt_succ_self (ahead.length + 1))
      exact hread.mono fun next hnext => ⟨hnext.1, hnext.2.1, by
        exact Nat.le_of_lt (Nat.lt_of_lt_of_le hnext.2.2 hlen)⟩

theorem parseArrayValue_sound (h : Lasting numbers T S) (hread : Sound T S levels read) :
    Sound T S (levels + 1) (parseArrayValue read) := by
  intro text htext
  have hitems := @parseItems_sound _ _ text _ _ _ (byte ']')
    (fun items => ∀ item ∈ items, Fits S levels item) [] (parseItem read) h (by decide)
    (List.forall_mem_nil _) ?_ htext
  · refine hitems.map fun next hnext => ⟨⟨?_, ?_, ?_⟩, hnext.2⟩
    · exact Value.everywhere_array.mpr ⟨trivial, fun item hitem => (hnext.1 item hitem).names⟩
    · exact Value.everywhere_array.mpr ⟨trivial, fun item hitem => (hnext.1 item hitem).texts⟩
    · exact Value.heightItems_lt.mpr fun item hitem => (hnext.1 item hitem).height
  · intro items text hitems htext
    refine (hread text htext).map fun next hnext => ⟨?_, hnext.2⟩
    intro item hitem
    rcases List.mem_append.mp hitem with hitem | hitem
    · exact hitems item hitem
    · exact List.mem_singleton.mp hitem ▸ hnext.1

theorem parseMember_sound (h : Lasting numbers T S) (hread : Sound T S levels read)
    {members : List (CText × Value ν)} (hmembers : (members.map (·.1)).Nodup)
    (hfits : ∀ member ∈ members, S member.1 ∧ Fits S levels member.2) (htext : T text) :
    Ensures (fun next => ((next.1.map (·.1)).Nodup ∧
        ∀ member ∈ next.1, S member.1 ∧ Fits S levels member.2) ∧
      T next.2 ∧ next.2.length ≤ text.length) (parseMember read members text) := by
  rw [parseMember]
  split
  · exact ensures_rejected
  · rename_i name behind hname
    obtain ⟨hstring, hbehind⟩ := h.quoted htext hname
    have hskip := lasting_skip h hbehind
    have hlen := Nat.le_trans (length_skip_le isspace behind) (getQuotedString_length hname)
    split
    · exact ensures_rejected
    · rename_i c ahead hahead
      rw [hahead] at hskip hlen
      by_cases hc : c ≠ byte ':'
      · rw [if_pos hc]
        exact ensures_rejected
      · have hcolon : c < 0x80 := not_not.mp hc ▸ by decide
        have hvalue := hread ahead (h.behind hcolon hskip)
        rw [if_neg hc]
        split
        · rename_i stop hstop
          rwa [hstop] at hvalue
        · rename_i value rest hok
          rw [hok] at hvalue
          have hrest : rest.length ≤ ahead.length := hvalue.2.2
          split_ifs with hknown
          · exact ensures_rejected
          · refine ⟨⟨?_, ?_⟩, hvalue.2.1, Nat.le_trans hrest (Nat.le_of_succ_le hlen)⟩
            · rw [List.map_append, List.nodup_append]
              refine ⟨hmembers, List.nodup_cons.mpr ⟨List.not_mem_nil, List.nodup_nil⟩, ?_⟩
              rintro known hmem other hother rfl
              have hname : known = name := List.mem_singleton.mp hother
              exact hknown (hname ▸ hmem)
            · intro member hmember
              rcases List.mem_append.mp hmember with hmember | hmember
              · exact hfits member hmember
              · exact List.mem_singleton.mp hmember ▸ ⟨hstring, hvalue.1⟩

theorem parseObjectValue_sound (h : Lasting numbers T S) (hread : Sound T S levels read) :
    Sound T S (levels + 1) (parseObjectValue read) := by
  intro text htext
  have hmembers := @parseItems_sound _ _ text _ _ _ (byte '}')
    (fun members => (members.map (·.1)).Nodup ∧
      ∀ member ∈ members, S member.1 ∧ Fits S levels member.2) [] (parseMember read) h (by decide)
    ⟨List.nodup_nil, List.forall_mem_nil _⟩
    (fun members text hmembers htext => parseMember_sound h hread hmembers.1 hmembers.2 htext) htext
  refine hmembers.map fun next hnext => ⟨⟨?_, ?_, ?_⟩, hnext.2⟩
  · exact Value.everywhere_object.mpr
      ⟨hnext.1.1, fun member hmember => (hnext.1.2 member hmember).2.names⟩
  · exact Value.everywhere_object.mpr ⟨fun member hmember => (hnext.1.2 member hmember).1,
      fun member hmember => (hnext.1.2 member hmember).2.texts⟩
  · exact Value.heightMembers_lt.mpr fun member hmember => (hnext.1.2 member hmember).2.height

theorem parseValue_sound (h : Lasting numbers T S) :
    Sound T S levels (parseValue numbers levels) := by
  induction levels with
  | zero => exact fun _ _ => ensures_rejected
  | succ levels ih =>
    intro text htext
    have hskip := lasting_skip h htext
    have hlen := length_skip_le isspace text
    rw [parseValue]
    split
    · exact ensures_rejected
    · rename_i c ahead hahead
      rw [hahead] at hskip hlen
      have hshort := Nat.le_of_succ_le hlen
      split_ifs with hobject harray hquote htoken hnumber hnull
      · exact (parseObjectValue_sound h ih).longer (h.behind (hobject ▸ by decide) hskip) hshort
      · exact (parseArrayValue_sound h ih).longer (h.behind (harray ▸ by decide) hskip) hshort
      · exact (parseStringValue_sound h).longer hskip hlen
      · exact (parseBooleanValue_sound h).longer hskip hlen
      · exact (parseNumberValue_sound h).longer hskip hlen
      · have hvalue : Fits S (levels + 1) (@Value.null ν) := fits_leaf rfl trivial trivial
        exact (parseToken_sound h (ascii_bytes rfl) hvalue).longer hskip hlen
      · exact ensures_rejected

theorem lasting_true (numbers : Numbers ν) : Lasting numbers (fun _ => True) fun _ => True where
  behind _ _ := trivial
  quoted _ _ := ⟨trivial, trivial⟩
  number _ := trivial

theorem jsonParseString_ensures (h : Lasting numbers T S) (string : CText)
    (htext : T (skipByteOrderMark string.bytes)) :
    Ensures (Fits S (MAX_NESTING + 1)) (jsonParseString numbers string) :=
  (parseValue_sound h _ htext).map fun _ hnext => hnext.1

/-- Every loop ends within as many rounds as there are characters left, also at a number that
`strtod` takes no character for. -/
theorem parse_finishes (string : CText) : jsonParseString numbers string ≠ .error .unfinished := by
  have hparse := jsonParseString_ensures (lasting_true numbers) string trivial
  intro h
  rw [h] at hparse
  exact hparse rfl

theorem accepted_read_back {string : CText} {value : Value ν}
    (h : jsonParseString numbers string = .ok value) :
    value.Everywhere Value.DistinctNames ∧ value.height ≤ MAX_NESTING ∧
      (value.Everywhere (Value.Restored numbers) → ∀ isPretty,
        jsonParseString numbers (jsonSerializeToString numbers isPretty value) = .ok value) := by
  have hfits := jsonParseString_ensures (lasting_true numbers) string trivial
  rw [h] at hfits
  have hheight : value.height ≤ MAX_NESTING := Nat.le_of_lt_succ hfits.height
  refine ⟨hfits.names, hheight, fun hnumbers isPretty => ?_⟩
  rw [document_read_back value hfits.names hnumbers]
  exact if_pos hheight

def spaced : CText :=
  cString (bytes [' ', '{', '"', '\\', 'u', '0', '0', '6', '1', '"', ' ', ':', '[', ' ', '1', '2',
    ',', 'n', 'u', 'l', 'l', ']', '}', '!'])

theorem spaced_read_back :
    jsonParseString wholeNumbers spaced = .ok twelve ∧ twelve.height ≤ MAX_NESTING ∧
      jsonParseString wholeNumbers (jsonSerializeToString wholeNumbers false twelve) = .ok twelve :=
  have hparse : jsonParseString wholeNumbers spaced = .ok twelve := rfl
  have hread := accepted_read_back hparse
  ⟨hparse, hread.2.1, hread.2.2
    ⟨trivial, ⟨trivial, restores_twelve, trivial, trivial⟩, trivial⟩ false⟩

end IotEdgeAgent.Json
