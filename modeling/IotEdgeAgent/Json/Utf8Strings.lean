import IotEdgeAgent.Json.Utf8
import Mathlib.Algebra.Ring.Nat

/-!
# The strings of a parsed text

A text in UTF-8 leads to strings in UTF-8: what `parse_utf16` writes is UTF-8 itself, and nothing
else cuts a sequence.
-/

namespace IotEdgeAgent.Json

open Strings Utf8

variable {ν : Type} {numbers : Numbers ν} {c : UInt8} {text rest bytes processed : List UInt8}
  {cp n : ℕ}

theorem hexCharToInt_cases (h : hexCharToInt c = some n) : c < 0x80 ∧ n < 16 := by
  have hall := forall_byte (P := fun c => (hexCharToInt c).all fun n =>
    decide (c < 0x80 ∧ n < 16)) (by decide +kernel) c c.toNat_lt
  rw [h] at hall
  exact of_decide_eq_true hall

theorem hexValue_lt {s0 s1 s2 s3 : UInt8} (h : hexValue s0 s1 s2 s3 = some n) :
    Ascii [s0, s1, s2, s3] ∧ n < 0x10000 := by
  obtain ⟨x1, h1, h⟩ := Option.bind_eq_some_iff.mp h
  obtain ⟨x2, h2, h⟩ := Option.bind_eq_some_iff.mp h
  obtain ⟨x3, h3, h⟩ := Option.bind_eq_some_iff.mp h
  obtain ⟨x4, h4, h⟩ := Option.bind_eq_some_iff.mp h
  cases h
  obtain ⟨hs0, hx1⟩ := hexCharToInt_cases h1
  obtain ⟨hs1, hx2⟩ := hexCharToInt_cases h2
  obtain ⟨hs2, hx3⟩ := hexCharToInt_cases h3
  obtain ⟨hs3, hx4⟩ := hexCharToInt_cases h4
  constructor
  · intro c hc
    simp only [List.mem_cons, List.not_mem_nil, or_false] at hc
    rcases hc with rfl | rfl | rfl | rfl <;> assumption
  · have hshift : ∀ {x shift : ℕ}, x < 16 → shift ≤ 12 → x <<< shift < 2 ^ 16 := by
      intro x shift hx hshift
      have hpow : 2 ^ shift ≤ 2 ^ 12 := Nat.pow_le_pow_right (by decide) hshift
      rw [Nat.shiftLeft_eq]
      exact Nat.lt_of_le_of_lt (Nat.mul_le_mul (Nat.le_of_lt_succ hx) hpow) (by decide)
    exact Nat.or_lt_two_pow (Nat.or_lt_two_pow (Nat.or_lt_two_pow (hshift hx1 (by decide))
      (hshift hx2 (by decide))) (hshift hx3 (by decide))) (Nat.lt_trans hx4 (by decide))

theorem parseUtf16Hex_cases (h : parseUtf16Hex text = some (cp, rest)) :
    (∃ digits, text = digits ++ rest ∧ Ascii digits) ∧ cp < 0x10000 := by
  rw [parseUtf16Hex.eq_def] at h
  split at h
  · rename_i s0 s1 s2 s3 text
    obtain ⟨n, hn, h⟩ := Option.map_eq_some_iff.mp h
    cases h
    exact ⟨⟨[s0, s1, s2, s3], rfl, (hexValue_lt hn).1⟩, (hexValue_lt hn).2⟩
  · cases h

theorem or_marks {i n : ℕ} (marks : ℕ) (hn : n < 2 ^ i) :
    n ||| 2 ^ i * marks = 2 ^ i * marks + n := by
  rw [Nat.or_comm, Nat.two_pow_add_eq_or_of_lt hn]

theorem continuation_eq (cp shift : ℕ) :
    continuation cp shift = UInt8.ofNat (0x80 + cp / 2 ^ shift % 64) := by
  have hbits : ∀ n < 64, n ||| 0x80 = 0x80 + n := fun n hn => @or_marks 6 n 2 hn
  have hmask : cp >>> shift &&& 0x3f = cp / 2 ^ shift % 64 := by
    rw [Nat.shiftRight_eq_div_pow]
    exact Nat.and_two_pow_sub_one_eq_mod _ 6
  rw [continuation, hmask, hbits _ (Nat.mod_lt _ (by decide))]

theorem lead_eq {mask modulus lead : ℕ} (hmask : ∀ n, n &&& mask = n % modulus)
    (hbits : ∀ n < modulus, n ||| lead = lead + n) (hpos : 0 < modulus) (cp shift : ℕ) :
    UInt8.ofNat (cp >>> shift &&& mask ||| lead) =
      UInt8.ofNat (lead + cp / 2 ^ shift % modulus) := by
  rw [hmask, Nat.shiftRight_eq_div_pow, hbits _ (Nat.mod_lt _ hpos)]

theorem lead_two_eq (cp : ℕ) :
    UInt8.ofNat (cp >>> 6 &&& 0x1f ||| 0xc0) = UInt8.ofNat (0xc0 + cp / 2 ^ 6 % 32) :=
  lead_eq (fun n => Nat.and_two_pow_sub_one_eq_mod n 5) (fun n hn => @or_marks 5 n 6 hn)
    (by decide) cp 6

theorem lead_three_eq (cp : ℕ) :
    UInt8.ofNat (cp >>> 12 &&& 0x0f ||| 0xe0) = UInt8.ofNat (0xe0 + cp / 2 ^ 12 % 16) :=
  lead_eq (fun n => Nat.and_two_pow_sub_one_eq_mod n 4) (fun n hn => @or_marks 4 n 14 hn)
    (by decide) cp 12

theorem lead_four_eq (cp : ℕ) :
    UInt8.ofNat (cp >>> 18 &&& 0x07 ||| 0xf0) = UInt8.ofNat (0xf0 + cp / 2 ^ 18 % 8) :=
  lead_eq (fun n => Nat.and_two_pow_sub_one_eq_mod n 3) (fun n hn => @or_marks 3 n 30 hn)
    (by decide) cp 18

theorem surrogates_eq {lead trail : ℕ} (hlead : lead < 0x400) (htrail : trail < 0x400) :
    ((lead &&& 0x3ff) <<< 10 ||| (trail &&& 0x3ff)) = 1024 * lead + trail := by
  have hmask : ∀ {n : ℕ}, n < 0x400 → n &&& 0x3ff = n := fun hn =>
    (Nat.and_two_pow_sub_one_eq_mod _ 10).trans (Nat.mod_eq_of_lt hn)
  rw [hmask hlead, hmask htrail, ← Nat.shiftLeft_add_eq_or_of_lt (i := 10) htrail, Nat.shiftLeft_eq,
    Nat.mul_comm]

theorem parseUtf16_cases (h : parseUtf16 text = some (processed, rest)) :
    (∃ digits, text = digits ++ rest ∧ Ascii digits) ∧ ∃ n, Encodes n processed := by
  obtain ⟨⟨cp, behind⟩, hcp, h⟩ := Option.bind_eq_some_iff.mp h
  obtain ⟨⟨digits, htext, hascii⟩, hsmall⟩ := parseUtf16Hex_cases hcp
  dsimp only at h
  split_ifs at h with h1 h2 h3 h4
  · cases h
    exact ⟨⟨digits, htext, hascii⟩, cp, .one h1⟩
  · cases h
    rw [lead_two_eq, continuation_eq]
    exact ⟨⟨digits, htext, hascii⟩, _, .two (by omega) (by omega) (by omega)⟩
  · cases h
    rw [lead_three_eq, continuation_eq, continuation_eq]
    exact ⟨⟨digits, htext, hascii⟩, _,
      .three (by omega) (by omega) (by omega) (by omega) (by omega)⟩
  · rcases behind with _ | ⟨b, _ | ⟨u, behind⟩⟩
    · cases h
    · cases h
    dsimp only at h
    split_ifs at h with hletters
    obtain ⟨⟨trail, ahead⟩, htrail, h⟩ := Option.bind_eq_some_iff.mp h
    obtain ⟨⟨more, hbehind, hmore⟩, -⟩ := parseUtf16Hex_cases htrail
    dsimp only at h
    split_ifs at h with hrange
    cases h
    rw [not_or, not_not, not_not] at hletters
    obtain ⟨rfl, rfl⟩ := hletters
    rw [surrogates_eq (by omega) (by omega), lead_four_eq, continuation_eq, continuation_eq,
      continuation_eq]
    refine ⟨⟨digits ++ byte '\\' :: byte 'u' :: more, ?_, ?_⟩, _,
      .four (by omega) (by omega) (by omega) (by omega) (by omega) (by omega)⟩
    · rw [htext, hbehind, List.append_assoc, List.cons_append, List.cons_append]
    · intro c hc
      rcases List.mem_append.mp hc with hc | hc
      · exact hascii c hc
      · rcases List.mem_cons.mp hc with rfl | hc
        · decide
        · rcases List.mem_cons.mp hc with rfl | hc
          · decide
          · exact hmore c hc

theorem encodes_ascii (hc : c < 0x80) : Encodes c.toNat [c] := by
  have hone := Encodes.one (UInt8.lt_iff_toNat_lt.mp hc)
  rwa [UInt8.ofNat_toNat] at hone

theorem unescape_ascii {letter : UInt8} (h : unescapeLetters.lookup letter = some c) :
    letter < 0x80 ∧ c < 0x80 := by
  have hall := forall_byte (P := fun letter => (unescapeLetters.lookup letter).all fun c =>
    decide (letter < 0x80 ∧ c < 0x80)) (by decide +kernel) letter letter.toNat_lt
  rw [h] at hall
  exact of_decide_eq_true hall

theorem processChar_ascii (hc : c < 0x80) (h : processChar (c :: text) = some (processed, rest)) :
    (∃ digits, text = digits ++ rest ∧ Ascii digits) ∧ ∃ n, Encodes n processed := by
  rw [processChar.eq_def] at h
  dsimp only at h
  split_ifs at h with hbackslash hcontrol
  · rcases text with _ | ⟨letter, text⟩
    · cases h
    dsimp only at h
    split_ifs at h with hu
    · obtain ⟨⟨digits, htext, hascii⟩, hencodes⟩ := parseUtf16_cases h
      refine ⟨⟨letter :: digits, by rw [htext, List.cons_append], ?_⟩, hencodes⟩
      exact List.forall_mem_cons.mpr ⟨hu ▸ by decide, hascii⟩
    · obtain ⟨c', hc', h⟩ := Option.map_eq_some_iff.mp h
      cases h
      obtain ⟨hletter, hsmall⟩ := unescape_ascii hc'
      exact ⟨⟨[letter], rfl, List.forall_mem_singleton.mpr hletter⟩, _, encodes_ascii hsmall⟩
  · cases h
    exact ⟨⟨[], rfl, List.forall_mem_nil _⟩, _, encodes_ascii hc⟩

theorem processChar_high (hc : 0x80 ≤ c) : processChar (c :: text) = some ([c], text) := by
  have hne : c ≠ byte '\\' := by
    rintro rfl
    exact absurd hc (by decide)
  have hcontrol : ¬ c < 0x20 :=
    UInt8.not_lt.mpr (UInt8.le_trans (by decide) hc)
  rw [processChar.eq_def]
  dsimp only
  rw [if_neg hne, if_neg hcontrol]

theorem processChars_succ {rounds len : ℕ} {output : List UInt8} (hlen : 0 < len)
    (h : processChars (rounds + 1) (c :: text) len = some output) :
    ∃ processed rest behind, processChar (c :: text) = some (processed, rest) ∧
      processChars rounds rest (len - ((c :: text).length - rest.length)) = some behind ∧
      output = processed ++ behind := by
  rw [processChars, if_neg] at h
  · obtain ⟨⟨processed, rest⟩, hchar, h⟩ := Option.bind_eq_some_iff.mp h
    obtain ⟨behind, hbehind, h⟩ := Option.bind_eq_some_iff.mp h
    cases h
    exact ⟨processed, rest, behind, hchar, hbehind, rfl⟩
  · rintro (h | h)
    · cases h
    · omega

theorem processChars_zero {rounds : ℕ} : processChars rounds text 0 = some [] := by
  cases rounds with
  | zero => rfl
  | succ rounds => exact if_pos (.inr rfl)

theorem processChars_high {rounds len : ℕ} {output : List UInt8} (hhigh : ∀ b ∈ bytes, 0x80 ≤ b)
    (hrounds : bytes.length ≤ rounds)
    (h : processChars rounds (bytes ++ text) (bytes.length + len) = some output) :
    ∃ behind, processChars (rounds - bytes.length) text len = some behind ∧
      output = bytes ++ behind := by
  induction bytes generalizing rounds output with
  | nil => exact ⟨output, by simpa using h, rfl⟩
  | cons b bytes ih =>
    obtain ⟨rounds, rfl⟩ := Nat.exists_eq_succ_of_ne_zero
      (Nat.ne_of_gt (Nat.lt_of_lt_of_le (Nat.succ_pos _) hrounds))
    rw [List.forall_mem_cons] at hhigh
    obtain ⟨processed, rest, behind, hchar, hbehind, rfl⟩ :=
      processChars_succ (by rw [List.length_cons]; omega) h
    rw [processChar_high hhigh.1] at hchar
    cases hchar
    have hleft : (b :: bytes).length + len - ((b :: (bytes ++ text)).length -
        (bytes ++ text).length) = bytes.length + len := by
      simp only [List.length_cons]
      omega
    rw [List.append_eq, hleft] at hbehind
    obtain ⟨more, hmore, rfl⟩ := ih hhigh.2 (Nat.le_of_succ_le_succ hrounds) hbehind
    refine ⟨more, ?_, rfl⟩
    rwa [List.length_cons, Nat.succ_sub_succ_eq_sub]

/-- The induction is on the length: a round ends where a character does, or behind the content. -/
theorem processChars_valid {content behind output : List UInt8} {rounds : ℕ}
    (hvalid : Valid content) (hrounds : content.length ≤ rounds)
    (h : processChars rounds (content ++ behind) content.length = some output) :
    Valid output := by
  induction hlength : content.length using Nat.strong_induction_on
    generalizing content behind output rounds with
  | _ length ih =>
    cases hvalid with
    | nil =>
      rw [List.length_nil, processChars_zero] at h
      cases h
      exact .nil
    | @append n bytes tail hbytes htail =>
      obtain ⟨hn, rfl⟩ | hhigh := hbytes.high
      · have hsmall : UInt8.ofNat n < 0x80 := by
          rw [UInt8.lt_iff_toNat_lt, UInt8.toNat_ofNat', Nat.mod_eq_of_lt (by omega)]
          exact hn
        simp only [List.cons_append, List.nil_append, List.length_cons] at h hrounds hlength
        obtain ⟨rounds, rfl⟩ := Nat.exists_eq_succ_of_ne_zero
          (Nat.ne_of_gt (Nat.lt_of_lt_of_le (Nat.succ_pos _) hrounds))
        obtain ⟨processed, rest, more, hchar, hmore, rfl⟩ :=
          processChars_succ (Nat.succ_pos tail.length) h
        obtain ⟨⟨digits, hdigits, hascii⟩, n', hprocessed⟩ := processChar_ascii hsmall hchar
        have hleft : tail.length + 1 -
            ((UInt8.ofNat n :: (tail ++ behind)).length - rest.length) =
              tail.length - digits.length := by
          rw [hdigits, List.length_cons, List.length_append]
          omega
        rw [hleft] at hmore
        obtain ⟨tail', rfl, rfl⟩ | ⟨surplus, rfl, -⟩ := List.append_eq_append_iff.mp hdigits.symm
        · rw [List.length_append] at hmore hrounds hlength
          rw [Nat.add_sub_cancel_left] at hmore
          exact .append hprocessed (ih tail'.length (by omega)
            (behind_ascii Valid.behind hascii htail) (by omega) hmore rfl)
        · rw [List.length_append, Nat.sub_eq_zero_of_le (Nat.le_add_right _ _),
            processChars_zero] at hmore
          cases hmore
          exact .append hprocessed .nil
      · rw [List.append_assoc, List.length_append] at h
        rw [List.length_append] at hrounds hlength
        have hpos := List.length_pos_iff.mpr hbytes.ne_nil
        obtain ⟨more, hmore, rfl⟩ := processChars_high hhigh (by omega) h
        exact .append hbytes (ih tail.length (by omega) htail (by omega) hmore rfl)

theorem valid_cString (h : Valid text) : Valid (cString text).bytes := by
  have hsplit := @List.takeWhile_append_dropWhile _ (fun b : UInt8 => decide (b ≠ 0)) text
  change Valid (text.takeWhile fun b : UInt8 => decide (b ≠ 0))
  rcases hdrop : text.dropWhile fun b : UInt8 => decide (b ≠ 0) with _ | ⟨b, behind⟩
  · rw [hdrop, List.append_nil] at hsplit
    rwa [hsplit]
  · have hb : b = 0 := by
      have hhead := List.head?_dropWhile_not (fun b : UInt8 => decide (b ≠ 0)) text
      rw [hdrop] at hhead
      simpa using hhead
    rw [hdrop, hb] at hsplit
    exact (Valid.split (hsplit ▸ h) (by decide)).1

theorem behindQuote_split (h : behindQuote text = some rest) :
    ∃ content, text = content ++ byte '"' :: rest := by
  fun_induction behindQuote text with
  | case1 => cases h
  | case2 =>
    cases h
    exact ⟨[], rfl⟩
  | case3 => cases h
  | case4 =>
    cases h
    exact ⟨[], rfl⟩
  | case5 d _ _ ih =>
    obtain ⟨content, rfl⟩ := ih h
    exact ⟨_ :: d :: content, rfl⟩
  | case6 c d _ _ _ ih =>
    obtain ⟨content, hcontent⟩ := ih h
    exact ⟨c :: content, by rw [hcontent, List.cons_append]⟩

theorem getQuotedString_valid {string : CText} (htext : Valid text)
    (h : getQuotedString text = some (string, rest)) : Valid string.bytes ∧ Valid rest := by
  obtain ⟨behind, hskip, h⟩ := Option.bind_eq_some_iff.mp h
  obtain ⟨read, hread, h⟩ := Option.bind_eq_some_iff.mp h
  cases h
  rcases text with _ | ⟨c, text⟩
  · cases hskip
  rw [skipQuotes] at hskip
  split_ifs at hskip with hc
  obtain ⟨content, rfl⟩ := behindQuote_split hskip
  obtain ⟨hcontent, hrest⟩ := (htext.behind (hc ▸ by decide)).split (by decide)
  obtain ⟨output, houtput, rfl⟩ := Option.map_eq_some_iff.mp hread
  have hlen : (c :: (content ++ byte '"' :: rest)).length - rest.length - 2 = content.length := by
    simp only [List.length_cons, List.length_append]
    omega
  rw [hlen, List.drop_one, List.tail_cons] at houtput
  exact ⟨valid_cString (processChars_valid hcontent (Nat.le_refl _) houtput), hrest⟩

/-- `strtod` takes no byte of a longer sequence. -/
def Numbers.AsciiOnly (numbers : Numbers ν) : Prop :=
  ∀ text : List UInt8, Ascii (text.take (numbers.strtod text).length)

theorem lasting_valid (h : numbers.AsciiOnly) :
    Lasting numbers Valid fun string => isValidUtf8 string.bytes where
  behind hc htext := htext.behind hc
  quoted htext hquoted :=
    have hstring := getQuotedString_valid htext hquoted
    ⟨isValidUtf8_iff.mpr (valid_iff.mp hstring.1), hstring.2⟩
  number {text} htext := by
    refine behind_ascii Valid.behind (h text) ?_
    rwa [List.take_append_drop]

theorem valid_behind_mark (h : Valid text) : Valid (skipByteOrderMark text) := by
  rw [skipByteOrderMark]
  split_ifs with hmark
  · cases h with
    | nil => exact .nil
    | append hbytes htail =>
      have hne : ∀ {m : ℕ}, m < 256 → m ≠ 0xef → UInt8.ofNat m ≠ 0xef := by
        intro m hm hne heq
        have hnat := congrArg UInt8.toNat heq
        rw [UInt8.toNat_ofNat', Nat.mod_eq_of_lt hm] at hnat
        exact hne hnat
      cases hbytes with
      | one hn => exact absurd (List.cons.inj hmark).1 (hne (by omega) (by omega))
      | two hk hk' hl => exact absurd (List.cons.inj hmark).1 (hne (by omega) (by omega))
      | three hk hl hm => exact htail
      | four hk hl hm hn => exact absurd (List.cons.inj hmark).1 (hne (by omega) (by omega))
  · exact h

/-- Every string and every name in a parsed document is UTF-8 if the text is. -/
theorem parsed_strings_valid {string : CText} {value : Value ν} (hnumbers : numbers.AsciiOnly)
    (hstring : isValidUtf8 string.bytes) (h : jsonParseString numbers string = .ok value) :
    value.Everywhere (Value.Texts fun text => isValidUtf8 text.bytes) := by
  have hvalid : Valid string.bytes := valid_iff.mpr (isValidUtf8_iff.mp hstring)
  have hfits := jsonParseString_ensures (lasting_valid hnumbers) string (valid_behind_mark hvalid)
  rw [h] at hfits
  exact hfits.texts

theorem wholeNumbers_asciiOnly : wholeNumbers.AsciiOnly := by
  intro text c hc
  have hdigits : text.take (text.takeWhile isdigit).length = text.takeWhile isdigit :=
    (List.prefix_iff_eq_take.mp (List.takeWhile_prefix _)).symm
  have hread : (wholeNumbers.strtod text).length = (text.takeWhile isdigit).length := rfl
  rw [hread, hdigits] at hc
  have hdigit := List.mem_takeWhile_imp hc
  rw [isdigit, Bool.and_eq_true, decide_eq_true_eq, decide_eq_true_eq] at hdigit
  exact UInt8.lt_of_le_of_lt hdigit.2 (by decide)

/-- `"\ud83d\ude00"` is a character of four bytes. -/
theorem pair_valid :
    jsonParseString wholeNumbers (cString (Json.bytes
        ['"', '\\', 'u', 'd', '8', '3', 'd', '\\', 'u', 'd', 'e', '0', '0', '"'])) =
      .ok (.string (cString [0xf0, 0x9f, 0x98, 0x80])) ∧
    isValidUtf8 (cString [0xf0, 0x9f, 0x98, 0x80]).bytes :=
  have hparse : jsonParseString wholeNumbers (cString (Json.bytes
      ['"', '\\', 'u', 'd', '8', '3', 'd', '\\', 'u', 'd', 'e', '0', '0', '"'])) =
    .ok (.string (cString [0xf0, 0x9f, 0x98, 0x80])) := rfl
  ⟨hparse, parsed_strings_valid wholeNumbers_asciiOnly (by decide) hparse⟩

end IotEdgeAgent.Json
