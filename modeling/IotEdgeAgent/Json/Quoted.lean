import IotEdgeAgent.Json.Parser

/-!
# Quoted strings

`get_quoted_string` undoes `json_serialize_string`.
-/

namespace IotEdgeAgent.Json

open Strings

variable {c letter : UInt8} {text rest : List UInt8}

theorem escaped_characters (c : UInt8) :
    ((escapeLetters.lookup c).all fun letter =>
      decide (letter ≠ byte 'u' ∧ unescapeLetters.lookup letter = some c)) ∧
    (c < 0x20 → hexValue (byte '0') (byte '0') (hexDigit (c / 16)) (hexDigit (c % 16)) =
      some c.toNat) ∧
    (c < 16 → hexDigit c ≠ byte '"' ∧ hexDigit c ≠ byte '\\') := by
  apply @forall_byte _ 256 _ c c.toNat_lt
  decide +kernel

theorem unescape_letter (h : escapeLetters.lookup c = some letter) :
    letter ≠ byte 'u' ∧ unescapeLetters.lookup letter = some c := by
  have hall := (escaped_characters c).1
  rw [h] at hall
  exact of_decide_eq_true hall

theorem hexValue_control (h : c < 0x20) :
    hexValue (byte '0') (byte '0') (hexDigit (c / 16)) (hexDigit (c % 16)) = some c.toNat :=
  (escaped_characters c).2.1 h

theorem hexDigit_ne (h : c < 16) : hexDigit c ≠ byte '"' ∧ hexDigit c ≠ byte '\\' :=
  (escaped_characters c).2.2 h

theorem plain_ne (h : escapeLetters.lookup c = none) : c ≠ byte '"' ∧ c ≠ byte '\\' := by
  constructor <;>
  · rintro rfl
    exact absurd h (by decide)

theorem processChar_escape (c : UInt8) (rest : List UInt8) :
    processChar (escape c ++ rest) = some ([c], rest) := by
  rw [escape]
  split
  · rename_i letter hletter
    obtain ⟨hu, hc⟩ := unescape_letter hletter
    simp only [List.cons_append, List.nil_append, processChar, if_pos, if_neg hu, hc,
      Option.map_some]
  · rename_i hplain
    split
    · rename_i hcontrol
      have hsmall : c.toNat < 0x80 :=
        Nat.lt_trans (UInt8.lt_iff_toNat_lt.mp hcontrol) (by decide)
      simp only [bytes, List.map_cons, List.map_nil, List.cons_append, List.nil_append,
        processChar, if_pos, parseUtf16, parseUtf16Hex, hexValue_control hcontrol,
        Option.map_some, Option.bind_eq_bind, Option.bind_some, hsmall, UInt8.ofNat_toNat,
        Option.pure_def]
    · rename_i hcontrol
      simp only [List.cons_append, List.nil_append, processChar, if_neg (plain_ne hplain).2,
        if_neg hcontrol]

theorem behindQuote_cons (hquote : c ≠ byte '"') (hbackslash : c ≠ byte '\\')
    (text : List UInt8) : behindQuote (c :: text) = behindQuote text := by
  cases text with
  | nil => exact if_neg hquote
  | cons d text => rw [behindQuote, if_neg hquote, if_neg hbackslash]

theorem behindQuote_backslash (letter : UInt8) (text : List UInt8) :
    behindQuote (byte '\\' :: letter :: text) = behindQuote text := by
  rw [behindQuote, if_neg (by decide), if_pos rfl]

theorem behindQuote_escape (c : UInt8) (text : List UInt8) :
    behindQuote (escape c ++ text) = behindQuote text := by
  rw [escape]
  split
  · exact behindQuote_backslash _ _
  · rename_i hplain
    split
    · have hdiv : c / 16 < 16 := by
        rw [UInt8.lt_iff_toNat_lt, UInt8.toNat_div]
        exact Nat.div_lt_of_lt_mul c.toNat_lt
      have hhigh := hexDigit_ne hdiv
      have hlow := hexDigit_ne (UInt8.mod_lt c (by decide : (0 : UInt8) < 16))
      simp only [bytes, List.map_cons, List.map_nil, List.cons_append, List.nil_append]
      rw [behindQuote_backslash, behindQuote_cons (by decide) (by decide),
        behindQuote_cons (by decide) (by decide), behindQuote_cons hhigh.1 hhigh.2,
        behindQuote_cons hlow.1 hlow.2]
    · exact behindQuote_cons (plain_ne hplain).1 (plain_ne hplain).2 _

theorem escape_ne_nil (c : UInt8) : escape c ≠ [] := by
  rw [escape]
  split
  · exact List.cons_ne_nil _ _
  · split <;> exact List.cons_ne_nil _ _

theorem behindQuote_escaped (string text : List UInt8) :
    behindQuote (string.flatMap escape ++ byte '"' :: text) = some text := by
  induction string with
  | nil =>
    cases text with
    | nil => rfl
    | cons d text => rw [List.flatMap_nil, List.nil_append, behindQuote, if_pos rfl]
  | cons c string ih => rw [List.flatMap_cons, List.append_assoc, behindQuote_escape, ih]

theorem processChars_escaped {string : List UInt8} {rounds : ℕ} (hrounds : string.length ≤ rounds)
    (text : List UInt8) :
    processChars rounds (string.flatMap escape ++ byte '"' :: text)
      (string.flatMap escape).length = some string := by
  induction string generalizing rounds with
  | nil =>
    cases rounds with
    | zero => rfl
    | succ rounds => exact if_pos (.inr rfl)
  | cons c string ih =>
    obtain ⟨rounds, rfl⟩ := Nat.exists_eq_succ_of_ne_zero
      (Nat.ne_of_gt (Nat.lt_of_lt_of_le (Nat.succ_pos _) hrounds))
    have hpos := List.length_pos_iff.mpr (escape_ne_nil c)
    have hleft : (escape c ++ string.flatMap escape).length -
        ((escape c ++ (string.flatMap escape ++ byte '"' :: text)).length -
          (string.flatMap escape ++ byte '"' :: text).length) =
        (string.flatMap escape).length := by
      simp only [List.length_append]
      omega
    rw [List.flatMap_cons, List.append_assoc, processChars, if_neg, processChar_escape,
      Option.bind_eq_bind, Option.bind_some]
    · dsimp only
      rw [hleft, ih (Nat.le_of_succ_le_succ hrounds)]
      rfl
    · rw [List.append_eq_nil_iff, List.length_append]
      rintro (h | h)
      · exact escape_ne_nil c h.1
      · omega

theorem length_le_escaped (string : List UInt8) :
    string.length ≤ (string.flatMap escape).length := by
  induction string with
  | nil => exact Nat.le_refl 0
  | cons c string ih =>
    have hpos := List.length_pos_iff.mpr (escape_ne_nil c)
    rw [List.flatMap_cons, List.length_append, List.length_cons]
    omega

theorem getQuotedString_serialize (string : CText) (rest : List UInt8) :
    getQuotedString (jsonSerializeString string ++ rest) = some (string, rest) := by
  have hlen : (jsonSerializeString string ++ rest).length - rest.length - 2 =
      (string.bytes.flatMap escape).length := by
    simp only [jsonSerializeString, List.length_append, List.length_cons, List.length_nil]
    omega
  have hskip : skipQuotes (jsonSerializeString string ++ rest) = some rest := by
    rw [jsonSerializeString, List.cons_append, List.cons_append, List.append_assoc, skipQuotes,
      if_pos rfl]
    exact behindQuote_escaped _ _
  rw [getQuotedString, hskip, Option.bind_eq_bind, Option.bind_some, hlen, processString,
    jsonSerializeString, List.cons_append, List.cons_append, List.drop_one, List.tail_cons,
    List.append_assoc, List.singleton_append,
    processChars_escaped (length_le_escaped string.bytes), Option.map_some, cString_bytes]
  rfl

end IotEdgeAgent.Json
