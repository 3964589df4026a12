import IotEdgeAgent.Dlt698.Response
import Mathlib.Logic.Relation

/-!
# Where the analysis reads, and what it stores

The analyser ignores the number of received bytes and the length of the APDU. It stays
inside the buffer exactly if every field that it comes to fits into the buffer, and its units lie
in front of the frame checksum exactly if the sizes that the data prescribe end there.
-/

namespace IotEdgeAgent.Dlt698.ResponseBounds
open ByteWalk DataLen DataFormat DataLenExact LinkFrame Checksum Response

section Fields
variable (f : List UInt8)

def premNum : ℕ := (f.take 4).count 0xFE

def saLen : ℕ := (f.getD (premNum f + 4) 0 &&& 0x0F).toNat + 2

def frameLen : ℕ :=
  256 * (f.getD (premNum f + 2) 0).toNat + (f.getD (premNum f + 1) 0).toNat

def HcsGood : Prop :=
  wordAt f (premNum f + (saLen f + 5)) =
    some (fcs16 PPPINITFCS16 ((f.drop (premNum f + 1)).take (saLen f + 4))).toNat

/-- The link layer stays inside the buffer: four bytes for the preamble count and the byte
behind the counted preamble; behind a start byte the header with its checksum; behind a good
header the two bytes of the frame checksum. -/
def FrameInside : Prop :=
  4 ≤ f.length ∧ premNum f < f.length ∧
    (f[premNum f]? = some 0x68 →
      premNum f + saLen f + 6 < f.length ∧
        (HcsGood f → 2 ≤ frameLen f ∧ premNum f + frameLen f < f.length))

end Fields

theorem leaderCount_premNum {f : List UInt8} (h : 4 ≤ f.length) :
    leaderCount f = some (premNum f) := leaderCount_eq f h

theorem wordAt_eq_none_iff (f : List UInt8) (i : ℕ) : wordAt f i = none ↔ f.length ≤ i + 1 := by
  simp only [wordAt, Option.bind_eq_bind, Option.bind_eq_none_iff, List.getElem?_eq_some_iff,
    forall_exists_index]
  constructor
  · intro h
    by_contra hlt
    exact absurd (h _ (by omega) rfl _ (by omega) rfl) (by simp)
  · intro h a hi _ b hi' _
    omega

theorem wordAt_frameLen {f : List UInt8} (h : premNum f + 2 < f.length) :
    wordAt f (premNum f + 1) = some (frameLen f) := by
  have hlo : f[premNum f + 1]? = some (f.getD (premNum f + 1) 0) := by
    rw [List.getD_eq_getElem?_getD, List.getElem?_eq_getElem (by omega)]
    rfl
  have hhi : f[premNum f + 1 + 1]? = some (f.getD (premNum f + 2) 0) := by
    rw [List.getD_eq_getElem?_getD, List.getElem?_eq_getElem (by omega)]
    rfl
  simp only [wordAt, hlo, hhi, Option.bind_eq_bind, Option.bind_some, makeWord_eq, frameLen]
  rfl

theorem pppfcs16_isSome (fcs : UInt16) (cp : List UInt8) (len : ℕ) :
    (pppfcs16 fcs cp len).isSome ↔ len ≤ cp.length := by
  rw [pppfcs16_eq]
  split_ifs with h <;> simp [h]

/-- With a buffer that an `int` can index, the length fields 0 and 1 send the second
checksum over more than 2^31 bytes. -/
theorem fcsSpan_inside {f : List UInt8} {p len : ℕ} (hf : f.length < 2147483648) (hp : p ≤ 4)
    (hlen : len < 65536) :
    (u32 (u32 (len - 1) - 1) ≤ (f.drop (p + 1)).length ∧ u32 (p + u32 (len - 1) + 1) < f.length ∧
      u32 (p + u32 (len - 1)) < f.length) ↔ 2 ≤ len ∧ p + len < f.length := by
  rw [List.length_drop]
  by_cases htwo : 2 ≤ len
  · simp only [u32]
    omega
  · have hspan : f.length < u32 (u32 (len - 1) - 1) := by
      simp only [u32]
      omega
    omega

theorem isSome_of_reads {α β : Type*} {x : Option α} {f : List UInt8} {i j : ℕ}
    {g : α → UInt8 → UInt8 → Option β} (hg : ∀ a b c, (g a b c).isSome) :
    (x.bind fun a => f[i]?.bind fun b => f[j]?.bind fun c => g a b c).isSome ↔
      x.isSome ∧ i < f.length ∧ j < f.length := by
  cases x with
  | none => simp
  | some a =>
    by_cases hi : i < f.length
    · by_cases hj : j < f.length
      · simp [hi, hj, hg]
      · simp [hj]
    · simp [hi]

theorem checkFrame_isSome {f : List UInt8} {p len k : ℕ} (hf : f.length < 2147483648)
    (hp : p ≤ 4) (hlen : len < 65536) :
    (checkFrame f p len k).isSome ↔ p + k + 6 < f.length ∧
      (wordAt f (p + (k + 5)) =
          some (fcs16 PPPINITFCS16 ((f.drop (p + 1)).take (k + 4))).toNat →
        2 ≤ len ∧ p + len < f.length) := by
  by_cases hin : p + k + 6 < f.length
  · have hword : wordAt f (p + (k + 5)) ≠ none := by
      rw [Ne, wordAt_eq_none_iff]
      omega
    obtain ⟨hcs, hhcs⟩ := Option.ne_none_iff_exists'.mp hword
    have hsum : pppfcs16 PPPINITFCS16 (f.drop (p + 1)) (k + 5 - 1) =
        some (fcs16 PPPINITFCS16 ((f.drop (p + 1)).take (k + 4))) := by
      rw [pppfcs16_eq, if_pos]
      · rfl
      · rw [List.length_drop]
        omega
    simp only [checkFrame, hsum, hhcs, Option.bind_eq_bind, Option.bind_some, hin, true_and,
      Option.some.injEq]
    by_cases heq : hcs = (fcs16 PPPINITFCS16 ((f.drop (p + 1)).take (k + 4))).toNat
    · rw [if_neg (by simp [heq])]
      simp only [heq, true_imp_iff]
      rw [isSome_of_reads (fun a b c => by split_ifs <;> rfl), pppfcs16_isSome,
        fcsSpan_inside hf hp hlen]
    · rw [if_pos (Ne.symm heq)]
      simp [heq]
  · have hword : wordAt f (p + (k + 5)) = none := by
      rw [wordAt_eq_none_iff]
      omega
    simp [checkFrame, hword, hin]

theorem premNum_le (f : List UInt8) : premNum f ≤ 4 := by
  have hcount := List.count_le_length (a := (0xFE : UInt8)) (l := f.take 4)
  have htake := List.length_take_le 4 f
  simp only [premNum]
  omega

theorem frameLen_lt (f : List UInt8) : frameLen f < 65536 := by
  have hhi := (f.getD (premNum f + 2) 0).toNat_lt
  have hlo := (f.getD (premNum f + 1) 0).toNat_lt
  simp only [frameLen]
  omega

theorem dwGet698Apdu_isSome {f : List UInt8} (hf : f.length < 2147483648) :
    (dwGet698Apdu f).isSome ↔ FrameInside f := by
  by_cases hfour : 4 ≤ f.length
  · by_cases hp : premNum f < f.length
    · simp only [dwGet698Apdu, leaderCount_premNum hfour, FrameInside, hfour, hp, true_and,
        Option.bind_eq_bind, Option.bind_some, List.getElem?_eq_getElem hp, Option.some.injEq]
      by_cases hstart : f[premNum f] = 0x68
      · rw [if_neg (by simp [hstart])]
        simp only [hstart, true_imp_iff]
        by_cases hflag : premNum f + 4 < f.length
        · have hk : (f[premNum f + 4] &&& 0x0F).toNat + 2 = saLen f := by
            simp [saLen, List.getD_eq_getElem?_getD, List.getElem?_eq_getElem hflag]
          rw [wordAt_frameLen (by omega), Option.bind_some, List.getElem?_eq_getElem hflag,
            Option.bind_some, hk, checkFrame_isSome hf (premNum_le f) (frameLen_lt f)]
          rfl
        · have hnone : f[premNum f + 4]? = none := List.getElem?_eq_none (by omega)
          rw [hnone]
          simp
          intro hin
          omega
      · rw [if_pos hstart]
        simp [hstart]
    · simp [dwGet698Apdu, leaderCount_premNum hfour, FrameInside, hp]
  · simp [dwGet698Apdu, leaderCount_short f (by omega), FrameInside, hfour]

section Results
variable (f : List UInt8)

inductive NextResult : ℕ × ℕ → ℕ × ℕ → Prop
  | errorInfo {n pos : ℕ} : f[pos + 4]? = some ERROR_INFO → NextResult (n + 1, pos) (n, pos + 6)
  | data {n pos size : ℕ} : f[pos + 4]? = some RES_DATA →
      SizeCounted 256 (f.drop (pos + 5)) size → NextResult (n + 1, pos) (n, pos + 5 + size)

inductive FirstResult (a : ℕ) : ℕ × ℕ → Prop
  | normal : f[a]? = some GET_Response → f[a + 1]? = some GetResponseNormal →
      FirstResult a (1, a + 3)
  | list {num : UInt8} : f[a]? = some GET_Response → f[a + 1]? = some GetResponseNormalList →
      f[a + 3]? = some num → num ≤ 127 → FirstResult a (num.toNat, a + 4)

/-- By the bytes of the APDU at `a`, one of its results starts at `pos`. -/
def ResultAt (a pos : ℕ) : Prop :=
  ∃ first n, FirstResult f a first ∧ Relation.ReflTransGen (NextResult f) first (n + 1, pos)

/-- The OAD and the choice of a result lie in the buffer, and with a value every tag and every
length field in it. -/
structure ResultInside (pos : ℕ) : Prop where
  oad : pos + 4 < f.length
  data : f[pos + 4]? = some RES_DATA → ∀ n i mark, FieldAt 256 (f.drop (pos + 5)) n i mark →
    mark.Fits lengthWidth (f.drop (pos + 5 + i))

structure ApduInside (a : ℕ) : Prop where
  tag : a < f.length
  choice : f[a]? = some GET_Response → a + 1 < f.length
  count : f[a]? = some GET_Response → f[a + 1]? = some GetResponseNormalList → a + 3 < f.length
  results : ∀ pos, ResultAt f a pos → ResultInside f pos

end Results

theorem dwGetOad_isSome {f : List UInt8} {pos : ℕ} (h : pos + 4 < f.length) :
    ∃ oad, dwGetOad f pos = some oad := by
  have hbyte : ∀ i < 5, ∃ b, f[pos + i]? = some b := fun i hi =>
    ⟨_, List.getElem?_eq_getElem (by omega)⟩
  obtain ⟨b0, h0⟩ := hbyte 0 (by omega)
  obtain ⟨b1, h1⟩ := hbyte 1 (by omega)
  obtain ⟨b2, h2⟩ := hbyte 2 (by omega)
  obtain ⟨b3, h3⟩ := hbyte 3 (by omega)
  rw [Nat.add_zero] at h0
  exact ⟨_, by rw [dwGetOad, h0, h1, h2, h3]; rfl⟩

theorem results_one {f : List UInt8} {pos : ℕ} (h : pos + 4 < f.length) :
    ∃ oad choice, dwGetOad f pos = some oad ∧ f[pos + 4]? = some choice ∧
      results f 1 pos = if choice = ERROR_INFO then [.errorInfo]
        else if choice = RES_DATA then
          match dwDlt698DataLen (f.drop (pos + 5)) 256 with
          | .ok len => [.data ⟨oad, len, pos + 5⟩]
          | .error .reject => [.malformed]
          | .error .fault => [.cut]
        else [.malformed] := by
  obtain ⟨oad, hoad⟩ := dwGetOad_isSome h
  refine ⟨oad, _, hoad, List.getElem?_eq_getElem h, ?_⟩
  rw [results, hoad, List.getElem?_eq_getElem h]
  rfl

theorem results_cut {f : List UInt8} {pos : ℕ} (h : ¬ pos + 4 < f.length) (n : ℕ) :
    results f (n + 1) pos = [.cut] := by
  have hchoice : f[pos + 4]? = none := List.getElem?_eq_none (Nat.not_lt.mp h)
  rw [results, hchoice]
  cases dwGetOad f pos <;> rfl

def nextPos (f : List UInt8) (pos : ℕ) : Option ℕ :=
  match results f 1 pos with
  | [.errorInfo] => some (pos + 6)
  | [.data unit] => some (pos + 5 + unit.uwLen)
  | _ => none

theorem results_succ (f : List UInt8) (n pos : ℕ) :
    results f (n + 1) pos = results f 1 pos ++ ((nextPos f pos).map (results f n)).getD [] := by
  by_cases h : pos + 4 < f.length
  · obtain ⟨oad, choice, hoad, hchoice, hone⟩ := results_one h
    rw [nextPos, hone, results, hoad, hchoice]
    simp only
    split_ifs
    · rfl
    · cases dwDlt698DataLen (f.drop (pos + 5)) 256 with
      | ok len => rfl
      | error stop => cases stop <;> rfl
    · rfl
  · rw [nextPos, results_cut h, results_cut h]
    rfl

theorem cut_mem_iff (f : List UInt8) (pos : ℕ) :
    .cut ∈ results f 1 pos ↔ ¬ ResultInside f pos := by
  by_cases h : pos + 4 < f.length
  · obtain ⟨oad, choice, -, hchoice, hone⟩ := results_one h
    have hfault := dwDlt698DataLen_fault_iff (f.drop (pos + 5)) 256
    have hinside : ResultInside f pos ↔ (f[pos + 4]? = some RES_DATA →
        ¬ dwDlt698DataLen (f.drop (pos + 5)) 256 = .error .fault) := by
      rw [hfault]
      simp only [not_exists, not_and, not_not, List.drop_drop]
      exact ⟨fun hin => hin.data, fun hdata => ⟨h, hdata⟩⟩
    rw [hinside, hone, hchoice]
    split_ifs with herror hdata
    · subst herror
      simp [ERROR_INFO, RES_DATA]
    · subst hdata
      cases dwDlt698DataLen (f.drop (pos + 5)) 256 with
      | ok len => simp
      | error stop => cases stop <;> simp
    · simp [hdata]
  · rw [results_cut h]
    simp only [List.mem_singleton, true_iff]
    exact fun hin => h hin.oad

theorem data_mem_iff (f : List UInt8) (pos : ℕ) (unit : DataUnit) :
    .data unit ∈ results f 1 pos ↔ ∃ oad size, dwGetOad f pos = some oad ∧
      f[pos + 4]? = some RES_DATA ∧ SizeCounted 256 (f.drop (pos + 5)) size ∧
        unit = ⟨oad, size, pos + 5⟩ := by
  by_cases h : pos + 4 < f.length
  · obtain ⟨oad, choice, hoad, hchoice, hone⟩ := results_one h
    simp only [← dwDlt698DataLen_ok_iff, hoad, hchoice, hone, Option.some.injEq,
      exists_and_left, exists_eq_left']
    split_ifs with herror hdata
    · subst herror
      simp [ERROR_INFO, RES_DATA]
    · cases dwDlt698DataLen (f.drop (pos + 5)) 256 with
      | ok len => simp [hdata]
      | error stop => cases stop <;> simp
    · simp [hdata]
  · have hchoice : f[pos + 4]? = none := List.getElem?_eq_none (Nat.not_lt.mp h)
    simp [results_cut h, hchoice]

theorem nextResult_iff (f : List UInt8) (n pos : ℕ) (next : ℕ × ℕ) :
    NextResult f (n + 1, pos) next ↔ ∃ pos', nextPos f pos = some pos' ∧ next = (n, pos') := by
  by_cases h : pos + 4 < f.length
  · obtain ⟨oad, choice, -, hchoice, hone⟩ := results_one h
    rw [nextPos, hone]
    constructor
    · intro hnext
      cases hnext with
      | errorInfo herror =>
        obtain rfl := Option.some.inj (hchoice.symm.trans herror)
        exact ⟨_, rfl, rfl⟩
      | data hdata hsize =>
        obtain rfl := Option.some.inj (hchoice.symm.trans hdata)
        rw [← dwDlt698DataLen_ok_iff] at hsize
        refine ⟨_, ?_, rfl⟩
        rw [hsize]
        rfl
    · rintro ⟨pos', hpos, rfl⟩
      split_ifs at hpos with herror hdata
      · cases hpos
        exact .errorInfo (herror ▸ hchoice)
      · cases hlen : dwDlt698DataLen (f.drop (pos + 5)) 256 with
        | ok len =>
          rw [hlen] at hpos
          cases hpos
          exact .data (hdata ▸ hchoice) ((dwDlt698DataLen_ok_iff _ _ _).mp hlen)
        | error stop =>
          rw [hlen] at hpos
          cases stop <;> cases hpos
  · have hchoice : f[pos + 4]? = none := List.getElem?_eq_none (Nat.not_lt.mp h)
    rw [nextPos, results_cut h]
    constructor
    · intro hnext
      cases hnext with
      | errorInfo herror => cases hchoice.symm.trans herror
      | data hdata _ => cases hchoice.symm.trans hdata
    · rintro ⟨pos', hpos, -⟩
      cases hpos

theorem results_mem_iff (f : List UInt8) (n pos : ℕ) (entry : Entry) :
    entry ∈ results f n pos ↔ ∃ n' pos', Relation.ReflTransGen (NextResult f) (n, pos)
      (n' + 1, pos') ∧ entry ∈ results f 1 pos' := by
  induction n generalizing pos with
  | zero =>
    simp only [results, List.not_mem_nil, false_iff, not_exists, not_and]
    intro n' pos' hreach
    rcases hreach.cases_head with heq | ⟨next, hnext, -⟩
    · cases heq
    · cases hnext
  | succ n ih =>
    rw [results_succ, List.mem_append]
    constructor
    · rintro (hone | htail)
      · exact ⟨n, pos, .refl, hone⟩
      · cases hnext : nextPos f pos with
        | none => simp [hnext] at htail
        | some pos' =>
          simp only [hnext, Option.map_some, Option.getD_some] at htail
          obtain ⟨n', last, hreach, hmem⟩ := (ih pos').mp htail
          exact ⟨n', last, .head ((nextResult_iff f n pos _).mpr ⟨pos', hnext, rfl⟩) hreach, hmem⟩
    · rintro ⟨n', last, hreach, hmem⟩
      rcases hreach.cases_head with heq | ⟨next, hstep, hreach⟩
      · cases heq
        exact .inl hmem
      · obtain ⟨pos', hnext, rfl⟩ := (nextResult_iff f n pos _).mp hstep
        right
        rw [hnext]
        exact (ih pos').mpr ⟨n', last, hreach, hmem⟩

theorem announced_eq {f : List UInt8} {a n pos : ℕ} (h : FirstResult f a (n, pos)) :
    announced f a = results f n pos := by
  cases h with
  | normal htag hchoice => simp [announced, htag, hchoice]
  | list htag hchoice hnum hfew =>
    have hdistinct : GetResponseNormalList ≠ GetResponseNormal := by decide
    have hsmall : ¬ _ > (127 : UInt8) := UInt8.not_lt.mpr hfew
    simp [announced, htag, hchoice, hnum, hdistinct, hsmall]

theorem FirstResult.unique {f : List UInt8} {a : ℕ} {first first' : ℕ × ℕ}
    (h : FirstResult f a first) (h' : FirstResult f a first') : first = first' := by
  have hdistinct : some GetResponseNormal ≠ some GetResponseNormalList := by decide
  cases h with
  | normal _ hchoice =>
    cases h' with
    | normal => rfl
    | list _ hchoice' => exact absurd (hchoice.symm.trans hchoice') hdistinct
  | list _ hchoice hnum _ =>
    cases h' with
    | normal _ hchoice' => exact absurd (hchoice'.symm.trans hchoice) hdistinct
    | list _ _ hnum' _ =>
      obtain rfl := Option.some.inj (hnum.symm.trans hnum')
      rfl

theorem FirstResult.inside {f : List UInt8} {a : ℕ} {first : ℕ × ℕ} (h : FirstResult f a first)
    (hresults : ∀ pos, ResultAt f a pos → ResultInside f pos) : ApduInside f a := by
  have hlt : ∀ {i : ℕ} {b : UInt8}, f[i]? = some b → i < f.length :=
    fun hb => (List.getElem?_eq_some_iff.mp hb).1
  have hdistinct : some GetResponseNormal ≠ some GetResponseNormalList := by decide
  cases h with
  | normal htag hchoice =>
    exact ⟨hlt htag, fun _ => hlt hchoice,
      fun _ hlist => absurd (hchoice.symm.trans hlist) hdistinct, hresults⟩
  | list htag hchoice hnum _ =>
    exact ⟨hlt htag, fun _ => hlt hchoice, fun _ _ => hlt hnum, hresults⟩

theorem announced_of_none {f : List UInt8} {a : ℕ} (h : ∀ first, ¬ FirstResult f a first) :
    announced f a = [.cut] ∧ ¬ ApduInside f a ∨ announced f a = [.malformed] ∧ ApduInside f a := by
  have hlt : ∀ {i : ℕ} {b : UInt8}, f[i]? = some b → i < f.length :=
    fun hb => (List.getElem?_eq_some_iff.mp hb).1
  have hle : ∀ {i : ℕ}, f[i]? = none → ¬ i < f.length :=
    fun hb => Nat.not_lt.mpr (List.getElem?_eq_none_iff.mp hb)
  have hresults : ∀ pos, ResultAt f a pos → ResultInside f pos := by
    rintro pos ⟨first, _, hfirst, -⟩
    exact absurd hfirst (h first)
  have hdistinct : GetResponseNormalList ≠ GetResponseNormal := by decide
  rw [announced]
  cases htag : f[a]? with
  | none => exact .inl ⟨rfl, fun hin => hle htag hin.tag⟩
  | some tag =>
    by_cases hget : tag = GET_Response
    · subst hget
      simp only [ne_eq, not_true_eq_false, if_false]
      cases hchoice : f[a + 1]? with
      | none => exact .inl ⟨rfl, fun hin => hle hchoice (hin.choice htag)⟩
      | some choice =>
        by_cases hnormal : choice = GetResponseNormal
        · exact absurd (.normal htag (hnormal ▸ hchoice)) (h _)
        · by_cases hlist : choice = GetResponseNormalList
          · subst hlist
            simp only [hdistinct, if_false, if_true]
            cases hnum : f[a + 3]? with
            | none => exact .inl ⟨rfl, fun hin => hle hnum (hin.count htag hchoice)⟩
            | some num =>
              by_cases hmany : num > 127
              · exact .inr ⟨if_pos hmany,
                  hlt htag, fun _ => hlt hchoice, fun _ _ => hlt hnum, hresults⟩
              · exact absurd (.list htag hchoice hnum (UInt8.not_lt.mp hmany)) (h _)
          · simp only [if_neg hnormal, if_neg hlist]
            exact .inr ⟨trivial, hlt htag, fun _ => hlt hchoice,
              fun _ hother => absurd (Option.some.inj (hchoice.symm.trans hother)) hlist, hresults⟩
    · exact .inr ⟨if_pos hget, hlt htag,
        fun hother => absurd (Option.some.inj (htag.symm.trans hother)) hget,
        fun hother => absurd (Option.some.inj (htag.symm.trans hother)) hget, hresults⟩

theorem cut_mem_announced_iff (f : List UInt8) (a : ℕ) :
    .cut ∈ announced f a ↔ ¬ ApduInside f a := by
  by_cases hfirst : ∃ first, FirstResult f a first
  · obtain ⟨⟨n, pos⟩, hfirst⟩ := hfirst
    rw [announced_eq hfirst, results_mem_iff]
    simp only [cut_mem_iff]
    constructor
    · rintro ⟨n', pos', hreach, houtside⟩ hin
      exact houtside (hin.results pos' ⟨_, n', hfirst, hreach⟩)
    · intro houtside
      by_contra hnone
      refine houtside (hfirst.inside fun pos' hresult => ?_)
      obtain ⟨first', n', hfirst', hreach⟩ := hresult
      obtain rfl := hfirst.unique hfirst'
      by_contra hout
      exact hnone ⟨n', pos', hreach, hout⟩
  · rcases announced_of_none (not_exists.mp hfirst) with ⟨hcut, hin⟩ | ⟨hmalformed, hin⟩
    · simp [hcut, hin]
    · simp [hmalformed, hin]

theorem data_mem_announced_iff (f : List UInt8) (a : ℕ) (unit : DataUnit) :
    .data unit ∈ announced f a ↔ ∃ pos oad size, ResultAt f a pos ∧ dwGetOad f pos = some oad ∧
      f[pos + 4]? = some RES_DATA ∧ SizeCounted 256 (f.drop (pos + 5)) size ∧
        unit = ⟨oad, size, pos + 5⟩ := by
  by_cases hfirst : ∃ first, FirstResult f a first
  · obtain ⟨⟨n, start⟩, hfirst⟩ := hfirst
    rw [announced_eq hfirst, results_mem_iff]
    simp only [data_mem_iff]
    constructor
    · rintro ⟨n', pos, hreach, oad, size, hdata⟩
      exact ⟨pos, oad, size, ⟨_, n', hfirst, hreach⟩, hdata⟩
    · rintro ⟨pos, oad, size, ⟨first', n', hfirst', hreach⟩, hdata⟩
      obtain rfl := hfirst.unique hfirst'
      exact ⟨n', pos, hreach, oad, size, hdata⟩
  · have hnone : ¬ .data unit ∈ announced f a := by
      rcases announced_of_none (not_exists.mp hfirst) with ⟨hcut, -⟩ | ⟨hmalformed, -⟩
      · simp [hcut]
      · simp [hmalformed]
    refine ⟨fun h => absurd h hnone, ?_⟩
    rintro ⟨pos, oad, size, ⟨first, n, hresult, -⟩, -⟩
    exact absurd ⟨first, hresult⟩ hfirst

theorem NextResult.le {f : List UInt8} {here next : ℕ × ℕ} (h : NextResult f here next) :
    here.2 ≤ next.2 := by
  cases h with
  | errorInfo => exact Nat.le_add_right _ _
  | data => exact Nat.le_add_right_of_le (Nat.le_add_right _ _)

theorem ResultAt.le {f : List UInt8} {a pos : ℕ} (h : ResultAt f a pos) : a ≤ pos := by
  obtain ⟨first, n, hfirst, hreach⟩ := h
  have hstart : a ≤ first.2 := by
    cases hfirst with
    | normal | list => exact Nat.le_add_right _ _
  have hbehind : ∀ {last : ℕ × ℕ}, Relation.ReflTransGen (NextResult f) first last →
      first.2 ≤ last.2 := by
    intro last h
    induction h with
    | refl => exact Nat.le_refl _
    | tail _ hstep ih => exact ih.trans hstep.le
  exact hstart.trans (hbehind hreach)

theorem retOf_isSome (es : List Entry) : (retOf es).isSome ↔ .cut ∉ es := by
  simp only [retOf]
  split_ifs with hcut hbad <;> simp [hcut]

/-- The link layer stays inside the buffer, and so does every field of an accepted frame. -/
def Inside (f : List UInt8) : Prop :=
  FrameInside f ∧ ∀ p len k, FrameOk f p len k → ApduInside f (apduPos p k)

theorem dlt698ResponseAnaly_isSome {f : List UInt8} (hf : f.length < 2147483648) (n : ℤ) :
    (dlt698ResponseAnaly f n).1.isSome ↔ Inside f := by
  by_cases hok : ∃ p len k, FrameOk f p len k
  · obtain ⟨p, len, k, hok⟩ := hok
    have hframe : FrameInside f := by
      rw [← dwGet698Apdu_isSome hf, hok.dwGet698Apdu_eq]
      rfl
    rw [dlt698ResponseAnaly_ret hok, Option.isSome_map, retOf_isSome, cut_mem_announced_iff,
      not_not]
    constructor
    · intro hcut
      refine ⟨hframe, ?_⟩
      intro p' len' k' hok'
      obtain ⟨rfl, rfl, rfl⟩ := hok.unique hok'
      exact hcut
    · intro hinside
      exact hinside.2 p len k hok
  · have hnone : ∀ p len k, ¬ FrameOk f p len k := by
      intro p len k h
      exact hok ⟨p, len, k, h⟩
    rw [dlt698ResponseAnaly_refused hnone, Option.isSome_map, dwGet698Apdu_isSome hf]
    constructor
    · intro hframe
      exact ⟨hframe, fun p len k h => absurd h (hnone p len k)⟩
    · exact And.left

/-- The reads stay inside the buffer exactly if every field fits into it that the analysis comes
to: of the link layer, and in an accepted frame of the APDU, its results and their values. -/
theorem dlt698ResponseAnaly_inside_iff (f : List UInt8) (hf : f.length < 2147483648) :
    (dlt698ResponseAnaly f f.length).1 ≠ none ↔ FrameInside f ∧
      ∀ p len k, FrameOk f p len k → ApduInside f (apduPos p k) := by
  rw [← Option.isSome_iff_ne_none, dlt698ResponseAnaly_isSome hf]
  rfl

theorem energyResponse_inside : energyResponse.length < 2147483648 ∧
    FrameInside energyResponse ∧
      ∀ p len k, FrameOk energyResponse p len k → ApduInside energyResponse (apduPos p k) :=
  ⟨by decide, (dlt698ResponseAnaly_inside_iff energyResponse (by decide)).mp (by decide +kernel)⟩

theorem dlt698ResponseAnaly_reads_outside :
    ¬ (dlt698ResponseAnaly [0xFE, 0xFE, 0xFE, 0xFE] 4).1 ≠ none := by
  decide

/-- The bytes of the unit lie behind the header checksum and in front of the frame checksum. -/
def UnitCovered (f : List UInt8) (unit : DataUnit) : Prop :=
  ∃ p len k, FrameOk f p len k ∧ apduPos p k ≤ unit.ucPtr ∧ unit.ucPtr + unit.uwLen + 1 ≤ p + len

/-- The length field is too small for the header it stands in. -/
def HeaderTooLong (f : List UInt8) : Prop :=
  ∃ p len flag, leaderCount f = some p ∧ wordAt f (p + 1) = some len ∧ f[p + 4]? = some flag ∧
    len < (flag &&& 0x0F).toNat + 2 + 8

def StoresCovered (f : List UInt8) : Prop :=
  (∀ unit ∈ (dlt698ResponseAnaly f f.length).2.stDataUnit, UnitCovered f unit) ∧
    (HeaderTooLong f → (dlt698ResponseAnaly f f.length).2.stDataUnit = [] ∧
      ∀ r, dwGet698Apdu f = some r → r.pAPDU = none)

/-- What is stored is covered exactly if an accepted frame has room for its own header, and the
sizes that the fields of its values say end in front of the frame checksum. -/
theorem storesCovered_iff (f : List UInt8) :
    StoresCovered f ↔ ∀ p len k, FrameOk f p len k → k + 8 ≤ len ∧
      ∀ pos size, ResultAt f (apduPos p k) pos → f[pos + 4]? = some RES_DATA →
        SizeCounted 256 (f.drop (pos + 5)) size → pos + 5 + size + 1 ≤ p + len := by
  constructor
  · rintro ⟨hunits, hshort⟩ p len k hok
    refine ⟨?_, ?_⟩
    · by_contra hlt
      obtain ⟨flag, hflag, hk⟩ := hok.address
      have hlong : HeaderTooLong f := ⟨p, len, flag, hok.leader, hok.length, hflag, by omega⟩
      have hnull := (hshort hlong).2 _ hok.dwGet698Apdu_eq
      simp [FrameOk.ref] at hnull
    · intro pos size hresult hdata hsize
      have hlt := (List.getElem?_eq_some_iff.mp hdata).1
      obtain ⟨oad, hoad⟩ := dwGetOad_isSome hlt
      have hmem := (data_mem_announced_iff f _ _).mpr
        ⟨pos, oad, size, hresult, hoad, hdata, hsize, rfl⟩
      rw [dlt698ResponseAnaly_units hok] at hunits
      obtain ⟨p', len', k', hok', -, hend⟩ := hunits _ (mem_unitsOf.mpr hmem)
      obtain ⟨rfl, rfl, rfl⟩ := hok.unique hok'
      exact hend
  · intro h
    by_cases hok : ∃ p len k, FrameOk f p len k
    · obtain ⟨p, len, k, hok⟩ := hok
      obtain ⟨hlen, hends⟩ := h p len k hok
      refine ⟨?_, ?_⟩
      · intro unit hmem
        rw [dlt698ResponseAnaly_units hok] at hmem
        obtain ⟨pos, oad, size, hresult, -, hdata, hsize, rfl⟩ :=
          (data_mem_announced_iff f _ _).mp (mem_unitsOf.mp hmem)
        have hle := hresult.le
        exact ⟨p, len, k, hok, by dsimp only; omega, hends pos size hresult hdata hsize⟩
      · rintro ⟨p', len', flag', hp', hlen', hflag', hlt⟩
        obtain rfl := Option.some.inj (hok.leader.symm.trans hp')
        obtain rfl := Option.some.inj (hok.length.symm.trans hlen')
        obtain ⟨flag, hflag, hk⟩ := hok.address
        obtain rfl := Option.some.inj (hflag.symm.trans hflag')
        omega
    · have hnone : ∀ p len k, ¬ FrameOk f p len k := by
        intro p len k hframe
        exact hok ⟨p, len, k, hframe⟩
      rw [StoresCovered, dlt698ResponseAnaly_refused hnone]
      refine ⟨by simp [emptyStore], fun _ => ⟨rfl, ?_⟩⟩
      intro r hr
      by_contra hsome
      obtain ⟨a, ha⟩ := Option.ne_none_iff_exists'.mp hsome
      obtain ⟨p, len, k, hframe, -⟩ := dwGet698Apdu_accepts hr ha
      exact hnone p len k hframe

/-- A length field of 8 lets the frame checksum fall on the header checksum. The APDU behind
it is decoded although no checksum covers it. -/
def uncoveredResponse : List UInt8 :=
  [0x68, 0x08, 0x00, 0xC3, 0x00, 0x01, 0x00, 0x1B, 0xD1, 0x85, 0x01, 0x01, 0x00, 0x00, 0x02, 0x00,
    0x01, 0x00]

theorem uncoveredResponse_stored : ¬ StoresCovered uncoveredResponse := by
  rintro ⟨-, hshort⟩
  have hlong : HeaderTooLong uncoveredResponse :=
    ⟨0, 8, 0, by decide, by decide, by decide, by decide⟩
  have hunits : (dlt698ResponseAnaly uncoveredResponse uncoveredResponse.length).2.stDataUnit =
      [⟨⟨0, 2, 0⟩, 1, 17⟩] := by
    decide +kernel
  rw [(hshort hlong).1] at hunits
  cases hunits

end IotEdgeAgent.Dlt698.ResponseBounds
