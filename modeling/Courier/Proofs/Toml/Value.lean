import Courier.Proofs.Decimal.Digits
import Courier.Proofs.Document.Reading
import Courier.Proofs.Toml.Text
import Mathlib.Data.List.TakeWhile
/-!
# A value on its own line is read as itself

Flags and numbers are words, which end where no character of a word follows. A number is
read as its characters are (`numberDraft`): a whole number of 64 bits as itself, and a
double as the nearest one to the decimal that was written for it (`readReal_numberDraft`).
Texts are in quotes, and a list has its items one after another, on one line or on several.
So every value without a table in it is read as its draft (`value_writeInline`).
-/

namespace Courier.Toml

open Courier.Document
open Courier.Text (Lead hexValue? isDigit_of_mem lead_toDigits toList_toString_int)
open Courier.Decimal (Digits)

/-! ## Digits -/

/-- The values of digits. -/
def values (cs : List Char) : List Nat :=
  cs.map fun c => c.toNat - '0'.toNat

/-- A digit has its value. -/
theorem digitIn?_of_isDigit {c : Char} (h : c.isDigit) :
    digitIn? 10 c = some (c.toNat - '0'.toNat) := by
  have hlt : c.toNat - '0'.toNat < 10 := by
    have hle : c.toNat ≤ 57 := by
      simp only [Char.isDigit, Bool.and_eq_true, decide_eq_true_eq] at h
      exact UInt32.le_iff_toNat_le.mp h.2
    show c.toNat - 48 < 10
    omega
  simp only [digitIn?, hexValue?, if_pos h, if_pos hlt]

theorem moreDigits_cons {c : Char} (h : c ≠ '_') (rest : List Char) :
    moreDigits 10 (c :: rest)
      = (digitIn? 10 c).bind fun d => (moreDigits 10 rest).bind fun ds => some (d :: ds) := by
  exact moreDigits.eq_3 10 c rest fun _ _ hc _ => h hc

theorem ne_of_isDigit {c : Char} (h : c.isDigit) {d : Char} (hd : d.isDigit = false) : c ≠ d := by
  rintro rfl
  exact Bool.eq_false_iff.mp hd h

/-- Digits are read as their values. -/
theorem moreDigits_of_digits {cs : List Char} (h : ∀ c ∈ cs, c.isDigit) :
    moreDigits 10 cs = some (values cs) := by
  induction cs with
  | nil => rfl
  | cons c cs ih =>
    have hc := h c List.mem_cons_self
    rw [moreDigits_cons (ne_of_isDigit hc rfl), digitIn?_of_isDigit hc,
      ih fun d hd => h d (List.mem_cons_of_mem _ hd)]
    rfl

/-- Digits with a point behind them are no numeral. -/
theorem moreDigits_point {cs : List Char} (h : ∀ c ∈ cs, c.isDigit) (rest : List Char) :
    moreDigits 10 (cs ++ '.' :: rest) = none := by
  induction cs with
  | nil => rw [List.nil_append, moreDigits_cons (by decide)]; rfl
  | cons c cs ih =>
    have hc := h c List.mem_cons_self
    rw [List.cons_append, moreDigits_cons (ne_of_isDigit hc rfl), digitIn?_of_isDigit hc,
      ih fun d hd => h d (List.mem_cons_of_mem _ hd)]
    rfl

theorem numberOf_values (cs : List Char) : numberOf 10 (values cs) = Nat.ofDigitChars 10 cs 0 := by
  rw [numberOf, values, List.foldl_map, Nat.ofDigitChars_eq_foldl]
  exact congrArg (fun f => cs.foldl f 0) (funext fun n => funext fun c => by rw [Nat.mul_comm])

/-- **Digits without leading zeroes are read as their values.** -/
theorem plainNumber?_of_digits {cs : List Char} (hlead : Lead cs) (h : ∀ c ∈ cs, c.isDigit) :
    plainNumber? cs = some (values cs) := by
  have hread : digitsIn? 10 cs = some (values cs) := by
    cases cs with
    | nil => obtain ⟨⟨⟩⟩ | ⟨_, _, _, _, ⟨⟩⟩ := hlead
    | cons c cs =>
      rw [digitsIn?, digitIn?_of_isDigit (h c List.mem_cons_self),
        moreDigits_of_digits fun d hd => h d (List.mem_cons_of_mem _ hd)]
      rfl
  unfold plainNumber?
  split
  · next heq =>
    rw [hread] at heq
    obtain rfl | ⟨d, rest, hpos, hlt, rfl⟩ := hlead
    · cases heq
    · have hd : (Nat.digitChar d).toNat - '0'.toNat = d := Nat.toNat_digitChar_sub_48_of_lt_ten hlt
      have hzero : (Nat.digitChar d).toNat - '0'.toNat = 0 :=
        (List.cons.inj (Option.some.inj heq)).1
      omega
  · exact hread

/-! ## Numbers -/

/-- A sign is taken only where there is one. -/
theorem splitSign_digit {c : Char} (h : c.isDigit) (rest : List Char) :
    splitSign (c :: rest) = (false, c :: rest) := by
  unfold splitSign
  split
  · next heq => exact absurd (List.cons.inj heq).1 (ne_of_isDigit h rfl)
  · next heq => exact absurd (List.cons.inj heq).1 (ne_of_isDigit h rfl)
  · rfl

/-- A number behind its sign, if it has one. -/
def signed (negative : Bool) (s : List Char) : List Char :=
  if negative then '-' :: s else s

/-- **The sign of a number that begins with a digit.** -/
theorem splitSign_signed (negative : Bool) {c : Char} (h : c.isDigit) (rest : List Char) :
    splitSign (signed negative (c :: rest)) = (negative, c :: rest) := by
  cases negative with
  | true => rfl
  | false => exact splitSign_digit h rest

/-- **A whole number is read in base ten** when no other base is announced. -/
theorem integer?_signed (negative : Bool) {c : Char} (hc : c.isDigit) {rest : List Char}
    (hrest : ∀ d t, rest = d :: t → d.isDigit ∨ d = '.') :
    integer? (signed negative (c :: rest)) = (plainNumber? (c :: rest)).map fun ds =>
      wholeDraft (if negative then -(numberOf 10 ds : Int) else numberOf 10 ds) := by
  have hbase : ∀ (b : Char) (t : List Char), (b = 'x' ∨ b = 'o' ∨ b = 'b') →
      signed negative (c :: rest) ≠ '0' :: b :: t := by
    intro b t hb heq
    cases negative with
    | true => cases heq
    | false =>
      obtain hd | rfl := hrest b t (List.cons.inj heq).2
      · obtain rfl | rfl | rfl := hb <;> exact absurd hd (by decide)
      · obtain hb | hb | hb := hb <;> exact absurd hb (by decide)
  rw [integer?.eq_4 _ (fun t h => hbase 'x' t (.inl rfl) h)
    (fun t h => hbase 'o' t (.inr (.inl rfl)) h) (fun t h => hbase 'b' t (.inr (.inr rfl)) h),
    splitSign_signed negative hc]

/-- A number that begins with a digit is no other word. -/
theorem signed_ne (negative : Bool) {c : Char} (hc : c.isDigit) (rest : List Char) {d : Char}
    (hd : d.isDigit = false) (hsign : d ≠ '-') (t : List Char) :
    signed negative (c :: rest) ≠ d :: t := by
  intro heq
  cases negative with
  | true => exact hsign (List.cons.inj heq).1.symm
  | false => exact ne_of_isDigit hc hd (List.cons.inj heq).1

/-- A number that begins with a digit is read as a number. -/
theorem word?_signed (negative : Bool) {c : Char} (hc : c.isDigit) (rest : List Char) :
    word? (signed negative (c :: rest)) = (integer? (signed negative (c :: rest)) <|>
      real? (signed negative (c :: rest)) <|> moment? (signed negative (c :: rest))) := by
  have htrue : signed negative (c :: rest) ≠ "true".toList :=
    @signed_ne negative c hc rest 't' rfl (by decide) ['r', 'u', 'e']
  have hfalse : signed negative (c :: rest) ≠ "false".toList :=
    @signed_ne negative c hc rest 'f' rfl (by decide) ['a', 'l', 's', 'e']
  rw [word?, if_neg htrue, if_neg hfalse]

/-- **A whole number is read as itself**, whatever its size. -/
theorem word?_integer (n : Int) : word? (number (.integer n)) = some (wholeDraft n) := by
  have hdigits : ∀ c ∈ Nat.toDigits 10 n.natAbs, c.isDigit := fun c hc => isDigit_of_mem hc
  have hlead := lead_toDigits n.natAbs
  have htext : number (.integer n) = signed (decide (n < 0)) (Nat.toDigits 10 n.natAbs) := by
    rw [number, toList_toString_int]
    rfl
  have hplain := plainNumber?_of_digits hlead hdigits
  obtain ⟨c, rest, heq, hc, hrest⟩ := hlead.exists_cons hdigits
  have hnext : ∀ d t, rest = d :: t → d.isDigit ∨ d = '.' := by
    rintro d t rfl
    exact .inl (hrest d List.mem_cons_self)
  rw [htext, heq, word?_signed _ hc, integer?_signed _ hc hnext, ← heq, hplain]
  have hvalue : (if decide (n < 0) = true then
      -(numberOf 10 (values (Nat.toDigits 10 n.natAbs)) : Int)
      else numberOf 10 (values (Nat.toDigits 10 n.natAbs))) = n := by
    rw [numberOf_values, Nat.ofDigitChars_ten_toDigits]
    split
    · next hn =>
      have := of_decide_eq_true hn
      omega
    · next hn =>
      have := of_decide_eq_false (Bool.eq_false_iff.mpr hn)
      omega
  rw [Option.map_some, hvalue]
  rfl

/-- A text that has no character of a kind is not split by one. -/
theorem splitAt?_none {stops : Char → Bool} {s : List Char} (h : ∀ c ∈ s, stops c = false) :
    splitAt? stops s = (s, none) := by
  have hdrop : s.dropWhile (!stops ·) = [] :=
    List.dropWhile_eq_nil_iff.mpr fun c hc => by simp [h c hc]
  unfold splitAt?
  rw [hdrop]

/-- A text is split at the first character of a kind. -/
theorem splitAt?_append {stops : Char → Bool} {s : List Char} (h : ∀ c ∈ s, stops c = false)
    {d : Char} (hd : stops d = true) (rest : List Char) :
    splitAt? stops (s ++ d :: rest) = (s, some rest) := by
  have hpass : ∀ c ∈ s, (!stops c) = true := fun c hc => by simp [h c hc]
  have hdrop : (s ++ d :: rest).dropWhile (!stops ·) = d :: rest := by
    rw [List.dropWhile_append_of_pos hpass, List.dropWhile_cons_of_neg (by simp [hd])]
  have htake : (s ++ d :: rest).takeWhile (!stops ·) = s := by
    rw [List.takeWhile_append_of_pos hpass, List.takeWhile_cons_of_neg (by simp [hd]),
      List.append_nil]
  unfold splitAt?
  rw [hdrop]
  simp only [htake]

/-- Digits are read as their values. -/
theorem digitsIn?_of_digits {cs : List Char} (hne : cs ≠ []) (h : ∀ c ∈ cs, c.isDigit) :
    digitsIn? 10 cs = some (values cs) := by
  cases cs with
  | nil => exact absurd rfl hne
  | cons c cs =>
    rw [digitsIn?, digitIn?_of_isDigit (h c List.mem_cons_self),
      moreDigits_of_digits fun d hd => h d (List.mem_cons_of_mem _ hd)]
    rfl

/-- The double that is read from digits before a point and behind it. -/
def realOf (negative : Bool) (whole fraction : List Char) : Float :=
  Decimal.negate negative
    (Decimal.nearest (Nat.ofDigitChars 10 (whole ++ fraction) 0) (0 - fraction.length))

/-- Digits with a point are no whole number. -/
theorem integer?_digits (negative : Bool) {whole fraction : List Char} (h : Digits whole fraction) :
    integer? (signed negative (whole ++ '.' :: fraction)) = none := by
  have hwhole : ∀ c ∈ whole, c.isDigit := fun c hc => h.digits c (List.mem_append_left _ hc)
  obtain ⟨c, rest, rfl, hc, hrest⟩ := h.lead.exists_cons hwhole
  have hnone : digitsIn? 10 ((c :: rest) ++ '.' :: fraction) = none := by
    rw [List.cons_append, digitsIn?, digitIn?_of_isDigit hc, moreDigits_point hrest]
    rfl
  have hnext : ∀ d t, rest ++ '.' :: fraction = d :: t → d.isDigit ∨ d = '.' := by
    intro d t heq
    cases rest with
    | nil => exact .inr (List.cons.inj heq).1.symm
    | cons e rest => exact .inl ((List.cons.inj heq).1 ▸ hrest e List.mem_cons_self)
  rw [List.cons_append] at hnone ⊢
  rw [integer?_signed negative hc hnext, plainNumber?, hnone]
  rfl

/-- No digit is the mark of an exponent. -/
theorem not_mark_of_isDigit {d : Char} (h : d.isDigit) :
    (decide (d = 'e') || decide (d = 'E')) = false := by
  rw [decide_eq_false (ne_of_isDigit h rfl), decide_eq_false (ne_of_isDigit h rfl)]
  rfl

/-- **Digits with a point are a double.** -/
theorem real?_digits (negative : Bool) {whole fraction : List Char} (h : Digits whole fraction) :
    real? (signed negative (whole ++ '.' :: fraction))
      = some (.number (some (.real (realOf negative whole fraction)))) := by
  have hwhole : ∀ c ∈ whole, c.isDigit := fun c hc => h.digits c (List.mem_append_left _ hc)
  have hfraction : ∀ c ∈ fraction, c.isDigit := fun c hc => h.digits c (List.mem_append_right _ hc)
  obtain ⟨c, rest, rfl, hc, -⟩ := h.lead.exists_cons hwhole
  have hmark : ∀ d ∈ (c :: rest) ++ '.' :: fraction,
      (decide (d = 'e') || decide (d = 'E')) = false := by
    intro d hd
    obtain hd | hd := List.mem_append.mp hd
    · exact not_mark_of_isDigit (hwhole d hd)
    · obtain rfl | hd := List.mem_cons.mp hd
      · rfl
      · exact not_mark_of_isDigit (hfraction d hd)
  have hpoint : ∀ d ∈ c :: rest, decide (d = '.') = false := fun d hd =>
    decide_eq_false (ne_of_isDigit (hwhole d hd) rfl)
  have hinf : c :: (rest ++ '.' :: fraction) ≠ "inf".toList :=
    @signed_ne false c hc (rest ++ '.' :: fraction) 'i' rfl (by decide) ['n', 'f']
  have hnan : c :: (rest ++ '.' :: fraction) ≠ "nan".toList :=
    @signed_ne false c hc (rest ++ '.' :: fraction) 'n' rfl (by decide) ['a', 'n']
  have hsplit := splitAt?_append hpoint (d := '.') rfl fraction
  have hwhole' := plainNumber?_of_digits h.lead hwhole
  have hfraction' := digitsIn?_of_digits h.behind hfraction
  have hvalues : values (c :: rest) ++ values fraction = values ((c :: rest) ++ fraction) :=
    List.map_append.symm
  have hlength : (values fraction).length = fraction.length := List.length_map _
  rw [List.cons_append] at hmark hsplit ⊢
  simp only [real?, splitSign_signed negative hc, if_neg hinf, if_neg hnan, splitAt?_none hmark,
    hsplit, exponent?, hwhole', hfraction']
  show some (Draft.number (some (.real (Decimal.negate negative (Decimal.nearest
    (numberOf 10 (values (c :: rest) ++ values fraction)) (0 - (values fraction).length)))))) = _
  rw [hvalues, numberOf_values, hlength]
  rfl

/-- **Digits with a point are read as the nearest double.** -/
theorem word?_digits (negative : Bool) {whole fraction : List Char} (h : Digits whole fraction) :
    word? (signed negative (whole ++ '.' :: fraction))
      = some (.number (some (.real (realOf negative whole fraction)))) := by
  have hinteger := integer?_digits negative h
  have hreal := real?_digits negative h
  obtain ⟨c, rest, rfl, hc, -⟩ := h.lead.exists_cons fun c hc =>
    h.digits c (List.mem_append_left _ hc)
  rw [List.cons_append] at hinteger hreal ⊢
  rw [word?_signed negative hc, hinteger, hreal]
  rfl

/-- **What a number is read as** that was written. -/
def numberDraft : Number → Draft
  | .integer n => wholeDraft n
  | .real x => (word? (number (.real x))).getD .fault

/-- A finite double is written with a point. -/
theorem number_finite {x : Float} {m : Nat} {q : Int} (h : Decimal.magnitude x = .finite m q) :
    ∃ whole fraction, number (.real x) = signed (Decimal.isNegative x) (whole ++ '.' :: fraction) ∧
      Decimal.Plain (Decimal.shortest m q).coefficient (Decimal.shortest m q).exponent
        whole fraction := by
  obtain ⟨whole, fraction, hplain⟩ := Decimal.exists_plain
    (fun hzero => Decimal.exponent_shortest_of_zero (m := m) (q := q) hzero)
  refine ⟨whole, fraction, ?_, hplain⟩
  rw [number, Decimal.toList_write h, ← hplain.text]
  rfl

/-- **A number is a word.** -/
theorem word?_number (n : Number) : word? (number n) = some (numberDraft n) := by
  cases n with
  | integer n => exact word?_integer n
  | real x =>
    have hsome : ∃ d, word? (number (.real x)) = some d := by
      cases hm : Decimal.magnitude x with
      | nan =>
        have htext : number (.real x) = "nan".toList := by
          simp only [number, Decimal.Style.write, hm]
          rfl
        exact ⟨_, by rw [htext]; rfl⟩
      | infinite =>
        have htext : number (.real x) = "-inf".toList ∨ number (.real x) = "inf".toList := by
          simp only [number, Decimal.Style.write, hm]
          cases Decimal.isNegative x
          · exact .inr rfl
          · exact .inl rfl
        obtain htext | htext := htext <;> exact ⟨_, by rw [htext]; rfl⟩
      | finite m q =>
        obtain ⟨whole, fraction, htext, hplain⟩ := number_finite hm
        exact ⟨_, htext ▸ word?_digits _ hplain.digits⟩
    obtain ⟨d, hd⟩ := hsome
    rw [hd, numberDraft, hd]
    rfl

/-- The characters of a number are those of words. -/
theorem inWord_number (n : Number) : ∀ c ∈ number n, inWord c = true := by
  have hdigit : ∀ c : Char, c.isDigit → inWord c = true := fun c hc => by
    unfold inWord Char.isAlphanum
    rw [hc]
    simp
  have hsigned : ∀ (negative : Bool) (s : List Char), (∀ c ∈ s, inWord c = true) →
      ∀ c ∈ signed negative s, inWord c = true := by
    intro negative s hs c hc
    cases negative with
    | true =>
      obtain rfl | hc := List.mem_cons.mp hc
      · rfl
      · exact hs c hc
    | false => exact hs c hc
  cases n with
  | integer n =>
    rw [number, toList_toString_int]
    exact hsigned _ _ fun c hc => hdigit c (isDigit_of_mem hc)
  | real x =>
    cases hm : Decimal.magnitude x with
    | nan =>
      simp only [number, Decimal.Style.write, hm]
      exact List.all_eq_true.mp rfl
    | infinite =>
      simp only [number, Decimal.Style.write, hm]
      cases Decimal.isNegative x <;> exact List.all_eq_true.mp rfl
    | finite m q =>
      obtain ⟨whole, fraction, htext, hplain⟩ := number_finite hm
      rw [htext]
      refine hsigned _ _ fun c hc => ?_
      obtain hc | hc := List.mem_append.mp hc
      · exact hdigit c (hplain.digits.digits c (List.mem_append_left _ hc))
      · obtain rfl | hc := List.mem_cons.mp hc
        · rfl
        · exact hdigit c (hplain.digits.digits c (List.mem_append_right _ hc))

/-- There is a character in every number. -/
theorem number_ne_nil (n : Number) : number n ≠ [] := by
  intro h
  have hword := word?_number n
  rw [h] at hword
  cases hword

/-! ## Values -/

/-- **What a value on its own line ends at.** -/
def Stops (rest : List Char) : Prop :=
  ∃ c t, rest = c :: t ∧ (c = '\n' ∨ c = ',' ∨ c = ']')

theorem Stops.noQuote {rest : List Char} (h : Stops rest) : NoQuote rest := by
  obtain ⟨c, t, rfl, hc⟩ := h
  obtain rfl | rfl | rfl := hc <;> exact .cons t (by decide) (by decide)

/-- **A word is read up to the end of the value.** -/
theorem splitWord_append {word rest : List Char} (hword : ∀ c ∈ word, inWord c = true)
    (hrest : Stops rest) : splitWord (word ++ rest) = (word, rest) := by
  obtain ⟨c, t, rfl, hc⟩ := hrest
  have hend : inWord c = false := by obtain rfl | rfl | rfl := hc <;> decide
  have hspace : c ≠ ' ' := by obtain rfl | rfl | rfl := hc <;> decide
  unfold splitWord
  rw [span_append hword (.cons t hend)]
  dsimp only
  split
  · next heq => exact absurd (List.cons.inj heq).1 hspace
  · rfl

/-- **A word is read as its value.** -/
theorem value_word (fuel : Nat) {word rest : List Char} {d : Draft}
    (hword : ∀ c ∈ word, inWord c = true) (hd : word? word = some d) (hne : word ≠ [])
    (hrest : Stops rest) : value (fuel + 1) (word ++ rest) = some (d, rest) := by
  obtain ⟨c, cs, rfl⟩ := List.exists_cons_of_ne_nil hne
  have hc : inWord c = true := hword c List.mem_cons_self
  have hother : ∀ e : Char, inWord e = false → ∀ t, (c :: cs) ++ rest ≠ e :: t := by
    rintro e he t heq
    rw [(List.cons.inj heq).1, he] at hc
    cases hc
  have hquoted : quoted? ((c :: cs) ++ rest) = none := by
    unfold quoted?
    split
    · next heq => exact absurd heq (hother '"' rfl _)
    · next heq => exact absurd heq (hother '"' rfl _)
    · next heq => exact absurd heq (hother '\x27' rfl _)
    · next heq => exact absurd heq (hother '\x27' rfl _)
    · rfl
  rw [value.eq_4 _ _ (hother '[' rfl) (hother '\x7b' rfl), hquoted]
  simp only [splitWord_append hword hrest, hd, Option.map_some]

/-- A text is written in quotes. -/
theorem text_head (s : String) : ∃ c t, text s = c :: t ∧ (c = '"' ∨ c = '\x27') := by
  unfold text inQuotes
  dsimp only
  split
  · exact ⟨_, _, rfl, .inl rfl⟩
  · exact ⟨_, _, rfl, .inr rfl⟩
  · exact ⟨_, _, rfl, .inl rfl⟩
  · exact ⟨_, _, rfl, .inr rfl⟩

/-- **A text is read as itself.** -/
theorem value_text (fuel : Nat) (s : String) {rest : List Char} (hrest : Stops rest) :
    value (fuel + 1) (text s ++ rest) = some (.text (.ofString s), rest) := by
  obtain ⟨c, t, htext, hc⟩ := text_head s
  have hother : ∀ e : Char, e ≠ '"' → e ≠ '\x27' → ∀ t', text s ++ rest ≠ e :: t' := by
    intro e hdouble hsingle t' heq
    rw [htext] at heq
    obtain rfl := (List.cons.inj heq).1
    exact hc.elim hdouble hsingle
  rw [value.eq_4 _ _ (hother '[' (by decide) (by decide)) (hother '\x7b' (by decide) (by decide)),
    quoted?_text hrest.noQuote]
  simp only [Option.map_some, String.ofList_toList]

mutual

/-- **A value that is written on its own line**: one without nothing and without a table in
it. -/
def Inline : Value → Prop
  | .null => False
  | .table _ => False
  | .list items => InlineItems items
  | _ => True

/-- Items that are written as values. -/
def InlineItems : List Value → Prop
  | [] => True
  | v :: rest => Inline v ∧ InlineItems rest

end

/-- **What a value begins with**: no blank space, no line end, no comment, and not the end of a
list. -/
def Begins (s : List Char) : Prop :=
  ∃ c t, s = c :: t ∧ ¬(c = ' ' ∨ c = '\t' ∨ c = '\n' ∨ c = '\r' ∨ c = '#' ∨ c = ']')

/-- Nothing is dropped before a value. -/
theorem Begins.dropVoid {s : List Char} (h : Begins s) (rest : List Char) :
    dropVoid false (s ++ rest) = some (s ++ rest) := by
  obtain ⟨c, t, rfl, hc⟩ := h
  simp only [not_or] at hc
  obtain ⟨hspace, htab, hline, hreturn, hcomment, -⟩ := hc
  rw [List.cons_append, dropVoid.eq_5 c _ hline fun _ h => absurd h hreturn]
  rw [if_neg (by simp [hspace, htab]), if_neg hcomment]

/-- A value does not begin with the end of a list. -/
theorem Begins.ne {s : List Char} (h : Begins s) (rest t : List Char) : s ++ rest ≠ ']' :: t := by
  obtain ⟨c, t', rfl, hc⟩ := h
  simp only [not_or] at hc
  exact fun heq => hc.2.2.2.2.2 (List.cons.inj heq).1

/-- **A value begins with none of these.** -/
theorem begins_writeInline {v : Value} (h : Inline v) : Begins (writeInline v) := by
  cases v with
  | null => exact h.elim
  | table entries => exact h.elim
  | flag b => cases b <;> exact ⟨_, _, rfl, by decide⟩
  | number n =>
    obtain ⟨c, cs, heq⟩ := List.exists_cons_of_ne_nil (number_ne_nil n)
    have hc := inWord_number n c (heq ▸ List.mem_cons_self)
    refine ⟨c, cs, heq, ?_⟩
    rintro (rfl | rfl | rfl | rfl | rfl | rfl) <;> exact absurd hc (by decide)
  | text s =>
    obtain ⟨c, t, heq, hc⟩ := text_head s
    refine ⟨c, t, heq, ?_⟩
    obtain rfl | rfl := hc <;> decide
  | list items =>
    match items with
    | [] => exact ⟨_, _, rfl, by decide⟩
    | [_] => exact ⟨_, _, rfl, by decide⟩
    | _ :: _ :: _ => exact ⟨_, _, rfl, by decide⟩

/-- An item of a list is read, and what follows it says whether there are more. -/
theorem items_value {fuel : Nat} {read : List Draft} {s s' rest : List Char} {d : Draft}
    (hs : dropVoid false s = some s') (hhead : ∀ t, s' ≠ ']' :: t)
    (hv : value fuel s' = some (d, rest)) :
    items (fuel + 1) read s = match dropVoid false rest with
      | some (',' :: rest) => items fuel (d :: read) rest
      | some (']' :: rest) => some (.list (d :: read).reverse true, rest)
      | _ => none := by
  rw [items, hs]
  split
  · next heq => cases heq
  · next heq => exact absurd (Option.some.inj heq) (hhead _)
  · next heq =>
    cases heq
    split
    · next hnone => cases hv.symm.trans hnone
    · next hsome =>
      cases hv.symm.trans hsome
      rfl

mutual

/-- **A value on its own line is read as its draft**, whose numbers are read as their
characters. -/
theorem value_writeInline : ∀ (v : Value), Inline v → ∀ {fuel : Nat} {rest : List Char},
    (writeInline v).length ≤ fuel → Stops rest →
    value fuel (writeInline v ++ rest) = some (v.draft numberDraft, rest)
  | .null, h, _, _, _, _ => h.elim
  | .table _, h, _, _, _, _ => h.elim
  | .flag b, _, fuel, rest, hfuel, hrest => by
    cases fuel with
    | zero => cases b <;> exact absurd hfuel (by decide)
    | succ fuel =>
      cases b with
      | true => exact value_word fuel (List.all_eq_true.mp rfl) rfl (List.cons_ne_nil _ _) hrest
      | false => exact value_word fuel (List.all_eq_true.mp rfl) rfl (List.cons_ne_nil _ _) hrest
  | .number n, _, fuel, rest, hfuel, hrest => by
    cases fuel with
    | zero => exact absurd (List.eq_nil_of_length_eq_zero (Nat.le_zero.mp hfuel)) (number_ne_nil n)
    | succ fuel =>
      exact value_word fuel (inWord_number n) (word?_number n) (number_ne_nil n) hrest
  | .text s, _, fuel, rest, hfuel, hrest => by
    cases fuel with
    | zero =>
      obtain ⟨c, t, heq, -⟩ := text_head s
      have hlength : (text s).length ≤ 0 := hfuel
      rw [heq] at hlength
      exact absurd hlength (Nat.not_succ_le_zero _)
    | succ fuel => exact value_text fuel s hrest
  | .list [], _, fuel, rest, hfuel, _ => by
    obtain ⟨fuel, rfl⟩ := Nat.exists_eq_add_of_le hfuel
    have hfuel : (writeInline (.list [])).length + fuel = fuel + 2 := Nat.add_comm _ _
    rw [hfuel]
    rfl
  | .list [v], h, fuel, rest, hfuel, _ => by
    have hlength : (writeInline (.list [v])).length = (writeInline v).length + 2 := by
      show ('[' :: (writeInline v ++ [']'])).length = _
      rw [List.length_cons, List.length_append]
      rfl
    rw [hlength] at hfuel
    obtain ⟨fuel, rfl⟩ := Nat.exists_eq_add_of_le' (show 2 ≤ fuel by omega)
    have hrest : Stops (']' :: rest) := ⟨_, _, rfl, .inr (.inr rfl)⟩
    have hread := @value_writeInline v h.1 fuel (']' :: rest) (by omega) hrest
    have hbegins := begins_writeInline h.1
    have happend : writeInline (.list [v]) ++ rest = '[' :: (writeInline v ++ ']' :: rest) := by
      show ('[' :: (writeInline v ++ [']'])) ++ rest = _
      rw [List.cons_append, List.append_assoc]
      rfl
    rw [happend, value, items_value (hbegins.dropVoid _) (hbegins.ne _) hread]
    rfl
  | .list (v :: v' :: items), h, fuel, rest, hfuel, _ => by
    have hlength : (writeInline (.list (v :: v' :: items))).length
        = (writeItems (v :: v' :: items)).length + 3 := by
      show ('[' :: (writeItems (v :: v' :: items) ++ ['\n', ']'])).length = _
      rw [List.length_cons, List.length_append]
      rfl
    rw [hlength] at hfuel
    obtain ⟨fuel, rfl⟩ := Nat.exists_eq_add_of_le' (show 1 ≤ fuel by omega)
    have happend : writeInline (.list (v :: v' :: items)) ++ rest
        = '[' :: (writeItems (v :: v' :: items) ++ '\n' :: ']' :: rest) := by
      show ('[' :: (writeItems (v :: v' :: items) ++ ['\n', ']'])) ++ rest = _
      rw [List.cons_append, List.append_assoc]
      rfl
    rw [happend, value, items_writeItems (v :: v' :: items) h (by omega)]
    rfl

/-- Items are read one after another. -/
theorem items_writeItems : ∀ (vs : List Value), InlineItems vs → ∀ {fuel : Nat}
    {read : List Draft} {rest : List Char}, (writeItems vs).length + 2 ≤ fuel →
    items fuel read (writeItems vs ++ '\n' :: ']' :: rest)
      = some (.list (read.reverse ++ draftItems numberDraft vs) true, rest)
  | [], _, fuel, read, rest, hfuel => by
    obtain ⟨fuel, rfl⟩ := Nat.exists_eq_add_of_le' (show 1 ≤ fuel by omega)
    rw [draftItems, List.append_nil]
    rfl
  | v :: vs, h, fuel, read, rest, hfuel => by
    have hlength : (writeItems (v :: vs)).length
        = (writeInline v).length + (writeItems vs).length + 6 := by
      show ('\n' :: ' ' :: ' ' :: ' ' :: ' ' :: (writeInline v ++ ',' :: writeItems vs)).length = _
      simp only [List.length_cons, List.length_append]
      omega
    rw [hlength] at hfuel
    obtain ⟨fuel, rfl⟩ := Nat.exists_eq_add_of_le' (show 1 ≤ fuel by omega)
    have hbegins := begins_writeInline h.1
    have hread := @value_writeInline v h.1 fuel (',' :: (writeItems vs ++ '\n' :: ']' :: rest))
      (by omega) ⟨_, _, rfl, .inr (.inl rfl)⟩
    have hdrop : dropVoid false (writeItems (v :: vs) ++ '\n' :: ']' :: rest)
        = some (writeInline v ++ ',' :: (writeItems vs ++ '\n' :: ']' :: rest)) := by
      rw [← hbegins.dropVoid]
      show dropVoid false ((writeInline v ++ ',' :: writeItems vs) ++ '\n' :: ']' :: rest) = _
      rw [List.append_assoc]
      rfl
    rw [items_value hdrop (hbegins.ne _) hread]
    show items fuel (v.draft numberDraft :: read) (writeItems vs ++ '\n' :: ']' :: rest) = _
    rw [items_writeItems vs h.2 (by omega), draftItems, List.reverse_cons, List.append_assoc]
    rfl

end

end Courier.Toml
