import Courier.Proofs.Json.Number
/-!
# The numerals of a text

How the numbers of a JSON text are written can be seen without reading it: outside of
quotes, whatever begins with a digit or a minus sign is a numeral, up to where a
character comes that no numeral has (`numerals`). A numeral is plain when it is a whole
number of 64 bits, without a point and without an exponent (`isPlain`).

The scanner that finds the numerals goes along with the machine that takes the text
apart (`Lockstep`): where one is between quotes or within a numeral, so is the other,
until the machine stops at junk. So the number of a plain numeral is the one number
token that comes of it, and when all numerals are plain, the tokens have whole numbers
only (`among_tokens`). A zero with a minus sign is among them, as the double that it
is read as.
-/

namespace Courier.Json

open Courier.Document
open Courier.Text (digit? readDigits word64)

/-! ## Numerals -/

/-- **Where a text stands for someone who looks for its numerals only.** -/
inductive Scan
  /-- Outside of quotes and of numerals. -/
  | outside
  /-- Within a numeral, of which there are so many characters. -/
  | numeral (taken : List Char)
  /-- Between quotes. -/
  | quoted
  /-- Between quotes, behind a backslash. -/
  | escaped
deriving DecidableEq

/-- Whether a numeral goes on with a character. -/
def inNumeral (c : Char) : Bool :=
  c.isDigit || c = '-' || c = '+' || c = '.' || c = 'e' || c = 'E'

namespace Scan

/-- Where a text stands behind a character that belongs to nothing before it. -/
def enter (c : Char) : Scan :=
  if c = '"' then .quoted
  else if c.isDigit || c = '-' then .numeral [c]
  else .outside

/-- **One more character**: the numeral that ends before it, if one does, and where the
text stands behind it. -/
def step : Scan → Char → List (List Char) × Scan
  | .outside, c => ([], enter c)
  | .numeral taken, c =>
    if inNumeral c then ([], .numeral (taken ++ [c])) else ([taken], enter c)
  | .quoted, c => ([], if c = '"' then .outside else if c = '\\' then .escaped else .quoted)
  | .escaped, _ => ([], .quoted)

/-- The numeral that ends with the text, if one does. -/
def finish : Scan → List (List Char)
  | .numeral taken => [taken]
  | _ => []

end Scan

/-- The numerals of the rest of a text. -/
def numeralsFrom : Scan → List Char → List (List Char)
  | s, [] => s.finish
  | s, c :: rest => (s.step c).1 ++ numeralsFrom (s.step c).2 rest

/-- **The numerals of a text**, in the order in which they stand. -/
def numerals (text : List Char) : List (List Char) :=
  numeralsFrom .outside text

/-- The whole number that a numeral writes: digits, and perhaps a minus sign. -/
def wholeOf? : List Char → Option Int
  | '-' :: ds =>
    if ds ≠ [] ∧ ds.all Char.isDigit then some (-(Nat.ofDigitChars 10 ds 0 : Int)) else none
  | ds => if ds ≠ [] ∧ ds.all Char.isDigit then some (Nat.ofDigitChars 10 ds 0) else none

/-- **A plain numeral** writes a whole number of 64 bits, with a sign or without. -/
def isPlain (numeral : List Char) : Bool :=
  (wholeOf? numeral).any fun n => -0x8000000000000000 ≤ n && n < 0x10000000000000000

/-- The characters of a numeral with a sign or without. -/
def signed (negative : Bool) (cs : List Char) : List Char :=
  if negative then '-' :: cs else cs

/-- **A plain numeral is digits** of a number that is not too large, behind a minus sign or
alone. -/
theorem exists_of_isPlain {numeral : List Char} (h : isPlain numeral) :
    ∃ negative ds, numeral = signed negative ds ∧ ds ≠ [] ∧ (∀ c ∈ ds, c.isDigit) ∧
      Nat.ofDigitChars 10 ds 0 ≤ if negative then 0x8000000000000000 else word64 := by
  have hword : word64 = 0xFFFFFFFFFFFFFFFF := rfl
  obtain ⟨n, hn, hbounds⟩ := (Option.any_eq_true _ _).mp h
  rw [Bool.and_eq_true, decide_eq_true_iff, decide_eq_true_iff] at hbounds
  unfold wholeOf? at hn
  split at hn
  · next ds =>
    split at hn
    · next hdigits =>
      cases hn
      refine ⟨true, ds, rfl, hdigits.1, List.all_eq_true.mp hdigits.2, ?_⟩
      rw [if_pos rfl]
      omega
    · cases hn
  · split at hn
    · next hdigits =>
      cases hn
      refine ⟨false, numeral, rfl, hdigits.1, List.all_eq_true.mp hdigits.2, ?_⟩
      rw [if_neg Bool.false_ne_true]
      omega
    · cases hn

/-- A digit goes on with a numeral. -/
theorem inNumeral_of_isDigit {c : Char} (h : c.isDigit) : inNumeral c := by
  unfold inNumeral
  rw [h]
  rfl

/-! ## The numbers of plain numerals -/

/-- **What a plain numeral is read as**: a whole number of 64 bits, with a sign or without, or
the zero with a minus sign. -/
inductive Whole : Number → Prop
  /-- A whole number. -/
  | integer {n : Int} (low : -0x8000000000000000 ≤ n) (high : n < 0x10000000000000000) :
    Whole (.integer n)
  /-- The zero with a minus sign. -/
  | negativeZero : Whole (.real (Decimal.negate true 0.0))

/-- **A token whose number is among certain ones**, if it has one. -/
def Token.Among (P : Number → Prop) : Token → Prop
  | .number n => ∃ k, n = some k ∧ P k
  | _ => True

namespace NumberDraft

/-- **Digits that the machine accepts as a whole part** make up its coefficient. -/
theorem eq_of_run {negative : Bool} {cs : List Char} {m : Nat} {part : NumberPart}
    {n : NumberDraft} (h : run .sign (.start negative) cs = some (part, n)) (hne : cs ≠ [])
    (hread : readDigits word64 0 cs = .ok m) : n = { start negative with coefficient := m } := by
  cases cs with
  | nil => exact absurd rfl hne
  | cons c rest =>
    obtain ⟨d, hc, hfits, hrest⟩ := Text.readDigits_cons_ok hread
    rw [Nat.zero_mul, Nat.zero_add] at hfits hrest
    cases d with
    | zero =>
      have hstep : (start negative).step .sign c = .goes .zero (start negative) := by
        unfold step
        rw [hc]
        rfl
      rw [run, hstep] at h
      cases rest with
      | nil =>
        cases h
        cases hrest
        rfl
      | cons c' rest =>
        obtain ⟨d', hc', -⟩ := Text.readDigits_cons_ok hrest
        -- no digit may come behind a leading zero
        have hbad : (start negative).step .zero c' = .bad := by
          unfold step
          rw [hc']
        have hrun : run .zero (start negative) (c' :: rest) = some (part, n) := h
        rw [run, hbad] at hrun
        cases hrun
    | succ d =>
      have hstep : (start negative).step .sign c
          = .goes .whole { start negative with coefficient := d + 1 } := by
        have hwhole : (start negative).whole (d + 1)
            = { start negative with coefficient := d + 1 } := by
          unfold whole
          rw [if_neg (by simpa [start] using hfits)]
          simp only [start, Nat.zero_mul, Nat.zero_add]
        unfold step
        rw [hc]
        exact congrArg _ hwhole
      rw [run, hstep] at h
      have hrun := run_whole { start negative with coefficient := d + 1 } rfl hrest
      exact (Prod.mk.inj (Option.some.inj (h.symm.trans hrun))).2

/-- The value of a zero with a minus sign. -/
theorem value_negativeZero : (start true).value = some (.real (Decimal.negate true 0.0)) := by
  have hscaled : scaled (Float.ofNat 0) 0 2 = some 0.0 := by decide +kernel
  unfold value start
  simp only [Bool.not_true, Bool.and_false, Bool.false_eq_true, if_false, Nat.lt_irrefl,
    decide_false, Bool.false_and, Nat.not_lt_zero, Int.natCast_zero, Int.add_zero]
  exact congrArg (Option.map _) hscaled

/-- **The value of a whole number of 64 bits.** -/
theorem whole_value {negative : Bool} {m : Nat}
    (h : m ≤ if negative then 0x8000000000000000 else word64) :
    ∃ k, ({ start negative with coefficient := m } : NumberDraft).value = some k ∧ Whole k := by
  have hword : word64 = 0xFFFFFFFFFFFFFFFF := rfl
  cases negative with
  | false =>
    rw [if_neg Bool.false_ne_true] at h
    exact ⟨.integer m, rfl, .integer (by omega) (by omega)⟩
  | true =>
    rw [if_pos rfl] at h
    obtain rfl | hm := Nat.eq_zero_or_pos m
    · exact ⟨_, value_negativeZero, .negativeZero⟩
    · refine ⟨.integer (-(m : Int)), ?_, .integer (by omega) (by omega)⟩
      unfold value
      have hsmall : (decide (0 < m) && decide (m ≤ 0x8000000000000000)) = true := by
        rw [Bool.and_eq_true, decide_eq_true_iff, decide_eq_true_iff]
        exact ⟨hm, h⟩
      simp only [start, Bool.not_false, Bool.not_true, Bool.and_false, Bool.and_true,
        Bool.false_eq_true, if_false, Bool.true_and, hsmall, if_true]

end NumberDraft

/-! ## The scanner and the machine -/

namespace NumberDraft

/-- Behind digits, a number goes on with a point or the letter of an exponent. -/
theorem inNumeral_of_afterDigits {pointed : Bool} {part : NumberPart} {n n' : NumberDraft}
    {c : Char} (h : n.afterDigits pointed c = .goes part n') : inNumeral c := by
  unfold afterDigits at h
  split at h
  · next hpoint =>
    obtain rfl : c = '.' := of_decide_eq_true (Bool.and_eq_true_iff.mp hpoint).1
    decide
  · split at h
    · next hmark =>
      obtain hmark | hmark := Bool.or_eq_true_iff.mp hmark
      · obtain rfl : c = 'e' := of_decide_eq_true hmark
        decide
      · obtain rfl : c = 'E' := of_decide_eq_true hmark
        decide
    · cases h

/-- **What goes on with a number goes on with a numeral.** -/
theorem inNumeral_of_goes {part part' : NumberPart} {n n' : NumberDraft} {c : Char}
    (h : n.step part c = .goes part' n') : inNumeral c := by
  by_cases hdigit : c.isDigit
  · exact inNumeral_of_isDigit hdigit
  · have hnone : digit? c = none := if_neg hdigit
    unfold step at h
    rw [hnone] at h
    cases part with
    | sign => cases h
    | zero => exact inNumeral_of_afterDigits h
    | whole => exact inNumeral_of_afterDigits h
    | point => cases h
    | fraction => exact inNumeral_of_afterDigits h
    | mark =>
      dsimp only at h
      split at h
      · next hplus => exact hplus ▸ (by decide)
      · split at h
        · next hminus => exact hminus ▸ (by decide)
        · cases h
    | exponentSign => cases h
    | exponent => cases h

/-- **No number ends before a digit.** -/
theorem step_ne_ends {part : NumberPart} {n : NumberDraft} {c : Char} (h : c.isDigit) :
    n.step part c ≠ .ends := by
  obtain ⟨d, hd⟩ : ∃ d, digit? c = some d := ⟨_, if_pos h⟩
  intro hends
  unfold step at hends
  rw [hd] at hends
  cases part with
  | sign => cases d <;> cases hends
  | zero => cases hends
  | whole => cases hends
  | point => cases hends
  | fraction => cases hends
  | mark => cases hends
  | exponentSign => cases hends
  | exponent => cases hends

/-- **The value of a plain numeral** that the machine has read. -/
theorem whole_of_run {negative : Bool} {cs : List Char} {part : NumberPart} {n : NumberDraft}
    (hrun : run .sign (.start negative) cs = some (part, n))
    (hplain : isPlain (signed negative cs)) : (Token.number n.value).Among Whole := by
  obtain ⟨negative', ds, heq, hne, hdigits, hbound⟩ := exists_of_isPlain hplain
  have hsign : negative = negative' ∧ cs = ds := by
    cases negative with
    | true =>
      cases negative' with
      | true => exact ⟨rfl, (List.cons.inj heq).2⟩
      | false =>
        -- the sign would be a digit
        obtain rfl : '-' :: cs = ds := heq
        exact absurd (hdigits '-' List.mem_cons_self) (by decide)
    | false =>
      cases negative' with
      | false => exact ⟨rfl, heq⟩
      | true =>
        -- no sign is read behind the sign
        obtain rfl : cs = '-' :: ds := heq
        cases hrun
  obtain ⟨rfl, rfl⟩ := hsign
  have hlimit : Nat.ofDigitChars 10 cs 0 ≤ word64 := by
    refine Nat.le_trans hbound ?_
    cases negative <;> decide
  rw [eq_of_run hrun hne (Text.readDigits_ofDigitChars hdigits hlimit)]
  exact whole_value hbound

end NumberDraft

open NumberDraft in
/-- **The machine and the scanner at one place of a text.** Where the machine is within a
number, the scanner has taken its characters; behind junk, the scanner is anywhere. -/
inductive Lockstep : Lexer → Scan → Prop
  /-- Between tokens. -/
  | between : Lockstep .between .outside
  /-- Within a word. -/
  | word {rest : List Char} {token : Token} (hrest : rest.all fun c => Scan.enter c = .outside)
      (htoken : token.Among Whole) : Lockstep (.word rest token) .outside
  /-- Within a number. -/
  | number {negative : Bool} {cs : List Char} {part : NumberPart} {n : NumberDraft}
      (hrun : run .sign (.start negative) cs = some (part, n)) (hne : signed negative cs ≠ []) :
      Lockstep (.number part n) (.numeral (signed negative cs))
  /-- Within a text. -/
  | text {part : TextPart} {pieces : List Piece} {uncontrolled : Bool} (hpart : part ≠ .escape) :
      Lockstep (.text part pieces uncontrolled) .quoted
  /-- Behind a backslash. -/
  | escape {pieces : List Piece} {uncontrolled : Bool} :
      Lockstep (.text .escape pieces uncontrolled) .escaped
  /-- Behind junk. -/
  | stopped {s : Scan} : Lockstep .stopped s

/-- **A step that is taken by both**: its tokens have whole numbers only, and both are at one
place behind it. -/
def Goes (reached : List Token × Lexer) (s : Scan) : Prop :=
  (∀ t ∈ reached.1, t.Among Whole) ∧ Lockstep reached.2 s

theorem goes_token {t : Token} {l : Lexer} {s : Scan} (ht : t.Among Whole) (h : Lockstep l s) :
    Goes ([t], l) s :=
  ⟨fun t' ht' => by rw [List.mem_singleton.mp ht']; exact ht, h⟩

theorem goes_silent {l : Lexer} {s : Scan} (h : Lockstep l s) : Goes ([], l) s :=
  ⟨fun _ ht => absurd ht List.not_mem_nil, h⟩

theorem goes_junk (s : Scan) : Goes ([.junk], .stopped) s :=
  goes_token trivial .stopped

theorem Goes.cons {reached : List Token × Lexer} {s : Scan} (h : Goes reached s) {t : Token}
    (ht : t.Among Whole) : Goes (t :: reached.1, reached.2) s :=
  ⟨List.forall_mem_cons.mpr ⟨ht, h.1⟩, h.2⟩

/-- **A character that belongs to nothing before it** is begun with by both. -/
theorem goes_start (c : Char) : Goes (Lexer.start c) (Scan.enter c) := by
  unfold Lexer.start
  split
  iterate 4 · exact goes_silent .between
  iterate 6 · exact goes_token trivial .between
  iterate 3 · exact goes_silent (.word rfl trivial)
  · exact goes_silent (.text TextPart.noConfusion)
  · exact goes_silent (@Lockstep.number true [] _ _ rfl (List.cons_ne_nil _ _))
  · next hquote hsign =>
    by_cases hc : c.isDigit
    · have henter : Scan.enter c = .numeral (signed false [c]) := by
        unfold Scan.enter
        rw [if_neg hquote, if_pos (by rw [hc]; rfl)]
        rfl
      cases hstep : (NumberDraft.start false).step .sign c with
      | goes part n =>
        rw [henter]
        refine goes_silent (.number ?_ (List.cons_ne_nil _ _))
        rw [NumberDraft.run, hstep]
        rfl
      | ends => exact goes_junk _
      | bad => exact goes_junk _
    · have hnone : digit? c = none := if_neg hc
      unfold NumberDraft.step
      rw [hnone]
      exact goes_junk _

/-- A numeral that goes on. -/
theorem numeralsFrom_taken {taken : List Char} {c : Char} (h : inNumeral c) (rest : List Char) :
    numeralsFrom (.numeral taken) (c :: rest) = numeralsFrom (.numeral (taken ++ [c])) rest := by
  have hstep : (Scan.numeral taken).step c = ([], .numeral (taken ++ [c])) := if_pos h
  rw [numeralsFrom, hstep]
  rfl

/-- A numeral that ends. -/
theorem numeralsFrom_ended {taken : List Char} {c : Char} (h : ¬ inNumeral c) (rest : List Char) :
    numeralsFrom (.numeral taken) (c :: rest) = taken :: numeralsFrom (Scan.enter c) rest := by
  have hstep : (Scan.numeral taken).step c = ([taken], Scan.enter c) := if_neg h
  rw [numeralsFrom, hstep]
  rfl

/-- The characters that are taken begin a numeral of the text. -/
theorem exists_numeral (rest : List Char) : ∀ taken : List Char,
    ∃ more, taken ++ more ∈ numeralsFrom (.numeral taken) rest := by
  induction rest with
  | nil =>
    exact fun taken => ⟨[], List.mem_singleton.mpr (List.append_nil taken)⟩
  | cons c rest ih =>
    intro taken
    by_cases hc : inNumeral c
    · obtain ⟨more, hmore⟩ := ih (taken ++ [c])
      rw [List.append_assoc] at hmore
      exact ⟨c :: more, numeralsFrom_taken hc rest ▸ hmore⟩
    · refine ⟨[], ?_⟩
      rw [List.append_nil, numeralsFrom_ended hc]
      exact List.mem_cons_self

/-- Behind its first character a plain numeral is digits. -/
theorem isDigit_of_isPlain {taken more : List Char} {c : Char}
    (h : isPlain (taken ++ c :: more)) (hne : taken ≠ []) : c.isDigit := by
  obtain ⟨negative, ds, heq, -, hdigits, -⟩ := exists_of_isPlain h
  refine hdigits c ?_
  cases taken with
  | nil => exact absurd rfl hne
  | cons first taken =>
    have hmem : c ∈ taken ++ c :: more := List.mem_append_right taken List.mem_cons_self
    cases negative with
    | true => exact (List.cons.inj heq).2 ▸ hmem
    | false =>
      obtain rfl : first :: (taken ++ c :: more) = ds := heq
      exact List.mem_cons_of_mem first hmem

theorem signed_append (negative : Bool) (cs : List Char) (c : Char) :
    signed negative cs ++ [c] = signed negative (cs ++ [c]) := by
  cases negative <;> rfl

/-- **One more character of a number.** -/
theorem goes_number {negative : Bool} {cs : List Char} {part : NumberPart} {n : NumberDraft}
    (hrun : NumberDraft.run .sign (.start negative) cs = some (part, n))
    (hne : signed negative cs ≠ []) (c : Char) (rest : List Char)
    (hplain : ∀ numeral ∈ numeralsFrom (.numeral (signed negative cs)) (c :: rest),
      isPlain numeral) :
    Goes (Lexer.step (.number part n) c) ((Scan.numeral (signed negative cs)).step c).2 := by
  by_cases hc : inNumeral c
  · have hscan : ((Scan.numeral (signed negative cs)).step c).2
        = .numeral (signed negative (cs ++ [c])) := by
      rw [← signed_append]
      exact congrArg Prod.snd (if_pos hc)
    rw [hscan]
    cases hstep : n.step part c with
    | goes part' n' =>
      simp only [Lexer.step, hstep]
      refine goes_silent (.number ?_ ?_)
      · rw [NumberDraft.run_append_of hrun, NumberDraft.run, hstep]
        rfl
      · rw [← signed_append]
        exact List.append_ne_nil_of_right_ne_nil _ (List.cons_ne_nil c [])
    | ends =>
      -- what goes on with a plain numeral is a digit, and no number ends before one
      obtain ⟨more, hmore⟩ := exists_numeral rest (signed negative cs ++ [c])
      rw [← numeralsFrom_taken hc, List.append_assoc] at hmore
      exact absurd hstep (NumberDraft.step_ne_ends (isDigit_of_isPlain (hplain _ hmore) hne))
    | bad =>
      simp only [Lexer.step, hstep]
      exact goes_junk _
  · have hscan : ((Scan.numeral (signed negative cs)).step c).2 = Scan.enter c :=
      congrArg Prod.snd (if_neg hc)
    rw [numeralsFrom_ended hc] at hplain
    rw [hscan]
    cases hstep : n.step part c with
    | goes part' n' => exact absurd (NumberDraft.inNumeral_of_goes hstep) hc
    | ends =>
      simp only [Lexer.step, hstep]
      exact (goes_start c).cons
        (NumberDraft.whole_of_run hrun (hplain _ List.mem_cons_self))
    | bad =>
      simp only [Lexer.step, hstep]
      exact goes_junk _

/-- **One more character of a text.** -/
theorem goes_text {part : TextPart} (hpart : part ≠ .escape) (pieces : List Piece)
    (uncontrolled : Bool) (c : Char) :
    Goes (Lexer.textStep part pieces uncontrolled c) (Scan.quoted.step c).2 := by
  have hquoted : c ≠ '"' → c ≠ '\\' → (Scan.quoted.step c).2 = .quoted := fun hquote hback => by
    unfold Scan.step
    dsimp only
    rw [if_neg hquote, if_neg hback]
  cases part with
  | escape => exact absurd rfl hpart
  | plain =>
    unfold Lexer.textStep
    dsimp only
    split
    · next hquote =>
      subst hquote
      exact goes_token trivial .between
    · next hquote =>
      split
      · next hback =>
        subst hback
        exact goes_silent .escape
      · next hback =>
        rw [hquoted hquote hback]
        exact goes_silent (.text TextPart.noConfusion)
  | unit value taken =>
    unfold Lexer.textStep
    dsimp only
    cases hc : Text.hexValue? c with
    | none => exact goes_junk _
    | some d =>
      rw [hquoted (by rintro rfl; cases hc) (by rintro rfl; cases hc)]
      dsimp only
      split <;> exact goes_silent (.text TextPart.noConfusion)

/-- **Both take a step**, whatever comes next. -/
theorem Lockstep.step {l : Lexer} {s : Scan} (h : Lockstep l s) (c : Char) (rest : List Char)
    (hplain : ∀ numeral ∈ numeralsFrom s (c :: rest), isPlain numeral) :
    Goes (l.step c) (s.step c).2 := by
  cases h with
  | between => exact goes_start c
  | @word left token hleft htoken =>
    cases left with
    | nil => exact (goes_start c).cons htoken
    | cons w left =>
      rw [List.all_cons, Bool.and_eq_true, decide_eq_true_iff] at hleft
      unfold Lexer.step
      dsimp only
      split
      · next hw =>
        show Goes _ (Scan.enter c)
        rw [hw, hleft.1]
        cases left with
        | nil => exact goes_token htoken .between
        | cons w' left => exact goes_silent (.word hleft.2 htoken)
      · exact goes_junk _
  | number hrun hne => exact goes_number hrun hne c rest hplain
  | text hpart => exact goes_text hpart _ _ c
  | escape =>
    unfold Lexer.step Lexer.textStep
    dsimp only
    split
    · exact goes_silent (.text TextPart.noConfusion)
    · split
      · exact goes_silent (.text TextPart.noConfusion)
      · exact goes_junk _
  | stopped => exact goes_silent .stopped

/-- **Both reach the end of the text.** -/
theorem Lockstep.finish {l : Lexer} {s : Scan} (h : Lockstep l s)
    (hplain : ∀ numeral ∈ s.finish, isPlain numeral) : ∀ t ∈ l.finish, t.Among Whole := by
  cases h with
  | between => exact fun _ ht => absurd ht List.not_mem_nil
  | word => exact (goes_junk .outside).1
  | number hrun hne =>
    unfold Lexer.finish
    dsimp only
    split
    · intro t ht
      rw [List.mem_singleton.mp ht]
      exact NumberDraft.whole_of_run hrun (hplain _ List.mem_cons_self)
    · exact (goes_junk .outside).1
  | text => exact (goes_junk .outside).1
  | escape => exact (goes_junk .outside).1
  | stopped => exact fun _ ht => absurd ht List.not_mem_nil

/-- **The tokens of the rest of a text** whose numerals are plain. -/
theorem Lockstep.among {l : Lexer} {s : Scan} (h : Lockstep l s) {cs : List Char}
    (hplain : ∀ numeral ∈ numeralsFrom s cs, isPlain numeral) :
    ∀ t ∈ tokensFrom l cs, t.Among Whole := by
  induction cs generalizing l s with
  | nil => exact h.finish hplain
  | cons c rest ih =>
    obtain ⟨htokens, hnext⟩ := h.step c rest hplain
    have hrest := ih hnext fun numeral hin => hplain numeral (List.mem_append_right _ hin)
    exact List.forall_mem_append.mpr ⟨htokens, hrest⟩

/-- **A text whose numerals are plain has tokens of whole numbers only.** -/
theorem among_tokens {text : List Char} (hplain : ∀ numeral ∈ numerals text, isPlain numeral) :
    ∀ t ∈ tokens text, t.Among Whole :=
  Lockstep.between.among hplain

example : numerals "[-7, \"1.5\", \"\\\"2\", 3e2]".toList = ["-7".toList, "3e2".toList] ∧
    isPlain "-7".toList ∧ ¬ isPlain "3e2".toList := by decide

end Courier.Json
