import Courier.Json.Printer
import Courier.Json.Token
import Courier.Proofs.Decimal.Digits
import Courier.Proofs.Results
import Courier.Proofs.Text.Numeral
/-!
# A number is one token

A number that is written is read by the machine character by character, and ends
where something comes that belongs to no number. What it is read as depends on its
characters only: a whole number of 64 bits is read as itself
(`NumberDraft.numberOf_digits`), and every number that is written is one token
(`tokensFrom_number`).
-/

namespace Courier.Json

open Courier.Document
open Courier.Text (Lead digit? exists_lead isDigit_of_mem lead_toDigits readDigits toList_toString_int word64)

/-- **A number ends here**: what follows it in a document begins with nothing that goes on
with a number. -/
def Stops : List Char → Prop
  | [] => True
  | c :: _ => c = ',' ∨ c = ']' ∨ c = '\x7d' ∨ c = '\n'

theorem stops_comma (rest : List Char) : Stops (',' :: rest) :=
  Or.inl rfl

theorem stops_closeList (rest : List Char) : Stops (']' :: rest) :=
  Or.inr (Or.inl rfl)

theorem stops_closeTable (rest : List Char) : Stops ('\x7d' :: rest) :=
  Or.inr (Or.inr (Or.inl rfl))

namespace NumberDraft

/-- **The characters of a number read one after another**, if all of them belong to it. -/
def run : NumberPart → NumberDraft → List Char → Option (NumberPart × NumberDraft)
  | part, n, [] => some (part, n)
  | part, n, c :: rest =>
    match n.step part c with
    | .goes part n => run part n rest
    | _ => none

/-- **The number that characters make** behind its sign. -/
def numberOf (negative : Bool) (cs : List Char) : Option Number :=
  (run .sign (.start negative) cs).bind fun reached => reached.2.value

/-- Characters read in two parts. -/
theorem run_append (ys xs : List Char) : ∀ (part : NumberPart) (n : NumberDraft),
    run part n (xs ++ ys) = (run part n xs).bind fun reached => run reached.1 reached.2 ys := by
  induction xs with
  | nil => exact fun _ _ => rfl
  | cons c xs ih =>
    intro part n
    rw [List.cons_append, run, run]
    cases n.step part c with
    | goes part n => exact ih part n
    | ends => rfl
    | bad => rfl

theorem run_append_of {part part' : NumberPart} {n n' : NumberDraft} {xs : List Char}
    (h : run part n xs = some (part', n')) (ys : List Char) :
    run part n (xs ++ ys) = run part' n' ys := by
  rw [run_append, h]
  rfl

/-! ## Digits -/

/-- **A digit taken up by a part** of which any number of digits makes up the rest. -/
def digit (part : NumberPart) (n : NumberDraft) (d : Nat) : NumberDraft :=
  match part with
  | .fraction => n.fraction d
  | .exponent => n.exponentDigit d
  | _ => n.whole d

/-- Whether a part goes on with digits. -/
def goesOn (part : NumberPart) : Bool :=
  part = .whole || part = .fraction || part = .exponent

/-- A digit behind others. -/
theorem step_digit {part : NumberPart} (hpart : goesOn part) (n : NumberDraft) {c : Char} {d : Nat}
    (h : digit? c = some d) : n.step part c = .goes part (n.digit part d) := by
  unfold step
  rw [h]
  cases part <;> first | rfl | cases hpart

/-- **Digits behind others** are taken up one after another. -/
theorem run_digits {part : NumberPart} (hpart : goesOn part) {cs : List Char}
    (h : ∀ c ∈ cs, c.isDigit) : ∀ n : NumberDraft,
    run part n cs = some (part, cs.foldl (fun n c => n.digit part (c.toNat - '0'.toNat)) n) := by
  induction cs with
  | nil => exact fun _ => rfl
  | cons c cs ih =>
    intro n
    have hc : digit? c = some (c.toNat - '0'.toNat) := if_pos (h c List.mem_cons_self)
    rw [run, step_digit hpart n hc]
    exact ih (fun c hc => h c (List.mem_cons_of_mem _ hc)) _

/-- **Digits that fit into the coefficient** are its digits. -/
theorem run_whole {cs : List Char} {m : Nat} : ∀ n : NumberDraft, n.wideWhole = false →
    readDigits word64 n.coefficient cs = .ok m →
    run .whole n cs = some (.whole, { n with coefficient := m }) := by
  induction cs with
  | nil =>
    intro n _ h
    cases h
    rfl
  | cons c cs ih =>
    intro n hn h
    obtain ⟨d, hc, hfits, h⟩ := Text.readDigits_cons_ok h
    have hwhole : n.whole d = { n with coefficient := n.coefficient * 10 + d } := by
      unfold whole
      rw [hn, Bool.false_or, if_neg (by simpa using hfits)]
    rw [run, step_digit rfl n hc]
    show run .whole (n.whole d) cs = _
    rw [hwhole]
    exact ih _ hn h

/-- **Digits behind the point that fit into the coefficient** are its digits, and each of them
takes it to the next lower power of ten. -/
theorem run_fraction {cs : List Char} {m : Nat} : ∀ n : NumberDraft, n.wideFraction = false →
    readDigits word64 n.coefficient cs = .ok m →
    run .fraction n cs
      = some (.fraction, { n with coefficient := m, scale := n.scale - cs.length }) := by
  induction cs with
  | nil =>
    intro n _ h
    cases h
    show some (NumberPart.fraction, n) = _
    rw [List.length_nil, Int.natCast_zero, Int.sub_zero]
  | cons c cs ih =>
    intro n hn h
    obtain ⟨d, hc, hfits, h⟩ := Text.readDigits_cons_ok h
    have hfraction : n.fraction d
        = { n with coefficient := n.coefficient * 10 + d, scale := n.scale - 1 } := by
      unfold fraction
      rw [hn, Bool.false_or, if_neg (by simpa using hfits)]
    have hscale : n.scale - ((c :: cs).length : Int) = n.scale - 1 - cs.length := by
      rw [List.length_cons]
      omega
    rw [run, step_digit rfl n hc]
    show run .fraction (n.fraction d) cs = _
    rw [hfraction, hscale]
    exact ih _ hn h

/-! ## Whole numbers -/

/-- The first digit of a number, which is no zero. -/
theorem step_lead {negative : Bool} {d : Nat} (hd : 0 < d) (hd' : d < 10) :
    (start negative).step .sign (Nat.digitChar d) = .goes .whole ((start negative).whole d) := by
  unfold step
  rw [Text.digit?_digitChar hd']
  cases d with
  | zero => exact absurd hd (Nat.lt_irrefl 0)
  | succ d => rfl

/-- **Digits behind the sign**, whatever the size of their number: the machine is behind a whole
part. -/
theorem run_leading (negative : Bool) {cs : List Char} (hlead : Lead cs)
    (h : ∀ c ∈ cs, c.isDigit) : ∃ part n', (part = .zero ∨ part = .whole) ∧
      run .sign (.start negative) cs = some (part, n') := by
  obtain rfl | ⟨d, rest, hd, hd', rfl⟩ := hlead
  · exact ⟨.zero, .start negative, .inl rfl, rfl⟩
  · rw [run, step_lead hd hd']
    exact ⟨.whole, _, .inr rfl, run_digits rfl (fun c hc => h c (List.mem_cons_of_mem _ hc)) _⟩

/-- **Digits behind the sign that fit into the coefficient** are its digits, when no zero leads
them. -/
theorem run_lead (negative : Bool) {cs : List Char} {m : Nat}
    (hlead : Lead cs) (h : readDigits word64 0 cs = .ok m) :
    ∃ part, (part = .zero ∨ part = .whole) ∧
      run .sign (.start negative) cs = some (part, { start negative with coefficient := m }) := by
  obtain rfl | ⟨d, rest, hd, hd', rfl⟩ := hlead
  · cases h
    exact ⟨.zero, .inl rfl, rfl⟩
  · refine ⟨.whole, .inr rfl, ?_⟩
    obtain ⟨d', hread, hfits, h⟩ := Text.readDigits_cons_ok h
    obtain rfl : d = d' := Option.some.inj ((Text.digit?_digitChar hd').symm.trans hread)
    have hwhole : (start negative).whole d = { start negative with coefficient := 0 * 10 + d } := by
      unfold whole
      rw [if_neg (by simpa [start] using hfits)]
      rfl
    rw [run, step_lead hd hd', hwhole]
    exact run_whole _ rfl h

/-- **The digits of a number of 64 bits behind the sign** are its coefficient. -/
theorem run_toDigits_of_le (negative : Bool) {n : Nat} (hn : n ≤ word64) :
    ∃ part, (part = .zero ∨ part = .whole) ∧
      run .sign (.start negative) (Nat.toDigits 10 n)
        = some (part, { start negative with coefficient := n }) :=
  run_lead negative (lead_toDigits n) ((Text.readDigits_toDigits word64 n).trans (if_pos hn))

/-- **A number of 64 bits without a sign** is read as itself. -/
theorem numberOf_digits {n : Nat} (h : n ≤ word64) :
    numberOf false (Nat.toDigits 10 n) = some (.integer n) := by
  obtain ⟨part, -, hrun⟩ := run_toDigits_of_le false h
  unfold numberOf
  rw [hrun]
  rfl

/-! ## Decimals -/

theorem step_point {part : NumberPart} (hpart : part = .zero ∨ part = .whole) (n : NumberDraft) :
    n.step part '.' = .goes .point { n with broken := true } := by
  obtain rfl | rfl := hpart <;> rfl

/-- **Digits right behind the point**, of which there is one at least. -/
theorem run_point {cs : List Char} (hne : cs ≠ []) (h : ∀ c ∈ cs, c.isDigit) (n : NumberDraft) :
    ∃ n', run .point n cs = some (.fraction, n') := by
  cases cs with
  | nil => exact absurd rfl hne
  | cons c cs =>
    have hc : digit? c = some (c.toNat - '0'.toNat) := if_pos (h c List.mem_cons_self)
    have hstep : n.step .point c = .goes .fraction (n.fraction (c.toNat - '0'.toNat)) := by
      unfold step
      rw [hc]
    rw [run, hstep]
    exact ⟨_, run_digits rfl (fun c hc => h c (List.mem_cons_of_mem _ hc)) _⟩

/-- **Digits before a point and behind it that fit into the coefficient** are its digits, and those
behind the point say which power of ten it is taken times. -/
theorem run_decimal (negative : Bool) {whole fraction : List Char} {m : Nat}
    (hdigits : Decimal.Digits whole fraction)
    (h : readDigits word64 0 (whole ++ fraction) = .ok m) :
    run .sign (.start negative) (whole ++ '.' :: fraction) = some (.fraction, { start negative with
      coefficient := m, scale := -(fraction.length : Int), broken := true }) := by
  rw [Text.readDigits_append] at h
  obtain ⟨w, hwhole, hfraction⟩ := bind_eq_ok h
  obtain ⟨part, hpart, hrun⟩ := run_lead negative hdigits.lead hwhole
  have hbehind : ∀ n : NumberDraft, run .point n fraction = run .fraction n fraction := by
    intro n
    cases hfraction : fraction with
    | nil => exact absurd hfraction hdigits.behind
    | cons c cs =>
      have hc : c.isDigit = true :=
        hdigits.digits c (List.mem_append_right _ (hfraction ▸ List.mem_cons_self))
      have hvalue : digit? c = some (c.toNat - '0'.toNat) := if_pos hc
      unfold run step
      rw [hvalue]
  rw [run_append_of hrun, run, step_point hpart]
  dsimp only
  rw [hbehind, run_fraction _ rfl hfraction]
  simp only [start, Int.zero_sub]

/-- **The value of digits before a point and behind it**: a whole number over a power of ten,
both of them rounded to doubles. -/
theorem numberOf_decimal (negative : Bool) {whole fraction : List Char} {m : Nat}
    (hdigits : Decimal.Digits whole fraction) (hlength : fraction.length ≤ 308)
    (h : readDigits word64 0 (whole ++ fraction) = .ok m) :
    numberOf negative (whole ++ '.' :: fraction) = some (.real (Decimal.negate negative
      (Float.ofNat m / Decimal.nearest 1 fraction.length))) := by
  have hpos : 0 < fraction.length := List.length_pos_iff.mpr hdigits.behind
  have hscaled : ∀ x steps, scaled x (-(fraction.length : Int)) (steps + 1)
      = some (x / Decimal.nearest 1 fraction.length) := by
    intro x steps
    rw [scaled, if_pos (by omega), Int.natAbs_neg, Int.natAbs_natCast]
    exact if_pos (by omega)
  unfold numberOf
  rw [run_decimal negative hdigits h]
  show value _ = _
  simp only [value, start, Bool.not_true, Bool.false_and, Bool.false_eq_true, if_false,
    Nat.not_lt_zero, Int.natCast_zero, Int.add_zero, hscaled]
  rfl

/-- **An exponent**, behind digits. -/
theorem run_mark {part : NumberPart} (hpart : part = .whole ∨ part = .fraction) (n : NumberDraft)
    (sign : Bool) (e : Nat) :
    ∃ n', run part n ('e' :: (if sign then '-' else '+') :: Nat.toDigits 10 e)
      = some (.exponent, n') := by
  have hmark : ∃ n', n.step part 'e' = .goes .mark n' := by
    obtain rfl | rfl := hpart <;> exact ⟨_, rfl⟩
  have hsign : ∀ n : NumberDraft, ∃ n',
      n.step .mark (if sign then '-' else '+') = .goes .exponentSign n' := by
    intro n
    cases sign <;> exact ⟨_, rfl⟩
  have hexponent : ∀ n : NumberDraft, ∃ n',
      run .exponentSign n (Nat.toDigits 10 e) = some (.exponent, n') := by
    intro n
    cases hcs : Nat.toDigits 10 e with
    | nil => exact absurd hcs Nat.toDigits_ne_nil
    | cons c cs =>
      have hdigits : ∀ c' ∈ c :: cs, c'.isDigit := fun c' hc' => isDigit_of_mem (hcs ▸ hc')
      have hc : digit? c = some (c.toNat - '0'.toNat) :=
        if_pos (hdigits c List.mem_cons_self)
      have hstep : n.step .exponentSign c
          = .goes .exponent (n.exponentDigit (c.toNat - '0'.toNat)) := by
        unfold step
        rw [hc]
      rw [run, hstep]
      exact ⟨_, run_digits rfl (fun c hc => hdigits c (List.mem_cons_of_mem _ hc)) _⟩
  obtain ⟨n₁, hmark⟩ := hmark
  obtain ⟨n₂, hsign⟩ := hsign n₁
  rw [run, hmark]
  show ∃ n', run .mark n₁ _ = _
  rw [run, hsign]
  exact hexponent n₂

/-- **A decimal that is written plainly is a number**, when it has no zeroes behind a zero. -/
theorem run_plainDigits (negative : Bool) {c : Nat} {e : Int} (h : c = 0 → e ≤ 0) :
    ∃ n', run .sign (.start negative) (Decimal.plainDigits true (Decimal.digits c) e)
      = some (.fraction, n') := by
  obtain ⟨whole, fraction, hplain⟩ := Decimal.exists_plain h
  have hdigits := hplain.digits.digits
  obtain ⟨part, n', hpart, hrun⟩ := run_leading negative hplain.digits.lead
    fun c hc => hdigits c (List.mem_append_left _ hc)
  rw [hplain.text, run_append_of hrun, run, step_point hpart]
  exact run_point hplain.digits.behind (fun c hc => hdigits c (List.mem_append_right _ hc)) _

/-- **A decimal that is written with an exponent is a number**, when it is positive. -/
theorem run_exponentDigits (negative : Bool) {c : Nat} (hc : 0 < c) (lead : Int) :
    ∃ n', run .sign (.start negative) (Decimal.exponentDigits (Decimal.digits c) lead)
      = some (.exponent, n') := by
  obtain ⟨d, rest, hd, hd', hcs⟩ := exists_lead hc
  have hdigits : ∀ z ∈ rest, z.isDigit := fun z hz =>
    isDigit_of_mem (hcs ▸ List.mem_cons_of_mem _ hz)
  have hfirst : run .sign (.start negative) [Nat.digitChar d]
      = some (.whole, (start negative).whole d) := by
    rw [run, step_lead hd hd']
    rfl
  have hmark := fun part hpart n => @run_mark part hpart n (decide (lead < 0)) lead.natAbs
  simp only [decide_eq_true_eq] at hmark
  change Decimal.digits c = _ at hcs
  rw [hcs]
  cases rest with
  | nil =>
    obtain ⟨n', hn'⟩ := hmark .whole (.inl rfl) ((start negative).whole d)
    exact ⟨n', (run_append_of hfirst _).trans hn'⟩
  | cons d' rest =>
    obtain ⟨n₁, hn₁⟩ := run_point (List.cons_ne_nil d' rest) hdigits
      { (start negative).whole d with broken := true }
    obtain ⟨n₂, hn₂⟩ := hmark .fraction (.inr rfl) n₁
    refine ⟨n₂, (run_append_of hfirst _).trans ?_⟩
    show run .point { (start negative).whole d with broken := true } ((d' :: rest) ++ _) = _
    exact (run_append_of hn₁ _).trans hn₂

/-- **A decimal in the style of JSON is a number**, when it has no zeroes behind a zero. -/
theorem run_point_jsonStyle (negative : Bool) {p : Decimal.Point}
    (h : p.coefficient = 0 → p.exponent ≤ 0) :
    ∃ part n', part.mayEnd = true ∧
      run .sign (.start negative) (Decimal.jsonStyle.point p) = some (part, n') := by
  have hpoint : Decimal.jsonStyle.point p
      = Decimal.plainDigits true (Decimal.digits p.coefficient) p.exponent ∨
      (0 < p.coefficient ∧ Decimal.jsonStyle.point p
        = Decimal.exponentDigits (Decimal.digits p.coefficient)
            (p.exponent + (Decimal.digits p.coefficient).length - 1)) := by
    unfold Decimal.Style.point
    dsimp only [Decimal.jsonStyle]
    split
    · exact .inl rfl
    · next hplain =>
      refine .inr ⟨Nat.pos_of_ne_zero fun hc => hplain ?_, rfl⟩
      rw [hc]
      rfl
  obtain heq | ⟨hc, heq⟩ := hpoint
  · obtain ⟨n', hn'⟩ := run_plainDigits negative h
    exact ⟨.fraction, n', rfl, by rw [heq, hn']⟩
  · obtain ⟨n', hn'⟩ := run_exponentDigits negative hc
      (p.exponent + (Decimal.digits p.coefficient).length - 1)
    exact ⟨.exponent, n', rfl, by rw [heq, hn']⟩

end NumberDraft

/-! ## Tokens -/

/-- **Characters of a number**, to the machine. -/
theorem tokensFrom_run {part part' : NumberPart} {n n' : NumberDraft} {cs : List Char}
    (h : n.run part cs = some (part', n')) (rest : List Char) :
    tokensFrom (.number part n) (cs ++ rest) = tokensFrom (.number part' n') rest := by
  induction cs generalizing part n with
  | nil =>
    cases h
    rfl
  | cons c cs ih =>
    rw [NumberDraft.run] at h
    cases hstep : n.step part c with
    | goes part n =>
      rw [hstep] at h
      simp only [List.cons_append, tokensFrom, Lexer.step, hstep]
      exact ih h
    | ends =>
      rw [hstep] at h
      cases h
    | bad =>
      rw [hstep] at h
      cases h

/-- **A number has ended** where nothing comes that goes on with one. -/
theorem tokensFrom_stops {part : NumberPart} (hpart : part.mayEnd) (n : NumberDraft)
    {rest : List Char} (h : Stops rest) :
    tokensFrom (.number part n) rest = .number n.value :: tokensFrom .between rest := by
  cases rest with
  | nil =>
    show (if part.mayEnd then [Token.number n.value] else [.junk]) = _
    rw [if_pos hpart]
    rfl
  | cons c rest =>
    have hends : n.step part c = .ends := by
      obtain rfl | rfl | rfl | rfl := h <;> cases part <;> first | rfl | cases hpart
    simp only [tokensFrom, Lexer.step, hends, List.cons_append]

/-- A number without a sign begins with a digit. -/
theorem tokensFrom_between_digit {c : Char} {d : Nat} (h : digit? c = some d) (rest : List Char) :
    tokensFrom .between (c :: rest) = tokensFrom (.number .sign (.start false)) (c :: rest) := by
  have hgoes : ∃ part n, (NumberDraft.start false).step .sign c = .goes part n := by
    unfold NumberDraft.step
    rw [h]
    cases d with
    | zero => exact ⟨_, _, rfl⟩
    | succ d => exact ⟨_, _, rfl⟩
  obtain ⟨part, n, hgoes⟩ := hgoes
  have hstart : Lexer.start c = ([], .number part n) := by
    -- what begins another token is no digit
    unfold Lexer.start
    split <;> first | exact absurd (Option.isSome_of_eq_some h) (by decide) | simp only [hgoes]
  simp only [tokensFrom, Lexer.step, hgoes, hstart]

/-- **A number is one token.** -/
theorem tokensFrom_numeral {negative : Bool} {cs : List Char} {part : NumberPart}
    {n : NumberDraft} (h : NumberDraft.run .sign (.start negative) cs = some (part, n))
    (hpart : part.mayEnd) {rest : List Char} (hrest : Stops rest) :
    tokensFrom .between ((if negative then '-' :: cs else cs) ++ rest)
      = .number (NumberDraft.numberOf negative cs) :: tokensFrom .between rest := by
  have hvalue : NumberDraft.numberOf negative cs = n.value := by
    unfold NumberDraft.numberOf
    rw [h]
    rfl
  rw [hvalue, ← tokensFrom_stops hpart n hrest, ← tokensFrom_run h rest]
  cases negative with
  | true => rfl
  | false =>
    cases cs with
    | nil =>
      cases h
      cases hpart
    | cons c cs =>
      cases hc : digit? c with
      | some d => exact tokensFrom_between_digit hc (cs ++ rest)
      | none =>
        rw [NumberDraft.run] at h
        unfold NumberDraft.step at h
        rw [hc] at h
        cases h

/-- **What a number is read as when it has been written**: the number that its characters
make, and nothing for a double without any. -/
def reread : Number → Token
  | .integer n => .number (NumberDraft.numberOf (n < 0) (Nat.toDigits 10 n.natAbs))
  | .real x =>
    match Decimal.magnitude x with
    | .finite m q =>
      .number (NumberDraft.numberOf (Decimal.isNegative x)
        (Decimal.jsonStyle.point (Decimal.shortest m q)))
    | _ => .null

theorem tokensFrom_null (rest : List Char) :
    tokensFrom .between ("null".toList ++ rest) = .null :: tokensFrom .between rest :=
  rfl

/-- **A number that is written is one token.** -/
theorem tokensFrom_number (n : Number) {rest : List Char} (h : Stops rest) :
    tokensFrom .between (number n ++ rest) = reread n :: tokensFrom .between rest := by
  cases n with
  | integer n =>
    obtain ⟨part, n', hpart, hrun⟩ := NumberDraft.run_leading (n < 0)
      (lead_toDigits n.natAbs) fun _ hc => isDigit_of_mem hc
    have hend : part.mayEnd = true := by obtain rfl | rfl := hpart <;> rfl
    show tokensFrom .between ((toString n).toList ++ rest) = _
    rw [toList_toString_int]
    exact tokensFrom_numeral hrun hend h
  | real x =>
    show tokensFrom .between ((Decimal.jsonStyle.write x).toList ++ rest) = _
    cases hm : Decimal.magnitude x with
    | nan =>
      simp only [Decimal.Style.write, reread, hm]
      exact tokensFrom_null rest
    | infinite =>
      simp only [Decimal.Style.write, reread, hm]
      exact tokensFrom_null rest
    | finite m q =>
      have hzero (h : (Decimal.shortest m q).coefficient = 0) := Decimal.exponent_shortest_of_zero h
      obtain ⟨part, n', hend, hrun⟩ :=
        NumberDraft.run_point_jsonStyle (Decimal.isNegative x) hzero
      rw [Decimal.toList_write hm]
      simp only [reread, hm]
      exact tokensFrom_numeral hrun hend h

/-- **A whole number of 64 bits, with a sign or without, is read as itself.** -/
theorem reread_integer {n : Int} (hlow : -0x8000000000000000 ≤ n) (hhigh : n ≤ word64) :
    reread (.integer n) = .number (some (.integer n)) := by
  have hword : (word64 : Int) = 0xFFFFFFFFFFFFFFFF := rfl
  show Token.number (NumberDraft.numberOf (decide (n < 0)) (Nat.toDigits 10 n.natAbs)) = _
  by_cases hn : n < 0
  · obtain ⟨part, -, hrun⟩ := NumberDraft.run_toDigits_of_le true
      (show n.natAbs ≤ word64 by omega)
    rw [decide_eq_true hn]
    unfold NumberDraft.numberOf
    rw [hrun]
    show Token.number (NumberDraft.value _) = _
    unfold NumberDraft.value
    have hsmall : (decide (0 < n.natAbs) && decide (n.natAbs ≤ 0x8000000000000000)) = true := by
      rw [Bool.and_eq_true, decide_eq_true_iff, decide_eq_true_iff]
      omega
    simp only [NumberDraft.start, Bool.not_false, Bool.not_true, Bool.and_false, Bool.and_true,
      Bool.false_eq_true, if_false, Bool.true_and, hsmall, if_true]
    rw [show (-(n.natAbs : Int)) = n by omega]
  · rw [decide_eq_false hn, NumberDraft.numberOf_digits (show n.natAbs ≤ word64 by omega),
      show (n.natAbs : Int) = n by omega]

end Courier.Json
