import Courier.Proofs.Json.Quote
import Courier.Toml.Printer
import Courier.Toml.Reader
import Mathlib.Data.List.TakeDrop
import Mathlib.Tactic.SplitIfs
/-!
# A text in quotes is read as itself

A text is written in one of four kinds of quotes, and a key in one of two or in none.
Whichever it is, the characters that are read are those of the text, and what follows
the closing quotes follows the text (`quoted?_text`, `simpleKey_key`).

Over several lines, quotes in the text stand beside the closing ones. They are told
apart by how many stand together: never more than two do within the text, and the
reader takes the last three of those at its end for the closing ones. `Written` keeps
count of the quotes that may still follow.
-/

namespace Courier.Toml

open Courier.Text (hexValue?)

/-! ## Characters behind a backslash -/

theorem escape_letter {letter c : Char} (h : announced? letter = none)
    (hc : escaped? letter = some c) (rest : List Char) :
    escape (letter :: rest) = some (c, rest) := by
  simp only [escape, h, hc, Option.map_some]

/-- Digits in base sixteen are read one after another. -/
theorem hexRun_of_values {ds : List Char} {vs : List Nat} (h : ds.mapM hexValue? = some vs)
    (rest : List Char) : ∀ value, hexRun ds.length value (ds ++ rest)
      = some (vs.foldl (fun n d => n * 16 + d) value, rest) := by
  induction ds generalizing vs with
  | nil =>
    cases h
    exact fun _ => rfl
  | cons c ds ih =>
    intro value
    rw [List.mapM_cons] at h
    obtain ⟨v, hv, h⟩ := Option.bind_eq_some_iff.mp h
    obtain ⟨vs, hvs, h⟩ := Option.bind_eq_some_iff.mp h
    cases h
    simp only [List.length_cons, List.cons_append, hexRun, hv, ih hvs, List.foldl_cons]

theorem values_unitDigits : ∀ n, n < 0x80 → (unitDigits n).length = 4 ∧
    (unitDigits n).mapM hexValue? = some [0, 0, n / 16, n % 16] := by
  decide

/-- **The digits of a character of seven bits are read as it.** -/
theorem escape_unitDigits {c : Char} (h : c.toNat < 0x80) (rest : List Char) :
    escape ('u' :: (unitDigits c.toNat ++ rest)) = some (c, rest) := by
  obtain ⟨hlength, hvalues⟩ := values_unitDigits c.toNat h
  have hrun := hexRun_of_values hvalues rest 0
  have hvalue : [0, 0, c.toNat / 16, c.toNat % 16].foldl (fun n d => n * 16 + d) 0 = c.toNat := by
    simp only [List.foldl_cons, List.foldl_nil]
    omega
  rw [hlength, hvalue] at hrun
  have hvalid : c.toNat.isValidChar := Or.inl (by omega)
  show codePoint 4 (unitDigits c.toNat ++ rest) = _
  simp only [codePoint, hrun, if_pos hvalid, Char.ofNat_toNat]

/-- A line goes on behind a backslash only where there is nothing but blank space. -/
theorem continued?_cons {c : Char} (rest : List Char)
    (h : ¬(c = ' ' ∨ c = '\t' ∨ c = '\n' ∨ c = '\r')) : continued? (c :: rest) = none := by
  simp only [not_or] at h
  obtain ⟨hspace, htab, hline, hreturn⟩ := h
  have hnewline : newline? (c :: rest) = none := by
    unfold newline?
    split
    · next heq => exact absurd (List.cons.inj heq).1 hline
    · next heq => exact absurd (List.cons.inj heq).1 hreturn
    · rfl
  have hdrop : (c :: rest).dropWhile (fun c => c = ' ' || c = '\t') = c :: rest := by
    rw [List.dropWhile_cons_of_neg]
    simp [hspace, htab]
  rw [continued?, hdrop, hnewline]
  rfl

theorem isVisible_ne {c : Char} (h : isVisible c = true) : c ≠ '\n' ∧ c ≠ '\r' := by
  constructor <;> (rintro rfl; exact absurd h (by decide))

/-- A character that need not be escaped is visible or ends a line. -/
theorem isVisible_of_plain {c : Char} (h : isEscaped c = false) :
    isVisible c = true ∨ c = '\n' := by
  by_cases hline : c = '\n'
  · exact .inr hline
  · unfold isEscaped at h
    unfold isVisible
    simp only [Bool.or_eq_false_iff, Bool.and_eq_false_iff, ne_eq, decide_eq_false_iff_not,
      Decidable.not_not] at h
    simp only [Bool.or_eq_true, Bool.and_eq_true, decide_eq_true_eq]
    obtain ⟨hcontrol, hdelete⟩ := h
    refine .inl ?_
    obtain (hlt | htab) | hline' := hcontrol
    · exact .inr ⟨Nat.not_lt.mp hlt, hdelete⟩
    · exact .inl htab
    · exact absurd hline' hline

/-- **How a character other than a quote is written** between double quotes: by an escape, or
as itself. -/
theorem escapeChar_cases (block : Bool) {c : Char} :
    (∃ d u, escapeChar block c = '\\' :: d :: u ∧ ¬(d = ' ' ∨ d = '\t' ∨ d = '\n' ∨ d = '\r') ∧
      ∀ t, escape (d :: (u ++ t)) = some (c, t)) ∨
    (escapeChar block c = [c] ∧ c ≠ '\\' ∧ (isVisible c = true ∨ (block = true ∧ c = '\n'))) := by
  unfold escapeChar
  split
  · exact .inl ⟨'b', [], rfl, by decide, escape_letter rfl rfl⟩
  · exact .inl ⟨'t', [], rfl, by decide, escape_letter rfl rfl⟩
  · cases block with
    | true => exact .inr ⟨rfl, by decide, .inr ⟨rfl, rfl⟩⟩
    | false => exact .inl ⟨'n', [], rfl, by decide, escape_letter rfl rfl⟩
  · exact .inl ⟨'f', [], rfl, by decide, escape_letter rfl rfl⟩
  · exact .inl ⟨'r', [], rfl, by decide, escape_letter rfl rfl⟩
  · exact .inl ⟨'\\', [], rfl, by decide, escape_letter rfl rfl⟩
  · next _ _ hline _ _ hbackslash =>
    split
    · next hescaped =>
      have hlt : c.toNat < 0x80 := by
        unfold isEscaped at hescaped
        simp only [Bool.or_eq_true, Bool.and_eq_true, decide_eq_true_eq] at hescaped
        omega
      exact .inl ⟨'u', unitDigits c.toNat, rfl, by decide, escape_unitDigits hlt⟩
    · next hescaped =>
      obtain hvisible | heq := isVisible_of_plain (Bool.eq_false_iff.mpr hescaped)
      · exact .inr ⟨rfl, hbackslash, .inl hvisible⟩
      · exact absurd heq hline

/-! ## On one line -/

/-- An escape is read as its character. -/
theorem basic_escape {c : Char} {s rest : List Char} (h : escape s = some (c, rest)) :
    basic ('\\' :: s) = before c (basic rest) := by
  rw [basic]
  split
  · next heq =>
    cases h.symm.trans heq
    rfl
  · next heq => cases h.symm.trans heq

theorem basic_visible {c : Char} (hquote : c ≠ '"') (hbackslash : c ≠ '\\')
    (h : isVisible c = true) (rest : List Char) : basic (c :: rest) = before c (basic rest) := by
  rw [basic.eq_4 c rest hquote hbackslash]
  exact if_pos h

/-- **A text in double quotes on one line is read as itself.** -/
theorem basic_escapeAll (rest s : List Char) : ∀ run,
    basic (escapeAll false 0 run s ++ '"' :: rest) = some (s, rest) := by
  induction s with
  | nil =>
    intro run
    rw [escapeAll, List.nil_append, basic]
  | cons c s ih =>
    intro run
    rw [escapeAll]
    split_ifs with hc hrun
    · exact absurd hrun (Nat.not_lt_zero run)
    · rw [List.cons_append, List.cons_append, basic_escape (escape_letter rfl rfl _), ih, hc]
      rfl
    · rw [List.append_assoc]
      obtain ⟨d, u, heq, -, hescape⟩ | ⟨heq, hbackslash, hvisible⟩ := escapeChar_cases false (c := c)
      · rw [heq, List.cons_append, List.cons_append, basic_escape (hescape _), ih]
        rfl
      · obtain hvisible | ⟨⟨⟩, -⟩ := hvisible
        rw [heq, List.singleton_append, basic_visible hc hbackslash hvisible, ih]
        rfl

/-- **A text in single quotes on one line is read as itself.** -/
theorem raw_append {s : List Char} (rest : List Char)
    (h : ∀ c ∈ s, c ≠ '\x27' ∧ isVisible c = true) : raw (s ++ '\x27' :: rest) = some (s, rest) := by
  induction s with
  | nil => rfl
  | cons c s ih =>
    obtain ⟨hquote, hvisible⟩ := h c List.mem_cons_self
    rw [List.cons_append, raw.eq_3 c _ hquote, if_pos hvisible,
      ih fun d hd => h d (List.mem_cons_of_mem _ hd)]
    rfl

/-! ## Over several lines -/

section

variable {quote : Char} {escapes : Bool}

/-- **How a text is written over several lines**, up to the closing quotes. So many quotes may
still stand together at its beginning, and two behind every other character. -/
inductive Written (quote : Char) (escapes : Bool) : (room : Nat) → List Char → List Char → Prop
  /-- Nothing. -/
  | nil (room : Nat) : Written quote escapes room [] []
  /-- A quote. -/
  | quote {room : Nat} {w s : List Char} : Written quote escapes room w s →
      Written quote escapes (room + 1) (quote :: w) (quote :: s)
  /-- Another character, which is read whatever follows. -/
  | char {room : Nat} {c d : Char} {u w s : List Char} : d ≠ quote →
      (∀ t, block quote escapes (d :: (u ++ t)) = before c (block quote escapes t)) →
      Written quote escapes 2 w s → Written quote escapes room (d :: (u ++ w)) (c :: s)

/-- A run of quotes ends at another character. -/
theorem runOf_cons_of_ne {d : Char} (rest : List Char) (h : d ≠ quote) :
    runOf quote (d :: rest) = 0 := by
  unfold runOf
  rw [List.takeWhile_cons_of_neg (by simpa using h)]
  rfl

/-- A quote makes a run longer. -/
theorem runOf_cons_self (rest : List Char) :
    runOf quote (quote :: rest) = runOf quote rest + 1 := by
  unfold runOf
  rw [List.takeWhile_cons_of_pos (by simp)]
  rfl

/-- **A text is all quotes, or the run of quotes at its beginning ends within it.** -/
theorem Written.leading {room : Nat} {w s : List Char} (h : Written quote escapes room w s) :
    (∃ j, j ≤ room ∧ w = List.replicate j quote ∧ s = List.replicate j quote) ∨
    ∀ t, runOf quote (w ++ t) ≤ room := by
  induction h with
  | nil room => exact .inl ⟨0, Nat.zero_le room, rfl, rfl⟩
  | quote _ ih =>
    obtain ⟨j, hj, rfl, rfl⟩ | ih := ih
    · exact .inl ⟨j + 1, Nat.succ_le_succ hj, rfl, rfl⟩
    · refine .inr fun t => ?_
      rw [List.cons_append, runOf_cons_self]
      exact Nat.succ_le_succ (ih t)
  | char hd _ _ _ =>
    refine .inr fun t => ?_
    rw [List.cons_append, runOf_cons_of_ne _ hd]
    exact Nat.zero_le _

/-- The quotes at the end of a text, and the closing ones behind them. -/
theorem block_replicate {rest : List Char} (hrest : runOf quote rest = 0) {j : Nat} (hj : j ≤ 2) :
    block quote escapes (List.replicate j quote ++ quote :: quote :: quote :: rest)
      = some (List.replicate j quote, rest) := by
  have hall : List.replicate j quote ++ quote :: quote :: quote :: rest
      = List.replicate (j + 3) quote ++ rest := by
    rw [← List.replicate_append_replicate, List.append_assoc]
    rfl
  have hrun : ∀ n, runOf quote (List.replicate n quote ++ rest) = n := by
    intro n
    induction n with
    | zero => exact hrest
    | succ n ih => rw [List.replicate_succ, List.cons_append, runOf_cons_self, ih]
  have hcons : List.replicate (j + 3) quote ++ rest
      = quote :: (List.replicate (j + 2) quote ++ rest) := rfl
  have hmin : min (j + 3) 5 - 3 = j := by omega
  have hdrop : (List.replicate (j + 3) quote ++ rest).drop (j + 3) = rest :=
    List.drop_left' List.length_replicate
  rw [hall, hcons, block, ← hcons, hrun (j + 3)]
  simp only [hmin, hdrop]
  exact if_pos (by omega)

/-- **A text over several lines is read as itself**, up to the closing quotes. -/
theorem Written.read {room : Nat} {w s rest : List Char} (h : Written quote escapes room w s)
    (hroom : room ≤ 2) (hrest : runOf quote rest = 0) :
    block quote escapes (w ++ quote :: quote :: quote :: rest) = some (s, rest) := by
  induction h with
  | nil => exact block_replicate hrest (Nat.zero_le 2)
  | @quote room w s h ih =>
    obtain ⟨j, hj, rfl, rfl⟩ | hrun := h.leading
    · exact block_replicate (j := j + 1) hrest (by omega)
    · have hfew := hrun (quote :: quote :: quote :: rest)
      rw [List.cons_append, block, runOf_cons_self]
      dsimp only
      rw [if_neg (by omega), if_pos rfl, ih (by omega)]
      rfl
  | char _ hread _ ih =>
    rw [List.cons_append, List.append_assoc, hread, ih (Nat.le_refl 2)]
    rfl

end

/-- A visible character is read as itself, and so is a line feed. -/
theorem block_plain {quote : Char} {escapes : Bool} {c : Char} (hquote : c ≠ quote)
    (hbackslash : escapes = true → c ≠ '\\') (h : isVisible c = true ∨ c = '\n')
    (t : List Char) : block quote escapes (c :: t) = before c (block quote escapes t) := by
  have hescape : ¬((escapes && decide (c = '\\')) = true) := by
    simp only [Bool.and_eq_true, decide_eq_true_eq, not_and]
    exact hbackslash
  rw [block, runOf_cons_of_ne t hquote]
  dsimp only
  rw [if_neg (by decide), if_neg hquote, if_neg hescape]
  obtain hvisible | rfl := h
  · obtain ⟨hline, hreturn⟩ := isVisible_ne hvisible
    split
    · next heq =>
      unfold newline? at heq
      split at heq
      · next hc => exact absurd (List.cons.inj hc).1 hline
      · next hc => exact absurd (List.cons.inj hc).1 hreturn
      · cases heq
    · exact if_pos hvisible
  · split
    · next heq =>
      cases heq
      rfl
    · next heq => cases heq

/-- An escape is read as its character. -/
theorem block_escape {quote c d : Char} {s rest : List Char} (hquote : quote ≠ '\\')
    (hd : ¬(d = ' ' ∨ d = '\t' ∨ d = '\n' ∨ d = '\r')) (h : escape (d :: s) = some (c, rest)) :
    block quote true ('\\' :: d :: s) = before c (block quote true rest) := by
  rw [block, runOf_cons_of_ne _ (Ne.symm hquote)]
  dsimp only
  rw [if_neg (by decide), if_neg (Ne.symm hquote), if_pos (by decide)]
  split
  · next heq => cases (continued?_cons s hd).symm.trans heq
  · split
    · next heq =>
      cases h.symm.trans heq
      rfl
    · next heq => cases h.symm.trans heq

/-- **A text between double quotes over several lines** has its third quotes escaped. -/
theorem written_escapeAll (s : List Char) : ∀ run, run ≤ 2 →
    Written '"' true (2 - run) (escapeAll true 2 run s) s := by
  induction s with
  | nil => exact fun run _ => .nil _
  | cons c s ih =>
    intro run hrun
    rw [escapeAll]
    split_ifs with hc hmore
    · obtain rfl := hc
      have hroom : 2 - run = 2 - (run + 1) + 1 := by omega
      rw [hroom]
      exact .quote (ih (run + 1) hmore)
    · obtain rfl := hc
      exact .char (u := ['"']) (by decide)
        (fun t => block_escape (by decide) (by decide) (escape_letter rfl rfl t))
        (ih 0 (Nat.zero_le 2))
    · obtain ⟨d, u, heq, hd, hescape⟩ | ⟨heq, hbackslash, hplain⟩ := escapeChar_cases true (c := c)
      · rw [heq]
        exact .char (u := d :: u) (by decide)
          (fun t => block_escape (by decide) hd (hescape t)) (ih 0 (Nat.zero_le 2))
      · rw [heq]
        exact .char (u := []) hc
          (fun t => block_plain hc (fun _ => hbackslash) (hplain.imp id And.right) t)
          (ih 0 (Nat.zero_le 2))

/-- The longest run only gets longer. -/
theorem le_longestRun (c : Char) (s : List Char) :
    ∀ current best, best ≤ longestRun c current best s := by
  induction s with
  | nil => exact fun _ best => Nat.le_refl best
  | cons d s ih =>
    intro current best
    rw [longestRun]
    split
    · exact Nat.le_trans (Nat.le_max_left best (current + 1)) (ih _ _)
    · exact ih 0 best

/-- A text without runs of a character does not have it. -/
theorem ne_of_longestRun {c : Char} {s : List Char} : ∀ {current best : Nat},
    longestRun c current best s = 0 → ∀ d ∈ s, d ≠ c := by
  induction s with
  | nil => exact fun _ _ hd => absurd hd List.not_mem_nil
  | cons e s ih =>
    intro current best h d hd
    rw [longestRun] at h
    split at h
    · have hle := le_longestRun c s (current + 1) (max best (current + 1))
      omega
    · next hne =>
      obtain rfl | hd := List.mem_cons.mp hd
      · exact hne
      · exact ih h d hd

/-- **A text between single quotes over several lines** is written as it is. -/
theorem written_raw (s : List Char) : ∀ current best, longestRun '\x27' current best s ≤ 2 →
    current ≤ 2 → (∀ c ∈ s, isEscaped c = false) → Written '\x27' false (2 - current) s s := by
  induction s with
  | nil => exact fun current _ _ _ _ => .nil _
  | cons c s ih =>
    intro current best h hcurrent hplain
    have hrest : ∀ d ∈ s, isEscaped d = false := fun d hd => hplain d (List.mem_cons_of_mem _ hd)
    rw [longestRun] at h
    split at h
    · next hc =>
      obtain rfl := hc
      have hle := le_longestRun '\x27' s (current + 1) (max best (current + 1))
      have hroom : 2 - current = 2 - (current + 1) + 1 := by omega
      rw [hroom]
      exact .quote (ih (current + 1) _ h (by omega) hrest)
    · next hc =>
      have hread : ∀ t, block '\x27' false (c :: t) = before c (block '\x27' false t) :=
        block_plain hc (fun h => nomatch h) (isVisible_of_plain (hplain c List.mem_cons_self))
      exact .char (u := []) hc hread (ih 0 best h (Nat.zero_le 2) hrest)

/-! ## Whichever quotes -/

/-- What follows a text begins with no quote. -/
structure NoQuote (rest : List Char) : Prop where
  /-- No double quote. -/
  double : runOf '"' rest = 0
  /-- No single quote. -/
  single : runOf '\x27' rest = 0

theorem NoQuote.cons {c : Char} (rest : List Char) (hdouble : c ≠ '"') (hsingle : c ≠ '\x27') :
    NoQuote (c :: rest) :=
  ⟨runOf_cons_of_ne rest hdouble, runOf_cons_of_ne rest hsingle⟩

/-- A text is in single quotes on one line only where nothing stands in their way. -/
theorem Traits.of_raw {t : Traits} (h : t.lineQuotes? = some .raw) :
    t.control = false ∧ t.singles = 0 ∧ t.newline = false := by
  unfold Traits.lineQuotes? at h
  split_ifs at h with _ hraw
  · cases h
  · simpa only [Bool.and_eq_true, Bool.not_eq_true', decide_eq_true_eq, and_assoc] using hraw

/-- A text that is not written on one line is in single quotes only where nothing stands in
their way. -/
theorem Traits.of_rawBlock {t : Traits} (h : t.quotes = .rawBlock) :
    t.control = false ∧ t.singles ≤ 2 := by
  unfold Traits.quotes at h
  split at h
  · next heq =>
    subst h
    unfold Traits.lineQuotes? at heq
    split_ifs at heq <;> cases heq
  · split_ifs at h with _ hraw
    simpa only [Bool.and_eq_true, Bool.not_eq_true', decide_eq_true_eq] using hraw

/-- A text that is written on one line has the quotes for one line. -/
theorem Traits.lineQuotes?_of_raw {t : Traits} (h : t.quotes = .raw) :
    t.lineQuotes? = some .raw := by
  unfold Traits.quotes at h
  split at h
  · next heq => rw [heq, h]
  · split_ifs at h

/-- The characters of a text without control characters. -/
theorem plain_of_traits {s : List Char} (h : (traits s).control = false) :
    ∀ c ∈ s, isEscaped c = false := by
  intro c hc
  exact Bool.eq_false_iff.mpr fun hescaped =>
    Bool.eq_false_iff.mp h (List.any_eq_true.mpr ⟨c, hc, hescaped⟩)

theorem ne_newline_of_traits {s : List Char} (h : (traits s).newline = false) :
    ∀ c ∈ s, c ≠ '\n' := by
  rintro c hc rfl
  exact Bool.eq_false_iff.mp h (List.contains_iff_mem.mpr hc)

/-- The characters of a text in single quotes on one line. -/
theorem visible_of_raw {s : List Char} (h : (traits s).lineQuotes? = some .raw) :
    ∀ c ∈ s, c ≠ '\x27' ∧ isVisible c = true := by
  obtain ⟨hcontrol, hsingles, hnewline⟩ := Traits.of_raw h
  intro c hc
  refine ⟨ne_of_longestRun hsingles c hc, ?_⟩
  obtain hvisible | hline := isVisible_of_plain (plain_of_traits hcontrol c hc)
  · exact hvisible
  · exact absurd hline (ne_newline_of_traits hnewline c hc)

/-- What begins with a character that ends no line does not begin with a line end. -/
theorem newline?_cons {c : Char} (rest : List Char) (hline : c ≠ '\n') (hreturn : c ≠ '\r') :
    newline? (c :: rest) = none := by
  unfold newline?
  split
  · next heq => exact absurd (List.cons.inj heq).1 hline
  · next heq => exact absurd (List.cons.inj heq).1 hreturn
  · rfl

/-- A double quote begins a text on one line unless two others follow it. -/
theorem quoted?_double {s : List Char} (h : ∀ t, s ≠ '"' :: '"' :: t) :
    quoted? ('"' :: s) = some (basic s) := by
  unfold quoted?
  split
  · next heq => exact absurd (List.cons.inj heq).2 (h _)
  · next heq => rw [(List.cons.inj heq).2]
  · next heq => cases heq
  · next heq => cases heq
  · next hdouble _ _ => exact absurd rfl (hdouble s)

/-- A single quote begins a text on one line unless two others follow it. -/
theorem quoted?_single {s : List Char} (h : ∀ t, s ≠ '\x27' :: '\x27' :: t) :
    quoted? ('\x27' :: s) = some (raw s) := by
  unfold quoted?
  split
  · next heq => cases heq
  · next heq => cases heq
  · next heq => exact absurd (List.cons.inj heq).2 (h _)
  · next heq => rw [(List.cons.inj heq).2]
  · next hsingle => exact absurd rfl (hsingle s)

/-- The first character of a text between double quotes on one line is no quote. -/
theorem escapeAll_cons_ne (c : Char) (s t rest : List Char) :
    escapeAll false 0 0 (c :: s) ++ rest ≠ '"' :: t := by
  intro h
  rw [escapeAll] at h
  split_ifs at h with hc hrun
  · exact absurd hrun (Nat.not_lt_zero 0)
  · cases h
  · obtain ⟨d, u, heq, -, -⟩ | ⟨heq, -, -⟩ := escapeChar_cases false (c := c)
    · rw [heq] at h
      cases h
    · rw [heq] at h
      exact hc (List.cons.inj h).1

section

variable {rest : List Char} (hrest : NoQuote rest)

include hrest

/-- A text in double quotes on one line is read as itself. -/
theorem quoted?_basic (newline : Bool) (s : List Char) :
    quoted? (inQuotes .basic newline s ++ rest) = some (some (s, rest)) := by
  have hopen : ∀ t, escapeAll false 0 0 s ++ '"' :: rest ≠ '"' :: '"' :: t := by
    cases s with
    | nil =>
      intro t h
      have hdouble := hrest.double
      rw [(List.cons.inj h).2, runOf_cons_self] at hdouble
      exact absurd hdouble (Nat.succ_ne_zero _)
    | cons c s => exact fun t => escapeAll_cons_ne c s _ _
  have happend : inQuotes .basic newline s ++ rest
      = '"' :: (escapeAll false 0 0 s ++ '"' :: rest) := by
    show ('"' :: escapeAll false 0 0 s ++ ['"']) ++ rest = _
    rw [List.append_assoc]
    rfl
  rw [happend, quoted?_double hopen, basic_escapeAll]

/-- A text in single quotes on one line is read as itself. -/
theorem quoted?_raw (newline : Bool) {s : List Char}
    (h : (traits s).lineQuotes? = some .raw) :
    quoted? (inQuotes .raw newline s ++ rest) = some (some (s, rest)) := by
  have hvisible := visible_of_raw h
  have hopen : ∀ t, s ++ '\x27' :: rest ≠ '\x27' :: '\x27' :: t := by
    cases s with
    | nil =>
      intro t h
      have hsingle := hrest.single
      rw [(List.cons.inj h).2, runOf_cons_self] at hsingle
      exact absurd hsingle (Nat.succ_ne_zero _)
    | cons c s => exact fun t h => (hvisible c List.mem_cons_self).1 (List.cons.inj h).1
  have happend : inQuotes .raw newline s ++ rest = '\x27' :: (s ++ '\x27' :: rest) := by
    show ('\x27' :: s ++ ['\x27']) ++ rest = _
    rw [List.append_assoc]
    rfl
  rw [happend, quoted?_single hopen, raw_append rest hvisible]

/-- A text in double quotes over several lines is read as itself. -/
theorem quoted?_basicBlock (s : List Char) :
    quoted? (inQuotes .basicBlock (traits s).newline s ++ rest) = some (some (s, rest)) := by
  have hread := (written_escapeAll s 0 (Nat.zero_le 2)).read (Nat.le_refl 2) hrest.double
  have happend : inQuotes .basicBlock (traits s).newline s ++ rest
      = '"' :: '"' :: '"' :: ((if (traits s).newline then ['\n'] else []) ++
        (escapeAll true 2 0 s ++ '"' :: '"' :: '"' :: rest)) := by
    show (((['"', '"', '"'] ++ _) ++ escapeAll true 2 0 s) ++ ['"', '"', '"']) ++ rest = _
    simp only [List.append_assoc, List.cons_append, List.nil_append]
  rw [happend]
  show some (opened '"' true _) = _
  cases hnewline : (traits s).newline with
  | true => exact congrArg some hread
  | false =>
    have hnone : newline? (escapeAll true 2 0 s ++ '"' :: '"' :: '"' :: rest) = none := by
      cases s with
      | nil => exact newline?_cons _ (by decide) (by decide)
      | cons c s =>
        rw [escapeAll]
        split_ifs with hc hmore
        · exact newline?_cons _ (by decide) (by decide)
        · exact absurd (by decide : 0 < 2) hmore
        · obtain ⟨d, u, heq, -, -⟩ | ⟨heq, -, hplain⟩ := escapeChar_cases true (c := c)
          · rw [heq]
            exact newline?_cons _ (by decide) (by decide)
          · rw [heq]
            obtain hvisible | ⟨-, rfl⟩ := hplain
            · exact newline?_cons _ (isVisible_ne hvisible).1 (isVisible_ne hvisible).2
            · exact absurd rfl (ne_newline_of_traits hnewline '\n' List.mem_cons_self)
    show some (block '"' true ((newline? _).getD _)) = _
    rw [if_neg Bool.false_ne_true, List.nil_append, hnone]
    exact congrArg some hread

/-- A text in single quotes over several lines is read as itself. -/
theorem quoted?_rawBlock {s : List Char} (h : (traits s).quotes = .rawBlock) :
    quoted? (inQuotes .rawBlock (traits s).newline s ++ rest) = some (some (s, rest)) := by
  obtain ⟨hcontrol, hsingles⟩ := Traits.of_rawBlock h
  have hplain := plain_of_traits hcontrol
  have hread := (written_raw s 0 0 hsingles (Nat.zero_le 2) hplain).read (Nat.le_refl 2)
    hrest.single
  have happend : inQuotes .rawBlock (traits s).newline s ++ rest
      = '\x27' :: '\x27' :: '\x27' :: ((if (traits s).newline then ['\n'] else []) ++
        (s ++ '\x27' :: '\x27' :: '\x27' :: rest)) := by
    show (((['\x27', '\x27', '\x27'] ++ _) ++ s) ++ ['\x27', '\x27', '\x27']) ++ rest = _
    simp only [List.append_assoc, List.cons_append, List.nil_append]
  rw [happend]
  show some (opened '\x27' false _) = _
  cases hnewline : (traits s).newline with
  | true => exact congrArg some hread
  | false =>
    have hnone : newline? (s ++ '\x27' :: '\x27' :: '\x27' :: rest) = none := by
      cases s with
      | nil => exact newline?_cons _ (by decide) (by decide)
      | cons c s =>
        obtain hvisible | rfl := isVisible_of_plain (hplain c List.mem_cons_self)
        · exact newline?_cons _ (isVisible_ne hvisible).1 (isVisible_ne hvisible).2
        · exact absurd rfl (ne_newline_of_traits hnewline '\n' List.mem_cons_self)
    show some (block '\x27' false ((newline? _).getD _)) = _
    rw [if_neg Bool.false_ne_true, List.nil_append, hnone]
    exact congrArg some hread

/-- **A text is read as itself**, whatever its quotes. -/
theorem quoted?_text (s : String) : quoted? (text s ++ rest) = some (some (s.toList, rest)) := by
  show quoted? (inQuotes (traits s.toList).quotes (traits s.toList).newline s.toList ++ rest) = _
  cases hquotes : (traits s.toList).quotes with
  | basic => exact quoted?_basic hrest _ _
  | raw => exact quoted?_raw hrest _ (Traits.lineQuotes?_of_raw hquotes)
  | basicBlock => exact quoted?_basicBlock hrest _
  | rawBlock => exact quoted?_rawBlock hrest hquotes

end

/-- What follows does not go on with characters of a kind. -/
def Ends (p : Char → Bool) (rest : List Char) : Prop :=
  ∀ c t, rest = c :: t → p c = false

/-- What begins with a character of another kind does not go on with those of the kind. -/
theorem Ends.cons {p : Char → Bool} {c : Char} (rest : List Char) (h : p c = false) :
    Ends p (c :: rest) := by
  rintro _ _ ⟨⟩
  exact h

/-- Characters of a kind are taken up to the first other character. -/
theorem span_append {p : Char → Bool} {s rest : List Char} (h : ∀ c ∈ s, p c = true)
    (hrest : Ends p rest) : (s ++ rest).span p = (s, rest) := by
  have htake : rest.takeWhile p = [] ∧ rest.dropWhile p = rest := by
    cases rest with
    | nil => exact ⟨rfl, rfl⟩
    | cons c t =>
      have hc : ¬p c = true := Bool.eq_false_iff.mp (hrest c t rfl)
      exact ⟨List.takeWhile_cons_of_neg hc, List.dropWhile_cons_of_neg hc⟩
  rw [List.span_eq_takeWhile_dropWhile, List.takeWhile_append_of_pos h,
    List.dropWhile_append_of_pos h, htake.1, htake.2, List.append_nil]

/-- A text on one line is in double quotes or in single ones. -/
theorem Traits.lineQuotes?_cases (t : Traits) :
    t.lineQuotes?.getD .basic = .basic ∨ t.lineQuotes? = some .raw := by
  unfold Traits.lineQuotes?
  split_ifs
  · exact .inl rfl
  · exact .inr rfl
  · exact .inl rfl

theorem inKey_ne {c : Char} (h : inKey c = true) : c ≠ '"' ∧ c ≠ '\x27' := by
  constructor <;> (rintro rfl; exact absurd h (by decide))

/-- **A key is read as itself.** -/
theorem simpleKey_key (s : String) {rest : List Char} (hrest : Ends inKey rest) :
    simpleKey (key s ++ rest) = some (s.toList, rest) := by
  have hquoted : simpleKey (inQuotes ((traits s.toList).lineQuotes?.getD .basic) false s.toList
      ++ rest) = some (s.toList, rest) := by
    obtain hbasic | hraw := (traits s.toList).lineQuotes?_cases
    · rw [hbasic]
      show basic ((escapeAll false 0 0 s.toList ++ ['"']) ++ rest) = _
      rw [List.append_assoc]
      exact basic_escapeAll rest s.toList 0
    · have hvisible := visible_of_raw hraw
      rw [hraw]
      show raw ((s.toList ++ ['\x27']) ++ rest) = _
      rw [List.append_assoc]
      exact raw_append rest hvisible
  show simpleKey ((if (!s.toList.isEmpty && s.toList.all isBare) = true then s.toList
    else inQuotes ((traits s.toList).lineQuotes?.getD .basic) false s.toList) ++ rest) = _
  split
  · next hbare =>
    rw [Bool.and_eq_true, List.all_eq_true] at hbare
    obtain ⟨hsome, hbare⟩ := hbare
    have hspan : (s.toList ++ rest).span inKey = (s.toList, rest) := span_append hbare hrest
    cases hs : s.toList with
    | nil => rw [hs] at hsome; cases hsome
    | cons c cs =>
      rw [hs] at hspan hbare
      obtain ⟨hdouble, hsingle⟩ := inKey_ne (hbare c List.mem_cons_self)
      rw [List.cons_append] at hspan ⊢
      rw [simpleKey.eq_3 _ (fun _ h => hdouble (List.cons.inj h).1)
        (fun _ h => hsingle (List.cons.inj h).1), hspan]
  · exact hquoted

end Courier.Toml
