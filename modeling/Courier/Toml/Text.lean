import Courier.Text.Numeral
/-!
# Texts in a TOML document

Two kinds of quotes, each on one line or over several. Between double quotes a
backslash begins an escape; between single quotes nothing does. Over several
lines, the line end right behind the opening quotes does not count, and up to
two quotes may stand before the closing ones. Line ends are line feeds, however
they are written.
-/

namespace Courier.Toml

open Courier.Text (hexValue?)

/-- A character that may stand in a text and in a comment: no control character
but the tab. -/
def isVisible (c : Char) : Bool :=
  c = '\t' || (0x20 ≤ c.toNat && c.toNat ≠ 0x7F)

/-- The value of as many digits in base sixteen as are given, and what follows. -/
def hexRun : (digits value : Nat) → List Char → Option (Nat × List Char)
  | 0, value, s => some (value, s)
  | digits + 1, value, c :: rest =>
    match hexValue? c with
    | some d => hexRun digits (value * 16 + d) rest
    | none => none
  | _ + 1, _, [] => none

/-- A code point that is a character, and what follows it. -/
def codePoint (digits : Nat) (s : List Char) : Option (Char × List Char) :=
  match hexRun digits 0 s with
  | some (n, rest) => if n.isValidChar then some (Char.ofNat n, rest) else none
  | none => none

/-- The character that a letter stands for behind a backslash. -/
def escaped? : Char → Option Char
  | 'b' => some '\x08'
  | 't' => some '\t'
  | 'n' => some '\n'
  | 'f' => some '\x0C'
  | 'r' => some '\r'
  | 'e' => some '\x1B'
  | '"' => some '"'
  | '\\' => some '\\'
  | _ => none

/-- How many digits follow a letter that announces a code point. -/
def announced? : Char → Option Nat
  | 'x' => some 2
  | 'u' => some 4
  | 'U' => some 8
  | _ => none

/-- **The character of an escape**, from behind its backslash on, and what follows
it. -/
def escape : List Char → Option (Char × List Char)
  | [] => none
  | c :: rest =>
    match announced? c with
    | some digits => codePoint digits rest
    | none => (escaped? c).map fun c => (c, rest)

/-- Digits that are read are gone. -/
theorem length_hexRun {digits value n : Nat} {s rest : List Char}
    (h : hexRun digits value s = some (n, rest)) : rest.length ≤ s.length := by
  induction digits generalizing value s with
  | zero =>
    simp only [hexRun, Option.some.injEq, Prod.mk.injEq] at h
    simp [h.2]
  | succ digits ih =>
    cases s with
    | nil => simp [hexRun] at h
    | cons c s =>
      simp only [hexRun] at h
      split at h
      · have := ih h
        simp only [List.length_cons]
        omega
      · simp at h

/-- A code point that is read is gone. -/
theorem length_codePoint {digits : Nat} {c : Char} {s rest : List Char}
    (h : codePoint digits s = some (c, rest)) : rest.length ≤ s.length := by
  simp only [codePoint] at h
  split at h
  · next hr =>
    split at h
    · simp only [Option.some.injEq, Prod.mk.injEq] at h
      have := length_hexRun hr
      rw [← h.2]
      exact this
    · simp at h
  · simp at h

/-- An escape that is read is gone. -/
theorem length_escape {c : Char} {s rest : List Char}
    (h : escape s = some (c, rest)) : rest.length < s.length := by
  cases s with
  | nil => simp [escape] at h
  | cons d s =>
    simp only [escape] at h
    split at h
    · have hs := length_codePoint h
      simp only [List.length_cons]
      omega
    · simp only [Option.map_eq_some_iff, Prod.mk.injEq] at h
      obtain ⟨_, _, _, rfl⟩ := h
      simp

/-- A line end, taken away. -/
def newline? : List Char → Option (List Char)
  | '\n' :: rest => some rest
  | '\r' :: '\n' :: rest => some rest
  | _ => none

/-- A line end that is read is gone. -/
theorem length_newline? {s rest : List Char} (h : newline? s = some rest) :
    rest.length < s.length := by
  unfold newline? at h
  split at h
  · simp only [Option.some.injEq] at h
    simp [← h]
  · simp only [Option.some.injEq] at h
    simp only [← h, List.length_cons]
    omega
  · simp at h

/-- A character put before a text that has been read. -/
def before (c : Char) (read : Option (List Char × List Char)) : Option (List Char × List Char) :=
  read.map fun (text, rest) => (c :: text, rest)

/-- **A text between double quotes on one line**, from behind the opening quote
on: its characters, and what follows it. -/
def basic (s : List Char) : Option (List Char × List Char) :=
  match s with
  | [] => none
  | '"' :: rest => some ([], rest)
  | '\\' :: rest =>
    match _h : escape rest with
    | some (c, rest) => before c (basic rest)
    | none => none
  | c :: rest => if isVisible c then before c (basic rest) else none
termination_by s.length
decreasing_by
  · have := length_escape _h
    simp only [List.length_cons]
    omega
  · simp

/-- **A text between single quotes on one line.** -/
def raw : List Char → Option (List Char × List Char)
  | [] => none
  | '\x27' :: rest => some ([], rest)
  | c :: rest => if isVisible c then before c (raw rest) else none

/-- How many of a character a text begins with. -/
def runOf (quote : Char) (s : List Char) : Nat :=
  (s.takeWhile (· = quote)).length

/-- Blank characters and line ends, taken away. -/
def dropBlank (s : List Char) : List Char :=
  s.dropWhile fun c => c = ' ' || c = '\t' || c = '\n' || c = '\r'

/-- What follows blank space and a line end, without the blank space there. -/
def continued? (s : List Char) : Option (List Char) :=
  (newline? (s.dropWhile fun c => c = ' ' || c = '\t')).map dropBlank

/-- Dropping makes nothing longer. -/
theorem length_dropWhile_le {α : Type} (p : α → Bool) (s : List α) :
    (s.dropWhile p).length ≤ s.length :=
  (List.dropWhile_sublist p).length_le

/-- A line that is continued gets shorter. -/
theorem length_continued? {s rest : List Char} (h : continued? s = some rest) :
    rest.length < s.length := by
  simp only [continued?, Option.map_eq_some_iff] at h
  obtain ⟨u, hu, rfl⟩ := h
  have h1 := length_newline? hu
  have h2 := length_dropWhile_le (fun c => c = ' ' || c = '\t') s
  have h3 : (dropBlank u).length ≤ u.length := length_dropWhile_le _ u
  omega

/-- **A text over several lines**, from behind its opening quotes on. A backslash
is an escape only where `escapes` holds; at the end of a line it takes away the
blank space up to the next character. -/
def block (quote : Char) (escapes : Bool) (s : List Char) : Option (List Char × List Char) :=
  match s with
  | [] => none
  | c :: rest =>
    let n := runOf quote (c :: rest)
    if 3 ≤ n then
      let inside := min n 5 - 3
      some (List.replicate inside quote, (c :: rest).drop (inside + 3))
    else if c = quote then
      before c (block quote escapes rest)
    else if escapes && c = '\\' then
      match _hc : continued? rest with
      | some rest => block quote escapes rest
      | none =>
        match _he : escape rest with
        | some (c, rest) => before c (block quote escapes rest)
        | none => none
    else
      match _hn : newline? (c :: rest) with
      | some rest => before '\n' (block quote escapes rest)
      | none => if isVisible c then before c (block quote escapes rest) else none
termination_by s.length
decreasing_by
  · simp
  · have := length_continued? _hc
    simp only [List.length_cons]
    omega
  · have := length_escape _he
    simp only [List.length_cons]
    omega
  · exact length_newline? _hn
  · simp

/-- A text over several lines, whose first line may be empty. -/
def opened (quote : Char) (escapes : Bool) (s : List Char) : Option (List Char × List Char) :=
  block quote escapes ((newline? s).getD s)

end Courier.Toml
