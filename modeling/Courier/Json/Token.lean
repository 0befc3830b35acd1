import Courier.Document.Draft
import Courier.Text.Numeral
import Courier.Decimal.Double
/-!
# The tokens of a JSON text

A JSON text is cut into tokens by a machine that reads one character at a
time. It stands between tokens, within a word such as `null`, within a number
or within a text, and each of these places says which characters may come
next. A character that may not come there makes the token `junk`, and the
machine stops for good: nothing behind it counts.

Texts are taken apart more tolerantly than they are accepted, because what is
tolerable depends on who reads them; see `Document.Quoted`.
-/

namespace Courier.Json

open Courier.Document
open Courier.Text (digit? hexValue? word64)

/-- **A token.** -/
inductive Token
  /-- `[` -/
  | openList
  /-- `]` -/
  | closeList
  /-- An opening brace. -/
  | openTable
  /-- A closing brace. -/
  | closeTable
  /-- `,` -/
  | comma
  /-- `:` -/
  | colon
  /-- The word `null`. -/
  | null
  /-- The word `true` or `false`. -/
  | flag (b : Bool)
  /-- A number; no value when it is past every double. -/
  | number (n : Option Number)
  /-- A text. -/
  | text (q : Quoted)
  /-- What is no token. -/
  | junk
deriving Repr, Inhabited

/-! ## Numbers -/

/-- **Where a number stands**: which of its parts the last character belongs
to. -/
inductive NumberPart
  /-- The minus sign. -/
  | sign
  /-- A leading zero, after which the whole part has ended. -/
  | zero
  /-- The whole part. -/
  | whole
  /-- The point. -/
  | point
  /-- The digits behind the point. -/
  | fraction
  /-- The letter of the exponent. -/
  | mark
  /-- The sign of the exponent. -/
  | exponentSign
  /-- The digits of the exponent. -/
  | exponent
deriving Repr, DecidableEq

/-- **A number under way.** Its digits are taken up by a coefficient of 64 bits.
Once a digit of the whole part does not fit, the digits of the whole part are
only counted; once a digit behind the point does not fit, the rest of them is
dropped. -/
structure NumberDraft where
  /-- Whether there is a minus sign. -/
  negative : Bool
  /-- The coefficient. -/
  coefficient : Nat
  /-- Whether a digit of the whole part did not fit. -/
  wideWhole : Bool
  /-- Whether a digit behind the point did not fit. -/
  wideFraction : Bool
  /-- The power of ten that the coefficient is taken times, by the point and by
  the digits counted. -/
  scale : Int
  /-- Whether there is a point or an exponent. -/
  broken : Bool
  /-- Whether the exponent has a minus sign. -/
  exponentNegative : Bool
  /-- The digits of the exponent. -/
  exponent : Nat
deriving Repr, DecidableEq

namespace NumberDraft

/-- A number of which only the sign is known. -/
def start (negative : Bool) : NumberDraft :=
  ⟨negative, 0, false, false, 0, false, false, 0⟩

/-- One more digit of the whole part. -/
def whole (n : NumberDraft) (d : Nat) : NumberDraft :=
  if n.wideWhole || word64 < n.coefficient * 10 + d then
    { n with wideWhole := true, scale := n.scale + 1 }
  else { n with coefficient := n.coefficient * 10 + d }

/-- One more digit behind the point. -/
def fraction (n : NumberDraft) (d : Nat) : NumberDraft :=
  if n.wideFraction || word64 < n.coefficient * 10 + d then { n with wideFraction := true }
  else { n with coefficient := n.coefficient * 10 + d, scale := n.scale - 1 }

/-- The greatest exponent that is told apart from larger ones. -/
def exponentLimit : Nat := 0x7FFFFFFF

/-- One more digit of the exponent. -/
def exponentDigit (n : NumberDraft) (d : Nat) : NumberDraft :=
  { n with exponent := n.exponent * 10 + d }

/-- **The double `c · 10^e`, to one rounding of `c` and one of each step**: the
coefficient is rounded to a double, and that is multiplied or divided by the
double nearest to a power of ten, by `10^308` at a time. Nothing when the
result is past every double. -/
def scaled (x : Float) (e : Int) : (steps : Nat) → Option Float
  | 0 => none
  | steps + 1 =>
    if e.natAbs ≤ 308 then
      let power := Decimal.nearest 1 e.natAbs
      if e < 0 then some (x / power)
      else
        let y := x * power
        if y.isInf then none else some y
    else if x == 0.0 then some x
    else if 0 ≤ e then none
    else scaled (x / Decimal.nearest 1 308) (e + 308) steps

/-- **The value of a number.** Without a point and an exponent it is whole as
long as it fits into 64 bits, with a sign or without; a negative zero is a
double. An exponent past the limit makes a zero or is past every double. -/
def value (n : NumberDraft) : Option Number :=
  if !n.broken && !n.wideWhole && !n.negative then some (.integer n.coefficient)
  else if !n.broken && !n.wideWhole && 0 < n.coefficient && n.coefficient ≤ 0x8000000000000000 then
    some (.integer (-(n.coefficient : Int)))
  else if exponentLimit < n.exponent then
    if n.coefficient = 0 || n.exponentNegative then
      some (.real (Decimal.negate n.negative 0.0))
    else none
  else
    let e := n.scale + (if n.exponentNegative then -(n.exponent : Int) else n.exponent)
    let steps := e.natAbs / 308 + 2
    (scaled (Float.ofNat n.coefficient) e steps).map
      fun x => .real (Decimal.negate n.negative x)

end NumberDraft

/-- **One more character of a number**: its new part and state, nothing when
the number ends before the character, or a refusal. -/
inductive NumberStep
  /-- The number goes on. -/
  | goes (part : NumberPart) (n : NumberDraft)
  /-- The number has ended before the character. -/
  | ends
  /-- The number cannot go on and cannot end here. -/
  | bad

/-- What a character that is no digit does to a number in a part in which it
may end. -/
def NumberDraft.afterDigits (n : NumberDraft) (pointed : Bool) (c : Char) : NumberStep :=
  if c = '.' && !pointed then .goes .point { n with broken := true }
  else if c = 'e' || c = 'E' then .goes .mark { n with broken := true }
  else .ends

/-- The next character of a number. -/
def NumberDraft.step (part : NumberPart) (n : NumberDraft) (c : Char) : NumberStep :=
  match part, digit? c with
  | .sign, some 0 => .goes .zero n
  | .sign, some d => .goes .whole (n.whole d)
  | .sign, none => .bad
  | .zero, some _ => .bad
  | .zero, none => n.afterDigits false c
  | .whole, some d => .goes .whole (n.whole d)
  | .whole, none => n.afterDigits false c
  | .point, some d => .goes .fraction (n.fraction d)
  | .point, none => .bad
  | .fraction, some d => .goes .fraction (n.fraction d)
  | .fraction, none => n.afterDigits true c
  | .mark, some d => .goes .exponent (n.exponentDigit d)
  | .mark, none =>
    if c = '+' then .goes .exponentSign n
    else if c = '-' then .goes .exponentSign { n with exponentNegative := true }
    else .bad
  | .exponentSign, some d => .goes .exponent (n.exponentDigit d)
  | .exponentSign, none => .bad
  | .exponent, some d => .goes .exponent (n.exponentDigit d)
  | .exponent, none => .ends

/-- Whether a number may end in a part. -/
def NumberPart.mayEnd : NumberPart → Bool
  | .zero => true
  | .whole => true
  | .fraction => true
  | .exponent => true
  | _ => false

/-! ## Texts -/

/-- **Where a text between quotes stands.** -/
inductive TextPart
  /-- Between characters. -/
  | plain
  /-- After a backslash. -/
  | escape
  /-- Within the four digits of a code unit. -/
  | unit (value : Nat) (taken : Nat)
deriving Repr, DecidableEq

/-- The character a letter after a backslash stands for. -/
def escaped? (c : Char) : Option Char :=
  match c with
  | '"' => some '"'
  | '\\' => some '\\'
  | '/' => some '/'
  | 'b' => some '\x08'
  | 'f' => some '\x0C'
  | 'n' => some '\n'
  | 'r' => some '\r'
  | 't' => some '\t'
  | _ => none

/-- **A code unit after the pieces read so far**, the last piece first. The
second half of a surrogate pair joins the first half when that is the last
piece, if both were written as code units. -/
def addUnit (unit : Nat) (pieces : List Piece) : List Piece :=
  if 0xDC00 ≤ unit && unit ≤ 0xDFFF then
    match pieces with
    | .half first :: rest =>
      if first < 0xDC00 then
        .char (Char.ofNat (0x10000 + (first - 0xD800) * 0x400 + (unit - 0xDC00))) :: rest
      else .half unit :: pieces
    | pieces => .half unit :: pieces
  else if 0xD800 ≤ unit && unit ≤ 0xDBFF then .half unit :: pieces
  else .char (Char.ofNat unit) :: pieces

/-! ## The machine -/

/-- **Where the machine stands.** -/
inductive Lexer
  /-- Between tokens. -/
  | between
  /-- Within a word: what is left of it, and the token it makes. -/
  | word (rest : List Char) (token : Token)
  /-- Within a number. -/
  | number (part : NumberPart) (n : NumberDraft)
  /-- Within a text: the pieces read, the last one first, and whether a control
  character was among them. -/
  | text (part : TextPart) (pieces : List Piece) (uncontrolled : Bool)
  /-- Behind junk. -/
  | stopped
deriving Inhabited

/-- A character that starts a token: the tokens it makes by itself, and where
the machine stands after it. -/
def Lexer.start (c : Char) : List Token × Lexer :=
  match c with
  | ' ' => ([], .between)
  | '\n' => ([], .between)
  | '\t' => ([], .between)
  | '\r' => ([], .between)
  | '[' => ([.openList], .between)
  | ']' => ([.closeList], .between)
  | '\x7b' => ([.openTable], .between)
  | '\x7d' => ([.closeTable], .between)
  | ',' => ([.comma], .between)
  | ':' => ([.colon], .between)
  | 'n' => ([], .word ['u', 'l', 'l'] .null)
  | 't' => ([], .word ['r', 'u', 'e'] (.flag true))
  | 'f' => ([], .word ['a', 'l', 's', 'e'] (.flag false))
  | '"' => ([], .text .plain [] false)
  | '-' => ([], .number .sign (.start true))
  | c =>
    match NumberDraft.step .sign (.start false) c with
    | .goes part n => ([], .number part n)
    | _ => ([.junk], .stopped)

/-- The next character of a text. -/
def Lexer.textStep (part : TextPart) (pieces : List Piece) (uncontrolled : Bool) (c : Char) :
    List Token × Lexer :=
  match part with
  | .plain =>
    if c = '"' then ([.text ⟨pieces.reverse, uncontrolled⟩], .between)
    else if c = '\\' then ([], .text .escape pieces uncontrolled)
    else ([], .text .plain (.char c :: pieces) (uncontrolled || c.toNat < 0x20))
  | .escape =>
    if c = 'u' then ([], .text (.unit 0 0) pieces uncontrolled)
    else
      match escaped? c with
      | some c => ([], .text .plain (.char c :: pieces) uncontrolled)
      | none => ([.junk], .stopped)
  | .unit value taken =>
    match hexValue? c with
    | none => ([.junk], .stopped)
    | some d =>
      let value := value * 16 + d
      if taken = 3 then ([], .text .plain (addUnit value pieces) uncontrolled)
      else ([], .text (.unit value (taken + 1)) pieces uncontrolled)

/-- **One more character**: the tokens that end with it or before it, and where
the machine stands after it. -/
def Lexer.step (l : Lexer) (c : Char) : List Token × Lexer :=
  match l with
  | .between => start c
  | .word [] token => 
    let (tokens, l) := start c
    (token :: tokens, l)
  | .word (w :: rest) token =>
    if c = w then
      match rest with
      | [] => ([token], .between)
      | rest => ([], .word rest token)
    else ([.junk], .stopped)
  | .number part n =>
    match n.step part c with
    | .goes part n => ([], .number part n)
    | .ends =>
      let (tokens, l) := start c
      (.number n.value :: tokens, l)
    | .bad => ([.junk], .stopped)
  | .text part pieces uncontrolled => textStep part pieces uncontrolled c
  | .stopped => ([], .stopped)

/-- **The end of the text**: the token that ends with it. -/
def Lexer.finish (l : Lexer) : List Token :=
  match l with
  | .between => []
  | .number part n => if part.mayEnd then [.number n.value] else [.junk]
  | .stopped => []
  | _ => [.junk]

/-- The tokens of the rest of a text. -/
def tokensFrom : Lexer → List Char → List Token
  | l, [] => l.finish
  | l, c :: rest =>
    let (tokens, l) := l.step c
    tokens ++ tokensFrom l rest

/-- **The tokens of a text**, up to the first junk. -/
def tokens (s : List Char) : List Token :=
  tokensFrom .between s

end Courier.Json
