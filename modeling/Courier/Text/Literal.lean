import Courier.Text.Unprintable
/-!
# Quoted literals

A text between double quotes, with everything escaped that would not be seen
or that would end the literal. Diagnostics quote foreign texts this way, and
so does the long form of an event identity. A backslash and a double quote
are escaped by a backslash, four control characters by a letter or a digit,
and every other character that is not plain by its code point in braces.
-/

namespace Courier.Text

/-- The digits of a number in base sixteen, in lower case. -/
def hexDigits (n : Nat) : List Char :=
  Nat.toDigits 16 n

/-- **One character within a quoted literal.** -/
def literalChar (c : Char) : List Char :=
  if c = '"' || c = '\\' then ['\\', c]
  else if c = '\x00' then ['\\', '0']
  else if c = '\t' then ['\\', 't']
  else if c = '\n' then ['\\', 'n']
  else if c = '\r' then ['\\', 'r']
  else if isPlain c then [c]
  else '\\' :: 'u' :: '\x7b' :: hexDigits c.toNat ++ ['\x7d']

/-- **A text as a quoted literal.** -/
def literal (s : String) : String :=
  String.ofList ('"' :: s.toList.flatMap literalChar ++ ['"'])

end Courier.Text
