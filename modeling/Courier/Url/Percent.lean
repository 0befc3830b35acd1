import Courier.Text.Numeral
import Courier.Text.Utf8
/-!
# Percent-encoding

A byte that may not stand in a part of a URL stands there as a percent sign
and two digits in base sixteen. Which characters may stand is different for
each part; bytes past ASCII never may. What is encoded already stays as it is,
since the percent sign itself is not encoded.
-/

namespace Courier.Url

open Courier.Text (hexValue?)

/-- A digit in base sixteen, in upper case. -/
def hexUpper (n : Nat) : Char :=
  (Nat.digitChar n).toUpper

/-- **A byte, encoded.** -/
def encodeByte (b : UInt8) : List Char :=
  ['%', hexUpper (b.toNat / 16), hexUpper (b.toNat % 16)]

/-- **A text with some of its characters encoded**, and all past ASCII. -/
def percentEncode (encoded : Char → Bool) (s : List Char) : List Char :=
  s.flatMap fun c =>
    if c.toNat < 0x80 && !encoded c then [c] else (String.utf8EncodeChar c).flatMap encodeByte

/-- **The bytes of a text with its encoded bytes decoded.** A percent sign that
encodes nothing stands for itself. -/
def percentDecode : List Char → List UInt8
  | [] => []
  | '%' :: a :: b :: rest =>
    match hexValue? a, hexValue? b with
    | some a, some b => UInt8.ofNat (a * 16 + b) :: percentDecode rest
    | _, _ => 0x25 :: percentDecode (a :: b :: rest)
  | c :: rest => String.utf8EncodeChar c ++ percentDecode rest

/-- Control characters. -/
def isControl (c : Char) : Bool :=
  c.toNat < 0x20 || c.toNat = 0x7F

/-- What is encoded in a fragment. -/
def inFragment (c : Char) : Bool :=
  isControl c || [' ', '"', '<', '>', '\x60'].contains c

/-- What is encoded in a query; the apostrophe only in the schemes of the web. -/
def inQuery (special : Bool) (c : Char) : Bool :=
  isControl c || [' ', '"', '#', '<', '>'].contains c || (special && c = '\x27')

/-- What is encoded in a path. -/
def inPath (c : Char) : Bool :=
  inFragment c || ['#', '?', '\x7b', '\x7d'].contains c

/-- What is encoded in a user name or a password. -/
def inUserinfo (c : Char) : Bool :=
  inPath c || ['/', ':', ';', '=', '@', '[', '\\', ']', '^', '|'].contains c

end Courier.Url
