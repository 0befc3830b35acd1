import Courier.Text.Blank
import Courier.Text.Utf8
import Courier.Url.Percent
import Courier.Url.Punycode
/-!
# Domain names

A domain name is written in lower case and in ASCII. Letters of the scripts
that know a case are put into lower case, the wide forms of ASCII characters
into ASCII, and the full stops of other scripts into a dot; marks that do not
show are left out. A label that is not ASCII then is written in Punycode.
-/

namespace Courier.Url

/-- **Letters past ASCII in upper case**: the first and the last code point, the
step from one to the next, and the first in lower case. -/
def upperRanges : List (Nat × Nat × Nat × Nat) :=
  [(0xC0, 0xD6, 1, 0xE0), (0xD8, 0xDE, 1, 0xF8), (0x100, 0x12E, 2, 0x101), (0x132, 0x136, 2, 0x133),
   (0x139, 0x147, 2, 0x13A), (0x14A, 0x176, 2, 0x14B), (0x178, 0x178, 1, 0xFF),
   (0x179, 0x17D, 2, 0x17A), (0x386, 0x386, 1, 0x3AC), (0x388, 0x38A, 1, 0x3AD),
   (0x38C, 0x38C, 1, 0x3CC), (0x38E, 0x38F, 1, 0x3CD), (0x391, 0x3A1, 1, 0x3B1),
   (0x3A3, 0x3AB, 1, 0x3C3), (0x400, 0x40F, 1, 0x450), (0x410, 0x42F, 1, 0x430),
   (0x460, 0x480, 2, 0x461), (0x48A, 0x4BE, 2, 0x48B), (0x4C1, 0x4CD, 2, 0x4C2),
   (0x4D0, 0x52E, 2, 0x4D1), (0x531, 0x556, 1, 0x561), (0x1E00, 0x1E94, 2, 0x1E01),
   (0x1EA0, 0x1EFE, 2, 0x1EA1)]

/-- A character in lower case. -/
def lowerChar (c : Char) : Char :=
  if c.toNat < 0x80 then c.toLower
  else
    match upperRanges.find? fun (first, last, step, _) =>
        first ≤ c.toNat && c.toNat ≤ last && (c.toNat - first) % step = 0 with
    | some (first, _, _, lower) => Char.ofNat (c.toNat - first + lower)
    | none => c

/-- **What a character of a domain name is written as**; nothing for a mark that
does not show. -/
def domainChar (c : Char) : List Char :=
  let n := c.toNat
  if n = 0x3002 || n = 0xFF0E || n = 0xFF61 then ['.']
  else if 0xFF01 ≤ n && n ≤ 0xFF5E then [(Char.ofNat (n - 0xFEE0)).toLower]
  else if n = 0xAD || n = 0x200B || n = 0x2060 || n = 0xFEFF || (0xFE00 ≤ n && n ≤ 0xFE0F) then []
  else [lowerChar c]

/-- **A character that no domain name holds.** -/
def isForbiddenInDomain (c : Char) : Bool :=
  isControl c || Text.isBlank c || (0x80 ≤ c.toNat && c.toNat < 0xA0) ||
    c = Text.Utf8.replacement ||
    ['#', '/', ':', '<', '>', '?', '@', '[', '\\', ']', '^', '|', '%'].contains c

/-- The parts of a text between the occurrences of a character. -/
def partsBetween (separator : Char) : List Char → List (List Char)
  | [] => [[]]
  | c :: rest =>
    match partsBetween separator rest with
    | [] => [[c]]
    | part :: parts => if c = separator then [] :: part :: parts else (c :: part) :: parts

/-- The mark of a label written in Punycode. -/
def encodedMark : List Char := ['x', 'n', '-', '-']

/-- **A label in ASCII.** A label that has the mark must be one that is read and
written again as it is. -/
def labelToAscii (label : List Char) : Option (List Char) :=
  if encodedMark.isPrefixOf label then
    match Punycode.decode (label.drop 4) with
    | some text =>
      if text.any (0x80 ≤ ·.toNat) && !text.any isForbiddenInDomain &&
          Punycode.encode text = label.drop 4 then some label
      else none
    | none => none
  else if label.all (·.toNat < 0x80) then some label
  else some (encodedMark ++ Punycode.encode label)

/-- **A domain name in ASCII**, if it is one. -/
def domainToAscii (bytes : List UInt8) : Option (List Char) :=
  let mapped := (Text.Utf8.decodeLossy bytes).flatMap domainChar
  if mapped.any isForbiddenInDomain then none
  else
    match (partsBetween '.' mapped).mapM labelToAscii with
    | some labels => some (List.intercalate ['.'] labels)
    | none => none

end Courier.Url
