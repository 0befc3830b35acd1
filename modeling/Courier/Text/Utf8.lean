/-!
# UTF-8

Texts and bytes. A text is encoded character by character; bytes are decoded
by a machine that stands either between two characters or within one, and
that knows, within one, which bytes may come next. The machine is run in two
ways. `decode` stops at the first byte that no text could have there and
says where the broken character starts and how long it is, which is the
diagnosis a rejected payload carries. `decodeLossy` puts the replacement
character in its place and goes on, which is how the body of a response is
read.
-/

namespace Courier.Text.Utf8

/-- **The bytes of a text**, character by character. -/
def encode (s : List Char) : List UInt8 :=
  s.flatMap String.utf8EncodeChar

/-- **Where bytes stop being a text.** -/
structure Fault where
  /-- How many bytes before the fault are a text. -/
  start : Nat
  /-- How many bytes the broken character has, or nothing when the bytes end
  before it is whole. -/
  length : Option Nat
deriving Repr, DecidableEq

/-- The diagnosis in words. -/
def Fault.message (f : Fault) : String :=
  match f.length with
  | some n => s!"invalid utf-8 sequence of {n} bytes from index {f.start}"
  | none => s!"incomplete utf-8 byte sequence from index {f.start}"

/-- **A character under way**: the bits read so far, how many bytes they
came from, how many bytes are owed, and the range the next one must lie in. -/
structure Partial where
  /-- The bits of the code point read so far. -/
  bits : Nat
  /-- Bytes read. -/
  taken : Nat
  /-- Bytes still owed, at least one. -/
  owed : Nat
  /-- The least byte that may come next. -/
  low : Nat
  /-- The greatest byte that may come next. -/
  high : Nat
deriving Repr, DecidableEq

/-- **What a first byte says.** -/
inductive Lead
  /-- It is a character by itself. -/
  | whole (c : Char)
  /-- It starts a longer character. -/
  | opens (p : Partial)
  /-- No character starts with it. -/
  | bad
deriving Repr, DecidableEq

/-- The reading of a first byte. The second byte after `E0`, `ED`, `F0` and
`F4` has a narrower range than the others: it excludes overlong forms,
surrogates and code points past the last one. -/
def lead (b : UInt8) : Lead :=
  let n := b.toNat
  if n < 0x80 then .whole (Char.ofNat n)
  else if n < 0xC2 then .bad
  else if n < 0xE0 then .opens ⟨n - 0xC0, 1, 1, 0x80, 0xBF⟩
  else if n < 0xF0 then
    .opens ⟨n - 0xE0, 1, 2, if n = 0xE0 then 0xA0 else 0x80, if n = 0xED then 0x9F else 0xBF⟩
  else if n < 0xF5 then
    .opens ⟨n - 0xF0, 1, 3, if n = 0xF0 then 0x90 else 0x80, if n = 0xF4 then 0x8F else 0xBF⟩
  else .bad

/-- **The next byte of a character under way**: the character it completes,
or the character still under way; nothing when it is out of range. -/
def Partial.next (p : Partial) (b : UInt8) : Option (Char ⊕ Partial) :=
  if p.low ≤ b.toNat && b.toNat ≤ p.high then
    let bits := p.bits * 0x40 + (b.toNat - 0x80)
    if p.owed ≤ 1 then some (.inl (Char.ofNat bits))
    else some (.inr ⟨bits, p.taken + 1, p.owed - 1, 0x80, 0xBF⟩)
  else none

/-- Decoding from a given position, within a character or between two.
`start` is the index of the first byte of the character under way. -/
def decodeFrom : Option Partial → Nat → List UInt8 → Except Fault (List Char)
  | none, _, [] => .ok []
  | some _, start, [] => .error ⟨start, none⟩
  | none, start, b :: rest =>
    match lead b with
    | .whole c => (decodeFrom none (start + 1) rest).map (c :: ·)
    | .opens p => decodeFrom (some p) start rest
    | .bad => .error ⟨start, some 1⟩
  | some p, start, b :: rest =>
    match p.next b with
    | some (.inl c) => (decodeFrom none (start + p.taken + 1) rest).map (c :: ·)
    | some (.inr p') => decodeFrom (some p') start rest
    | none => .error ⟨start, some p.taken⟩

/-- **The text that bytes encode**, or where they stop encoding one. -/
def decode (bytes : List UInt8) : Except Fault (List Char) :=
  decodeFrom none 0 bytes

/-- Stands in for bytes that are no text. -/
def replacement : Char := '\uFFFD'

/-- Decoding that replaces what it cannot read. A byte that breaks a
character off may start the next one, so it is read again as a first byte. -/
def decodeLossyFrom : Option Partial → List UInt8 → List Char
  | none, [] => []
  | some _, [] => [replacement]
  | none, b :: rest =>
    match lead b with
    | .whole c => c :: decodeLossyFrom none rest
    | .opens p => decodeLossyFrom (some p) rest
    | .bad => replacement :: decodeLossyFrom none rest
  | some p, b :: rest =>
    match p.next b with
    | some (.inl c) => c :: decodeLossyFrom none rest
    | some (.inr p') => decodeLossyFrom (some p') rest
    | none =>
      replacement ::
        match lead b with
        | .whole c => c :: decodeLossyFrom none rest
        | .opens q => decodeLossyFrom (some q) rest
        | .bad => replacement :: decodeLossyFrom none rest

/-- **The text that bytes encode, as far as they do**: every broken character
becomes the replacement character. -/
def decodeLossy (bytes : List UInt8) : List Char :=
  decodeLossyFrom none bytes

end Courier.Text.Utf8
