import Courier.Text.Utf8
/-!
# What is encoded can be decoded, and nothing else

A text that has been encoded is decoded to itself. The machine is between two
characters when it comes to the bytes of one; the first byte says how many
there are, and each of the others lies in the range that the machine expects
there. The narrower ranges after some first bytes are met because a character
is written in as few bytes as possible, is no surrogate, and is not past the
last code point.

The same ranges see to the converse: bytes that are decoded to a text are the
text encoded (`encode_of_decode`), for the bytes that make a character are those
that it is written in.
-/

namespace Courier.Text.Utf8

/-! ## One byte -/

theorem toNat_byte {n : Nat} (h : n < 256) : (UInt8.ofNat n).toNat = n := by
  rw [UInt8.toNat_ofNat']
  exact Nat.mod_eq_of_lt h

/-- A byte below 128 is a character by itself. -/
theorem lead_whole {n : Nat} (h : n < 0x80) :
    lead (UInt8.ofNat n) = .whole (Char.ofNat n) := by
  unfold lead
  rw [toNat_byte (by omega)]
  exact if_pos h

/-- The first byte of a character of two bytes. -/
theorem lead_two {n : Nat} (h : 0xC2 ≤ n) (h' : n < 0xE0) :
    lead (UInt8.ofNat n) = .opens ⟨n - 0xC0, 1, 1, 0x80, 0xBF⟩ := by
  unfold lead
  rw [toNat_byte (by omega)]
  show (if n < 0x80 then _ else if n < 0xC2 then _ else if n < 0xE0 then _ else _) = _
  rw [if_neg (by omega), if_neg (by omega), if_pos h']

/-- The first byte of a character of three bytes. -/
theorem lead_three {n : Nat} (h : 0xE0 ≤ n) (h' : n < 0xF0) :
    lead (UInt8.ofNat n) = .opens ⟨n - 0xE0, 1, 2, if n = 0xE0 then 0xA0 else 0x80,
      if n = 0xED then 0x9F else 0xBF⟩ := by
  unfold lead
  rw [toNat_byte (by omega)]
  show (if n < 0x80 then _ else if n < 0xC2 then _ else if n < 0xE0 then _ else
    if n < 0xF0 then _ else _) = _
  rw [if_neg (by omega), if_neg (by omega), if_neg (by omega), if_pos h']

/-- The first byte of a character of four bytes. -/
theorem lead_four {n : Nat} (h : 0xF0 ≤ n) (h' : n < 0xF5) :
    lead (UInt8.ofNat n) = .opens ⟨n - 0xF0, 1, 3, if n = 0xF0 then 0x90 else 0x80,
      if n = 0xF4 then 0x8F else 0xBF⟩ := by
  unfold lead
  rw [toNat_byte (by omega)]
  show (if n < 0x80 then _ else if n < 0xC2 then _ else if n < 0xE0 then _ else
    if n < 0xF0 then _ else if n < 0xF5 then _ else _) = _
  rw [if_neg (by omega), if_neg (by omega), if_neg (by omega), if_neg (by omega), if_pos h']

theorem next_last {p : Partial} {n : Nat} (hn : p.low ≤ n ∧ n ≤ p.high) (hb : n < 256)
    (ho : p.owed = 1) :
    p.next (UInt8.ofNat n) = some (.inl (Char.ofNat (p.bits * 0x40 + (n - 0x80)))) := by
  unfold Partial.next
  rw [toNat_byte hb, if_pos (by simpa using hn), if_pos (Nat.le_of_eq ho)]

theorem next_more {p : Partial} {n : Nat} (hn : p.low ≤ n ∧ n ≤ p.high) (hb : n < 256)
    (ho : 1 < p.owed) :
    p.next (UInt8.ofNat n)
      = some (.inr ⟨p.bits * 0x40 + (n - 0x80), p.taken + 1, p.owed - 1, 0x80, 0xBF⟩) := by
  unfold Partial.next
  rw [toNat_byte hb, if_pos (by simpa using hn), if_neg (by omega)]

/-! ## One character -/

theorem trailing_bounds (v : Nat) :
    (0x80 ≤ v % 0x40 + 0x80 ∧ v % 0x40 + 0x80 ≤ 0xBF) ∧ v % 0x40 + 0x80 < 256 := by
  omega

section Widths

variable {v : Nat} (start : Nat) (rest : List UInt8)

/-- A character of two bytes. -/
theorem decodeFrom_two (h : 0x7f < v) (h' : v ≤ 0x7ff) :
    decodeFrom none start (UInt8.ofNat (v / 64 % 0x20 + 0xc0) ::
        UInt8.ofNat (v % 0x40 + 0x80) :: rest)
      = (decodeFrom none (start + 2) rest).map (Char.ofNat v :: ·) := by
  obtain ⟨hb, hb'⟩ := trailing_bounds v
  rw [decodeFrom, lead_two (by omega) (by omega)]
  show decodeFrom (some _) start (_ :: rest) = _
  rw [decodeFrom, next_last hb hb' rfl]
  have hv : (v / 64 % 0x20 + 0xc0 - 0xC0) * 0x40 + (v % 0x40 + 0x80 - 0x80) = v := by omega
  simp only [hv]

/-- A character of three bytes, unless it is a surrogate. -/
theorem decodeFrom_three (h : 0x7ff < v) (h' : v ≤ 0xffff) (hs : v < 0xD800 ∨ 0xDFFF < v) :
    decodeFrom none start (UInt8.ofNat (v / 4096 % 0x10 + 0xe0) ::
        UInt8.ofNat (v / 64 % 0x40 + 0x80) :: UInt8.ofNat (v % 0x40 + 0x80) :: rest)
      = (decodeFrom none (start + 3) rest).map (Char.ofNat v :: ·) := by
  obtain ⟨hb, hb'⟩ := trailing_bounds v
  obtain ⟨-, hm'⟩ := trailing_bounds (v / 64)
  rw [decodeFrom, lead_three (by omega) (by omega)]
  show decodeFrom (some _) start (_ :: _ :: rest) = _
  -- the second byte is in the narrower range: no shorter form, and no surrogate
  rw [decodeFrom, next_more ⟨by dsimp only; split <;> omega, by dsimp only; split <;> omega⟩
    hm' (show 1 < 2 by decide)]
  show decodeFrom (some _) start (_ :: rest) = _
  rw [decodeFrom, next_last hb hb' rfl]
  have hv : ((v / 4096 % 0x10 + 0xe0 - 0xE0) * 0x40 + (v / 64 % 0x40 + 0x80 - 0x80)) * 0x40
      + (v % 0x40 + 0x80 - 0x80) = v := by omega
  simp only [hv]

/-- A character of four bytes, unless it is past the last code point. -/
theorem decodeFrom_four (h : 0xffff < v) (h' : v < 0x110000) :
    decodeFrom none start (UInt8.ofNat (v / 262144 % 0x08 + 0xf0) ::
        UInt8.ofNat (v / 4096 % 0x40 + 0x80) :: UInt8.ofNat (v / 64 % 0x40 + 0x80) ::
        UInt8.ofNat (v % 0x40 + 0x80) :: rest)
      = (decodeFrom none (start + 4) rest).map (Char.ofNat v :: ·) := by
  obtain ⟨hb, hb'⟩ := trailing_bounds v
  obtain ⟨hm, hm'⟩ := trailing_bounds (v / 64)
  obtain ⟨-, hl'⟩ := trailing_bounds (v / 4096)
  rw [decodeFrom, lead_four (by omega) (by omega)]
  show decodeFrom (some _) start (_ :: _ :: _ :: rest) = _
  -- the second byte is in the narrower range: no shorter form, and not past the end
  rw [decodeFrom, next_more ⟨by dsimp only; split <;> omega, by dsimp only; split <;> omega⟩
    hl' (show 1 < 3 by decide)]
  show decodeFrom (some _) start (_ :: _ :: rest) = _
  rw [decodeFrom, next_more hm hm' (show 1 < 2 by decide)]
  show decodeFrom (some _) start (_ :: rest) = _
  rw [decodeFrom, next_last hb hb' rfl]
  have hv : (((v / 262144 % 0x08 + 0xf0 - 0xF0) * 0x40 + (v / 4096 % 0x40 + 0x80 - 0x80)) * 0x40
      + (v / 64 % 0x40 + 0x80 - 0x80)) * 0x40 + (v % 0x40 + 0x80 - 0x80) = v := by omega
  simp only [hv]

end Widths

/-- **The bytes of a character are decoded to it**, whatever follows them. -/
theorem decodeFrom_encodeChar (c : Char) (start : Nat) (rest : List UInt8) :
    decodeFrom none start (String.utf8EncodeChar c ++ rest)
      = (decodeFrom none (start + c.utf8Size) rest).map (c :: ·) := by
  have hvalid : c.val.toNat < 0xD800 ∨ 0xDFFF < c.val.toNat ∧ c.val.toNat < 0x110000 := c.valid
  have hc : Char.ofNat c.val.toNat = c := Char.ofNat_toNat c
  rw [← String.length_utf8EncodeChar]
  unfold String.utf8EncodeChar
  generalize c.val.toNat = v at hvalid hc ⊢
  subst hc
  show decodeFrom none start ((if v ≤ 0x7f then _ else if v ≤ 0x7ff then _ else
    if v ≤ 0xffff then _ else _) ++ rest) = _
  by_cases h1 : v ≤ 0x7f
  · rw [if_pos h1]
    show decodeFrom none start (UInt8.ofNat v :: rest) = _
    rw [decodeFrom, lead_whole (by omega)]
    rfl
  rw [if_neg h1]
  by_cases h2 : v ≤ 0x7ff
  · rw [if_pos h2]
    exact decodeFrom_two start rest (Nat.not_le.mp h1) h2
  rw [if_neg h2]
  by_cases h3 : v ≤ 0xffff
  · rw [if_pos h3]
    exact decodeFrom_three start rest (Nat.not_le.mp h2) h3 (hvalid.imp_right And.left)
  · rw [if_neg h3]
    exact decodeFrom_four start rest (Nat.not_le.mp h3) (by omega)

/-! ## Texts -/

/-- **A text that is encoded is decoded to itself.** -/
theorem decode_encode (s : List Char) : decode (encode s) = .ok s := by
  have key : ∀ start, decodeFrom none start (encode s) = .ok s := by
    induction s with
    | nil =>
      intro start
      rfl
    | cons c s ih =>
      intro start
      show decodeFrom none start (String.utf8EncodeChar c ++ encode s) = _
      rw [decodeFrom_encodeChar, ih]
      rfl
  exact key 0

/-! ## Bytes -/

theorem ofNat_eq_byte {b : UInt8} {n : Nat} (h : n = b.toNat) : UInt8.ofNat n = b := by
  rw [h]
  exact UInt8.ofNat_toNat

/-- The number of a character that is made from a number. -/
theorem val_ofNat {v : Nat} (h : v < 0xD800 ∨ 0xDFFF < v ∧ v < 0x110000) :
    (Char.ofNat v).val.toNat = v := by
  have hvalid : v.isValidChar := h
  unfold Char.ofNat
  rw [dif_pos hvalid]
  rfl

/-- One byte is the character of its number. -/
theorem encodeChar_one {b : UInt8} (h : b.toNat < 0x80) :
    String.utf8EncodeChar (Char.ofNat b.toNat) = [b] := by
  have hv := val_ofNat (v := b.toNat) (by omega)
  unfold String.utf8EncodeChar
  simp only [hv]
  rw [if_pos (by omega), ofNat_eq_byte rfl]

/-- The character that two bytes make is written in them. -/
theorem encodeChar_two {b b₁ : UInt8} (h : 0xC2 ≤ b.toNat ∧ b.toNat < 0xE0)
    (h₁ : 0x80 ≤ b₁.toNat ∧ b₁.toNat ≤ 0xBF) :
    String.utf8EncodeChar (Char.ofNat ((b.toNat - 0xC0) * 0x40 + (b₁.toNat - 0x80)))
      = [b, b₁] := by
  have hv := val_ofNat (v := (b.toNat - 0xC0) * 0x40 + (b₁.toNat - 0x80)) (by omega)
  unfold String.utf8EncodeChar
  simp only [hv]
  rw [if_neg (by omega), if_pos (by omega), ofNat_eq_byte (b := b) (by omega),
    ofNat_eq_byte (b := b₁) (by omega)]

/-- So is the character that three make, in the range that is left to them. -/
theorem encodeChar_three {b b₁ b₂ : UInt8} (h : 0xE0 ≤ b.toNat ∧ b.toNat < 0xF0)
    (hl : (if b.toNat = 0xE0 then 0xA0 else 0x80) ≤ b₁.toNat)
    (hh : b₁.toNat ≤ if b.toNat = 0xED then 0x9F else 0xBF)
    (h₂ : 0x80 ≤ b₂.toNat ∧ b₂.toNat ≤ 0xBF) :
    String.utf8EncodeChar (Char.ofNat (((b.toNat - 0xE0) * 0x40 + (b₁.toNat - 0x80)) * 0x40
      + (b₂.toNat - 0x80))) = [b, b₁, b₂] := by
  have hlow : b.toNat = 0xE0 → 0xA0 ≤ b₁.toNat := fun hb => by rwa [if_pos hb] at hl
  have hhigh : b.toNat = 0xED → b₁.toNat ≤ 0x9F := fun hb => by rwa [if_pos hb] at hh
  have hl : 0x80 ≤ b₁.toNat := by split at hl <;> omega
  have hh : b₁.toNat ≤ 0xBF := by split at hh <;> omega
  have hv := val_ofNat (v := ((b.toNat - 0xE0) * 0x40 + (b₁.toNat - 0x80)) * 0x40
    + (b₂.toNat - 0x80)) (by omega)
  unfold String.utf8EncodeChar
  simp only [hv]
  rw [if_neg (by omega), if_neg (by omega), if_pos (by omega), ofNat_eq_byte (b := b) (by omega),
    ofNat_eq_byte (b := b₁) (by omega), ofNat_eq_byte (b := b₂) (by omega)]

/-- And the character that four make. -/
theorem encodeChar_four {b b₁ b₂ b₃ : UInt8} (h : 0xF0 ≤ b.toNat ∧ b.toNat < 0xF5)
    (hl : (if b.toNat = 0xF0 then 0x90 else 0x80) ≤ b₁.toNat)
    (hh : b₁.toNat ≤ if b.toNat = 0xF4 then 0x8F else 0xBF)
    (h₂ : 0x80 ≤ b₂.toNat ∧ b₂.toNat ≤ 0xBF) (h₃ : 0x80 ≤ b₃.toNat ∧ b₃.toNat ≤ 0xBF) :
    String.utf8EncodeChar (Char.ofNat ((((b.toNat - 0xF0) * 0x40 + (b₁.toNat - 0x80)) * 0x40
      + (b₂.toNat - 0x80)) * 0x40 + (b₃.toNat - 0x80))) = [b, b₁, b₂, b₃] := by
  have hlow : b.toNat = 0xF0 → 0x90 ≤ b₁.toNat := fun hb => by rwa [if_pos hb] at hl
  have hhigh : b.toNat = 0xF4 → b₁.toNat ≤ 0x8F := fun hb => by rwa [if_pos hb] at hh
  have hl : 0x80 ≤ b₁.toNat := by split at hl <;> omega
  have hh : b₁.toNat ≤ 0xBF := by split at hh <;> omega
  have hv := val_ofNat (v := (((b.toNat - 0xF0) * 0x40 + (b₁.toNat - 0x80)) * 0x40
    + (b₂.toNat - 0x80)) * 0x40 + (b₃.toNat - 0x80)) (by omega)
  unfold String.utf8EncodeChar
  simp only [hv]
  rw [if_neg (by omega), if_neg (by omega), if_neg (by omega), ofNat_eq_byte (b := b) (by omega),
    ofNat_eq_byte (b := b₁) (by omega), ofNat_eq_byte (b := b₂) (by omega),
    ofNat_eq_byte (b := b₃) (by omega)]

/-- **A character under way that is decoded has its next byte**, which lies where it
may lie: it is the last one, or the character goes on. -/
theorem decodeFrom_some {p : Partial} {start : Nat} {bytes : List UInt8} {text : List Char}
    (h : decodeFrom (some p) start bytes = .ok text) :
    ∃ b rest, bytes = b :: rest ∧ p.low ≤ b.toNat ∧ b.toNat ≤ p.high ∧
      ((p.owed ≤ 1 ∧ ∃ next text', text = Char.ofNat (p.bits * 0x40 + (b.toNat - 0x80)) :: text' ∧
          decodeFrom none next rest = .ok text') ∨
        1 < p.owed ∧ decodeFrom (some ⟨p.bits * 0x40 + (b.toNat - 0x80), p.taken + 1, p.owed - 1,
          0x80, 0xBF⟩) start rest = .ok text) := by
  cases bytes with
  | nil => cases h
  | cons b rest =>
    rw [decodeFrom] at h
    unfold Partial.next at h
    by_cases hb : (p.low ≤ b.toNat && b.toNat ≤ p.high) = true
    · rw [if_pos hb] at h
      simp only [Bool.and_eq_true, decide_eq_true_eq] at hb
      refine ⟨b, rest, rfl, hb.1, hb.2, ?_⟩
      by_cases ho : p.owed ≤ 1
      · rw [if_pos ho] at h
        dsimp only at h
        cases hd : decodeFrom none (start + p.taken + 1) rest with
        | error f => rw [hd] at h; cases h
        | ok text' =>
          rw [hd] at h
          exact .inl ⟨ho, _, text', (Except.ok.inj h).symm, hd⟩
      · rw [if_neg ho] at h
        exact .inr ⟨Nat.not_le.mp ho, h⟩
    · rw [if_neg hb] at h
      cases h

/-- **The last byte of a character.** -/
theorem decodeFrom_last {bits taken low high start : Nat} {bytes : List UInt8} {text : List Char}
    (h : decodeFrom (some ⟨bits, taken, 1, low, high⟩) start bytes = .ok text) :
    ∃ b rest next text', bytes = b :: rest ∧ low ≤ b.toNat ∧ b.toNat ≤ high ∧
      text = Char.ofNat (bits * 0x40 + (b.toNat - 0x80)) :: text' ∧
      decodeFrom none next rest = .ok text' := by
  obtain ⟨b, rest, rfl, hl, hh, ⟨-, next, text', htext, hd⟩ | ⟨ho, -⟩⟩ := decodeFrom_some h
  · exact ⟨b, rest, next, text', rfl, hl, hh, htext, hd⟩
  · cases Nat.lt_irrefl 1 ho

/-- **A byte of a character that is not its last.** -/
theorem decodeFrom_more {bits taken owed low high start : Nat} {bytes : List UInt8}
    {text : List Char}
    (h : decodeFrom (some ⟨bits, taken, owed + 2, low, high⟩) start bytes = .ok text) :
    ∃ b rest, bytes = b :: rest ∧ low ≤ b.toNat ∧ b.toNat ≤ high ∧
      decodeFrom (some ⟨bits * 0x40 + (b.toNat - 0x80), taken + 1, owed + 1, 0x80, 0xBF⟩) start
        rest = .ok text := by
  obtain ⟨b, rest, rfl, hl, hh, ⟨ho, -⟩ | ⟨-, hd⟩⟩ := decodeFrom_some h
  · exact absurd ho (by simp)
  · exact ⟨b, rest, rfl, hl, hh, hd⟩

/-- **The first character of a text that is decoded is encoded by the bytes before the
others.** -/
theorem decodeFrom_cons {start : Nat} {b : UInt8} {rest : List UInt8} {text : List Char}
    (h : decodeFrom none start (b :: rest) = .ok text) :
    ∃ c rest' next text', b :: rest = String.utf8EncodeChar c ++ rest' ∧ text = c :: text' ∧
      decodeFrom none next rest' = .ok text' := by
  rw [decodeFrom] at h
  unfold lead at h
  dsimp only at h
  by_cases h1 : b.toNat < 0x80
  · -- one byte
    rw [if_pos h1] at h
    dsimp only at h
    cases hd : decodeFrom none (start + 1) rest with
    | error f => rw [hd] at h; cases h
    | ok text' =>
      rw [hd] at h
      exact ⟨Char.ofNat b.toNat, rest, _, text', by rw [encodeChar_one h1]; rfl,
        (Except.ok.inj h).symm, hd⟩
  rw [if_neg h1] at h
  by_cases h2 : b.toNat < 0xC2
  · rw [if_pos h2] at h
    cases h
  rw [if_neg h2] at h
  by_cases h3 : b.toNat < 0xE0
  · -- two bytes
    rw [if_pos h3] at h
    obtain ⟨b₁, rest, next, text', rfl, hl, hh, rfl, hd⟩ := decodeFrom_last h
    refine ⟨_, rest, next, text', ?_, rfl, hd⟩
    rw [encodeChar_two ⟨Nat.not_lt.mp h2, h3⟩ ⟨hl, hh⟩]
    rfl
  rw [if_neg h3] at h
  by_cases h4 : b.toNat < 0xF0
  · -- three bytes
    rw [if_pos h4] at h
    obtain ⟨b₁, rest, rfl, hl, hh, h⟩ := decodeFrom_more h
    obtain ⟨b₂, rest, next, text', rfl, hl', hh', rfl, hd⟩ := decodeFrom_last h
    refine ⟨_, rest, next, text', ?_, rfl, hd⟩
    rw [encodeChar_three ⟨Nat.not_lt.mp h3, h4⟩ hl hh ⟨hl', hh'⟩]
    rfl
  rw [if_neg h4] at h
  by_cases h5 : b.toNat < 0xF5
  · -- four bytes
    rw [if_pos h5] at h
    obtain ⟨b₁, rest, rfl, hl, hh, h⟩ := decodeFrom_more h
    obtain ⟨b₂, rest, rfl, hl', hh', h⟩ := decodeFrom_more h
    obtain ⟨b₃, rest, next, text', rfl, hl'', hh'', rfl, hd⟩ := decodeFrom_last h
    refine ⟨_, rest, next, text', ?_, rfl, hd⟩
    rw [encodeChar_four ⟨Nat.not_lt.mp h4, h5⟩ hl hh ⟨hl', hh'⟩ ⟨hl'', hh''⟩]
    rfl
  · rw [if_neg h5] at h
    cases h

/-- **Bytes that are decoded to a text are the text encoded.** -/
theorem encode_of_decode {bytes : List UInt8} {text : List Char} (h : decode bytes = .ok text) :
    encode text = bytes := by
  have key : ∀ (n : Nat) (bytes : List UInt8) (start : Nat) (text : List Char),
      bytes.length ≤ n → decodeFrom none start bytes = .ok text → encode text = bytes := by
    intro n
    induction n with
    | zero =>
      intro bytes start text hn h
      obtain rfl := List.length_eq_zero_iff.mp (Nat.le_zero.mp hn)
      obtain rfl := Except.ok.inj h
      rfl
    | succ n ih =>
      intro bytes start text hn h
      cases bytes with
      | nil =>
        obtain rfl := Except.ok.inj h
        rfl
      | cons b rest =>
        obtain ⟨c, rest', next, text', hbytes, rfl, hd⟩ := decodeFrom_cons h
        have hlen := congrArg List.length hbytes
        have hpos : 0 < (String.utf8EncodeChar c).length := by
          rw [String.length_utf8EncodeChar]
          exact c.utf8Size_pos
        rw [List.length_append, List.length_cons] at hlen
        rw [List.length_cons] at hn
        rw [hbytes]
        show String.utf8EncodeChar c ++ encode text' = _
        rw [ih rest' next text' (by omega) hd]
  exact key bytes.length bytes 0 text (Nat.le_refl _) h

/-- **Bytes are a text exactly when they are one encoded.** -/
theorem decode_eq_ok_iff {bytes : List UInt8} {text : List Char} :
    decode bytes = .ok text ↔ bytes = encode text := by
  constructor
  · exact fun h => (encode_of_decode h).symm
  · rintro rfl
    exact decode_encode text

end Courier.Text.Utf8
