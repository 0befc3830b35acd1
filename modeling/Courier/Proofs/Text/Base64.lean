import Courier.Text.Base64
/-!
# What was put in base 64 can be read back

Every character that is written stands for the number it was written for
(`value?_digit`), none of them is the equals sign (`digit_ne_fill`), and so the
fours of a text are read as they were written (`decode_encode`).
-/

namespace Courier.Text.Base64

theorem value?_digit {n : Nat} (h : n < 64) : value? (digit n) = some n := by
  have all : ∀ n : Fin 64, value? (digit n) = some n.val := by decide
  exact all ⟨n, h⟩

theorem digit_ne_fill {n : Nat} (h : n < 64) : digit n ≠ '=' := by
  have all : ∀ n : Fin 64, digit n ≠ '=' := by decide
  exact all ⟨n, h⟩

theorem ofNat_of_eq {a : UInt8} {n : Nat} (h : n = a.toNat) : UInt8.ofNat n = a := by
  rw [h]
  exact UInt8.ofNat_toNat

/-- Four characters, the last of which is not there to fill up, are three bytes. -/
theorem decode_four {p q r s : Nat} (hp : p < 64) (hq : q < 64) (hr : r < 64) (hs : s < 64)
    (rest : List Char) :
    decode (digit p :: digit q :: digit r :: digit s :: rest)
      = (decode rest).map fun bytes => UInt8.ofNat (p * 4 + q / 16) ::
          UInt8.ofNat (q % 16 * 16 + r / 4) :: UInt8.ofNat (r % 4 * 64 + s) :: bytes := by
  rw [decode, value?_digit hp, value?_digit hq, value?_digit hr, value?_digit hs]
  · cases decode rest <;> rfl
  · exact fun _ h _ => digit_ne_fill hs h
  · exact fun h _ => digit_ne_fill hs h

/-- Three characters that are filled up once are two bytes. -/
theorem decode_three {p q r : Nat} (hp : p < 64) (hq : q < 64) (hr : r < 64) (hspare : r % 4 = 0) :
    decode [digit p, digit q, digit r, '=']
      = some [UInt8.ofNat (p * 4 + q / 16), UInt8.ofNat (q % 16 * 16 + r / 4)] := by
  rw [decode, value?_digit hp, value?_digit hq, value?_digit hr]
  · exact if_pos hspare
  · exact digit_ne_fill hr

theorem decode_two {p q : Nat} (hp : p < 64) (hq : q < 64) (hspare : q % 16 = 0) :
    decode [digit p, digit q, '=', '='] = some [UInt8.ofNat (p * 4 + q / 16)] := by
  rw [decode, value?_digit hp, value?_digit hq]
  exact if_pos hspare

/-- **What was put in base 64 can be read back.** -/
theorem decode_encode (bytes : List UInt8) : decode (encode bytes) = some bytes := by
  induction bytes using encode.induct with
  | case1 a b c rest ih =>
    have ha := a.toNat_lt
    have hb := b.toNat_lt
    have hc := c.toNat_lt
    rw [encode, decode_four (by omega) (by omega) (by omega) (by omega), ih, Option.map_some,
      ofNat_of_eq (a := a) (by omega), ofNat_of_eq (a := b) (by omega),
      ofNat_of_eq (a := c) (by omega)]
  | case2 a b =>
    have ha := a.toNat_lt
    have hb := b.toNat_lt
    rw [encode, decode_three (by omega) (by omega) (by omega) (by omega),
      ofNat_of_eq (a := a) (by omega), ofNat_of_eq (a := b) (by omega)]
  | case3 a =>
    have ha := a.toNat_lt
    rw [encode, decode_two (by omega) (by omega) (by omega), ofNat_of_eq (a := a) (by omega)]
  | case4 => rfl

end Courier.Text.Base64
