import Courier.Decimal.Style
import Courier.Proofs.Decimal.Shortest
import Courier.Proofs.Text.Numeral
import Mathlib.Algebra.Group.Nat.Defs
/-!
# The digits of a double

A double that is written plainly has digits before the point and digits behind it. Taken
together and without the point, they write the coefficient of the shortest decimal with
some zeroes behind it, and the digits behind the point say which power of ten it is taken
times (`exists_plain`).
-/

namespace Courier.Decimal

open Courier.Text (Lead exists_lead isDigit_of_mem)

/-- A finite double is written as its sign and its shortest decimal. -/
theorem toList_write {style : Style} {x : Float} {m : Nat} {q : Int}
    (h : magnitude x = .finite m q) : (style.write x).toList
      = if isNegative x then '-' :: style.point (shortest m q)
        else style.point (shortest m q) := by
  have hwrite : style.write x
      = (if isNegative x then "-" else "") ++ String.ofList (style.point (shortest m q)) := by
    simp only [Style.write, h]
  rw [hwrite, String.toList_append, String.toList_ofList]
  cases isNegative x <;> rfl

/-- **Digits before a point and behind it.** -/
structure Digits (whole fraction : List Char) : Prop where
  /-- There are digits before the point, without leading zeroes. -/
  lead : Lead whole
  /-- There are digits behind the point. -/
  behind : fraction ≠ []
  /-- They are all digits. -/
  digits : ∀ c ∈ whole ++ fraction, c.isDigit

theorem ofDigitChars_zeroes (cs : List Char) (k : Nat) :
    Nat.ofDigitChars 10 (cs ++ List.replicate k '0') 0 = Nat.ofDigitChars 10 cs 0 * 10 ^ k := by
  rw [Nat.ofDigitChars_append, Nat.ofDigitChars_replicate_zero, Nat.mul_comm]

/-- **The digits of a decimal that is written plainly**: a whole number has zeroes behind it, and
one of them behind the point. -/
structure Plain (c : Nat) (e : Int) (whole fraction : List Char) : Prop where
  /-- They are what is written. -/
  text : plainDigits true (digits c) e = whole ++ '.' :: fraction
  /-- They are digits before a point and behind it. -/
  digits : Digits whole fraction
  /-- Without the point they write the coefficient. -/
  value : Nat.ofDigitChars 10 (whole ++ fraction) 0 = c * 10 ^ (e + 1).toNat
  /-- Those behind the point say which power of ten it is taken times. -/
  length : (fraction.length : Int) = (e + 1).toNat - e

section

variable {c : Nat} {e : Int}

theorem ofDigitChars_digits (c : Nat) : Nat.ofDigitChars 10 (digits c) 0 = c :=
  Nat.ofDigitChars_ten_toDigits

/-- Zeroes are digits. -/
theorem isDigit_zeroes {k : Nat} : ∀ d ∈ List.replicate k '0', d.isDigit = true := by
  intro d hd
  rw [List.eq_of_mem_replicate hd]
  rfl

/-- The first digits of a number have no leading zeroes, whatever stands behind them. -/
theorem lead_take {n : Nat} {zeros : List Char} (hn : 0 < n) (hc : c = 0 → n = 1 ∧ zeros = []) :
    Lead ((digits c).take n ++ zeros) := by
  obtain rfl | hpos := Nat.eq_zero_or_pos c
  · obtain ⟨rfl, rfl⟩ := hc rfl
    exact .inl rfl
  · obtain ⟨d, rest, hd, hd', heq⟩ := exists_lead hpos
    obtain ⟨n, rfl⟩ := Nat.exists_eq_succ_of_ne_zero (Nat.pos_iff_ne_zero.mp hn)
    refine .inr ⟨d, rest.take n ++ zeros, hd, hd', ?_⟩
    rw [digits, heq]
    rfl

/-- **A whole number** has zeroes behind its digits. -/
theorem plain_whole (h : c = 0 → e ≤ 0) (he : 0 ≤ e) :
    Plain c e (digits c ++ List.replicate e.toNat '0') ['0'] := by
  have hsome : (e + 1).toNat = e.toNat + 1 := by omega
  refine ⟨?_, ⟨?_, nofun, ?_⟩, ?_, ?_⟩
  · rw [plainDigits, if_pos he]
    rfl
  · have hlead : Lead ((digits c).take (digits c).length ++ List.replicate e.toNat '0') :=
      lead_take (List.length_pos_iff.mpr Nat.toDigits_ne_nil) fun hc => by
        have hzero : e.toNat = 0 := by
          have := h hc
          omega
        subst hc
        rw [hzero]
        exact ⟨rfl, rfl⟩
    rwa [List.take_length] at hlead
  · intro d hd
    obtain hd | hd := List.mem_append.mp hd
    · obtain hd | hd := List.mem_append.mp hd
      · exact isDigit_of_mem hd
      · exact isDigit_zeroes d hd
    · exact @isDigit_zeroes 1 d hd
  · have hzeroes : (digits c ++ List.replicate e.toNat '0') ++ ['0']
        = digits c ++ List.replicate (e.toNat + 1) '0' := by
      rw [List.append_assoc, List.replicate_succ']
    rw [hzeroes, ofDigitChars_zeroes, ofDigitChars_digits, hsome]
  · show ((1 : Nat) : Int) = _
    omega

/-- **A number with digits before the point** has the others behind it. -/
theorem plain_within (he : e < 0) (hbehind : (-e).toNat < (digits c).length) :
    Plain c e ((digits c).take ((digits c).length - (-e).toNat))
      ((digits c).drop ((digits c).length - (-e).toNat)) := by
  have hnone : (e + 1).toNat = 0 := by omega
  refine ⟨?_, ⟨?_, ?_, ?_⟩, ?_, ?_⟩
  · rw [plainDigits, if_neg (Int.not_le.mpr he)]
    exact if_pos hbehind
  · have hone : c = 0 → (digits c).length = 1 := by rintro rfl; rfl
    have hlead : Lead ((digits c).take ((digits c).length - (-e).toNat) ++ []) :=
      lead_take (by omega) fun hc => absurd (hone hc) (by omega)
    rwa [List.append_nil] at hlead
  · exact List.ne_nil_of_length_pos (by rw [List.length_drop]; omega)
  · rw [List.take_append_drop]
    exact fun d hd => isDigit_of_mem hd
  · rw [List.take_append_drop, ofDigitChars_digits, hnone, Nat.pow_zero, Nat.mul_one]
  · rw [List.length_drop]
    omega

/-- **A number with all its digits behind the point** has zeroes before them. -/
theorem plain_behind (he : e < 0) (hbehind : (digits c).length ≤ (-e).toNat) :
    Plain c e ['0'] (List.replicate ((-e).toNat - (digits c).length) '0' ++ digits c) := by
  have hnone : (e + 1).toNat = 0 := by omega
  refine ⟨?_, ⟨.inl rfl, ?_, ?_⟩, ?_, ?_⟩
  · rw [plainDigits, if_neg (Int.not_le.mpr he)]
    exact if_neg (Nat.not_lt.mpr hbehind)
  · exact fun h => Nat.toDigits_ne_nil (List.append_eq_nil_iff.mp h).2
  · intro d hd
    obtain hd | hd := List.mem_append.mp hd
    · exact @isDigit_zeroes 1 d hd
    · obtain hd | hd := List.mem_append.mp hd
      · exact isDigit_zeroes d hd
      · exact isDigit_of_mem hd
  · rw [← List.append_assoc, Nat.ofDigitChars_append, Nat.ofDigitChars_append,
      Nat.ofDigitChars_replicate_zero, hnone, Nat.pow_zero, Nat.mul_one]
    exact ofDigitChars_digits c
  · rw [List.length_append, List.length_replicate]
    omega

/-- **A decimal that is written plainly** has digits before the point and behind it. -/
theorem exists_plain (h : c = 0 → e ≤ 0) : ∃ whole fraction, Plain c e whole fraction := by
  by_cases he : e < 0
  · obtain hbehind | hbehind := Nat.lt_or_ge (-e).toNat (digits c).length
    · exact ⟨_, _, plain_within he hbehind⟩
    · exact ⟨_, _, plain_behind he hbehind⟩
  · exact ⟨_, _, plain_whole h (Int.not_lt.mp he)⟩

end

end Courier.Decimal
