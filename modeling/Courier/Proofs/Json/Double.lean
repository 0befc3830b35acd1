import Courier.Proofs.Decimal.Nearest
import Courier.Proofs.Json.Codec
/-!
# Doubles that come back from JSON

JSON has no text for the infinities and for what is not a number, so only finite doubles
are kept (`Keeps.finite`). Of those, digits with a point are read in two roundings: the
digits without the point are rounded to a double, and so is its quotient by a power of
ten. When there are few digits, the first of the two changes nothing, and what is left is
the one rounding that the shortest decimal is made for (`keeps_of_short`).
-/

namespace Courier.Json

open Courier.Document
open Courier.Text (word64)

/-- **Only finite doubles are kept.** -/
theorem Keeps.finite {x : Float} (h : Keeps x) : ∃ m q, Decimal.magnitude x = .finite m q := by
  cases hx : Decimal.magnitude x with
  | finite m q => exact ⟨m, q, rfl⟩
  | nan =>
    simp only [Keeps, numberDraft, reread, hx] at h
    cases h
  | infinite =>
    simp only [Keeps, numberDraft, reread, hx] at h
    cases h

/-- **A short decimal**: it is written plainly, and its digits without the point make a number
of fifty-three bits at most. A whole number has one zero behind the point. -/
def Short (p : Decimal.Point) : Prop :=
  (-5 ≤ p.exponent + (Decimal.digits p.coefficient).length - 1 ∧
    p.exponent + (Decimal.digits p.coefficient).length - 1 ≤ 15) ∧
  p.coefficient * 10 ^ (p.exponent + 1).toNat < 2 * Decimal.hiddenBit

instance (p : Decimal.Point) : Decidable (Short p) :=
  inferInstanceAs (Decidable ((_ ∧ _) ∧ _))

/-- A short decimal is written plainly. -/
theorem Short.point_eq {p : Decimal.Point} (h : Short p) : Decimal.jsonStyle.point p
    = Decimal.plainDigits true (Decimal.digits p.coefficient) p.exponent := by
  have hplain : (p.coefficient = 0 ||
      (-5 ≤ p.exponent + (Decimal.digits p.coefficient).length - 1 &&
        p.exponent + (Decimal.digits p.coefficient).length - 1 ≤ 15)) = true := by
    rw [Bool.or_eq_true, Bool.and_eq_true, decide_eq_true_iff, decide_eq_true_iff,
      decide_eq_true_iff]
    exact .inr h.1
  exact if_pos hplain

/-- A short decimal has few digits behind the point. -/
theorem Short.behind {p : Decimal.Point} (h : Short p) :
    (p.exponent + 1).toNat - p.exponent ≤ 22 := by
  obtain ⟨⟨hleast, -⟩, hsmall⟩ := h
  by_cases he : p.exponent < 0
  · have hnone : (p.exponent + 1).toNat = 0 := by omega
    rw [hnone, Nat.pow_zero, Nat.mul_one] at hsmall
    have hlength : (Decimal.digits p.coefficient).length ≤ 16 :=
      (Nat.length_toDigits_le_iff (by decide) (by decide)).mpr
        (Nat.lt_trans hsmall (by decide))
    omega
  · omega

section

variable {x : Float} {m : Nat} {q : Int}

/-- **The digits of a short decimal over a power of ten** are the double. -/
theorem Short.quotient_eq {whole fraction : List Char} (h : Short (Decimal.shortest m q))
    (hx : Decimal.magnitude x = .finite m q)
    (hplain : Decimal.Plain (Decimal.shortest m q).coefficient (Decimal.shortest m q).exponent
      whole fraction) :
    Decimal.negate (Decimal.isNegative x) (Float.ofNat ((Decimal.shortest m q).coefficient
      * 10 ^ ((Decimal.shortest m q).exponent + 1).toNat) / Decimal.nearest 1 fraction.length)
      = x := by
  have hlength := hplain.length
  have hbehind := h.behind
  obtain rfl | hm := Nat.eq_zero_or_pos m
  · have hone : fraction.length = 1 := by
      have hexponent : (Decimal.shortest 0 q).exponent = 0 := rfl
      rw [hexponent] at hlength
      omega
    have hcoefficient : (Decimal.shortest 0 q).coefficient
        * 10 ^ ((Decimal.shortest 0 q).exponent + 1).toNat = 0 := Nat.zero_mul _
    have hzero : Float.ofNat 0 / Decimal.nearest 1 1 = 0.0 := by decide +kernel
    rw [hone, hcoefficient]
    exact (congrArg _ hzero).trans (Decimal.eq_zero hx).symm
  · obtain ⟨hc, hback⟩ := Decimal.eq_double hx hm
    have hbounds := hc.bounds_shortest ((Decimal.shortest m q).exponent + 1).toNat
    have hexponent : (Decimal.shortest m q).exponent
        - (((Decimal.shortest m q).exponent + 1).toNat : Int) = -(fraction.length : Int) := by
      omega
    rw [hexponent] at hbounds
    rw [hc.ofNat_div_nearest h.2 (by omega) hbounds, hc.negate_double]
    exact hback.symm

/-- **A double with a short decimal is read as itself.** -/
theorem numberDraft_of_short (hx : Decimal.magnitude x = .finite m q)
    (h : Short (Decimal.shortest m q)) : numberDraft (.real x) = .number (some (.real x)) := by
  obtain ⟨whole, fraction, hplain⟩ := Decimal.exists_plain
    (fun hzero => Decimal.exponent_shortest_of_zero (m := m) (q := q) hzero)
  have hread : Text.readDigits word64 0 (whole ++ fraction)
      = .ok (Nat.ofDigitChars 10 (whole ++ fraction) 0) := by
    refine Text.readDigits_ofDigitChars hplain.digits.digits ?_
    rw [hplain.value]
    have hword : 2 * Decimal.hiddenBit ≤ word64 := by decide
    exact (h.2.trans_le hword).le
  have hbehind : fraction.length ≤ 308 := by
    have hlength := hplain.length
    have hfew := h.behind
    omega
  simp only [numberDraft, reread, hx]
  rw [h.point_eq, hplain.text, NumberDraft.numberOf_decimal _ hplain.digits hbehind hread,
    hplain.value, h.quotient_eq hx hplain]

/-- **A double with a short decimal is kept.** -/
theorem keeps_of_short (hx : Decimal.magnitude x = .finite m q)
    (h : Short (Decimal.shortest m q)) : Keeps x := by
  rw [Keeps, numberDraft_of_short hx h]
  rfl

end

end Courier.Json
