import Courier.Decimal.Fixed
import Courier.Decimal.Shortest
import Courier.Proofs.Decimal.Parts
import Mathlib.Algebra.Order.Field.Power
import Mathlib.Tactic.FieldSimp
import Mathlib.Tactic.Linarith
/-!
# Numbers that round to a double

The arithmetic of doubles works on a mantissa with two more bits, which say how the number
lies between this mantissa and the next one. The bits describe a quotient exactly as far as
it matters for rounding (`Describes`), also when the mantissa is shifted, and so the rounded
mantissa is the rounded quotient (`Describes.roundedMantissa`).

From this follows the rule that all reading rests on: a number in the interval of a double
rounds to this double (`roundWithAccuracy_eq`).
-/

namespace Courier.Decimal

open Float.Model (Format totalExponent)
open Float.Model.UnpackedFloat (Accuracy ExtendedMantissa Sign accuracyOfFraction roundWithAccuracy
  shiftToExponent shiftToTargetExponent)

/-! ## Quotients -/

/-- **A mantissa with two bits that describe a quotient**: whether at least half a place is
missing, and whether something other than nothing and half a place is. -/
structure Describes (em : ExtendedMantissa) (num den : Nat) : Prop where
  /-- The mantissa is the quotient without its fraction. -/
  mantissa : em.mantissa = num / den
  /-- The first bit behind it. -/
  roundBit : em.roundBit = true ↔ den ≤ 2 * (num % den)
  /-- Whether there is any bit behind that. -/
  stickyBit : em.stickyBit = true ↔ num % den ≠ 0 ∧ 2 * (num % den) ≠ den

section

variable {em : ExtendedMantissa} {num den : Nat}

/-- **The rounded mantissa is the rounded quotient.** -/
theorem Describes.roundedMantissa (h : Describes em num den) (hden : 0 < den) :
    em.roundedMantissa = roundDiv num den := by
  obtain ⟨mantissa, round, sticky⟩ := em
  obtain ⟨hmantissa, hround, hsticky⟩ := h
  dsimp only at hmantissa hround hsticky
  subst hmantissa
  unfold roundDiv ExtendedMantissa.roundedMantissa
  dsimp only
  cases round <;> cases sticky <;>
    simp only [Bool.false_eq_true, false_iff, true_iff] at hround hsticky <;>
    simp only [ExtendedMantissa.accuracy, Accuracy.roundToNearestEven]
  · rw [if_pos (by omega)]
  · rw [if_pos (by omega)]
  · rw [if_neg (by omega), if_neg (by omega)]
    split <;> omega
  · rw [if_neg (by omega), if_pos (by omega)]

/-- **A mantissa that is shifted** describes half the quotient. -/
theorem Describes.shiftRightOne (h : Describes em num den) (hden : 0 < den) :
    Describes em.shiftRightOne num (den * 2) := by
  have hdiv : num / (den * 2) = num / den / 2 := (Nat.div_div_eq_div_mul _ _ _).symm
  have hmod : num % (den * 2) = num % den + den * (num / den % 2) := Nat.mod_mul
  have hlt : num % den < den := Nat.mod_lt _ hden
  refine ⟨by rw [hdiv, ← h.mantissa]; rfl, ?_, ?_⟩
  · show (em.mantissa % 2 != 0) = true ↔ _
    rw [bne_iff_ne, h.mantissa, hmod]
    obtain hbit | hbit := Nat.mod_two_eq_zero_or_one (num / den) <;> rw [hbit] <;> omega
  · show (em.roundBit || em.stickyBit) = true ↔ _
    rw [Bool.or_eq_true, h.roundBit, h.stickyBit, hmod]
    obtain hbit | hbit := Nat.mod_two_eq_zero_or_one (num / den) <;> rw [hbit] <;> omega

/-- A mantissa that is shifted several times describes a part of the quotient. -/
theorem Describes.shiftRight (h : Describes em num den) (hden : 0 < den) (k : Nat) :
    Describes (em >>> k) num (den * 2 ^ k) := by
  show Describes (k.repeat ExtendedMantissa.shiftRightOne em) num (den * 2 ^ k)
  induction k with
  | zero => rwa [Nat.pow_zero, Nat.mul_one]
  | succ k ih =>
    rw [pow_succ, ← Nat.mul_assoc]
    exact ih.shiftRightOne (Nat.mul_pos hden (Nat.two_pow_pos k))

theorem describes_exact (n : Nat) : Describes (.ofMantissaAndAccuracy n .exact) n 1 :=
  ⟨(Nat.div_one n).symm, iff_of_false Bool.false_ne_true (by omega),
    iff_of_false Bool.false_ne_true (by omega)⟩

/-- **A quotient with its remainder** describes itself. -/
theorem describes_fraction (hden : 0 < den) : Describes (.ofMantissaAndAccuracy (num / den)
    (accuracyOfFraction (num % den) den)) num den := by
  have hlt : num % den < den := Nat.mod_lt _ hden
  unfold accuracyOfFraction
  by_cases hzero : num % den = 0
  · rw [if_pos hzero]
    exact ⟨rfl, iff_of_false Bool.false_ne_true (by omega),
      iff_of_false Bool.false_ne_true (by omega)⟩
  · rw [if_neg hzero]
    obtain hcompare | hcompare | hcompare := Nat.lt_trichotomy (2 * (num % den)) den
    · rw [Nat.compare_eq_lt.mpr hcompare]
      exact ⟨rfl, iff_of_false Bool.false_ne_true (by omega), iff_of_true rfl (by omega)⟩
    · rw [Nat.compare_eq_eq.mpr hcompare]
      exact ⟨rfl, iff_of_true rfl (by omega), iff_of_false Bool.false_ne_true (by omega)⟩
    · rw [Nat.compare_eq_gt.mpr hcompare]
      exact ⟨rfl, iff_of_true rfl (by omega), iff_of_true rfl (by omega)⟩

/-- **A quotient is rounded to a number** when it is not farther from it than a half, and nearer
when the number is odd. -/
theorem roundDiv_eq {n : Nat} (hden : 0 < den) (hlow : 2 * (n * den) ≤ 2 * num + den)
    (hhigh : 2 * num ≤ 2 * (n * den) + den)
    (hodd : n % 2 = 1 → 2 * (n * den) < 2 * num + den ∧ 2 * num < 2 * (n * den) + den) :
    roundDiv num den = n := by
  have hsplit : num = num / den * den + num % den := (Nat.div_add_mod' num den).symm
  have hlt : num % den < den := Nat.mod_lt _ hden
  unfold roundDiv
  dsimp only
  generalize num / den = below at *
  generalize num % den = rest at *
  subst hsplit
  -- the number is the quotient rounded down or the one after it
  have hle : below ≤ n := by
    by_contra hgt
    have := Nat.mul_le_mul_right den (show n + 1 ≤ below by omega)
    rw [Nat.add_mul] at this
    omega
  have hge : n ≤ below + 1 := by
    by_contra hgt
    have := Nat.mul_le_mul_right den (show below + 2 ≤ n by omega)
    rw [Nat.add_mul] at this
    omega
  obtain rfl | rfl : n = below ∨ n = below + 1 := by omega
  · split
    · rfl
    · split
      · omega
      · split <;> omega
  · rw [Nat.add_mul] at hlow hhigh hodd
    split
    · omega
    · split
      · rfl
      · split <;> omega

end

/-! ## The interval of a double -/

/-- **A number in the interval of a double.** -/
def Around.Holds (a : Around) (v : ℚ) : Prop :=
  if a.closed then (a.low : ℚ) * 2 ^ a.scale ≤ v ∧ v ≤ a.high * 2 ^ a.scale
  else (a.low : ℚ) * 2 ^ a.scale < v ∧ v < a.high * 2 ^ a.scale

section

variable {m : Nat} {q : Int} {v : ℚ}

/-- The ends of the interval of a double. -/
structure Bounds (m : Nat) (q : Int) (v : ℚ) : Prop where
  /-- The number is not above the interval. -/
  high : v ≤ (4 * m + 2) * 2 ^ (q - 2)
  /-- It is not below the interval. -/
  low : (4 * m - 2) * 2 ^ (q - 2) ≤ v
  /-- The doubles lie twice as dense below a power of two. -/
  dense : m = hiddenBit → -1074 < q → (4 * m - 1) * 2 ^ (q - 2) ≤ v
  /-- The ends belong to the interval of an even mantissa only. -/
  odd : m % 2 = 1 → (4 * m - 2) * 2 ^ (q - 2) < v ∧ v < (4 * m + 2) * 2 ^ (q - 2)

/-- **A number in the interval of a double is between its ends.** -/
theorem Around.Holds.bounds (h : (around m q).Holds v) (hm : 0 < m) : Bounds m q v := by
  have hscale : (0 : ℚ) < 2 ^ (q - 2) := zpow_pos two_pos _
  have hone : ((4 * m - 1 : ℕ) : ℚ) = 4 * m - 1 := by
    rw [Nat.cast_sub (by omega)]
    push_cast
    rfl
  have htwo : ((4 * m - 2 : ℕ) : ℚ) = 4 * m - 2 := by
    rw [Nat.cast_sub (by omega)]
    push_cast
    rfl
  have hhigh : ((4 * m + 2 : ℕ) : ℚ) = 4 * m + 2 := by push_cast; rfl
  unfold Around.Holds around at h
  dsimp only at h
  rw [hhigh] at h
  by_cases hdense : m = hiddenBit ∧ q > -1074
  · have heven : m % 2 = 0 := by rw [hdense.1]; decide
    rw [if_pos hdense, if_pos (decide_eq_true heven), hone] at h
    exact ⟨h.2, by linarith [h.1], fun _ _ => h.1, fun hodd => absurd hodd (by omega)⟩
  · rw [if_neg hdense, htwo] at h
    by_cases heven : m % 2 = 0
    · rw [if_pos (decide_eq_true heven)] at h
      exact ⟨h.2, h.1, fun hm hq => absurd ⟨hm, hq⟩ hdense, fun hodd => absurd hodd (by omega)⟩
    · rw [if_neg (by simpa using heven)] at h
      exact ⟨h.2.le, h.1.le, fun hm hq => absurd ⟨hm, hq⟩ hdense, fun _ => h⟩

/-- **A quotient within the interval of a double** rounds to the mantissa of the double. -/
theorem Bounds.roundDiv (h : Bounds m q v) {num den : Nat} (hden : 0 < den)
    (hv : v = num / den * 2 ^ q) : roundDiv num den = m := by
  have hscale : (0 : ℚ) < 2 ^ (q - 2) := zpow_pos two_pos _
  have hden' : (0 : ℚ) < den := Nat.cast_pos.mpr hden
  have hv' : v * den = 4 * num * 2 ^ (q - 2) := by
    have hpow : (2 : ℚ) ^ q = 2 ^ (q - 2) * 4 := by
      rw [zpow_sub₀ two_ne_zero]
      norm_num
    rw [hv, hpow]
    field_simp
  -- both sides are taken times the denominator, and then without the power of two
  have hle : ∀ {a b : ℚ}, a * 2 ^ (q - 2) ≤ b * 2 ^ (q - 2) → a ≤ b := fun h =>
    le_of_mul_le_mul_right h hscale
  have hlt : ∀ {a b : ℚ}, a * 2 ^ (q - 2) < b * 2 ^ (q - 2) → a < b := fun h =>
    lt_of_mul_lt_mul_right h hscale.le
  have hlow : (4 * m - 2) * (den : ℚ) ≤ 4 * num := hle (by
    linarith [mul_le_mul_of_nonneg_right h.low hden'.le])
  have hhigh : 4 * (num : ℚ) ≤ (4 * m + 2) * den := hle (by
    linarith [mul_le_mul_of_nonneg_right h.high hden'.le])
  refine roundDiv_eq hden ?_ ?_ fun hodd => ?_
  · have : 2 * ((m : ℚ) * den) ≤ 2 * num + den := by linarith
    exact_mod_cast this
  · have : 2 * (num : ℚ) ≤ 2 * (m * den) + den := by linarith
    exact_mod_cast this
  · obtain ⟨hlow, hhigh⟩ := h.odd hodd
    have hlow : (4 * m - 2) * (den : ℚ) < 4 * num := hlt (by
      linarith [mul_lt_mul_of_pos_right hlow hden'])
    have hhigh : 4 * (num : ℚ) < (4 * m + 2) * den := hlt (by
      linarith [mul_lt_mul_of_pos_right hhigh hden'])
    have hlow' : 2 * ((m : ℚ) * den) < 2 * num + den := by linarith
    have hhigh' : 2 * (num : ℚ) < 2 * (m * den) + den := by linarith
    exact ⟨by exact_mod_cast hlow', by exact_mod_cast hhigh'⟩

theorem zpow_add_cast {b : ℚ} (hb : b ≠ 0) (i : Int) (n : ℕ) : b ^ (i + n) = b ^ n * b ^ i := by
  rw [zpow_add₀ hb, zpow_natCast, mul_comm]

/-- **A number in the interval of a double** is below a power of two that the interval is below. -/
theorem Bounds.lt_zpow (h : Bounds m q v) {j : ℕ} {i : Int} (hm : 4 * m + 2 < 2 ^ j)
    (hi : q - 2 + j ≤ i) : v < 2 ^ i := by
  have hm' : (4 * m + 2 : ℚ) < 2 ^ j := by exact_mod_cast hm
  calc v ≤ (4 * m + 2) * 2 ^ (q - 2) := h.high
    _ < 2 ^ j * 2 ^ (q - 2) := mul_lt_mul_of_pos_right hm' (zpow_pos two_pos _)
    _ = 2 ^ (q - 2 + j) := (zpow_add_cast two_ne_zero _ _).symm
    _ ≤ 2 ^ i := zpow_le_zpow_right₀ one_le_two hi

/-- A number in the interval of a double is not below a power of two that the interval is not
below. -/
theorem Bounds.zpow_le (h : Bounds m q v) {j : ℕ} {i : Int} (hm : 2 ^ j + 2 ≤ 4 * m)
    (hi : i ≤ q - 2 + j) : 2 ^ i ≤ v := by
  have hm' : (2 ^ j : ℚ) ≤ 4 * m - 2 := by
    have : (2 ^ j + 2 : ℚ) ≤ 4 * m := by exact_mod_cast hm
    linarith
  calc (2 : ℚ) ^ i ≤ 2 ^ (q - 2 + j) := zpow_le_zpow_right₀ one_le_two hi
    _ = 2 ^ j * 2 ^ (q - 2) := zpow_add_cast two_ne_zero _ _
    _ ≤ (4 * m - 2) * 2 ^ (q - 2) := mul_le_mul_of_nonneg_right hm' (zpow_pos two_pos _).le
    _ ≤ v := h.low

/-- **The exponent at which a number is rounded** is that of the double, or one less just below
a power of two. -/
theorem Bounds.exponent (h : Bounds m q v) (hc : Canonical m q) {t : Int} (hleast : -1074 ≤ t)
    (hlt : v < 2 ^ (t + 53)) (hle : t = -1074 ∨ 2 ^ (t + 52) ≤ v) :
    t = q ∨ (t = q - 1 ∧ m = hiddenBit) := by
  obtain hgt | rfl | hgt := lt_trichotomy q t
  · -- the number would be above the interval
    have hle := hle.resolve_left (by have := hc.least; omega)
    have hm : 4 * m + 2 < 2 ^ 55 := by
      have := hc.lt
      unfold hiddenBit at this
      omega
    exact absurd hle (not_le.mpr (h.lt_zpow hm (by push_cast; omega)))
  · exact .inl rfl
  · -- the number would be below the interval, unless the mantissa is the least
    have hm : hiddenBit ≤ m := hc.normal.resolve_right (by omega)
    refine .inr ⟨?_, ?_⟩ <;> by_contra hne
    · have hbits : 2 ^ 53 + 2 ≤ 4 * m := by
        unfold hiddenBit at hm
        omega
      exact absurd hlt (not_lt.mpr (h.zpow_le hbits (by push_cast; omega)))
    · have hbits : 2 ^ 54 + 2 ≤ 4 * m := by
        unfold hiddenBit at hm hne
        omega
      exact absurd hlt (not_lt.mpr (h.zpow_le hbits (by push_cast; omega)))

/-- **Just below a power of two**, a number rounds up to it at the lower exponent too. -/
theorem Bounds.below (h : Bounds hiddenBit q v) (hq : -1074 < q) (hlt : v < 2 ^ (q + 52)) :
    Bounds (2 * hiddenBit) (q - 1) v := by
  have hdense := h.dense rfl hq
  have hhalf : (2 : ℚ) ^ (q - 2) = 2 * 2 ^ (q - 1 - 2) := by
    rw [← zpow_one_add₀ two_ne_zero]
    exact congrArg _ (by omega)
  have hpower : (2 : ℚ) ^ (q + 52) = 2 ^ 55 * 2 ^ (q - 1 - 2) := by
    rw [← zpow_natCast, ← zpow_add₀ two_ne_zero]
    exact congrArg _ (by push_cast; omega)
  have hscale : (0 : ℚ) < 2 ^ (q - 1 - 2) := zpow_pos two_pos _
  rw [hhalf] at hdense
  rw [hpower] at hlt
  refine ⟨?_, ?_, fun heq => absurd heq (by decide), fun hodd => absurd hodd (by decide)⟩
  · unfold hiddenBit
    push_cast
    linarith
  · unfold hiddenBit at hdense ⊢
    push_cast at hdense ⊢
    linarith

theorem targetExponent_eq (total : Int) :
    Format.binary64.targetExponent total = max (total - 53) (-1074) := rfl

/-- Canonical parts have the exponent that is aimed at. -/
theorem Canonical.targetExponent (h : Canonical m q) :
    Format.binary64.targetExponent (totalExponent m q) = q := by
  have hleast := h.least
  rw [targetExponent_eq, totalExponent]
  by_cases hm : hiddenBit ≤ m
  · rw [log2_of_normal hm h.lt]
    omega
  · have hlog := log2_of_small h.pos (Nat.not_le.mp hm)
    have hq := h.normal.resolve_left hm
    omega

/-- Canonical parts are not shifted. -/
theorem Canonical.shift (h : Canonical m q) :
    shiftToTargetExponent Format.binary64 m q .exact = (⟨m, false, false⟩, q) := by
  unfold shiftToTargetExponent shiftToExponent
  simp only [h.targetExponent, Int.sub_self]
  exact congrArg _ (Int.add_zero q)

/-- A mantissa that became too long by rounding is shifted once. -/
theorem Canonical.shift_double (h : Canonical hiddenBit q) :
    shiftToTargetExponent Format.binary64 (2 * hiddenBit) (q - 1) .exact
      = (⟨hiddenBit, false, false⟩, q) := by
  have hleast := h.least
  have hlog : (2 * hiddenBit).log2 = 53 := by decide
  have hexponent : Format.binary64.targetExponent (totalExponent (2 * hiddenBit) (q - 1)) = q := by
    rw [targetExponent_eq, totalExponent, hlog]
    omega
  have hone : (q - (q - 1)).toNat = 1 := by omega
  unfold shiftToTargetExponent shiftToExponent
  simp only [hexponent, hone]
  exact Prod.ext rfl (by show q - 1 + 1 = q; omega)

/-- The mantissa that a number is rounded from, and the number itself. -/
theorem mantissa_le {num den mantissa : Nat} {e : Int} (hden : 0 < den)
    (hmantissa : mantissa = num / den) (hv : v = num / den * 2 ^ e) :
    mantissa * 2 ^ e ≤ v ∧ v < (mantissa + 1) * 2 ^ e := by
  have hscale : (0 : ℚ) < 2 ^ e := zpow_pos two_pos _
  have hden' : (0 : ℚ) < den := Nat.cast_pos.mpr hden
  have hle : (mantissa : ℚ) ≤ num / den := by
    rw [le_div_iff₀ hden', hmantissa]
    exact_mod_cast Nat.div_mul_le_self num den
  have hlt : (num / den : ℚ) < mantissa + 1 := by
    rw [div_lt_iff₀ hden', hmantissa]
    exact_mod_cast (Nat.div_lt_iff_lt_mul hden).mp (Nat.lt_succ_self _)
  rw [hv]
  exact ⟨mul_le_mul_of_nonneg_right hle hscale.le, mul_lt_mul_of_pos_right hlt hscale⟩

/-- **The exponent that is aimed at** leaves fifty-three bits of the number, unless it is the
least, and cuts bits off a mantissa that has enough of them. -/
theorem aimed_exponent {mantissa : Nat} {e t : Int} (henough : hiddenBit ≤ mantissa ∨ e ≤ -1074)
    (hv : mantissa * 2 ^ e ≤ v ∧ v < (mantissa + 1) * 2 ^ e)
    (ht : max ((mantissa.log2 : Int) + 1 + e - 53) (-1074) = t) :
    e ≤ t ∧ v < 2 ^ (t + 53) ∧ (t = -1074 ∨ 2 ^ (t + 52) ≤ v) := by
  have hscale : (0 : ℚ) < 2 ^ e := zpow_pos two_pos _
  have hlog : hiddenBit ≤ mantissa → 52 ≤ mantissa.log2 := fun h =>
    (Nat.le_log2 (by unfold hiddenBit at h; omega)).mpr h
  refine ⟨?_, ?_, ?_⟩
  · obtain henough | henough := henough
    · have := hlog henough
      omega
    · omega
  · have hsucc : (mantissa + 1 : ℚ) ≤ 2 ^ (mantissa.log2 + 1) := by
      exact_mod_cast Nat.lt_log2_self
    calc v < (mantissa + 1) * 2 ^ e := hv.2
      _ ≤ 2 ^ (mantissa.log2 + 1) * 2 ^ e := mul_le_mul_of_nonneg_right hsucc hscale.le
      _ = 2 ^ (e + (mantissa.log2 + 1 : ℕ)) := (zpow_add_cast two_ne_zero _ _).symm
      _ ≤ 2 ^ (t + 53) := zpow_le_zpow_right₀ one_le_two (by push_cast; omega)
  · by_cases hleast : t = -1074
    · exact .inl hleast
    · have hpos : mantissa ≠ 0 := by
        rintro rfl
        have hbits : Nat.log2 0 = 0 := rfl
        have := henough.resolve_left (by decide)
        omega
      have hself : (2 ^ mantissa.log2 : ℚ) ≤ mantissa := by
        exact_mod_cast Nat.log2_self_le hpos
      refine .inr ?_
      calc (2 : ℚ) ^ (t + 52) ≤ 2 ^ (e + (mantissa.log2 : ℕ)) :=
          zpow_le_zpow_right₀ one_le_two (by omega)
        _ = 2 ^ mantissa.log2 * 2 ^ e := zpow_add_cast two_ne_zero _ _
        _ ≤ mantissa * 2 ^ e := mul_le_mul_of_nonneg_right hself hscale.le
        _ ≤ v := hv.1

/-- **A number in the interval of a double rounds to the double.** -/
theorem roundWithAccuracy_eq (hc : Canonical m q) (h : Bounds m q v) (s : Sign)
    {num den mantissa : Nat} {e : Int} {accuracy : Accuracy} (hden : 0 < den)
    (hdescribes : Describes (.ofMantissaAndAccuracy mantissa accuracy) num den)
    (henough : hiddenBit ≤ mantissa ∨ e ≤ -1074) (hv : v = num / den * 2 ^ e) :
    roundWithAccuracy Format.binary64 s mantissa e accuracy = .finite s m q hc.pos := by
  have hmantissa : mantissa = num / den := by
    rw [← hdescribes.mantissa]
    cases accuracy with
    | exact => rfl
    | inexact compared => cases compared <;> rfl
  generalize ht : max ((mantissa.log2 : Int) + 1 + e - 53) (-1074) = t
  obtain ⟨hshort, hlt, hle⟩ := aimed_exponent henough (mantissa_le hden hmantissa hv) ht
  have het : e + ((t - e).toNat : Int) = t := by omega
  have hfirst : shiftToTargetExponent Format.binary64 mantissa e accuracy
      = (ExtendedMantissa.ofMantissaAndAccuracy mantissa accuracy >>> (t - e).toNat, t) := by
    unfold shiftToTargetExponent shiftToExponent
    simp only [targetExponent_eq, totalExponent, ht]
    exact congrArg _ het
  -- what the shift cuts off is described by a denominator that is greater by as many bits
  have hshifted := hdescribes.shiftRight hden (t - e).toNat
  have hden' := Nat.mul_pos hden (Nat.two_pow_pos (t - e).toNat)
  have hv' : v = num / (den * 2 ^ (t - e).toNat : ℕ) * 2 ^ t := by
    rw [hv, ← het, zpow_add_cast two_ne_zero, het]
    push_cast
    field_simp
  unfold roundWithAccuracy
  rw [hfirst]
  dsimp only
  rw [hshifted.roundedMantissa hden']
  -- the exponent aimed at is the one of the double, or one less where rounding up carries over
  obtain rfl | ⟨rfl, rfl⟩ := h.exponent hc (by omega) hlt hle
  · rw [h.roundDiv hden' hv', hc.shift]
    exact dif_neg (Nat.ne_of_gt hc.pos)
  · have hnext : q - 1 + 53 = q + 52 := by omega
    rw [hnext] at hlt
    rw [(h.below (by omega) hlt).roundDiv hden' hv', hc.shift_double]
    rfl

end

end Courier.Decimal
