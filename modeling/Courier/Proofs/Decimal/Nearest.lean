import Courier.Proofs.Decimal.Rounding
import Courier.Proofs.Decimal.Shortest
import Mathlib.Tactic.Ring
/-!
# The nearest double

A decimal in the interval of a double is read as this double, whatever digits and zeroes it
is written with (`nearest_eq`). There are two ways to it: small numbers go through one
operation on doubles that are exact, and all others through the arithmetic of the model.
Both round once.
-/

namespace Courier.Decimal

open Float.Model (Format UnpackedFloat totalExponent)
open Float.Model.UnpackedFloat (Sign)

section

variable {m : Nat} {q : Int} {v : ℚ}

/-! ## Operations -/

/-- **The quotient of two numbers rounds to the double in whose interval it lies.** -/
theorem Canonical.div_eq (hc : Canonical m q) {s₁ s₂ : Sign} {m₁ m₂ : Nat} {q₁ q₂ : Int}
    (h₁ : 0 < m₁) (h₂ : 0 < m₂) (h : Bounds m q (m₁ / m₂ * 2 ^ (q₁ - q₂))) :
    UnpackedFloat.div Format.binary64 (.finite s₁ m₁ q₁ h₁) (.finite s₂ m₂ q₂ h₂)
      = .finite (s₁ / s₂) m q hc.pos := by
  unfold UnpackedFloat.div UnpackedFloat.divCore
  dsimp only
  rw [targetExponent_eq, totalExponent, totalExponent, Nat.shiftLeft_eq]
  generalize htarget : min (q₁ - q₂)
    (max (↑m₁.log2 + 1 + q₁ - (↑m₂.log2 + 1 + q₂) - 53) (-1074)) = target
  generalize hshift : (q₁ - q₂ - target).toNat = shift
  have hle : target + shift = q₁ - q₂ := by omega
  refine roundWithAccuracy_eq hc h _ h₂ (describes_fraction h₂) ?_ ?_
  · by_cases hleast : target ≤ -1074
    · exact .inr hleast
    · -- the quotient was given fifty-three bits
      refine .inl ((Nat.le_div_iff_mul_le h₂).mpr ?_)
      have hlog : m₂.log2 + 53 ≤ m₁.log2 + shift := by omega
      have hlow := Nat.log2_self_le (Nat.ne_of_gt h₁)
      have hhigh := Nat.lt_log2_self (n := m₂)
      have hpow : 2 ^ 52 * 2 ^ (m₂.log2 + 1) ≤ 2 ^ m₁.log2 * 2 ^ shift := by
        rw [← Nat.pow_add, ← Nat.pow_add]
        exact Nat.pow_le_pow_right (by decide) (by omega)
      calc hiddenBit * m₂ ≤ 2 ^ 52 * 2 ^ (m₂.log2 + 1) := Nat.mul_le_mul_left _ hhigh.le
        _ ≤ 2 ^ m₁.log2 * 2 ^ shift := hpow
        _ ≤ m₁ * 2 ^ shift := Nat.mul_le_mul_right _ hlow
  · rw [← hle, zpow_add₀ two_ne_zero, zpow_natCast]
    push_cast
    ring

/-- **The product of two numbers rounds to the double in whose interval it lies.** -/
theorem Canonical.mul_eq (hc : Canonical m q) {s₁ s₂ : Sign} {m₁ m₂ : Nat} {q₁ q₂ : Int}
    (h₁ : 0 < m₁) (h₂ : 0 < m₂) (hbits : hiddenBit ≤ m₁ * m₂)
    (h : Bounds m q (m₁ * m₂ * 2 ^ (q₁ + q₂))) :
    UnpackedFloat.mul Format.binary64 (.finite s₁ m₁ q₁ h₁) (.finite s₂ m₂ q₂ h₂)
      = .finite (s₁ * s₂) m q hc.pos :=
  roundWithAccuracy_eq hc h _ Nat.one_pos (describes_exact _) (.inl hbits) (by push_cast; ring)

/-! ## Sizes -/

/-- **A number in the interval of a double** is not too large. -/
theorem Bounds.lt (h : Bounds m q v) (hc : Canonical m q) : v < 2 ^ (1024 : Int) := by
  have hm : 4 * m + 2 < 2 ^ 55 := by
    have := hc.lt
    unfold hiddenBit at this
    omega
  have hgreatest := hc.greatest
  exact h.lt_zpow hm (by push_cast; omega)

/-- A number in the interval of a double is not too small. -/
theorem Bounds.le (h : Bounds m q v) (hc : Canonical m q) : 2 ^ (-1075 : Int) ≤ v := by
  have hm : 2 ^ 1 + 2 ≤ 4 * m := by
    have := hc.pos
    omega
  have hleast := hc.least
  exact h.zpow_le hm (by push_cast; omega)

section

variable {n : Nat} {e : Int}

/-- A decimal in the interval of a double is not zero. -/
theorem Bounds.pos (h : Bounds m q (n * 10 ^ e)) (hc : Canonical m q) : 0 < n := by
  refine Nat.pos_of_ne_zero fun hzero => ?_
  have hle := h.le hc
  rw [hzero, Nat.cast_zero, zero_mul] at hle
  exact absurd hle (not_le.mpr (zpow_pos two_pos _))

/-- **A number has as many digits as its size says.** -/
theorem digits_bounds (hn : 0 < n) :
    10 ^ ((digits n).length - 1) ≤ n ∧ n < 10 ^ (digits n).length := by
  have hpos : 0 < (digits n).length := Nat.length_toDigits_pos
  refine ⟨Nat.not_lt.mp fun hlt => ?_, (Nat.length_toDigits_le_iff (by decide) hpos).mp le_rfl⟩
  obtain hone | hmore := Nat.eq_zero_or_pos ((digits n).length - 1)
  · rw [hone] at hlt
    omega
  · have hle := (Nat.length_toDigits_le_iff (by decide) hmore).mpr hlt
    have : (digits n).length ≤ (digits n).length - 1 := hle
    omega

/-- Four hundred digits are enough for every double. -/
theorem two_zpow_le : (2 : ℚ) ^ (1075 : Int) ≤ 10 ^ (400 : Int) := by
  have hpart : (2 : ℚ) ^ 43 ≤ 10 ^ 16 := by norm_num
  have hwhole := pow_le_pow_left₀ (by norm_num) hpart 25
  rw [← pow_mul, ← pow_mul, ← zpow_natCast, ← zpow_natCast] at hwhole
  exact hwhole

/-- **A decimal in the interval of a double is neither too long nor too short.** -/
theorem Bounds.size (h : Bounds m q (n * 10 ^ e)) (hc : Canonical m q) :
    (digits n).length + e ≤ 400 ∧ -400 ≤ (digits n).length + e := by
  obtain ⟨hlow, hhigh⟩ := digits_bounds (h.pos hc)
  have hpos : 0 < (digits n).length := Nat.length_toDigits_pos
  have hscale : (0 : ℚ) < 10 ^ e := zpow_pos (by norm_num) _
  have hpow : ∀ k : ℕ, (10 : ℚ) ^ (e + k) = 10 ^ k * 10 ^ e := zpow_add_cast (by norm_num) e
  have hmono : ∀ {i j : Int}, i ≤ j → (10 : ℚ) ^ i ≤ 10 ^ j := fun hij =>
    zpow_le_zpow_right₀ (by norm_num) hij
  constructor
  · by_contra hlong
    refine absurd (h.lt hc) (not_lt.mpr ?_)
    calc (2 : ℚ) ^ (1024 : Int) ≤ 2 ^ (1075 : Int) := zpow_le_zpow_right₀ one_le_two (by decide)
      _ ≤ 10 ^ (400 : Int) := two_zpow_le
      _ ≤ 10 ^ (e + ((digits n).length - 1 : ℕ)) := hmono (by omega)
      _ = 10 ^ ((digits n).length - 1) * 10 ^ e := hpow _
      _ ≤ n * 10 ^ e := mul_le_mul_of_nonneg_right (by exact_mod_cast hlow) hscale.le
  · by_contra hshort
    refine absurd (h.le hc) (not_le.mpr ?_)
    calc (n : ℚ) * 10 ^ e < 10 ^ (digits n).length * 10 ^ e :=
        mul_lt_mul_of_pos_right (by exact_mod_cast hhigh) hscale
      _ = 10 ^ (e + (digits n).length) := (hpow _).symm
      _ ≤ 10 ^ (-400 : Int) := hmono (by omega)
      _ ≤ 2 ^ (-1075 : Int) := by
        rw [zpow_neg, zpow_neg]
        exact inv_anti₀ (zpow_pos two_pos _) two_zpow_le

/-! ## Reading a decimal -/

/-- **The arithmetic of the model** reads a decimal as the double in whose interval it lies. -/
theorem Canonical.ofScientific_eq (hc : Canonical m q) (h : Bounds m q (n * 10 ^ e)) :
    UnpackedFloat.ofScientific Format.binary64 n e = .finite .positive m q hc.pos := by
  have hn := h.pos hc
  have hsize := h.size hc
  have hpos : 0 < (digits n).length := Nat.length_toDigits_pos
  have hlog : (digits n).length ≤ n.log2 + 1 := by
    refine (Nat.length_toDigits_le_iff (by decide) (Nat.succ_pos _)).mpr ?_
    exact Nat.lt_of_lt_of_le Nat.lt_log2_self (Nat.pow_le_pow_left (by decide) _)
  -- an exponent that is out of all bounds is looked at first, and this one is within them
  have hlarge : ¬e > 2 ^ Format.binary64.exponentBits := by
    show ¬e > 2048
    omega
  have hsmall : ¬e < -((2 ^ Format.binary64.exponentBits : Int) + n.log2) := by
    show ¬e < -(2048 + (n.log2 : Int))
    omega
  unfold UnpackedFloat.ofScientific
  rw [dif_neg (Nat.ne_of_gt hn), if_neg hlarge, if_neg hsmall]
  -- the mantissa is multiplied by the power of ten, or divided by it
  by_cases he : 0 ≤ e
  · rw [if_pos he]
    have hpower : 0 < 10 ^ e.toNat := Nat.pow_pos (by decide)
    refine hc.mul_eq _ hpower ?_ ?_
    · rw [Nat.shiftLeft_eq]
      calc hiddenBit ≤ 1 * 2 ^ 53 * 1 := by decide
        _ ≤ n * 2 ^ 53 * 10 ^ e.toNat :=
          Nat.mul_le_mul (Nat.mul_le_mul_right _ hn) hpower
    · have hvalue : ((n <<< 53 : ℕ) : ℚ) * (10 ^ e.toNat : ℕ) * 2 ^ (-53 + 0 : Int)
          = n * 10 ^ e := by
        have hexponent : (10 : ℚ) ^ e = 10 ^ e.toNat := by
          rw [← zpow_natCast, Int.toNat_of_nonneg he]
        rw [hexponent, Nat.shiftLeft_eq]
        push_cast
        norm_num
        ring
      rwa [← hvalue] at h
  · rw [if_neg he]
    refine hc.div_eq _ _ ?_
    have hvalue : (n : ℚ) / (10 ^ (-e).toNat : ℕ) * 2 ^ (0 - 0 : Int) = n * 10 ^ e := by
      have hexponent : (10 : ℚ) ^ e = (10 ^ (-e).toNat)⁻¹ := by
        rw [← zpow_natCast, Int.toNat_of_nonneg (by omega), zpow_neg, inv_inv]
      rw [hexponent]
      push_cast
      norm_num
      ring
    rwa [← hvalue] at h

/-! ## Small numbers -/

/-- A number of fifty-three bits at most, with as many zeroes behind it as it takes. -/
theorem canonical_of_lt {k : Int} (hn : 0 < n) (hlt : n < 2 * hiddenBit) (hleast : -1022 ≤ k)
    (hgreatest : k ≤ 971) :
    Canonical (n * 2 ^ (52 - n.log2)) (k - (52 - n.log2 : ℕ)) := by
  have hlog : n.log2 < 53 := (Nat.log2_lt (Nat.ne_of_gt hn)).mpr hlt
  have hpow : ∀ i, 2 ^ (i + n.log2) * 2 ^ (52 - n.log2) = 2 ^ (52 + i) := fun i => by
    rw [← Nat.pow_add]
    exact congrArg _ (by omega)
  have hlow : hiddenBit ≤ n * 2 ^ (52 - n.log2) := by
    calc hiddenBit = 2 ^ (0 + n.log2) * 2 ^ (52 - n.log2) := (hpow 0).symm
      _ ≤ n * 2 ^ (52 - n.log2) := Nat.mul_le_mul_right _ (by
        rw [Nat.zero_add]
        exact Nat.log2_self_le (Nat.ne_of_gt hn))
  refine ⟨Nat.mul_pos hn (Nat.two_pow_pos _), ?_, by omega, by omega, .inl hlow⟩
  calc n * 2 ^ (52 - n.log2) < 2 ^ (1 + n.log2) * 2 ^ (52 - n.log2) :=
      Nat.mul_lt_mul_of_pos_right (by rw [Nat.add_comm]; exact Nat.lt_log2_self) (Nat.two_pow_pos _)
    _ = 2 * hiddenBit := hpow 1

/-- A double is in its own interval. -/
theorem bounds_self (m : Nat) (q : Int) : Bounds m q (m * 2 ^ q) := by
  have hscale : (0 : ℚ) < 2 ^ (q - 2) := zpow_pos two_pos _
  have hpow : (2 : ℚ) ^ q = 4 * 2 ^ (q - 2) := by
    rw [zpow_sub₀ two_ne_zero]
    norm_num
    ring
  rw [hpow]
  refine ⟨?_, ?_, fun _ _ => ?_, fun _ => ⟨?_, ?_⟩⟩ <;> linarith

/-- **A number of fifty-three bits at most is a double.** -/
theorem toFloat_eq (hn : 0 < n) (hlt : n < 2 * hiddenBit) :
    n.toUInt64.toFloat
      = (canonical_of_lt (k := 0) hn hlt (by decide) (by decide)).double false := by
  have hc := canonical_of_lt (k := 0) hn hlt (by decide) (by decide)
  have hword : n.toUInt64.toNat = n := by
    show n % 2 ^ 64 = n
    unfold hiddenBit at hlt
    omega
  have hlog : n.log2 < 53 := (Nat.log2_lt (Nat.ne_of_gt hn)).mpr hlt
  have hshift : (0 - Format.binary64.targetExponent (totalExponent n 0)).toNat = 52 - n.log2 := by
    rw [targetExponent_eq, totalExponent]
    omega
  have hround : UnpackedFloat.round Format.binary64 .positive n 0
      = .finite .positive (n * 2 ^ (52 - n.log2)) (0 - (52 - n.log2 : ℕ)) hc.pos := by
    unfold UnpackedFloat.round UnpackedFloat.decreaseExponent
    dsimp only
    rw [hshift, Nat.shiftLeft_eq]
    exact roundWithAccuracy_eq hc (bounds_self _ _) _ Nat.one_pos (describes_exact _)
      (.inl (hc.normal.resolve_right (by omega))) (by push_cast; ring)
  have hpos : compare (n : Int) 0 = .gt := compare_gt_iff_gt.mpr (Int.natCast_pos.mpr hn)
  show Float.ofModel (.pack (UnpackedFloat.normalize Format.binary64 n.toUInt64.toNat 0 .positive)) = _
  rw [hword, UnpackedFloat.normalize, hpos]
  exact congrArg (fun u => Float.ofModel (.pack u)) hround

/-- The value of a number with zeroes behind it. -/
theorem cast_mul_two_pow (n j : Nat) (k : Int) :
    ((n * 2 ^ j : ℕ) : ℚ) * 2 ^ (k - j) = n * 2 ^ k := by
  rw [zpow_sub₀ two_ne_zero, zpow_natCast]
  push_cast
  field_simp

theorem cast_whole (n : Nat) :
    ((n * 2 ^ (52 - n.log2) : ℕ) : ℚ) * 2 ^ (0 - (52 - n.log2 : ℕ) : Int) = n := by
  rw [cast_mul_two_pow, zpow_zero, mul_one]

/-- A power of ten of at most twenty-two zeroes is a power of five times one of two. -/
theorem canonical_powerOfTen {k : Nat} (hk : k ≤ 22) :
    Canonical (5 ^ k * 2 ^ (52 - (5 ^ k).log2)) (k - (52 - (5 ^ k).log2 : ℕ)) := by
  have hlt : 5 ^ k < 2 * hiddenBit :=
    calc 5 ^ k ≤ 5 ^ 22 := Nat.pow_le_pow_right (by decide) hk
      _ < 2 * hiddenBit := by decide
  exact canonical_of_lt (Nat.pow_pos (by decide)) hlt (by omega) (by omega)

/-- Its value. -/
theorem cast_powerOfTen (k : Nat) :
    ((5 ^ k * 2 ^ (52 - (5 ^ k).log2) : ℕ) : ℚ) * 2 ^ (k - (52 - (5 ^ k).log2 : ℕ) : Int)
      = 10 ^ k := by
  rw [cast_mul_two_pow, zpow_natCast]
  push_cast
  rw [← mul_pow]
  norm_num

/-- **Powers of ten that are doubles** are found in a table. -/
theorem powerOfTen_eq {k : Nat} (hk : k ≤ 22) (hsize : k < Float.exactlyRepresentablePowersOfTen.size) :
    Float.exactlyRepresentablePowersOfTen[k] = (canonical_powerOfTen hk).double false := by
  have htable : ∀ k : Fin 23, Float.exactlyRepresentablePowersOfTen[k] = .ofModel (.pack
      (.finite .positive (5 ^ k.val * 2 ^ (52 - (5 ^ k.val).log2))
        (k.val - (52 - (5 ^ k.val).log2 : ℕ)) (by positivity))) := by
    decide +kernel
  exact htable ⟨k, Nat.lt_succ_of_le hk⟩

section

variable {m₁ m₂ : Nat} {q₁ q₂ : Int}

/-- **The quotient of two doubles is the double in whose interval it lies.** -/
theorem Canonical.div_double (hc : Canonical m q) (h₁ : Canonical m₁ q₁) (h₂ : Canonical m₂ q₂)
    (h : Bounds m q (m₁ * 2 ^ q₁ / (m₂ * 2 ^ q₂))) :
    h₁.double false / h₂.double false = hc.double false := by
  have hvalue : (m₁ * 2 ^ q₁ / (m₂ * 2 ^ q₂) : ℚ) = m₁ / m₂ * 2 ^ (q₁ - q₂) := by
    rw [zpow_sub₀ two_ne_zero, mul_div_mul_comm]
  show Float.ofModel (.pack (UnpackedFloat.div Format.binary64
    (h₁.double false).toModel.unpack (h₂.double false).toModel.unpack)) = _
  rw [h₁.unpack_double, h₂.unpack_double, hc.div_eq h₁.pos h₂.pos (hvalue ▸ h)]
  rfl

/-- **The product of two doubles is the double in whose interval it lies.** -/
theorem Canonical.mul_double (hc : Canonical m q) (h₁ : Canonical m₁ q₁) (h₂ : Canonical m₂ q₂)
    (hbits : hiddenBit ≤ m₁) (h : Bounds m q (m₁ * 2 ^ q₁ * (m₂ * 2 ^ q₂))) :
    h₁.double false * h₂.double false = hc.double false := by
  have hvalue : (m₁ * 2 ^ q₁ * (m₂ * 2 ^ q₂) : ℚ) = m₁ * m₂ * 2 ^ (q₁ + q₂) := by
    rw [zpow_add₀ two_ne_zero, mul_mul_mul_comm]
  show Float.ofModel (.pack (UnpackedFloat.mul Format.binary64
    (h₁.double false).toModel.unpack (h₂.double false).toModel.unpack)) = _
  rw [h₁.unpack_double, h₂.unpack_double, hc.mul_eq h₁.pos h₂.pos
    (Nat.le_trans hbits (Nat.le_mul_of_pos_right _ h₂.pos)) (hvalue ▸ h)]
  rfl

end

/-- **A decimal is read as the double in whose interval it lies**, by one operation on doubles
or by the arithmetic of the model. -/
theorem Canonical.float_ofScientific_eq (hc : Canonical m q) {negative : Bool} {k : Nat}
    (he : e = if negative then -(k : Int) else k) (h : Bounds m q (n * 10 ^ e)) :
    Float.ofScientific n negative k = hc.double false := by
  have hn := h.pos hc
  unfold Float.ofScientific
  -- short mantissas with small exponents take the fast path, one operation on doubles
  split
  · next hsmall =>
    obtain ⟨hlt, hk⟩ := hsmall
    have hsize : k < Float.exactlyRepresentablePowersOfTen.size := Nat.lt_succ_of_le hk
    have hwhole := canonical_of_lt (k := 0) hn hlt (by decide) (by decide)
    show (if negative then n.toUInt64.toFloat / Float.exactlyRepresentablePowersOfTen[k]
      else n.toUInt64.toFloat * Float.exactlyRepresentablePowersOfTen[k]) = _
    rw [powerOfTen_eq hk hsize, toFloat_eq hn hlt]
    cases negative with
    | true =>
      refine hc.div_double hwhole (canonical_powerOfTen hk) ?_
      rw [cast_whole, cast_powerOfTen]
      rw [if_pos rfl] at he
      rw [he, zpow_neg, zpow_natCast] at h
      exact h
    | false =>
      refine hc.mul_double hwhole (canonical_powerOfTen hk)
        (hwhole.normal.resolve_right (by omega)) ?_
      rw [cast_whole, cast_powerOfTen]
      rw [if_neg Bool.false_ne_true] at he
      rw [he, zpow_natCast] at h
      exact h
  · have hexponent : (if negative then Int.negOfNat k else Int.ofNat k) = e := by
      rw [he]
      cases negative
      · rfl
      · exact Int.negOfNat_eq
    dsimp only
    rw [hexponent]
    exact congrArg (fun u => Float.ofModel (.pack u)) (hc.ofScientific_eq h)

/-- **A decimal in the interval of a double is read as the double.** -/
theorem Canonical.nearest_eq (hc : Canonical m q) (h : Bounds m q (n * 10 ^ e)) :
    nearest n e = hc.double false := by
  obtain ⟨hlong, hshort⟩ := h.size hc
  unfold nearest
  dsimp only
  rw [if_neg (Nat.ne_of_gt (h.pos hc)), if_neg (by omega), if_neg (by omega)]
  split
  · exact hc.float_ofScientific_eq (by rw [if_pos rfl]; omega) h
  · exact hc.float_ofScientific_eq (by rw [if_neg Bool.false_ne_true]; omega) h

/-- **A short number over a short power of ten** is the double in whose interval their quotient
lies: both of them are doubles. -/
theorem Canonical.ofNat_div_nearest {k : Nat} (hc : Canonical m q) (hlt : n < 2 * hiddenBit)
    (hk : k ≤ 22) (h : Bounds m q (n * 10 ^ (-k : Int))) :
    Float.ofNat n / nearest 1 k = hc.double false := by
  have hn := h.pos hc
  have hwhole := canonical_of_lt (k := 0) hn hlt (by decide) (by decide)
  have hself := bounds_self (n * 2 ^ (52 - n.log2)) (0 - (52 - n.log2 : ℕ))
  rw [cast_whole] at hself
  have hnumber : Float.ofNat n = hwhole.double false := by
    refine hwhole.float_ofScientific_eq (e := 0) rfl ?_
    rwa [zpow_zero, mul_one]
  have hpower : nearest 1 k = (canonical_powerOfTen hk).double false := by
    refine (canonical_powerOfTen hk).nearest_eq ?_
    have hten := bounds_self (5 ^ k * 2 ^ (52 - (5 ^ k).log2)) (k - (52 - (5 ^ k).log2 : ℕ))
    rw [cast_powerOfTen] at hten
    rwa [Nat.cast_one, one_mul, zpow_natCast]
  rw [hnumber, hpower]
  refine hc.div_double hwhole (canonical_powerOfTen hk) ?_
  rw [cast_whole, cast_powerOfTen]
  rwa [zpow_neg, zpow_natCast] at h

end

end

/-! ## The shortest decimal -/

theorem zpow_mul_toNat {b : ℚ} (hb : b ≠ 0) (i : Int) : b ^ i * b ^ (-i).toNat = b ^ i.toNat := by
  rw [← zpow_natCast, ← zpow_natCast, ← zpow_add₀ hb]
  exact congrArg _ (by omega)

/-- **A point of a grid that is within an interval** is a number in it. -/
theorem Around.Within.holds {a : Around} {k : Int} {d : Nat} (h : a.Within k d) :
    a.Holds (d * 10 ^ k) := by
  -- both sides are compared after multiplying by the two denominators
  have hscale : (0 : ℚ) < 2 ^ (-a.scale).toNat * 10 ^ (-k).toNat := by positivity
  have hup : ∀ i : Nat, ((i * a.up k : ℕ) : ℚ)
      = i * 2 ^ a.scale * (2 ^ (-a.scale).toNat * 10 ^ (-k).toNat) := fun i => by
    have hcast : a.up k = 2 ^ a.scale.toNat * 10 ^ (-k).toNat := rfl
    rw [hcast]
    push_cast
    rw [← zpow_mul_toNat two_ne_zero]
    ring
  have hunit : ((d * a.unit k : ℕ) : ℚ)
      = d * 10 ^ k * (2 ^ (-a.scale).toNat * 10 ^ (-k).toNat) := by
    have hcast : a.unit k = 2 ^ (-a.scale).toNat * 10 ^ k.toNat := rfl
    rw [hcast]
    push_cast
    rw [← zpow_mul_toNat (by norm_num : (10 : ℚ) ≠ 0)]
    ring
  unfold Around.Within at h
  unfold Around.Holds
  split at h
  · next hclosed =>
    simp only [← @Nat.cast_le ℚ, hup, hunit, mul_le_mul_iff_of_pos_right hscale] at h
    rwa [if_pos hclosed]
  · next hopen =>
    simp only [← @Nat.cast_lt ℚ, hup, hunit, mul_lt_mul_iff_of_pos_right hscale] at h
    rwa [if_neg hopen]

/-- **The shortest decimal of a double is in its interval**, with any number of zeroes behind it. -/
theorem Canonical.bounds_shortest {m : Nat} {q : Int} (hc : Canonical m q) (k : Nat) :
    Bounds m q (((shortest m q).coefficient * 10 ^ k : ℕ) * 10 ^ ((shortest m q).exponent - k)) := by
  have hholds := (within_shortest hc.pos hc.least).holds.bounds hc.pos
  have hvalue : (((shortest m q).coefficient * 10 ^ k : ℕ) : ℚ) * 10 ^ ((shortest m q).exponent - k)
      = (shortest m q).coefficient * 10 ^ (shortest m q).exponent := by
    rw [zpow_sub₀ (by norm_num), zpow_natCast]
    push_cast
    field_simp
  rwa [hvalue]

/-- **The shortest decimal of a double is read as the double**, with any number of zeroes behind
it. -/
theorem Canonical.nearest_shortest {m : Nat} {q : Int} (hc : Canonical m q) (k : Nat) :
    nearest ((shortest m q).coefficient * 10 ^ k) ((shortest m q).exponent - k)
      = hc.double false :=
  hc.nearest_eq (hc.bounds_shortest k)

end Courier.Decimal
