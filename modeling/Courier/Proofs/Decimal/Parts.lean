import Courier.Decimal.Double
/-!
# Doubles and their parts

A finite double other than zero is a sign, a mantissa and a power of two, and these parts
are `Canonical`: the mantissa has fifty-three bits, or fewer when the exponent is the
least. A double is determined by its parts (`eq_double`), which the arithmetic of doubles
takes it apart into (`Canonical.unpack_double`).
-/

namespace Courier.Decimal

open Float.Model (Format UnpackedFloat)
open Float.Model.UnpackedFloat (Sign pack packComponents unpackExponent unpackMantissa
  unpackExponent_packComponents unpackMantissa_packComponents unpackSign)

/-- **The parts of a double** that is neither zero nor infinite. -/
structure Canonical (m : Nat) (q : Int) : Prop where
  /-- There is something. -/
  pos : 0 < m
  /-- The mantissa has fifty-three bits at most. -/
  lt : m < 2 * hiddenBit
  /-- The exponent is not less than the least. -/
  least : -1074 ≤ q
  /-- The exponent is not greater than the greatest. -/
  greatest : q ≤ 971
  /-- The mantissa has fifty-three bits, unless the exponent is the least. -/
  normal : hiddenBit ≤ m ∨ q = -1074

/-- A sign, by whether it is that of negative numbers. -/
def signOf (negative : Bool) : Sign :=
  if negative then .negative else .positive

/-- **The double of canonical parts.** -/
def Canonical.double {m : Nat} {q : Int} (h : Canonical m q) (negative : Bool) : Float :=
  .ofModel (.pack (.finite (signOf negative) m q h.pos))

/-! ## Bits -/

/-- The bits of a double are those of its parts, one after another. -/
theorem toNat_packComponents (s : Sign) (e : BitVec 11) (f : BitVec 52) :
    (packComponents Format.binary64 s e f).toNat
      = s.toBitVec.toNat * 0x8000000000000000 + e.toNat * 0x10000000000000 + f.toNat := by
  have hfirst : (s.toBitVec ++ e).toNat = s.toBitVec.toNat * 0x800 + e.toNat := by
    rw [BitVec.toNat_append, ← Nat.shiftLeft_add_eq_or_of_lt e.isLt, Nat.shiftLeft_eq]
  have hwhole : (packComponents Format.binary64 s e f).toNat
      = (s.toBitVec ++ e).toNat * 0x10000000000000 + f.toNat := by
    show (s.toBitVec ++ e ++ f).toNat = _
    rw [BitVec.toNat_append, ← Nat.shiftLeft_add_eq_or_of_lt f.isLt, Nat.shiftLeft_eq]
  rw [hwhole, hfirst]
  omega

/-- Doubles with the same bits are the same. -/
theorem eq_of_toBits {x y : Float} (h : x.toBits.toNat = y.toBits.toNat) : x = y := by
  obtain ⟨⟨bits, hx⟩⟩ := x
  obtain ⟨⟨bits', hy⟩⟩ := y
  obtain rfl : bits = bits' := UInt64.toNat_inj.mp h
  rfl

/-- **What the bits of a double say about its size**: the greatest exponent is that of what is
not finite, and the least is that of short mantissas. -/
theorem magnitude_cases (x : Float) :
    (x.toBits.toNat / hiddenBit % 0x800 = 2047 ∧
      ((x.toBits.toNat % hiddenBit = 0 ∧ magnitude x = .infinite) ∨
        (x.toBits.toNat % hiddenBit ≠ 0 ∧ magnitude x = .nan))) ∨
    (x.toBits.toNat / hiddenBit % 0x800 = 0 ∧
      magnitude x = .finite (x.toBits.toNat % hiddenBit) (-1074)) ∨
    (x.toBits.toNat / hiddenBit % 0x800 ≠ 2047 ∧ x.toBits.toNat / hiddenBit % 0x800 ≠ 0 ∧
      magnitude x = .finite (x.toBits.toNat % hiddenBit + hiddenBit)
        ((x.toBits.toNat / hiddenBit % 0x800 : Nat) - 1075)) := by
  unfold magnitude
  dsimp only
  by_cases hgreatest : x.toBits.toNat / hiddenBit % 0x800 = 2047
  · rw [if_pos hgreatest]
    by_cases hfraction : x.toBits.toNat % hiddenBit = 0
    · exact .inl ⟨hgreatest, .inl ⟨hfraction, if_pos hfraction⟩⟩
    · exact .inl ⟨hgreatest, .inr ⟨hfraction, if_neg hfraction⟩⟩
  · rw [if_neg hgreatest]
    by_cases hleast : x.toBits.toNat / hiddenBit % 0x800 = 0
    · exact .inr (.inl ⟨hleast, if_pos hleast⟩)
    · exact .inr (.inr ⟨hgreatest, hleast, if_neg hleast⟩)

theorem log2_of_normal {m : Nat} (h : hiddenBit ≤ m) (hlt : m < 2 * hiddenBit) : m.log2 = 52 :=
  (Nat.log2_eq_iff (by unfold hiddenBit at h; omega)).mpr ⟨h, hlt⟩

theorem log2_of_small {m : Nat} (hm : 0 < m) (h : m < hiddenBit) : m.log2 < 52 :=
  (Nat.log2_lt (Nat.ne_of_gt hm)).mpr h

section

variable {m : Nat} {q : Int}

/-- **The bits of a double** of canonical parts. -/
theorem Canonical.pack_eq (h : Canonical m q) (s : Sign) : pack Format.binary64 (.finite s m q h.pos)
    = if hiddenBit ≤ m then
        packComponents Format.binary64 s (BitVec.ofNat 11 (q + 1075).toNat) (BitVec.ofNat 52 m)
      else packComponents Format.binary64 s 0#11 (BitVec.ofNat 52 m) := by
  have hexponent : (q + Format.binary64.exponentBias + Format.binary64.mantissaBitsWithoutImplicit).toNat
      = (q + 1075).toNat := by
    show (q + 1023 + 52).toNat = _
    omega
  have hbounds := And.intro h.least h.greatest
  unfold pack
  dsimp only
  rw [hexponent, if_neg (by show ¬2048 ≤ (q + 1075).toNat + 1; omega)]
  by_cases hm : hiddenBit ≤ m
  · rw [if_pos hm, if_pos (by rw [log2_of_normal hm h.lt]; rfl)]
  · have hlog := log2_of_small h.pos (Nat.not_le.mp hm)
    rw [if_neg hm, if_neg (by show ¬m.log2 + 1 = 53; omega)]

/-- **The bits of a double, as one number.** -/
theorem Canonical.toNat_toBits (h : Canonical m q) (negative : Bool) :
    (h.double negative).toBits.toNat = (if negative then 0x8000000000000000 else 0)
      + (if hiddenBit ≤ m then (q + 1075).toNat * hiddenBit + (m - hiddenBit) else m) := by
  have hsign : (signOf negative).toBitVec.toNat * 0x8000000000000000
      = if negative then 0x8000000000000000 else 0 := by
    cases negative <;> rfl
  have hbounds := And.intro h.least h.greatest
  have hlt := h.lt
  show (pack Format.binary64 (.finite (signOf negative) m q h.pos)).toNat = _
  rw [h.pack_eq]
  by_cases hm : hiddenBit ≤ m
  · rw [if_pos hm, if_pos hm, toNat_packComponents, hsign, BitVec.toNat_ofNat, BitVec.toNat_ofNat]
    unfold hiddenBit at *
    omega
  · rw [if_neg hm, if_neg hm, toNat_packComponents, hsign, BitVec.toNat_ofNat, BitVec.toNat_ofNat]
    unfold hiddenBit at *
    omega

/-- **A double is that of its parts.** -/
theorem eq_double {x : Float} (hx : magnitude x = .finite m q) (hm : 0 < m) :
    ∃ h : Canonical m q, x = h.double (isNegative x) := by
  have hword : x.toBits.toNat < 0x10000000000000000 := x.toBits.toNat_lt
  obtain ⟨-, ⟨-, hsize⟩ | ⟨-, hsize⟩⟩ | ⟨hleast, hsize⟩ | ⟨hgreatest, hleast, hsize⟩ :=
    magnitude_cases x
  · cases hsize.symm.trans hx
  · cases hsize.symm.trans hx
  · obtain ⟨rfl, rfl⟩ := Magnitude.finite.inj (hsize.symm.trans hx)
    refine ⟨⟨hm, ?_, by decide, by decide, .inr rfl⟩, eq_of_toBits ?_⟩
    · unfold hiddenBit
      omega
    · have hsmall : ¬hiddenBit ≤ x.toBits.toNat % hiddenBit := by
        unfold hiddenBit
        omega
      rw [Canonical.toNat_toBits, if_neg hsmall]
      unfold isNegative hiddenBit at *
      simp only [decide_eq_true_eq]
      split <;> omega
  · obtain ⟨rfl, rfl⟩ := Magnitude.finite.inj (hsize.symm.trans hx)
    refine ⟨⟨hm, ?_, ?_, ?_, .inl (Nat.le_add_left _ _)⟩, eq_of_toBits ?_⟩
    · unfold hiddenBit
      omega
    · omega
    · omega
    · rw [Canonical.toNat_toBits, if_pos (Nat.le_add_left _ _)]
      unfold isNegative hiddenBit at *
      simp only [decide_eq_true_eq]
      split <;> omega

/-! ## Taking apart -/

/-- The sign of a double is found in its bits. -/
theorem unpackSign_packComponents {spec : Format} (s : Sign) (e : BitVec spec.exponentBits)
    (f : BitVec spec.mantissaBitsWithoutImplicit) :
    Sign.ofBitVec (unpackSign (packComponents spec s e f)) = s := by
  have hsign : unpackSign (packComponents spec s e f) = s.toBitVec := by
    ext i hi
    obtain rfl : i = 0 := by omega
    show (BitVec.cast _ (BitVec.extractLsb (spec.mantissaBitsWithoutImplicit + spec.exponentBits)
      (spec.mantissaBitsWithoutImplicit + spec.exponentBits) (s.toBitVec ++ e ++ f)))[0] = _
    simp [BitVec.getLsbD_append, BitVec.getElem_append]
  rw [hsign]
  cases s <;> rfl

theorem finite_congr {s s' : Sign} {m m' : Nat} {q q' : Int} (hs : s = s') (hm : m = m')
    (hq : q = q') (h : 0 < m) :
    UnpackedFloat.finite s m q h = .finite s' m' q' (hm ▸ h) := by
  subst hs hm hq
  rfl

section

variable {spec : Format} {s : Sign} {e : BitVec spec.exponentBits}
  {f : BitVec spec.mantissaBitsWithoutImplicit} {m : Nat} {q : Int}

/-- **A long mantissa** is the fraction with its leading bit. -/
theorem unpack_long (hinfinite : ¬e = -BitVec.ofNat spec.exponentBits 1) (hleast : ¬e = BitVec.ofNat spec.exponentBits 0)
    (hm : 0 < m) (hf : (1#1 ++ f).toNat = m)
    (hq : (e.toNat : Int) - (spec.exponentBias + spec.mantissaBitsWithoutImplicit) = q) :
    UnpackedFloat.unpack spec (packComponents spec s e f) = .finite s m q hm := by
  have hexponent := @unpackExponent_packComponents spec s e f
  have hmantissa := @unpackMantissa_packComponents spec s e f
  unfold UnpackedFloat.unpack
  dsimp only
  rw [if_neg (hexponent.symm ▸ hinfinite), if_neg (hexponent.symm ▸ hleast)]
  exact finite_congr (unpackSign_packComponents s e f) (by rw [hmantissa, hf])
    (by rw [hexponent, hq]) _

/-- **A short mantissa** is the fraction. -/
theorem unpack_short (hfinite : ¬e = -BitVec.ofNat spec.exponentBits 1) (hleast : e = BitVec.ofNat spec.exponentBits 0)
    (hm : 0 < m) (hf : f.toNat = m)
    (hq : (e.toNat : Int) - (spec.exponentBias + spec.mantissaBitsWithoutImplicit) + 1 = q) :
    UnpackedFloat.unpack spec (packComponents spec s e f) = .finite s m q hm := by
  have hexponent := @unpackExponent_packComponents spec s e f
  have hmantissa := @unpackMantissa_packComponents spec s e f
  have hsomething : ¬f = BitVec.ofNat spec.mantissaBitsWithoutImplicit 0 := fun hzero => by
    rw [← hf, hzero] at hm
    exact absurd hm (Nat.lt_irrefl 0)
  unfold UnpackedFloat.unpack
  dsimp only
  rw [if_neg (hexponent.symm ▸ hfinite), if_pos (hexponent.trans hleast),
    dif_neg (hmantissa.symm ▸ hsomething)]
  exact finite_congr (unpackSign_packComponents s e f) (by rw [hmantissa, hf])
    (by rw [hexponent, hq]) _

end

/-- **A double is taken apart into its parts.** -/
theorem Canonical.unpack_double (h : Canonical m q) (negative : Bool) :
    (h.double negative).toModel.unpack = .finite (signOf negative) m q h.pos := by
  have hbounds := And.intro h.least h.greatest
  have hlt := h.lt
  show UnpackedFloat.unpack Format.binary64
    (pack Format.binary64 (.finite (signOf negative) m q h.pos)) = _
  rw [h.pack_eq]
  -- a mantissa with the leading bit is stored without it, under an exponent that is not zero
  by_cases hm : hiddenBit ≤ m
  · have hexponent : (BitVec.ofNat 11 (q + 1075).toNat).toNat = (q + 1075).toNat := by
      rw [BitVec.toNat_ofNat]
      omega
    have hinfinite : BitVec.ofNat 11 (q + 1075).toNat ≠ -1#11 := fun heq => by
      have heq := congrArg BitVec.toNat heq
      rw [hexponent] at heq
      have : (q + 1075).toNat = 2047 := heq
      omega
    have hleast : BitVec.ofNat 11 (q + 1075).toNat ≠ 0#11 := fun heq => by
      have heq := congrArg BitVec.toNat heq
      rw [hexponent] at heq
      have : (q + 1075).toNat = 0 := heq
      omega
    have hmantissa : (1#1 ++ BitVec.ofNat 52 m).toNat = m := by
      rw [BitVec.toNat_append, ← Nat.shiftLeft_add_eq_or_of_lt (BitVec.ofNat 52 m).isLt,
        Nat.shiftLeft_eq]
      show 1 * 0x10000000000000 + m % 0x10000000000000 = m
      unfold hiddenBit at *
      omega
    rw [if_pos hm]
    refine unpack_long hinfinite hleast h.pos hmantissa ?_
    rw [hexponent]
    show _ - (1023 + 52) = _
    omega
  · have hmantissa : (BitVec.ofNat 52 m).toNat = m := by
      rw [BitVec.toNat_ofNat]
      unfold hiddenBit at *
      omega
    obtain rfl := h.normal.resolve_left hm
    rw [if_neg hm]
    exact unpack_short (by decide) rfl h.pos hmantissa rfl

/-- **The double of the other sign** has the same parts. -/
theorem Canonical.negate_double (h : Canonical m q) (negative : Bool) :
    negate negative (h.double false) = h.double negative := by
  cases negative with
  | false => rfl
  | true =>
    show Float.ofModel (.pack (h.double false).toModel.unpack.neg) = _
    rw [h.unpack_double]
    rfl

end

/-! ## Other doubles -/

section

variable {x : Float}

/-- **A zero** has a sign and nothing else. -/
theorem eq_zero {q : Int} (hx : magnitude x = .finite 0 q) : x = negate (isNegative x) 0.0 := by
  have hword : x.toBits.toNat < 0x10000000000000000 := x.toBits.toNat_lt
  have hsign : (negate (isNegative x) 0.0).toBits.toNat
      = if isNegative x then 0x8000000000000000 else 0 := by
    cases isNegative x <;> decide +kernel
  refine eq_of_toBits ?_
  rw [hsign]
  obtain ⟨-, ⟨-, hsize⟩ | ⟨-, hsize⟩⟩ | ⟨hleast, hsize⟩ | ⟨-, -, hsize⟩ := magnitude_cases x
  · cases hsize.symm.trans hx
  · cases hsize.symm.trans hx
  · have hfraction := (Magnitude.finite.inj (hsize.symm.trans hx)).1
    unfold isNegative hiddenBit at *
    simp only [decide_eq_true_eq]
    split <;> omega
  · have hfraction := (Magnitude.finite.inj (hsize.symm.trans hx)).1
    unfold hiddenBit at hfraction
    omega

/-- **An infinity** has a sign and nothing else. -/
theorem eq_infinite (hx : magnitude x = .infinite) :
    x = negate (isNegative x) (Float.ofBits 0x7FF0000000000000) := by
  have hword : x.toBits.toNat < 0x10000000000000000 := x.toBits.toNat_lt
  have hsign : (negate (isNegative x) (Float.ofBits 0x7FF0000000000000)).toBits.toNat
      = (if isNegative x then 0x8000000000000000 else 0) + 0x7FF0000000000000 := by
    cases isNegative x <;> decide +kernel
  refine eq_of_toBits ?_
  rw [hsign]
  obtain ⟨hgreatest, ⟨hfraction, -⟩ | ⟨-, hsize⟩⟩ | ⟨-, hsize⟩ | ⟨-, -, hsize⟩ := magnitude_cases x
  · unfold isNegative hiddenBit at *
    simp only [decide_eq_true_eq]
    split <;> omega
  · cases hsize.symm.trans hx
  · cases hsize.symm.trans hx
  · cases hsize.symm.trans hx

/-- **What is not a number** is one double. -/
theorem eq_nan (hx : magnitude x = .nan) : x = Float.ofBits 0x7FF8000000000000 := by
  obtain ⟨hgreatest, ⟨-, hsize⟩ | ⟨hfraction, -⟩⟩ | ⟨-, hsize⟩ | ⟨-, -, hsize⟩ := magnitude_cases x
  · cases hsize.symm.trans hx
  · have hbits : x.toBits.toBitVec = Float.Model.UnpackedFloat.packedNaN Format.binary64 := by
      refine x.toModel.valid.eq_packedNaN (BitVec.eq_of_toNat_eq ?_) fun hzero => hfraction ?_
      · show (x.toBits.toBitVec.extractLsb 62 52).toNat = 2047
        rw [BitVec.extractLsb_toNat, Nat.shiftRight_eq_div_pow]
        exact hgreatest
      · have hzero := congrArg BitVec.toNat hzero
        have hextract : (x.toBits.toBitVec.extractLsb 51 0).toNat = 0 := hzero
        rw [BitVec.extractLsb_toNat] at hextract
        exact hextract
    refine eq_of_toBits ?_
    show x.toBits.toBitVec.toNat = _
    rw [hbits]
    decide +kernel
  · cases hsize.symm.trans hx
  · cases hsize.symm.trans hx

end

end Courier.Decimal
