import Courier.Decimal.Double
/-!
# Doubles in their order

Two doubles that are numbers are comparable, and either way of comparing them says the
same (`exists_compare`). So of numbers one is at most the other exactly when the other is
not less (`le_iff_not_lt`). What is not a number is neither less than anything nor at
most anything, and nothing is so compared with it (`not_lt_of_isNaN`, `not_le_of_isNaN`).
-/

namespace Courier.Decimal

open Float.Model (UnpackedFloat)

/-- **Parts of numbers are comparable**, and the other way round the comparison is turned. -/
theorem exists_compare {a b : UnpackedFloat} (ha : a ≠ .notANumber) (hb : b ≠ .notANumber) :
    ∃ o, a.compare b = some o ∧ b.compare a = some o.swap := by
  cases a with
  | notANumber => exact absurd rfl ha
  | infinity s =>
    cases b with
    | notANumber => exact absurd rfl hb
    | infinity s' => cases s <;> cases s' <;> exact ⟨_, rfl, rfl⟩
    | zero s' => cases s <;> exact ⟨_, rfl, rfl⟩
    | finite s' m' q' h' => cases s <;> cases s' <;> exact ⟨_, rfl, rfl⟩
  | zero s =>
    cases b with
    | notANumber => exact absurd rfl hb
    | infinity s' => cases s' <;> exact ⟨_, rfl, rfl⟩
    | zero s' => exact ⟨_, rfl, rfl⟩
    | finite s' m' q' h' => cases s' <;> exact ⟨_, rfl, rfl⟩
  | finite s m q h =>
    cases b with
    | notANumber => exact absurd rfl hb
    | infinity s' => cases s <;> cases s' <;> exact ⟨_, rfl, rfl⟩
    | zero s' => cases s <;> exact ⟨_, rfl, rfl⟩
    | finite s' m' q' h' =>
      -- the exponents are compared first, and then the mantissas
      have hturned : (compare q' q).then (compare m' m)
          = ((compare q q').then (compare m m')).swap := by
        rw [Ordering.swap_then, ← Std.OrientedCmp.eq_swap, ← Std.OrientedCmp.eq_swap]
      cases s <;> cases s'
      · exact ⟨_, rfl, congrArg some (congrArg Ordering.swap hturned)⟩
      · exact ⟨_, rfl, rfl⟩
      · exact ⟨_, rfl, rfl⟩
      · exact ⟨_, rfl, congrArg some hturned⟩

variable {x y : Float}

/-- What is not a number is taken apart into that. -/
theorem isNaN_iff : x.isNaN = true ↔ x.toModel.unpack = .notANumber := by
  show x.toModel.unpack.isNaN = true ↔ _
  cases x.toModel.unpack with
  | notANumber => exact ⟨fun _ => rfl, fun _ => rfl⟩
  | infinity | zero | finite =>
    exact ⟨fun h => Bool.noConfusion h, fun h => UnpackedFloat.noConfusion h⟩

theorem isNaN_eq_false_iff : x.isNaN = false ↔ x.toModel.unpack ≠ .notANumber := by
  rw [← Bool.not_eq_true, isNaN_iff]

/-- Doubles are compared by their parts. -/
theorem lt_iff : x < y ↔ x.toModel.unpack.compare y.toModel.unpack = some .lt := by
  show decide ((x.toModel.unpack.compare y.toModel.unpack == some .lt) = true) = true ↔ _
  rw [decide_eq_true_eq, beq_iff_eq]

/-- And so they are for the other comparison. -/
theorem le_iff : x ≤ y ↔ ∃ o, x.toModel.unpack.compare y.toModel.unpack = some o ∧ o ≠ .gt := by
  show decide ((x.toModel.unpack.compare y.toModel.unpack).any (·.isLE) = true) = true ↔ _
  rw [decide_eq_true_eq]
  cases x.toModel.unpack.compare y.toModel.unpack with
  | none => simp
  | some o => cases o <;> simp

/-- **A number is at most another** when the other is not less. -/
theorem le_iff_not_lt (hx : x.isNaN = false) (hy : y.isNaN = false) : y ≤ x ↔ ¬ x < y := by
  obtain ⟨o, hxy, hyx⟩ := exists_compare (isNaN_eq_false_iff.mp hx) (isNaN_eq_false_iff.mp hy)
  rw [le_iff, lt_iff, hxy, hyx]
  cases o <;> simp

/-- What is not a number is compared with nothing. -/
theorem compare_of_isNaN (hx : x.isNaN = true) : x.toModel.unpack.compare y.toModel.unpack = none ∧
    y.toModel.unpack.compare x.toModel.unpack = none := by
  rw [isNaN_iff.mp hx]
  cases y.toModel.unpack with
  | notANumber => exact ⟨rfl, rfl⟩
  | infinity s => cases s <;> exact ⟨rfl, rfl⟩
  | zero s => exact ⟨rfl, rfl⟩
  | finite s m q h => cases s <;> exact ⟨rfl, rfl⟩

/-- **What is not a number is not less** than anything. -/
theorem not_lt_of_isNaN (hx : x.isNaN = true) : ¬ x < y := by
  rw [lt_iff, (compare_of_isNaN hx).1]
  exact fun h => by cases h

/-- **Nothing is at most** what is not a number. -/
theorem not_le_of_isNaN (hx : x.isNaN = true) : ¬ y ≤ x := by
  rw [le_iff, (compare_of_isNaN hx).2]
  rintro ⟨o, h, -⟩
  cases h

end Courier.Decimal
