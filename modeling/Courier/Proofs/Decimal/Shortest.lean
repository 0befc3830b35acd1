import Courier.Decimal.Shortest
import Mathlib.Tactic.SplitIfs
/-!
# The shortest decimal lies in the interval of its double

What the search through the grids finds lies in the interval of the double it is for
(`Around.within_search`), so it is no zero unless the double is one.
-/

namespace Courier.Decimal

namespace Around

/-- What the numbers of an interval are taken times to compare them with those of a grid. -/
def up (a : Around) (k : Int) : Nat :=
  Nat.pow 2 a.scale.toNat * Nat.pow 10 (-k).toNat

/-- What the numbers of a grid are taken times to compare them with those of an interval. -/
def unit (a : Around) (k : Int) : Nat :=
  Nat.pow 2 (-a.scale).toNat * Nat.pow 10 k.toNat

/-- **A point of the grid of `10 ^ k` in the interval.** -/
def Within (a : Around) (k : Int) (d : Nat) : Prop :=
  if a.closed then a.low * a.up k ≤ d * a.unit k ∧ d * a.unit k ≤ a.high * a.up k
  else a.low * a.up k < d * a.unit k ∧ d * a.unit k < a.high * a.up k

instance (a : Around) (k : Int) (d : Nat) : Decidable (a.Within k d) := by
  unfold Within
  exact inferInstance

/-- **What is found on a grid is one of two neighbours of the double**, and in the interval;
and nothing is found when neither of them is. -/
theorem onGrid_cases (a : Around) (k : Int) :
    (∃ d, a.onGrid k = some d ∧ a.Within k d) ∨
      (a.onGrid k = none ∧ ¬a.Within k (a.centre * a.up k / a.unit k) ∧
        ¬a.Within k (a.centre * a.up k / a.unit k + 1)) := by
  -- the search compares both ends as one of two tests, depending on whether they belong to it
  have hfits : ∀ d, (if a.closed then
      decide (a.low * (Nat.pow 2 a.scale.toNat * Nat.pow 10 (-k).toNat)
        ≤ d * (Nat.pow 2 (-a.scale).toNat * Nat.pow 10 k.toNat)) &&
      decide (d * (Nat.pow 2 (-a.scale).toNat * Nat.pow 10 k.toNat)
        ≤ a.high * (Nat.pow 2 a.scale.toNat * Nat.pow 10 (-k).toNat))
      else decide (a.low * (Nat.pow 2 a.scale.toNat * Nat.pow 10 (-k).toNat)
        < d * (Nat.pow 2 (-a.scale).toNat * Nat.pow 10 k.toNat)) &&
      decide (d * (Nat.pow 2 (-a.scale).toNat * Nat.pow 10 k.toNat)
        < a.high * (Nat.pow 2 a.scale.toNat * Nat.pow 10 (-k).toNat))) = decide (a.Within k d) := by
    intro d
    rw [Bool.eq_iff_iff, decide_eq_true_iff]
    unfold Within
    cases a.closed with
    | true => simp only [if_true, Bool.and_eq_true, decide_eq_true_eq]; rfl
    | false => simp only [Bool.false_eq_true, if_false, Bool.and_eq_true, decide_eq_true_eq]; rfl
  have hgrid : ∀ d, a.onGrid k = some d → a.Within k d := by
    intro d
    unfold onGrid
    dsimp only
    simp only [hfits]
    split
    · next hbelow habove =>
      have hbelow := of_decide_eq_true hbelow
      have habove := of_decide_eq_true habove
      split_ifs <;> rintro ⟨⟩ <;> assumption
    · next hbelow _ =>
      rintro ⟨⟩
      exact of_decide_eq_true hbelow
    · next _ habove =>
      rintro ⟨⟩
      exact of_decide_eq_true habove
    · rintro ⟨⟩
  have hnone : a.onGrid k = none → ¬a.Within k (a.centre * a.up k / a.unit k) ∧
      ¬a.Within k (a.centre * a.up k / a.unit k + 1) := by
    unfold onGrid
    dsimp only
    simp only [hfits]
    split
    · split_ifs <;> rintro ⟨⟩
    · rintro ⟨⟩
    · rintro ⟨⟩
    · next hbelow habove =>
      exact fun _ => ⟨of_decide_eq_false hbelow, of_decide_eq_false habove⟩
  cases hd : a.onGrid k with
  | some d => exact .inl ⟨d, rfl, hgrid d hd⟩
  | none => exact .inr ⟨rfl, hnone hd⟩

/-- **What a search finds** lies on one of its grids and in the interval. -/
theorem within_search (a : Around) : ∀ (steps : Nat) (k : Int) {p : Point},
    a.search steps k = some p → p.exponent ≤ k ∧ k < p.exponent + steps ∧
      a.Within p.exponent p.coefficient := by
  intro steps
  induction steps with
  | zero => exact fun _ _ h => nomatch h
  | succ steps ih =>
    intro k p h
    unfold search at h
    obtain ⟨d, hd, hwithin⟩ | ⟨hnone, -⟩ := a.onGrid_cases k
    · rw [hd] at h
      cases h
      exact ⟨Int.le_refl k, Int.lt_add_of_pos_right k (Int.natCast_pos.mpr (Nat.succ_pos steps)),
        hwithin⟩
    · rw [hnone] at h
      obtain ⟨hle, hlt, hwithin⟩ := ih (k - 1) h
      exact ⟨by omega, by omega, hwithin⟩

/-- **A search finds something** when one of its grids has a hit. -/
theorem isSome_search (a : Around) : ∀ (steps : Nat) (k : Int) (j : Nat), j < steps →
    a.onGrid (k - j) ≠ none → ∃ p, a.search steps k = some p := by
  intro steps
  induction steps with
  | zero => exact fun _ j hj => absurd hj (Nat.not_lt_zero j)
  | succ steps ih =>
    intro k j hj hhit
    unfold search
    cases hd : a.onGrid k with
    | some d => exact ⟨_, rfl⟩
    | none =>
      cases j with
      | zero => exact absurd hd (by rwa [Int.natCast_zero, Int.sub_zero] at hhit)
      | succ j =>
        refine ih (k - 1) j (Nat.lt_of_succ_lt_succ hj) ?_
        rwa [Int.natCast_succ, Int.add_comm, ← Int.sub_sub] at hhit

theorem up_pos (a : Around) (k : Int) : 0 < a.up k :=
  Nat.mul_pos (Nat.two_pow_pos _) (Nat.pow_pos (by decide))

theorem unit_pos (a : Around) (k : Int) : 0 < a.unit k :=
  Nat.mul_pos (Nat.two_pow_pos _) (Nat.pow_pos (by decide))

/-- A grid is fine enough when it has four digits for thirteen bits of the interval. -/
theorem unit_le_up {a : Around} {k : Int} {j : Nat} (hscale : (-a.scale).toNat ≤ 13 * j)
    (hk : k.toNat = 0) (hj : 4 * j ≤ (-k).toNat) : a.unit k ≤ a.up k :=
  calc a.unit k = Nat.pow 2 (-a.scale).toNat := by
        rw [unit, hk]
        exact Nat.mul_one _
    _ ≤ Nat.pow 2 (13 * j) := Nat.pow_le_pow_right (by decide) hscale
    _ = Nat.pow (Nat.pow 2 13) j := Nat.pow_mul 2 13 j
    _ ≤ Nat.pow (Nat.pow 10 4) j := Nat.pow_le_pow_left (by decide) j
    _ = Nat.pow 10 (4 * j) := (Nat.pow_mul 10 4 j).symm
    _ ≤ Nat.pow 10 (-k).toNat := Nat.pow_le_pow_right (by decide) hj
    _ ≤ a.up k := Nat.le_mul_of_pos_left _ (Nat.two_pow_pos _)

/-- **A grid that is fine enough has a hit**: the neighbour below the double. -/
theorem within_of_fine {a : Around} {k : Int} (hfine : a.unit k ≤ a.up k) (hlow : a.low < a.centre)
    (hhigh : a.centre < a.high) : a.Within k (a.centre * a.up k / a.unit k) := by
  have hbelow := Nat.div_mul_le_self (a.centre * a.up k) (a.unit k)
  have habove := Nat.lt_div_mul_add (a.unit_pos k) (a := a.centre * a.up k)
  have hlow := Nat.mul_le_mul_right (a.up k) hlow
  have hhigh := Nat.mul_lt_mul_of_pos_right hhigh (a.up_pos k)
  rw [Nat.succ_mul] at hlow
  unfold Within
  split <;> constructor <;> omega

/-- A point of a grid in an interval above zero is not zero. -/
theorem Within.pos {a : Around} {k : Int} {d : Nat} (h : a.Within k d) (ha : 0 < a.low) :
    0 < d := by
  have hlow : 0 < a.low * a.up k := Nat.mul_pos ha (a.up_pos k)
  have hd : 0 < d * a.unit k := by
    unfold Within at h
    split at h <;> omega
  exact Nat.pos_of_mul_pos_right hd

end Around

/-- **The shortest decimal of a double is zero only when the double is**, and has no zeroes
behind it then. -/
theorem exponent_shortest_of_zero {m : Nat} {q : Int} (h : (shortest m q).coefficient = 0) :
    (shortest m q).exponent ≤ 0 := by
  by_cases hm : m = 0
  · have hzero : shortest m q = ⟨0, 0⟩ := if_pos hm
    exact Int.le_of_eq (congrArg Point.exponent hzero)
  · unfold shortest at h ⊢
    rw [if_neg hm] at h ⊢
    cases hp : (around m q).search 653 309 with
    | none => exact Int.le_refl 0
    | some p =>
      rw [hp] at h
      obtain ⟨-, -, hwithin⟩ := (around m q).within_search 653 309 hp
      have hlow : 0 < (around m q).low := by
        show 0 < if m = hiddenBit ∧ q > -1074 then 4 * m - 1 else 4 * m - 2
        split <;> omega
      exact absurd h (Nat.ne_of_gt (hwithin.pos hlow))

/-- **The shortest decimal of a double lies in its interval.** The last of the grids is finer than
the interval of any double. -/
theorem within_shortest {m : Nat} {q : Int} (hm : 0 < m) (hq : -1074 ≤ q) :
    (around m q).Within (shortest m q).exponent (shortest m q).coefficient := by
  have hscale : (-(around m q).scale).toNat ≤ 13 * 83 := by
    show (-(q - 2)).toNat ≤ 13 * 83
    omega
  have hfine : (around m q).unit (-343) ≤ (around m q).up (-343) :=
    Around.unit_le_up hscale rfl (by decide)
  have hlow : (around m q).low < (around m q).centre := by
    show (if m = hiddenBit ∧ q > -1074 then 4 * m - 1 else 4 * m - 2) < 4 * m
    split <;> omega
  have hhit : (around m q).onGrid (309 - (652 : Nat)) ≠ none := by
    intro hnone
    obtain ⟨d, hd, -⟩ | ⟨-, hbelow, -⟩ := (around m q).onGrid_cases (309 - (652 : Nat))
    · rw [hnone] at hd
      cases hd
    · exact hbelow (Around.within_of_fine hfine hlow (Nat.lt_add_of_pos_right (by decide)))
  obtain ⟨p, hp⟩ := (around m q).isSome_search 653 309 652 (by decide) hhit
  unfold shortest
  rw [if_neg (Nat.ne_of_gt hm), hp]
  exact ((around m q).within_search 653 309 hp).2.2

end Courier.Decimal
