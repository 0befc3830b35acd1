import Courier.Proofs.Blueprint.RoundTrip
import Courier.Proofs.Decimal.Order
/-!
# When a blueprint warns about its factor

A factor below one is not used: delays grow by a factor of one then, and a blueprint with
such a factor has a warning that says so. Whether there is a warning and whether another
factor is used are two questions. The first asks whether the factor is less than one, and
the second whether it is not at least one. For numbers that is the same question. What is
not a number is not at least one either, so it is not used, and it is not less than one,
so nobody is warned (`warns_iff_isClamped`, `not_warns_of_nan`).
-/

namespace Courier

namespace Retry.Policy

/-- **The delay that a factor makes** after an attempt. -/
def grownDelay (seed : Float) (attempt : Nat) : Nat :=
  wholeMillis (power seed 1.0 (min attempt greatestPower) * 1000.0)

/-- **Another factor is used** exactly when there is one and it is not at least one. -/
theorem isClamped_ofConfig_iff {growth : Growth} {value : Float} :
    (ofConfig growth value).isClamped = true ↔ growth = .exponential ∧ ¬ 1.0 ≤ value := by
  cases growth with
  | fixed => exact ⟨fun h => Bool.noConfusion h, fun h => Growth.noConfusion h.1⟩
  | linear => exact ⟨fun h => Bool.noConfusion h, fun h => Growth.noConfusion h.1⟩
  | exponential =>
    show (!decide (1.0 ≤ value)) = true ↔ _
    rw [Bool.not_eq_true', decide_eq_false_iff_not]
    exact ⟨fun h => ⟨rfl, h⟩, fun h => h.2⟩

/-- **Delays grow by the factor given, or by one** when another one is used. -/
theorem delay_ofConfig_exponential (value : Float) (attempt : Nat) :
    (ofConfig .exponential value).delay attempt
      = grownDelay (if (ofConfig .exponential value).isClamped then 1.0 else value) attempt := by
  have hused : usedSeed value
      = if (ofConfig .exponential value).isClamped then 1.0 else value := by
    unfold usedSeed
    by_cases h : 1.0 ≤ value
    · rw [if_pos h, if_neg fun hclamped => (isClamped_ofConfig_iff.mp hclamped).2 h]
    · rw [if_neg h, if_pos (isClamped_ofConfig_iff.mpr ⟨rfl, h⟩)]
  rw [← hused]
  rfl

end Retry.Policy

namespace Blueprint

open Courier.Decimal (le_iff_not_lt not_le_of_isNaN not_lt_of_isNaN)
open Courier.Retry (Policy)

/-- **A warning that a factor of one is used.** -/
def SaysSeedOfOne (warning : String) : Prop :=
  "a seed of 1 is used".toList <:+ warning.toList

variable {b : Blueprint}

/-- **There is such a warning** when there is a factor and it is less than one. -/
theorem warns_iff : (∃ w ∈ b.warnings, SaysSeedOfOne w) ↔
    b.delivery.growth = .exponential ∧ b.delivery.delayOrSeed < 1.0 := by
  -- the other warning that there may be is about something else
  have hdry : ¬ SaysSeedOfOne "checkpoint.dry is set; progress will not be persisted" := by
    unfold SaysSeedOfOne
    decide
  have hnone : ¬ ∃ w ∈ (if b.checkpoint.dry then
      ["checkpoint.dry is set; progress will not be persisted"] else []), SaysSeedOfOne w := by
    rintro ⟨w, hw, hsays⟩
    split at hw
    · rw [List.mem_singleton.mp hw] at hsays
      exact hdry hsays
    · exact List.not_mem_nil hw
  by_cases h : b.delivery.growth = .exponential ∧ b.delivery.delayOrSeed < 1.0
  · have hcond : (decide (b.delivery.growth = .exponential)
        && decide (b.delivery.delayOrSeed < 1.0)) = true := by
      rw [decide_eq_true h.1, decide_eq_true h.2, Bool.and_self]
    have hsays : SaysSeedOfOne ("delivery.delay_or_seed = "
        ++ Decimal.proseStyle.write b.delivery.delayOrSeed
        ++ " is below 1 for exponential backoff; a seed of 1 is used") := by
      unfold SaysSeedOfOne
      rw [String.toList_append]
      exact List.IsSuffix.trans (by decide) (List.suffix_append _ _)
    unfold warnings
    rw [if_pos hcond]
    exact ⟨fun _ => h, fun _ => ⟨_, List.mem_append_left _ (List.mem_singleton_self _), hsays⟩⟩
  · have hcond : ¬ (decide (b.delivery.growth = .exponential)
        && decide (b.delivery.delayOrSeed < 1.0)) = true := by
      rw [Bool.and_eq_true, decide_eq_true_eq, decide_eq_true_eq]
      exact h
    unfold warnings
    rw [if_neg hcond]
    exact ⟨fun hw => absurd hw hnone, fun h' => absurd h' h⟩

/-- **A warning that a factor of one is used tells the truth**, and it is missing only when the
factor given is not a number. So the warning and the delays agree exactly when there is
no factor, or one that is a number. -/
theorem warns_iff_isClamped (b : Blueprint) :
    let policy := b.delivery.strategy.policy
    let seed := b.delivery.delayOrSeed
    ((∃ w ∈ b.warnings, SaysSeedOfOne w) ↔ policy.isClamped = true ∧ seed.isNaN = false) ∧
      (((∃ w ∈ b.warnings, SaysSeedOfOne w) ↔ policy.isClamped = true) ↔
        (b.delivery.growth = .exponential → seed.isNaN = false)) ∧
      (b.delivery.growth ≠ .exponential → policy.isClamped = false) ∧
      (b.delivery.growth = .exponential → ∀ attempt, policy.delay attempt
        = Policy.grownDelay (if policy.isClamped then 1.0 else seed) attempt) := by
  intro policy seed
  have hone : (1.0 : Float).isNaN = false := by decide +kernel
  have hclamped : policy.isClamped = true ↔
      b.delivery.growth = .exponential ∧ ¬ 1.0 ≤ seed := Policy.isClamped_ofConfig_iff
  have hwarns : (∃ w ∈ b.warnings, SaysSeedOfOne w) ↔
      policy.isClamped = true ∧ seed.isNaN = false := by
    rw [warns_iff, hclamped, and_assoc]
    refine and_congr_right fun _ => ?_
    cases hnan : seed.isNaN with
    | true => exact ⟨fun h => absurd h (not_lt_of_isNaN hnan), fun h => Bool.noConfusion h.2⟩
    | false =>
      rw [le_iff_not_lt hnan hone, not_not]
      exact ⟨fun h => ⟨h, rfl⟩, fun h => h.1⟩
  refine ⟨hwarns, ?_, fun hgrowth => ?_, fun hgrowth attempt => ?_⟩
  · rw [hwarns]
    constructor
    · intro hagree hgrowth
      cases hnan : seed.isNaN with
      | false => rfl
      | true =>
        -- another factor is used then, and so there would have to be a warning
        have hused := hclamped.mpr ⟨hgrowth, not_le_of_isNaN hnan⟩
        exact (hnan.symm.trans (hagree.mpr hused).2)
    · exact fun hnumber => ⟨fun h => h.1, fun h => ⟨h, hnumber (hclamped.mp h).1⟩⟩
  · exact Bool.eq_false_iff.mpr fun h => hgrowth (hclamped.mp h).1
  · show (Policy.ofConfig b.delivery.growth seed).delay attempt
      = Policy.grownDelay (if (Policy.ofConfig b.delivery.growth seed).isClamped then 1.0 else seed)
        attempt
    rw [hgrowth]
    exact Policy.delay_ofConfig_exponential seed attempt

/-- **A factor that is not a number** passes the checks. Delays grow by one then, and nobody is
warned. -/
theorem not_warns_of_nan :
    let b := patient (Float.ofBits 0x7FF8000000000000)
    load .toml (patientText "nan") = .ok b ∧ b.delivery.strategy.policy.isClamped = true ∧
      (∀ attempt, b.delivery.strategy.policy.delay attempt = Policy.grownDelay 1.0 attempt) ∧
      ¬ ∃ w ∈ b.warnings, SaysSeedOfOne w := by
  have hnan : (Float.ofBits 0x7FF8000000000000).isNaN = true := by decide +kernel
  have hclamped : (Policy.ofConfig .exponential (Float.ofBits 0x7FF8000000000000)).isClamped
      = true := Policy.isClamped_ofConfig_iff.mpr ⟨rfl, not_le_of_isNaN hnan⟩
  refine ⟨ok_of_toOption (by decide +kernel), hclamped, fun attempt => ?_, fun hw => ?_⟩
  · show (Policy.ofConfig .exponential (Float.ofBits 0x7FF8000000000000)).delay attempt = _
    rw [Policy.delay_ofConfig_exponential, if_pos hclamped]
  · exact not_lt_of_isNaN hnan (warns_iff.mp hw).2

end Blueprint

end Courier
