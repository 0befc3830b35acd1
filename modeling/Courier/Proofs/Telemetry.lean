import Courier.Proofs.Document.Tables
import Courier.Telemetry
import Mathlib.Algebra.GroupWithZero.Nat
/-!
# What a counted series has counted

A series counts what it is told to count and nothing of any other series. Series
are kept apart by their names: so what a series has counted, after several have
been counted up, is the sum of what was counted under its name
(`Telemetry.count_addAll`), and the series of one sink have different names.
-/

namespace Courier

namespace Telemetry

/-- **A series that is counted up has counted so much more**, and the series of other names
have not. -/
theorem count_add (t : Telemetry) (s s' : Series) (n : Nat) :
    (t.add s n).count s' = t.count s' + if s'.render = s.render then n else 0 := by
  unfold add
  split
  · next hzero => rw [hzero, ite_self, Nat.add_zero]
  · unfold count
    rw [Document.lookup_insertSorted]
    by_cases h : s'.render = s.render
    · rw [if_pos h, if_pos h, h]
      rfl
    · rw [if_neg h, if_neg h, Nat.add_zero]

/-- **What a series has counted** after several have been counted up. -/
theorem count_addAll (counts : List (Series × Nat)) (s : Series) : ∀ t : Telemetry,
    (t.addAll counts).count s
      = t.count s + (counts.map fun x => if s.render = x.1.render then x.2 else 0).sum := by
  induction counts with
  | nil => exact fun _ => rfl
  | cons x counts ih =>
    intro t
    show ((t.add x.1 x.2).addAll counts).count s = _
    rw [ih, count_add, List.map_cons, List.sum_cons, Nat.add_assoc]

end Telemetry

namespace Series

/-- The place of a series among the five kinds. -/
def kind : Series → Fin 5
  | attempts _ => 0
  | items _ _ => 1
  | exhausted _ => 2
  | duration _ => 3
  | checkpoint _ => 4

/-- What the names of a kind begin with. -/
def head : Fin 5 → String
  | 0 => "batchline_dispatch_attempts_total\x7bsink="
  | 1 => "batchline_items_total\x7bsink="
  | 2 => "batchline_dispatch_exhausted_total\x7bsink="
  | 3 => "batchline_dispatch_duration_ms\x7bsink="
  | 4 => "batchline_checkpoint_total\x7bstatus="

/-- The name of a series begins as those of its kind. -/
theorem exists_render_eq (s : Series) : ∃ rest, s.render = head s.kind ++ rest := by
  have hfive : ∀ a b c d e : String, a ++ b ++ c ++ d ++ e = a ++ (b ++ (c ++ (d ++ e))) := by
    intro a b c d e
    simp only [String.append_assoc]
  cases s with
  | attempts sink => exact ⟨_, String.append_assoc⟩
  | items sink status => exact ⟨_, hfive _ _ _ _ _⟩
  | exhausted sink => exact ⟨_, String.append_assoc⟩
  | duration sink => exact ⟨_, String.append_assoc⟩
  | checkpoint status => exact ⟨_, String.append_assoc⟩

/-- **Series of the same name are of the same kind**: what they begin with differs within
the first twenty characters. -/
theorem kind_eq_of_render_eq {x y : Series} (h : x.render = y.render) : x.kind = y.kind := by
  have hlong : ∀ i, 20 ≤ (head i).toList.length := by decide
  have hinj : ∀ i j, (head i).toList.take 20 = (head j).toList.take 20 → i = j := by decide
  obtain ⟨xs, hx⟩ := x.exists_render_eq
  obtain ⟨ys, hy⟩ := y.exists_render_eq
  have hlists := congrArg (fun s : String => s.toList.take 20) h
  simp only [hx, hy, String.toList_append] at hlists
  rw [List.take_append_of_le_length (hlong _), List.take_append_of_le_length (hlong _)] at hlists
  exact hinj _ _ hlists

/-- Items of one sink are told apart by their status. -/
theorem status_eq_of_render_eq {sink a b : String}
    (h : (items sink a).render = (items sink b).render) : a = b := by
  have hcancel : ∀ p q : String, p ++ a ++ q = p ++ b ++ q → a = b := by
    intro p q h
    have hlists := congrArg String.toList h
    simp only [String.toList_append] at hlists
    exact String.toList_inj.mp (List.append_cancel_left (List.append_cancel_right hlists))
  exact hcancel _ _ h

/-- The sink of a series, if it is of one. -/
def sink? : Series → Option String
  | attempts sink => some sink
  | items sink _ => some sink
  | exhausted sink => some sink
  | duration sink => some sink
  | checkpoint _ => none

/-- **The series of a sink have different names.** -/
theorem render_inj_of_sink {sink : String} {x y : Series} (hx : x.sink? = some sink)
    (hy : y.sink? = some sink) : x.render = y.render ↔ x = y := by
  refine ⟨fun h => ?_, fun h => by rw [h]⟩
  have hkind := kind_eq_of_render_eq h
  cases x with
  | attempts s =>
    cases y with
    | attempts s' => rw [Option.some.inj hx, Option.some.inj hy]
    | _ => exact absurd hkind (by simp [kind])
  | items s a =>
    cases y with
    | items s' b =>
      obtain rfl : s = s' := Option.some.inj (hx.trans hy.symm)
      rw [status_eq_of_render_eq h]
    | _ => exact absurd hkind (by simp [kind])
  | exhausted s =>
    cases y with
    | exhausted s' => rw [Option.some.inj hx, Option.some.inj hy]
    | _ => exact absurd hkind (by simp [kind])
  | duration s =>
    cases y with
    | duration s' => rw [Option.some.inj hx, Option.some.inj hy]
    | _ => exact absurd hkind (by simp [kind])
  | checkpoint status => exact nomatch hx

end Series

end Courier
