import Mathlib.Algebra.Group.Defs
import Courier.Delivery.Counters
import Courier.Proofs.Telemetry
/-!
# What notes count up

Counters are added up field by field, and it does not matter in which order: they
are a commutative monoid. A note adds to the counters what it is of, whatever they
stand at, so notes that are recorded one after another add up (`Counters.counted`),
and notes of several deliveries may come in any order.

The series of a sink count the same notes (`count_seriesOf`), and besides them the
events that are left over by an answer (`Note.left`).
-/

namespace Courier.Delivery

namespace Counters

instance : Zero Counters := ⟨{}⟩

instance : Add Counters := ⟨add⟩

/-- **Counters are added up**, in any order. -/
instance : AddCommMonoid Counters where
  add_assoc a b c := by
    show (a.add b).add c = a.add (b.add c)
    simp only [add, Nat.add_assoc]
  zero_add a := by
    show ({} : Counters).add a = a
    simp only [add, Nat.zero_add]
  add_zero _ := rfl
  add_comm a b := by
    show a.add b = b.add a
    simp only [add, Nat.add_comm]
  nsmul := nsmulRec

@[simp] theorem attempts_add (a b : Counters) : (a + b).attempts = a.attempts + b.attempts := rfl

@[simp] theorem retries_add (a b : Counters) : (a + b).retries = a.retries + b.retries := rfl

@[simp] theorem delivered_add (a b : Counters) :
    (a + b).delivered = a.delivered + b.delivered := rfl

@[simp] theorem dropped_add (a b : Counters) : (a + b).dropped = a.dropped + b.dropped := rfl

@[simp] theorem exhausted_add (a b : Counters) :
    (a + b).exhausted = a.exhausted + b.exhausted := rfl

@[simp] theorem cancelled_add (a b : Counters) :
    (a + b).cancelled = a.cancelled + b.cancelled := rfl

/-- **What notes count up.** -/
def counted (notes : List Note) : Counters :=
  ({} : Counters).recordAll notes

theorem record_eq_add (c : Counters) (note : Note) :
    c.record note = c + ({} : Counters).record note := by
  show c.record note = c.add (({} : Counters).record note)
  cases note <;> simp only [record, add, Nat.zero_add, Nat.add_zero]

/-- **Notes count up the same whatever has been counted.** -/
theorem recordAll_eq_add (notes : List Note) : ∀ c : Counters,
    c.recordAll notes = c + counted notes := by
  induction notes with
  | nil => exact fun c => (add_zero c).symm
  | cons note rest ih =>
    intro c
    show (c.record note).recordAll rest = c + (({} : Counters).record note).recordAll rest
    rw [ih, ih, record_eq_add c, add_assoc]

/-- Notes one after the other count up together. -/
theorem counted_append (xs ys : List Note) : counted (xs ++ ys) = counted xs + counted ys := by
  unfold counted
  rw [recordAll, List.foldl_append]
  exact recordAll_eq_add ys _

theorem counted_cons (note : Note) (rest : List Note) :
    counted (note :: rest) = ({} : Counters).record note + counted rest :=
  recordAll_eq_add rest _

/-- **A number of the counters is the sum** of what each note adds to it. -/
theorem sum_counted (number : Counters → Nat) (hzero : number {} = 0)
    (hadd : ∀ a b : Counters, number (a + b) = number a + number b) (notes : List Note) :
    number (counted notes) = (notes.map fun note => number (({} : Counters).record note)).sum := by
  induction notes with
  | nil => exact hzero
  | cons note rest ih => rw [counted_cons, hadd, ih, List.map_cons, List.sum_cons]

end Counters

/-! ## Series -/

/-- What a note says is left over. -/
def Note.left : Note → Nat
  | .answered _ _ left => left
  | _ => 0

theorem Note.sink?_series (sink : String) (note : Note) :
    ∀ x ∈ note.series sink, x.1.sink? = some sink := by
  cases note <;> simp [series, Series.sink?]

/-- **A series of a sink counts what each note counts up of it.** -/
theorem count_seriesOf_eq {sink : String} {s : Series} (hs : s.sink? = some sink)
    {number : Note → Nat}
    (h : ∀ note : Note,
      ((note.series sink).map fun x => if s = x.1 then x.2 else 0).sum = number note)
    (notes : List Note) (t : Telemetry) :
    (t.addAll (seriesOf sink notes)).count s = t.count s + (notes.map number).sum := by
  rw [Telemetry.count_addAll]
  congr 1
  induction notes with
  | nil => rfl
  | cons note rest ih =>
    have hnote : ((note.series sink).map fun x => if s.render = x.1.render then x.2 else 0)
        = (note.series sink).map fun x => if s = x.1 then x.2 else 0 :=
      List.map_congr_left fun x hx =>
        if_congr (Series.render_inj_of_sink hs (note.sink?_series sink x hx)) rfl rfl
    show ((note.series sink ++ seriesOf sink rest).map _).sum = _
    rw [List.map_append, List.sum_append, ih, hnote, h, List.map_cons, List.sum_cons]

/-- **The series of a sink count what its counters count**, and what is left over. -/
theorem count_seriesOf (sink : String) (notes : List Note) (t : Telemetry) :
    (t.addAll (seriesOf sink notes)).count (.attempts sink)
        = t.count (.attempts sink) + (Counters.counted notes).attempts ∧
      (t.addAll (seriesOf sink notes)).count (.items sink "delivered")
        = t.count (.items sink "delivered") + (Counters.counted notes).delivered ∧
      (t.addAll (seriesOf sink notes)).count (.items sink "dropped")
        = t.count (.items sink "dropped") + (Counters.counted notes).dropped ∧
      (t.addAll (seriesOf sink notes)).count (.exhausted sink)
        = t.count (.exhausted sink) + (Counters.counted notes).exhausted ∧
      (t.addAll (seriesOf sink notes)).count (.items sink "retried")
        = t.count (.items sink "retried") + (notes.map Note.left).sum := by
  refine ⟨?_, ?_, ?_, ?_, ?_⟩
  · rw [Counters.sum_counted Counters.attempts rfl fun _ _ => rfl]
    refine count_seriesOf_eq rfl (fun note => ?_) notes t
    cases note <;> simp [Note.series, Counters.record]
  · rw [Counters.sum_counted Counters.delivered rfl fun _ _ => rfl]
    refine count_seriesOf_eq rfl (fun note => ?_) notes t
    cases note <;> simp [Note.series, Counters.record]
  · rw [Counters.sum_counted Counters.dropped rfl fun _ _ => rfl]
    refine count_seriesOf_eq rfl (fun note => ?_) notes t
    cases note <;> simp [Note.series, Counters.record]
  · rw [Counters.sum_counted Counters.exhausted rfl fun _ _ => rfl]
    refine count_seriesOf_eq rfl (fun note => ?_) notes t
    cases note <;> simp [Note.series, Counters.record]
  · refine count_seriesOf_eq rfl (fun note => ?_) notes t
    cases note <;> simp [Note.series, Note.left]

end Courier.Delivery
