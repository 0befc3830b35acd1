import Courier.Proofs.Consumer.Accounts
/-!
# Failures and their handler

A record that is not delivered has its failure handed to a handler. This
module says which records a handler hears of in a run: each record that is not
delivered, once, with its position and with what the delivery failed with, and
no other record (`Work.handled_of_failed`, `Work.handled_of_delivered`,
`Account.handled_trace`).

A unit of work can also fail after its record is delivered: the offer of its
position breaks down. The consumer counts both alike, but the handler hears
nothing of the second. So the records that have failed are the ones that were
handled exactly when no offer broke down (`Shard.failed_handled_iff`), and a
run in which one does counts a failure that no handler has seen
(`Shard.failed_unhandled`).
-/

namespace Courier.Consumer

/-! ## What is handled -/

/-- The failure that is to be handled, with the position of its record, if that is what is
asked for. -/
def Demand.handled? : Demand → Option (String × Failure)
  | .handle position f => some (position, f)
  | _ => none

/-- **The failures that are to be handled**, each with the position of its record, in the
order in which this is asked for. -/
def handled (trace : List (Signal × List Demand)) : List (String × Failure) :=
  (trace.flatMap (·.2)).filterMap Demand.handled?

theorem handled_append (xs ys : List (Signal × List Demand)) :
    handled (xs ++ ys) = handled xs ++ handled ys := by
  unfold handled
  rw [List.flatMap_append, List.filterMap_append]

namespace Work

/-- **What the delivery of the record has failed with**, if it has. -/
def undelivered? (w : Work) : Option Failure :=
  match w.stage with
  | .handling f => some f
  | .handled f => some f
  | _ => none

/-- **Whether the offer of the position has broken down.** -/
def isBroken (w : Work) : Bool :=
  w.stage matches .offered .crash

/-- **A record that is not delivered has its failure handled**, once, under its position,
and its position is not offered. -/
theorem handled_of_failed {w : Work} {f : Failure} (h : w.undelivered? = some f) :
    handled w.trace = [(w.record.position, f)] ∧ offered w.trace = [] := by
  obtain ⟨r, stage⟩ := w
  cases stage with
  | handling g =>
    obtain rfl := Option.some.inj h
    exact ⟨rfl, rfl⟩
  | handled g =>
    obtain rfl := Option.some.inj h
    exact ⟨rfl, rfl⟩
  | delivering => exact nomatch h
  | offering => exact nomatch h
  | offered e => exact nomatch h

/-- **Nothing is handled for any other record.** -/
theorem handled_of_delivered {w : Work} (h : w.undelivered? = none) : handled w.trace = [] := by
  obtain ⟨r, stage⟩ := w
  cases stage with
  | handling g => exact nomatch h
  | handled g => exact nomatch h
  | delivering => rfl
  | offering => rfl
  | offered e => rfl

/-- What is handled for a record. -/
theorem handled_trace (w : Work) :
    handled w.trace = (w.undelivered?.map fun f => (w.record.position, f)).toList := by
  cases h : w.undelivered? with
  | none => exact handled_of_delivered h
  | some f => exact (handled_of_failed h).1

/-- **A unit fails in one of two ways**: its record is not delivered, or the offer of the
position breaks down. -/
theorem hasFailed_eq {w : Work} (h : w.isOver = true) :
    w.hasFailed = (w.undelivered?.isSome || w.isBroken) := by
  obtain ⟨r, stage⟩ := w
  cases stage with
  | offered e => cases e <;> rfl
  | handled f => rfl
  | delivering => exact nomatch h
  | offering => exact nomatch h
  | handling f => exact nomatch h

/-- It does not fail in both. -/
theorem isBroken_of_undelivered {w : Work} (h : w.undelivered?.isSome = true) :
    w.isBroken = false := by
  obtain ⟨r, stage⟩ := w
  cases stage with
  | handling g => rfl
  | handled g => rfl
  | delivering => exact nomatch h
  | offering => exact nomatch h
  | offered e => exact nomatch h

end Work

namespace Account

variable (a : Account)

/-- **The failures that are handled are those of the records that are not delivered**, in
their order. -/
theorem handled_trace :
    handled a.trace
      = a.works.filterMap fun w => w.undelivered?.map fun f => (w.record.position, f) := by
  have hend : handled (a.ending.map fun e => (e.signal, [])).toList = [] := by
    cases a.ending <;> rfl
  unfold Account.trace
  rw [handled_append, hend, List.append_nil]
  induction a.works with
  | nil => rfl
  | cons w works ih =>
    rw [List.flatMap_cons, handled_append, ih, w.handled_trace, List.filterMap_cons]
    cases w.undelivered? <;> rfl

/-- One failure is handled for each record that is not delivered. -/
theorem length_handled :
    (handled a.trace).length = a.works.countP (·.undelivered?.isSome) := by
  rw [handled_trace]
  induction a.works with
  | nil => rfl
  | cons w works ih =>
    rw [List.filterMap_cons, List.countP_cons, ← ih]
    cases w.undelivered? <;> simp

/-- The units that have failed are those of the records that are not delivered, and those
whose offer broke down. -/
theorem countP_hasFailed :
    a.past.countP Work.hasFailed
      = a.past.countP (·.undelivered?.isSome) + a.past.countP Work.isBroken := by
  have hover := a.past_over
  revert hover
  induction a.past with
  | nil => exact fun _ => rfl
  | cons w works ih =>
    intro hover
    have hrest := ih fun v hv => hover v (List.mem_cons_of_mem w hv)
    simp only [List.countP_cons, Work.hasFailed_eq (hover w List.mem_cons_self)]
    cases hfailed : w.undelivered?.isSome with
    | true =>
      simp only [Work.isBroken_of_undelivered hfailed, Bool.or_false, if_true, Bool.false_eq_true,
        if_false]
      omega
    | false =>
      simp only [Bool.false_or, Bool.false_eq_true, if_false]
      omega

/-- **A failure is handled or comes of an offer that broke down**; one that is handled is
counted once the handler is done. -/
theorem handled_add_broken :
    (handled a.trace).length + a.past.countP Work.isBroken
      = a.summary.failed + a.now.toList.countP (·.undelivered?.isSome) := by
  show _ = a.past.countP Work.hasFailed + _
  rw [length_handled, countP_hasFailed]
  unfold works
  rw [List.countP_append]
  omega

/-- No record is under way at the end of a run that is not interrupted. -/
theorem now_of_finished {a : Account} (hdone : a.phase = .done)
    (hkept : a.summary.interrupted = false) : a.now = none := by
  obtain ⟨e, hend⟩ := exists_ending hdone
  cases e with
  | closed => exact a.now_closed hend
  | shutdown => exact nomatch ((interrupted_iff hend).mpr rfl).symm.trans hkept

end Account

end Courier.Consumer

namespace Courier.Shard

open Courier.Checkpoint (Keeper)
open Courier.Consumer (Account Work)

/-- **How the failures of a run are handled**, by an account of it. -/
structure FailuresHandled (k : Keeper) (events : List Event) (a : Account) : Prop where
  /-- A record that is not delivered has its failure handled, once, under its position, and
  its position is not offered. -/
  undelivered : ∀ w ∈ a.works, ∀ f, w.undelivered? = some f →
    Consumer.handled w.trace = [(w.record.position, f)] ∧ Consumer.offered w.trace = []
  /-- Nothing is handled for any other record. -/
  delivered : ∀ w ∈ a.works, w.undelivered? = none → Consumer.handled w.trace = []
  /-- Nothing else is handled in the run. -/
  handled_eq : Consumer.handled ((start k).trace events)
    = a.works.filterMap fun w => w.undelivered?.map fun f => (w.record.position, f)
  /-- A unit that is over has failed when its record is not delivered, and when the offer of
  the position broke down. -/
  hasFailed_eq : ∀ w ∈ a.past, w.hasFailed = (w.undelivered?.isSome || w.isBroken)
  /-- So a unit fails exactly when its record is not delivered, provided no offer breaks
  down. -/
  failed_iff : (∀ w ∈ a.past, w.hasFailed = true ↔ w.undelivered?.isSome = true) ↔
    ∀ w ∈ a.past, w.isBroken = false
  /-- And at the end of a run that is not interrupted as many failures are handled as are
  counted, under the same condition. -/
  failed_eq_iff : ((start k).after events).consumer.phase = .done →
    (summaryAfter k events).interrupted = false →
      ((Consumer.handled ((start k).trace events)).length = (summaryAfter k events).failed ↔
        ∀ w ∈ a.past, w.isBroken = false)

/-- Units fail for want of delivery exactly when no offer breaks down. -/
theorem failed_iff_undelivered (a : Account) :
    (∀ w ∈ a.past, w.hasFailed = true ↔ w.undelivered?.isSome = true) ↔
      ∀ w ∈ a.past, w.isBroken = false := by
  constructor
  · intro h w hw
    have hfailed := Work.hasFailed_eq (a.past_over w hw)
    cases hbroken : w.isBroken with
    | false => rfl
    | true =>
      rw [hbroken, Bool.or_true] at hfailed
      have hundelivered := (h w hw).mp hfailed
      exact nomatch hbroken.symm.trans (Work.isBroken_of_undelivered hundelivered)
  · intro h w hw
    rw [Work.hasFailed_eq (a.past_over w hw), h w hw, Bool.or_false]

/-- **The failures of a run are those that are handled exactly when no offer of a position
breaks down.** Whatever happens, each record that is not delivered has its failure handled
once, and no other record has. -/
theorem failed_handled_iff (k : Keeper) (events : List Event) :
    ∃ a, Accounted k events a ∧ FailuresHandled k events a := by
  obtain ⟨a, hat, htrace⟩ := (at_start k).after events
  have h : Accounted k events a := hat.accounted htrace.symm
  refine ⟨a, h, {
    undelivered := fun w _ f => Work.handled_of_failed
    delivered := fun w _ => Work.handled_of_delivered
    handled_eq := h.units ▸ a.handled_trace
    hasFailed_eq := fun w hw => Work.hasFailed_eq (a.past_over w hw)
    failed_iff := failed_iff_undelivered a
    failed_eq_iff := fun hdone hkept => ?_ }⟩
  have hnow : a.now = none :=
    Account.now_of_finished (hat.phase_eq ▸ hdone) (h.summary_eq ▸ hkept)
  have hcount := a.handled_add_broken
  rw [hnow, h.units.symm, h.summary_eq.symm] at hcount
  have hbroken : a.past.countP Work.isBroken = 0 ↔ ∀ w ∈ a.past, w.isBroken = false := by
    simp [List.countP_eq_zero]
  rw [← hbroken]
  simp only [Option.toList_none, List.countP_nil] at hcount
  omega

/-- **An offer that breaks down is a failure that no handler sees**: the record is delivered,
its position is to be offered, and the run counts one failure and has handled none. -/
theorem failed_unhandled :
    let k : Keeper := .new 0 30 false
    let events : List Event :=
      [.arrived ⟨"1", []⟩, .run, .delivered, .broken, .run, .closed, .run]
    ((start k).after events).consumer = ⟨.done, { records := 1, failed := 1 }⟩ ∧
      Consumer.offered ((start k).trace events) = ["1"] ∧
      Consumer.handled ((start k).trace events) = [] :=
  ⟨rfl, rfl, rfl⟩

end Courier.Shard
