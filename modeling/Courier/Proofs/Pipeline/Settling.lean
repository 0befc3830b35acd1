import Courier.Proofs.Fanout
import Courier.Proofs.Pipeline.Flow
/-!
# The results that a pipeline takes

When the deliveries of a record have ended, a pipeline takes their results in
some order. Each report that it takes goes into its place
(`Pipeline.Settling.settle_more`), the last one has the record delivered
(`Pipeline.Settling.settle_last`), and a failure has it handled
(`Pipeline.Settling.settle_error`). So the pipeline shows what comes of the
record, whatever the order is (`Pipeline.Settling.run`).
-/

namespace Courier.Pipeline

open Fanout (ending holding outcome?)

/-- **What a pipeline shows of a record** when this has come of it. -/
def shown (r : Record) : Option (Except Failure (List (String × Report))) → List Effect
  | none => []
  | some (.ok reports) => [.delivered r reports]
  | some (.error f) => [.failed r f]

/-- A pipeline that delivers no record takes no results. -/
theorem run_settle_of_phase (order : List Nat) : ∀ {p : Pipeline},
    (∀ r, p.consumer.phase ≠ .delivering r) → (p.run (order.map .settle)).2 = [] := by
  induction order with
  | nil => exact fun _ => rfl
  | cons i order ih =>
    intro p hphase
    have hsettle : p.settle i = (p, []) := by
      unfold settle
      split
      · next r _ _ hp _ => exact absurd hp (hphase r)
      · rfl
    show (p.settle i).2 ++ ((p.settle i).1.run (order.map .settle)).2 = []
    rw [hsettle]
    exact ih hphase

variable {r : Record} {results : Nat → Except Failure Report}

/-- **A pipeline that has a record delivered**: the deliveries have their results, and those
that it has taken are in their places. -/
structure Settling (p : Pipeline) (r : Record) (results : Nat → Except Failure Report)
    (taken : List Nat) : Prop where
  /-- The consumer has the record delivered. -/
  phase_eq : p.consumer.phase = .delivering r
  /-- It is not to shut down. -/
  shutDown_eq : p.shutDown = false
  /-- Every delivery has ended. -/
  result_eq : ∀ i < p.sinks.length, (p.deliveries[i]?).bind (·.result?) = some (results i)
  /-- The reports that are taken are in their places. -/
  fanout_eq : p.fanout = holding p.sinks results taken
  /-- None that is taken is a failure. -/
  taken_ok : ∀ i ∈ taken, ∃ report, results i = .ok report

variable {p : Pipeline} {taken : List Nat} {i : Nat}

/-- **A result that is a failure** is handed to the handler. -/
theorem Settling.settle_error (h : p.Settling r results taken) (hi : i < p.sinks.length)
    {f : Failure} (hresult : results i = .error f) :
    (p.settle i).2 = [.failed r f] ∧ (p.settle i).1.consumer.phase = .handling r := by
  unfold settle
  rw [h.shutDown_eq, h.phase_eq, h.result_eq i hi, hresult]
  exact ⟨rfl, phase_tell_failed h.phase_eq f⟩

/-- A result that is a report goes into its place. -/
theorem Settling.settle_ok (h : p.Settling r results taken) (hi : i < p.sinks.length)
    {report : Report} (hresult : results i = .ok report) :
    p.settle i = { p with fanout := holding p.sinks results (taken ++ [i]) }.conclude := by
  have harrive : (holding p.sinks results taken).arrive i (results i)
      = .ok (holding p.sinks results (taken ++ [i])) := Fanout.arrive_holding hresult taken
  unfold settle
  rw [h.shutDown_eq, h.phase_eq, h.result_eq i hi]
  dsimp only
  rw [h.fanout_eq, harrive]

/-- None of the results that are taken is a failure. -/
theorem Settling.taken_ok_append (h : p.Settling r results taken) {report : Report}
    (hresult : results i = .ok report) : ∀ j ∈ taken ++ [i], ∃ report, results j = .ok report := by
  intro j hj
  obtain hj | hj := List.mem_append.mp hj
  · exact h.taken_ok j hj
  · exact ⟨report, List.mem_singleton.mp hj ▸ hresult⟩

/-- **A report that is not the last** leaves the pipeline waiting. -/
theorem Settling.settle_more (h : p.Settling r results taken) (hi : i < p.sinks.length)
    {report : Report} (hresult : results i = .ok report) {k : Nat} (hk : k < p.sinks.length)
    (hnot : k ∉ taken ++ [i]) :
    (p.settle i).2 = [] ∧ (p.settle i).1.Settling r results (taken ++ [i]) ∧
      (p.settle i).1.sinks = p.sinks := by
  have hconclude : p.settle i
      = ({ p with fanout := holding p.sinks results (taken ++ [i]) }, []) := by
    rw [h.settle_ok hi hresult]
    unfold conclude
    dsimp only
    rw [h.phase_eq, Fanout.reports?_holding_of_notMem hk hnot]
  rw [hconclude]
  exact ⟨rfl, ⟨h.phase_eq, h.shutDown_eq, h.result_eq, rfl, h.taken_ok_append hresult⟩, rfl⟩

/-- **The last report** has the record delivered. -/
theorem Settling.settle_last (h : p.Settling r results taken) (hi : i < p.sinks.length)
    {report : Report} (hresult : results i = .ok report) {reports : List (String × Report)}
    (hreports : (holding p.sinks results (taken ++ [i])).reports? = some reports) :
    (p.settle i).2 = [.delivered r reports] ∧ (p.settle i).1.consumer.phase = .acking r := by
  rw [h.settle_ok hi hresult]
  unfold conclude
  dsimp only
  rw [h.phase_eq, hreports]
  exact ⟨rfl, phase_tell_delivered h.phase_eq⟩

/-- **A pipeline takes the results of the deliveries in any order**, and shows what comes of
the record. -/
theorem Settling.run (later : List Nat) : ∀ {p : Pipeline} {taken : List Nat},
    p.Settling r results taken → (taken ++ later).Perm (List.range p.sinks.length) →
    later ≠ [] → (p.run (later.map .settle)).2
      = shown r (outcome? p.sinks (ending results (taken ++ later))) := by
  induction later with
  | nil => exact fun _ _ h => absurd rfl h
  | cons i later ih =>
    intro p taken h horder _
    have hi : i < p.sinks.length :=
      (Fanout.mem_order_iff horder i).mp (List.mem_append_right taken List.mem_cons_self)
    show (p.settle i).2 ++ ((p.settle i).1.run (later.map .settle)).2 = _
    cases hresult : results i with
    | error f =>
      obtain ⟨hshown, hphase⟩ := h.settle_error hi hresult
      rw [hshown, Fanout.outcome?_of_failed h.taken_ok hresult,
        run_settle_of_phase later fun r' hr' => nomatch hphase.symm.trans hr']
      rfl
    | ok report =>
      have hsplit : taken ++ i :: later = taken ++ [i] ++ later :=
        (List.append_assoc taken [i] later).symm
      rw [hsplit] at horder ⊢
      cases later with
      | nil =>
        rw [List.append_nil] at horder ⊢
        obtain ⟨reports, hreports⟩ := Fanout.exists_reports_holding
          (fun j hj => (Fanout.mem_order_iff horder j).mpr hj) (h.taken_ok_append hresult)
        obtain ⟨hshown, -⟩ := h.settle_last hi hresult hreports
        rw [hshown, Fanout.outcome?_ending (h.taken_ok_append hresult), hreports]
        rfl
      | cons k later =>
        obtain ⟨j, hj, hnot⟩ := Fanout.exists_waiting horder (List.cons_ne_nil k later)
        obtain ⟨hshown, hnext, hsinks⟩ := h.settle_more hi hresult hj hnot
        rw [hshown, ← hsinks]
        exact ih hnext (hsinks ▸ horder) (List.cons_ne_nil k later)

end Courier.Pipeline
