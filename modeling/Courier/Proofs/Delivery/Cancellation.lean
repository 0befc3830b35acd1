import Courier.Delivery.Dispatch
import Courier.Pipeline.Basic
import Courier.Proofs.Delivery.Signals
/-!
# Calling off a delivery

A delivery is run from time to time, and whenever it is run it finds something,
or nothing: that it may go on, or the answer to its request. Its token is
outside, and that the token is cancelled is one step, between two times that
the delivery is run. From then on the delivery finds that it is called off
before it finds anything else, whatever there is to find.

`Task` is a delivery with its token, and `Task.run` what becomes of it, with the
requests that it makes and the notes that it leaves. Once a task is called off
it makes no more requests (`Task.requests_of_calledOff`). It ends the next time it is
run (`Task.run_of_calledOff`), unless it has ended before, and then it stays as
it is (`Task.run_of_ended`). And a task that has not ended has not been given
up (`Task.notes_of_underway`), so what it says in the end is all that it says.
-/

namespace Courier.Delivery

namespace Machine

variable {m : Machine} {s : Signal} {r : Except Failure Report}

theorem notes_of_ended (h : m.phase = .ended r) (s : Signal) : (m.step s).2 = [] := by
  unfold step
  rw [h]

/-- A delivery without a result has not ended. -/
theorem phase_ne_of_underway (h : m.result? = none) : m.phase ≠ .ended r := by
  intro hr
  rw [result?_eq_some_iff.mpr hr] at h
  exact nomatch h

/-- A delivery has ended, or it has no result. -/
theorem ended_or_underway (m : Machine) : (∃ r, m.phase = .ended r) ∨ m.result? = none := by
  cases h : m.result? with
  | some r => exact .inl ⟨r, result?_eq_some_iff.mp h⟩
  | none => exact .inr rfl

/-- **A delivery called off ends**, and says so. If it was about to send, the attempt is
counted before. -/
theorem step_cancel (h : m.result? = none) :
    (m.step .cancel).1 = m.cancelled ∧
      ((m.step .cancel).2 = [.attempted, .cancelled] ∨ (m.step .cancel).2 = [.cancelled]) := by
  unfold step
  cases hp : m.phase with
  | ready => exact ⟨rfl, .inl rfl⟩
  | inFlight request => exact ⟨rfl, .inr rfl⟩
  | waiting delay next => exact ⟨rfl, .inr rfl⟩
  | ended r => exact absurd hp (phase_ne_of_underway h)

/-- A failure after which a delivery goes on leaves no note. -/
theorem notes_judge {f : Failure} (h : (m.judge f).1.result? = none) : (m.judge f).2 = [] := by
  unfold judge at h ⊢
  cases hv : m.retry.verdict f with
  | proceed delay next => rfl
  | terminal reason => rw [hv] at h; exact nomatch h

/-- **An answer after which a delivery goes on** is noted, and nothing else is. -/
theorem notes_take {request : List Event} {a : Answer} (h : (m.take request a).1.result? = none) :
    ∀ note ∈ (m.take request a).2, ∃ delivered dropped left,
      note = .answered delivered dropped left := by
  unfold take at h ⊢
  cases a with
  | ok statuses =>
    dsimp only at h ⊢
    split at h
    · exact nomatch h
    · rw [if_neg ‹_›]
      rw [notes_judge h]
      intro note hnote
      exact ⟨_, _, _, List.mem_singleton.mp hnote⟩
  | error f =>
    dsimp only at h ⊢
    split at h
    · rw [if_pos ‹_›, notes_judge h]
      exact fun _ hnote => nomatch hnote
    · exact nomatch h

/-- **A delivery that goes on** has been neither called off nor given up. -/
theorem notes_of_underway (hs : s ≠ .cancel) (h : (m.step s).1.result? = none) :
    .cancelled ∉ (m.step s).2 ∧ .exhausted ∉ (m.step s).2 := by
  unfold step at h ⊢
  cases hp : m.phase with
  | ready => cases s <;> simp_all
  | inFlight request =>
    cases s with
    | go => exact ⟨List.not_mem_nil, List.not_mem_nil⟩
    | cancel => exact absurd rfl hs
    | answered a =>
      rw [hp] at h
      constructor <;> intro hnote <;> obtain ⟨_, _, _, heq⟩ := notes_take h _ hnote <;>
        exact nomatch heq
  | waiting delay next => cases s <;> simp_all
  | ended r => exact ⟨List.not_mem_nil, List.not_mem_nil⟩

end Machine

/-! ## Counting -/

namespace Counters

theorem record_counts (c : Counters) (note : Note) :
    (c.record note).cancelled = c.cancelled + (if note == .cancelled then 1 else 0) ∧
      (c.record note).exhausted = c.exhausted + (if note == .exhausted then 1 else 0) := by
  cases note <;> exact ⟨rfl, rfl⟩

/-- Deliveries called off are counted by their notes. -/
theorem cancelled_recordAll (c : Counters) (notes : List Note) :
    (c.recordAll notes).cancelled = c.cancelled + notes.count .cancelled := by
  induction notes generalizing c with
  | nil => rfl
  | cons note rest ih =>
    show ((c.record note).recordAll rest).cancelled = _
    rw [ih, List.count_cons, (c.record_counts note).1, Nat.add_right_comm, Nat.add_assoc]

/-- So are batches given up. -/
theorem exhausted_recordAll (c : Counters) (notes : List Note) :
    (c.recordAll notes).exhausted = c.exhausted + notes.count .exhausted := by
  induction notes generalizing c with
  | nil => rfl
  | cons note rest ih =>
    show ((c.record note).recordAll rest).exhausted = _
    rw [ih, List.count_cons, (c.record_counts note).2, Nat.add_right_comm, Nat.add_assoc]

end Counters

/-! ## A delivery with its token -/

namespace Task

variable {t : Task} {r : Except Failure Report} {found : Found} {s : Signal}

theorem step_of_hears_none (h : t.hears found = none) : t.step (.run found) = (t, []) := by
  unfold step
  simp only [h]

/-- A task that hears a signal has its delivery take it. -/
theorem step_of_hears (h : t.hears found = some s) :
    t.step (.run found) = ({ t with machine := (t.machine.step s).1 }, (t.machine.step s).2) := by
  unfold step
  simp only [h]

/-- That a token is cancelled is not yet known to the task. -/
theorem run_cons_cancel (t : Task) (rest : List Occurrence) :
    t.run (.cancel :: rest) = ({ t with calledOff := true } : Task).run rest := by
  have hbegun : begun t.machine.phase t.machine.phase = [] := by
    cases t.machine.phase <;> rfl
  show Course.mk _ (begun t.machine.phase t.machine.phase ++ _) ([] ++ _) = _
  rw [hbegun]
  rfl

/-! ### Once it has ended -/

/-- Whatever happens to a task that has ended, its delivery stays as it is. -/
theorem step_of_ended (h : t.machine.phase = .ended r) (o : Occurrence) :
    (t.step o).1.machine = t.machine ∧ (t.step o).2 = [] := by
  cases o with
  | cancel => exact ⟨rfl, rfl⟩
  | run found =>
    cases hhears : t.hears found with
    | none => rw [step_of_hears_none hhears]; exact ⟨rfl, rfl⟩
    | some s =>
      rw [step_of_hears hhears]
      exact ⟨Machine.step_of_ended h s, Machine.notes_of_ended h s⟩

/-- **A task that has ended stays as it is**, whatever happens to it. -/
theorem run_of_ended (h : t.machine.phase = .ended r) (occurrences : List Occurrence) :
    (t.run occurrences).task.machine = t.machine ∧ (t.run occurrences).requests = [] ∧
      (t.run occurrences).notes = [] := by
  induction occurrences generalizing t with
  | nil => exact ⟨rfl, rfl, rfl⟩
  | cons o rest ih =>
    obtain ⟨hmachine, hnotes⟩ := step_of_ended h o
    obtain ⟨hm, hr, hn⟩ := ih (t := (t.step o).1) (by rw [hmachine]; exact h)
    refine ⟨hm.trans hmachine, ?_, ?_⟩
    · show begun _ _ ++ _ = _
      rw [hr, hmachine, h]
      rfl
    · show (t.step o).2 ++ _ = _
      rw [hn, hnotes]
      rfl

/-! ### Once it is called off -/

theorem step_of_calledOff (hoff : t.calledOff = true) (h : t.machine.result? = none)
    (found : Found) :
    (t.step (.run found)).1.machine = t.machine.cancelled ∧
      ((t.step (.run found)).2 = [.attempted, .cancelled] ∨
        (t.step (.run found)).2 = [.cancelled]) := by
  rw [step_of_hears (if_pos hoff)]
  exact Machine.step_cancel h

/-- **A task that is called off makes no requests.** -/
theorem requests_of_calledOff (hoff : t.calledOff = true) (occurrences : List Occurrence) :
    (t.run occurrences).requests = [] := by
  induction occurrences generalizing t with
  | nil => rfl
  | cons o rest ih =>
    obtain ⟨r, hr⟩ | hnone := t.machine.ended_or_underway
    · exact (run_of_ended hr _).2.1
    · cases o with
      | cancel => rw [run_cons_cancel]; exact ih rfl
      | run found =>
        have hmachine := (step_of_calledOff hoff hnone found).1
        have hended : (t.step (.run found)).1.machine.phase = _ :=
          congrArg Machine.phase hmachine
        show begun _ _ ++ _ = _
        rw [(run_of_ended hended rest).2.1, hended]
        cases t.machine.phase <;> rfl

/-- **A task that is called off ends the next time it is run**, and says so once. -/
theorem run_of_calledOff (hoff : t.calledOff = true) (h : t.machine.result? = none)
    {occurrences : List Occurrence} (hrun : ∃ found, .run found ∈ occurrences) :
    (t.run occurrences).task.machine = t.machine.cancelled ∧
      ((t.run occurrences).notes = [.attempted, .cancelled] ∨
        (t.run occurrences).notes = [.cancelled]) := by
  induction occurrences generalizing t with
  | nil => obtain ⟨found, hmem⟩ := hrun; exact nomatch hmem
  | cons o rest ih =>
    cases o with
    | cancel =>
      obtain ⟨found, hmem⟩ := hrun
      rw [run_cons_cancel]
      exact ih (t := { t with calledOff := true }) rfl h
        ⟨found, (List.mem_cons.mp hmem).resolve_left Occurrence.noConfusion⟩
    | run found =>
      obtain ⟨hmachine, hnotes⟩ := step_of_calledOff hoff h found
      obtain ⟨hm, -, hn⟩ := run_of_ended (t := (t.step (.run found)).1) (by rw [hmachine]; rfl) rest
      have hall : (t.run (.run found :: rest)).notes = (t.step (.run found)).2 := by
        show (t.step (.run found)).2 ++ _ = _
        rw [hn, List.append_nil]
      exact ⟨hm.trans hmachine, by rw [hall]; exact hnotes⟩

/-! ### Before it is called off -/

/-- A task that is run goes on with its delivery, or stays as it is. -/
theorem step_run (hon : t.calledOff = false) (found : Found) :
    t.step (.run found) = (t, []) ∨
      ∃ s, s ≠ .cancel ∧
        t.step (.run found) = (⟨(t.machine.step s).1, false⟩, (t.machine.step s).2) := by
  have hhears : t.hears found = found.signal? := if_neg (by rw [hon]; exact Bool.false_ne_true)
  cases found with
  | nothing => exact .inl (step_of_hears_none hhears)
  | clear => exact .inr ⟨.go, nofun, by rw [step_of_hears hhears, hon]⟩
  | answer a => exact .inr ⟨.answered a, nofun, by rw [step_of_hears hhears, hon]⟩

/-- **A task that has not ended and is not called off** has been neither called off nor
given up, and it is still the delivery that it was. -/
theorem notes_of_underway {sink : String} {batch : List Event} (hon : t.calledOff = false)
    (hsound : t.machine.Sound sink batch) (founds : List Found)
    (h : (t.run (founds.map .run)).task.machine.result? = none) :
    (t.run (founds.map .run)).task.machine.Sound sink batch ∧
      .cancelled ∉ (t.run (founds.map .run)).notes ∧
      .exhausted ∉ (t.run (founds.map .run)).notes := by
  induction founds generalizing t with
  | nil => exact ⟨hsound, List.not_mem_nil, List.not_mem_nil⟩
  | cons found rest ih =>
    obtain hstep | ⟨s, hs, hstep⟩ := step_run hon found
    · have hrun : t.run ((found :: rest).map .run) = t.run (rest.map .run) := by
        rw [List.map_cons, run, hstep]
        cases t.machine.phase <;> rfl
      rw [hrun] at h ⊢
      exact ih hon hsound h
    · let t' : Task := ⟨(t.machine.step s).1, false⟩
      have htask : (t.run ((found :: rest).map .run)).task = (t'.run (rest.map .run)).task := by
        rw [List.map_cons, run, hstep]
      have hnotes : (t.run ((found :: rest).map .run)).notes
          = (t.machine.step s).2 ++ (t'.run (rest.map .run)).notes := by
        rw [List.map_cons, run, hstep]
      rw [htask] at h ⊢
      rw [hnotes]
      -- It has not ended after this step either, or it would have stayed so.
      have hnow : t'.machine.result? = none := by
        obtain ⟨r, hr⟩ | hnone := t'.machine.ended_or_underway
        · rw [(run_of_ended hr _).1] at h
          exact h
        · exact hnone
      obtain ⟨hsound', hcancelled, hexhausted⟩ := ih (t := t') rfl (hsound.step s) h
      obtain ⟨hc, he⟩ := Machine.notes_of_underway hs hnow
      exact ⟨hsound', List.not_mem_append hc hcancelled, List.not_mem_append he hexhausted⟩

/-! ### Cancellation at any moment -/

/-- **A delivery whose token is cancelled**, at any moment between two times that it is
run, and whatever it would find afterwards: it makes no more requests. If it has ended
before, its result stays, and nothing more is noted. If not, then the next time it is run
it ends as called off, without any outcomes; over the whole of the delivery one is counted
that was called off, and none that was given up. -/
theorem run_cancel (sink : String) (classify : ItemStatus → ItemClass)
    (strategy : Retry.Strategy) {batch : List Event} (hne : batch ≠ [])
    (hids : (batch.map (·.id)).Nodup) (before : List Found) (after : List Occurrence)
    (c : Counters) :
    let t := (start sink classify strategy batch).run (before.map .run)
    let u := t.task.run (.cancel :: after)
    u.requests = [] ∧
      (∀ r, t.task.machine.result? = some r →
        u.task.machine.result? = some r ∧ u.notes = []) ∧
      (t.task.machine.result? = none → (∃ found, .run found ∈ after) →
        ∃ f, u.task.machine.result? = some (.error f) ∧
          f = .cancelled s!"dispatch to '{sink}'" ∧ f.partialOutcomes = [] ∧
          (c.recordAll (t.notes ++ u.notes)).cancelled = c.cancelled + 1 ∧
          (c.recordAll (t.notes ++ u.notes)).exhausted = c.exhausted) := by
  intro t u
  have hu : u = ({ t.task with calledOff := true } : Task).run after := run_cons_cancel t.task after
  refine ⟨hu ▸ requests_of_calledOff rfl after, ?_, ?_⟩
  · intro r hr
    have hended := Machine.result?_eq_some_iff.mp hr
    obtain ⟨hmachine, -, hnotes⟩ := run_of_ended hended (.cancel :: after)
    exact ⟨by rw [hmachine]; exact hr, hnotes⟩
  · intro hnone hrun
    have hsound : (start sink classify strategy batch).machine.Sound sink batch := by
      obtain ⟨hstart, hunderway⟩ := Machine.start_underway sink classify strategy hne hids
      obtain h | ⟨f, hf⟩ := Machine.start_delivers sink classify strategy hne
      · exact h
      · exact nomatch hunderway.ready.symm.trans hf
    obtain ⟨hsound', hcancelled, hexhausted⟩ := notes_of_underway rfl hsound before hnone
    obtain ⟨hmachine, hnotes⟩ :=
      run_of_calledOff (t := { t.task with calledOff := true }) rfl hnone hrun
    rw [← hu] at hmachine hnotes
    have hone : u.notes.count .cancelled = 1 ∧ u.notes.count .exhausted = 0 := by
      obtain h | h := hnotes <;> rw [h] <;> decide
    refine ⟨_, by rw [hmachine]; rfl, ?_, rfl, ?_, ?_⟩
    · exact congrArg (fun sink => Failure.cancelled (Machine.operation sink)) hsound'.sink_eq
    · rw [Counters.cancelled_recordAll, List.count_append, List.count_eq_zero_of_not_mem hcancelled,
        hone.1]
    · rw [Counters.exhausted_recordAll, List.count_append,
        List.count_eq_zero_of_not_mem hexhausted, hone.2]
      rfl

/-- A request is refused for good at the very time that the delivery is called off: it is
called off. -/
theorem run_cancel_refused :
    let batch : List Event := [⟨⟨"a"⟩, [], none⟩]
    let refused : Found := .answer (.error (.client "crm" "no"))
    let t := (start "crm" ItemStatus.classify default batch).run [.run .clear]
    let u := t.task.run [.cancel, .run refused]
    batch ≠ [] ∧ (batch.map (·.id)).Nodup ∧ u.requests = [] ∧
      ∃ f, u.task.machine.result? = some (.error f) ∧ f = .cancelled "dispatch to 'crm'" := by
  intro batch refused t u
  have hne : batch ≠ [] := List.cons_ne_nil _ _
  have hids : (batch.map (·.id)).Nodup := by decide
  obtain ⟨hrequests, -, hresult⟩ := run_cancel "crm" ItemStatus.classify default hne hids [.clear]
    [.run refused] {}
  obtain ⟨f, hf, hcancelled, -⟩ := hresult rfl ⟨refused, List.mem_singleton.mpr rfl⟩
  exact ⟨hne, hids, hrequests, f, hf, hcancelled⟩

end Task

end Courier.Delivery

namespace Courier.Pipeline

open Courier.Delivery (Found Machine)

/-- **The deliveries of a pipeline are tasks**, and telling the pipeline to shut down is
what cancels their tokens. -/
theorem runDelivery_eq (p : Pipeline) {index : Nat} (answer : Option Delivery.Answer)
    {m : Machine} (h : p.deliveries[index]? = some m) :
    ∃ found,
      let after := (⟨m, p.shutDown⟩ : Delivery.Task).step (.run found)
      (p.runDelivery index answer).deliveries = p.deliveries.set index after.1.machine ∧
        (p.runDelivery index answer).series
          = p.series ++ Delivery.seriesOf m.ledger.sink after.2 := by
  obtain ⟨found, hfound⟩ : ∃ found,
      deliverySignal p.shutDown m answer = (⟨m, p.shutDown⟩ : Delivery.Task).hears found := by
    unfold deliverySignal Delivery.Task.hears
    cases p.shutDown with
    | true => exact ⟨.nothing, rfl⟩
    | false =>
      cases m.phase with
      | inFlight request =>
        cases answer with
        | none => exact ⟨.nothing, rfl⟩
        | some a => exact ⟨.answer a, rfl⟩
      | _ => exact ⟨.clear, rfl⟩
  refine ⟨found, ?_⟩
  unfold runDelivery
  simp only [h, hfound]
  cases hhears : (⟨m, p.shutDown⟩ : Delivery.Task).hears found with
  | none =>
    rw [Delivery.Task.step_of_hears_none hhears]
    obtain ⟨hindex, rfl⟩ := List.getElem?_eq_some_iff.mp h
    exact ⟨(List.set_getElem_self hindex).symm, (List.append_nil _).symm⟩
  | some s =>
    rw [Delivery.Task.step_of_hears hhears]
    exact ⟨rfl, rfl⟩

end Courier.Pipeline
