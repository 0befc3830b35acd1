import Courier.Proofs.Pipeline.Shift
/-!
# A shutdown fails no record

A run that is told to shut down winds up (`Pipeline.Winds`), and the handler of
failures is told of no failure from then on (`Pipeline.failures_shutdown`). Every
failure that it was told of before is one that a delivery had ended with by what
its sink had answered (`Pipeline.failures_earned`): it does not come of a delivery
that was called off.

So the strategy for failures is not asked at all in what is left of the run. The
consumer is run, and then the reader, and there is nothing more to do
(`Pipeline.drive_of_shutDown`).
-/

namespace Courier

namespace Pipeline

variable {p : Pipeline}

/-! ## What is left of a run after the shutdown -/

/-- **Once the consumer has been run**, it is done. -/
theorem phase_run_of_shutDown (h : p.shutDown = true) {signals : List Signal}
    (hmem : .consumer ∈ signals) : (p.run signals).1.consumer.phase = .done := by
  obtain ⟨xs, ys, rfl⟩ := List.append_of_mem hmem
  rw [run_append]
  have hxs := (winds_run xs h).shutDown
  have hdone : ((p.run xs).1.step .consumer).1.consumer.phase = .done := by
    show (p.run xs).1.runConsumer.1.consumer.phase = .done
    rw [runConsumer_of_shutDown hxs]
    exact phase_tell_shutdown _
  obtain hkept | htold := (winds_run ys (winds_step hxs .consumer).shutDown).consumer_eq
  · exact (congrArg Consumer.phase hkept).trans hdone
  · rw [Consumer.step_done hdone] at htold
    exact (congrArg Consumer.phase htold).trans hdone

section Driven

variable {σ : Type} (w : World σ) (e : ExceptionStrategy)

/-- **What a pipeline that is to shut down has to do next**: to run the consumer and then
the reader, as long as they are not done. -/
theorem task?_of_shutDown (h : p.shutDown = true) :
    p.task? = if p.consumer.phase = .done then
        if p.reader.phase = .done then none else some .reader
      else some .consumer := by
  unfold task?
  cases hphase : p.consumer.phase with
  | done => rfl
  | _ => simp [h]

/-- Its consumer is done when there is nothing to do. -/
theorem phase_of_idle (h : p.shutDown = true) (hidle : p.task? = none) :
    p.consumer.phase = .done := by
  refine Decidable.byContradiction fun hphase => ?_
  rw [task?_of_shutDown h, if_neg hphase] at hidle
  exact nomatch hidle

/-- A reader that is run is done. -/
theorem reader_of_shutDown (h : p.shutDown = true) : p.runReader.reader.phase = .done := by
  unfold runReader
  rw [if_pos h]
  show (p.reader.step .shutdown).phase = .done
  unfold Reader.step
  cases hphase : p.reader.phase with
  | done => exact hphase
  | reading => rfl
  | offering record last => rfl

/-- A pipeline with nothing to do is not driven any further. -/
theorem drive_of_idle (h : p.task? = none) (tasks : Nat) (x : σ) :
    drive w e tasks x p = (x, p, .finished) := by
  cases tasks with
  | zero => rfl
  | succ tasks =>
    rw [drive, h]

/-- **A pipeline whose consumer is done** stops its reader and is finished. -/
theorem drive_of_done (h : p.shutDown = true) (hdone : p.consumer.phase = .done) (tasks : Nat)
    (x : σ) : ∃ signals, drive w e (tasks + 1) x p = (x, (p.run signals).1, .finished) ∧
      (p.run signals).1.task? = none := by
  have htask := task?_of_shutDown h
  rw [if_pos hdone] at htask
  by_cases hreader : p.reader.phase = .done
  · rw [if_pos hreader] at htask
    exact ⟨[], drive_of_idle w e htask (tasks + 1) x, htask⟩
  · rw [if_neg hreader] at htask
    have hidle : p.runReader.task? = none := by
      have hstep : Winds p p.runReader [] := winds_step h .reader
      have hconsumer : p.runReader.consumer.phase = .done := by
        obtain hkept | htold := hstep.consumer_eq
        · exact (congrArg Consumer.phase hkept).trans hdone
        · exact (congrArg Consumer.phase htold).trans (phase_tell_shutdown p)
      rw [task?_of_shutDown hstep.shutDown, if_pos hconsumer, if_pos (reader_of_shutDown h)]
    refine ⟨[.reader], ?_, hidle⟩
    rw [drive, htask]
    exact drive_of_idle w e hidle tasks x

/-- **A pipeline that is to shut down is driven to its end**, whatever is to be done about
failures: nothing is sent and nothing is stored, and in the end there is nothing to do. -/
theorem drive_of_shutDown (h : p.shutDown = true) (tasks : Nat) (x : σ) :
    ∃ signals, drive w e (tasks + 2) x p = (x, (p.run signals).1, .finished) ∧
      (p.run signals).1.task? = none := by
  by_cases hdone : p.consumer.phase = .done
  · exact drive_of_done w e h hdone (tasks + 1) x
  · have htask := task?_of_shutDown h
    rw [if_neg hdone] at htask
    have hrun := winds_step h .consumer
    have hdone' : (p.run [.consumer]).1.consumer.phase = .done :=
      phase_run_of_shutDown h List.mem_cons_self
    obtain ⟨signals, hdrive, hidle⟩ := drive_of_done w e hrun.shutDown hdone' tasks x
    refine ⟨.consumer :: signals, ?_, hidle⟩
    rw [drive, htask]
    exact hdrive

end Driven

/-! ## The failures that the handler is told of -/

/-- **The failure that is shown**, with its record: the handler is told of it. -/
def Effect.failed? : Effect → Option (Record × Failure)
  | .delivered _ _ => none
  | .failed r f => some (r, f)
  | .stored _ => none

/-- **The failures that the handler is told of** in a run. -/
def failures (p : Pipeline) (signals : List Signal) : List (Record × Failure) :=
  (p.run signals).2.filterMap Effect.failed?

/-- **The handler is told of no failure after a shutdown.** -/
theorem failures_shutdown (p : Pipeline) (before after : List Signal) :
    p.failures (before ++ .shutdown :: after) = p.failures before := by
  let told : Pipeline := { (p.run before).1 with shutDown := true }
  have hnone : (told.run after).2.filterMap Effect.failed? = [] := by
    refine List.filterMap_eq_nil_iff.mpr fun e he => ?_
    obtain ⟨position, rfl⟩ := (winds_run after (p := told) rfl).stores e he
    rfl
  unfold failures
  rw [run_append, List.filterMap_append]
  show _ ++ (told.run after).2.filterMap Effect.failed? = _
  rw [hnone, List.append_nil]

/-- **A failure is what a delivery has ended with** that has not been called off. So it is a
cancellation only if the sink has answered so. -/
theorem failures_earned (hphase : ∀ r, p.consumer.phase ≠ .delivering r) {signals : List Signal}
    {r : Record} {f : Failure} (h : (r, f) ∈ p.failures signals) :
    (∃ sink ∈ p.sinks, ∃ m, Undisturbed (Answered signals) p.strategy r.events sink m ∧
      m.result? = some (.error f)) ∧
    ∀ operation, f = .cancelled operation →
      Answered signals (.error (.cancelled operation)) := by
  obtain ⟨e, he, hfailed⟩ := List.mem_filterMap.mp h
  have hearned := earned_run hphase signals e he
  cases e with
  | delivered r' reports => exact nomatch hfailed
  | stored position => exact nomatch hfailed
  | failed r' f' =>
    obtain ⟨rfl, rfl⟩ := Prod.mk.inj (Option.some.inj hfailed)
    obtain ⟨sink, hsink, m, hm, hr⟩ := hearned
    refine ⟨⟨sink, hsink, m, hm, hr⟩, fun operation hf => ?_⟩
    exact hm.heard_of_cancelled (hf ▸ hr)

end Pipeline

/-! ## Runs of a blueprint -/

namespace Run

open Courier.Pipeline

variable {b : Blueprint} {s : Settings} {files : Files} {p : Plan}

/-- **The pipeline of a plan** makes requests again as its blueprint says. -/
theorem plan_strategy (h : plan b s files = .ok p) :
    p.pipeline.strategy = b.delivery.strategy := by
  obtain ⟨handles, -, h⟩ := bind_eq_ok h
  obtain ⟨line, -, h⟩ := bind_eq_ok h
  obtain ⟨reader, -, h⟩ := bind_eq_ok h
  obtain rfl := Except.ok.inj h
  rfl

/-- **A graceful shutdown fails no record.** A run is told to shut down at any moment; its
parts have been run in any order until then, and are in any order afterwards. Whatever
its sinks do, the handler of failures is told of no failure from then on; and every
failure that it was told of before is what a delivery had ended with that had not been
called off, so that it is a cancellation only if a sink has answered so. Nothing is
counted any more, neither by the consumer nor of the deliveries. Once the consumer has
been run it is done, and then it has been interrupted, unless it had seen the end of its
records before the shutdown. And when the run is driven on, whatever is to be done about
failures, it is finished as it should be, and not by the handler. -/
theorem shutdown_fails_nothing (h : plan b s files = .ok p) (before after : List Signal) :
    let told := (p.pipeline.run (before ++ [.shutdown])).1
    let last := (p.pipeline.run (before ++ .shutdown :: after)).1
    p.pipeline.failures (before ++ .shutdown :: after) = p.pipeline.failures before ∧
      (∀ r f, (r, f) ∈ p.pipeline.failures before →
        (∃ sink ∈ b.sinks.map (·.name), ∃ m,
          Undisturbed (Answered before) b.delivery.strategy r.events sink m ∧
          m.result? = some (.error f)) ∧
        ∀ operation, f = .cancelled operation →
          Answered before (.error (.cancelled operation))) ∧
      Spared told last ∧
      (.consumer ∈ after → last.consumer.phase = .done) ∧
      ∀ (σ : Type) (w : World σ) (e : ExceptionStrategy) (tasks : Nat) (x : σ), ∃ q,
        drive w e (tasks + 2) x last = (x, q, .finished) ∧ q.task? = none ∧
          q.consumer.phase = .done ∧ Spared told q := by
  intro told last
  obtain ⟨-, -, hsinks, -, hconsumer, -⟩ := plan_ok h
  have hphase (r : Record) : p.pipeline.consumer.phase ≠ .delivering r := by
    rw [hconsumer]
    exact Consumer.Phase.noConfusion
  have htold : told.shutDown = true := by
    show (p.pipeline.run (before ++ [.shutdown])).1.shutDown = true
    rw [run_concat]
    rfl
  have hlast : last = (told.run after).1 := by
    show (p.pipeline.run (before ++ .shutdown :: after)).1 = _
    rw [List.append_cons, run_append]
  have hwinds : Winds told last (told.run after).2 := hlast ▸ winds_run after htold
  -- the handler of failures; the counters; the consumer; and the run that is driven on
  refine ⟨failures_shutdown _ before after, fun r f hf => ?_, hwinds.spared, fun hmem => ?_,
    fun σ w e tasks x => ?_⟩
  · rw [← hsinks, ← plan_strategy h]
    exact failures_earned hphase hf
  · rw [hlast]
    exact phase_run_of_shutDown htold hmem
  · obtain ⟨signals, hdrive, hidle⟩ := drive_of_shutDown w e hwinds.shutDown tasks x
    have hmore := winds_run signals hwinds.shutDown
    exact ⟨_, hdrive, hidle, phase_of_idle hmore.shutDown hidle, (hwinds.trans hmore).spared⟩

/-- The kinds of the failures that the deliveries of a pipeline have ended with. -/
def failureKinds (p : Pipeline) : List Failure.Kind :=
  p.deliveries.filterMap fun m =>
    match m.result? with
    | some (.error f) => some f.kind
    | _ => none

/-- The signals by which a line is read, taken and sent. -/
def sending : List Signal :=
  [.reader, .reader, .reader, .consumer, .delivery 0 none]

/-- A delivery is called off before the consumer is run, which could take its result and is
run then. -/
def noticing : List Signal :=
  [.delivery 0 none, .settle 0, .consumer]

theorem isOk_plan_logging : (plan logging {} oneLine).isOk = true := by
  decide +kernel

/-- The plan of a run that logs a line. -/
def loggingLine : Plan :=
  Shift.planOf logging {} oneLine isOk_plan_logging

/-- **A line whose request is called off**: its delivery ends as one that has failed, and the
handler is told of nothing. -/
theorem shutdown_fails_nothing_logging :
    let told := (loggingLine.pipeline.run (sending ++ [.shutdown])).1
    let last := (loggingLine.pipeline.run (sending ++ .shutdown :: noticing)).1
    plan logging {} oneLine = .ok loggingLine ∧
      failureKinds (told.run [.delivery 0 none]).1 = [.cancelled] ∧
      loggingLine.pipeline.failures (sending ++ .shutdown :: noticing) = [] ∧
      last.consumer.phase = .done ∧ last.consumer.summary.interrupted = true ∧
      last.consumer.summary.failed = 0 ∧ last.statistics.failed = 0 := by
  intro told last
  have hplan : plan logging {} oneLine = .ok loggingLine :=
    Shift.plan_planOf logging {} oneLine isOk_plan_logging
  obtain ⟨hnone, -, hspared, hdone, -⟩ := shutdown_fails_nothing hplan sending noticing
  have hbefore : (loggingLine.pipeline.failures sending).isEmpty = true := by decide +kernel
  have hunseen : ¬told.consumer.SawEnd := by
    unfold Consumer.SawEnd
    decide +kernel
  have hlast := hdone (List.mem_cons_of_mem _ (List.mem_cons_of_mem _ List.mem_cons_self))
  refine ⟨hplan, by decide +kernel, hnone.trans (List.isEmpty_iff.mp hbefore), hlast,
    hspared.interrupted hlast hunseen, hspared.failed_eq.trans (by decide +kernel), ?_⟩
  exact (congrArg Statistics.Deliveries.failed hspared.statistics_eq).trans (by decide +kernel)

end Run

end Courier
