import Courier.Proofs.Consumer.Work
import Courier.Proofs.Pipeline.Tending
/-!
# Winding up

A pipeline that is told to shut down winds up. Each of its parts notices it when it
is run next: the reader stops, the deliveries are called off, and the consumer is
done. A delivery that is called off ends as one that has failed, and it may do so
before the consumer is run. But the consumer looks at the shutdown before it looks
at what the deliveries have ended with, so that nothing comes of it: from then on
no record is delivered or fails, and nothing is counted, in whatever order the
parts are run (`Pipeline.Winds`, `Pipeline.winds_run`).

All that comes of it is that the consumer takes down that it was interrupted,
unless it had seen the end of its records before (`Pipeline.Spared`). So when the
consumer has seen the end, it had seen it before the shutdown, if there was one
(`Pipeline.Kept.before`).
-/

namespace Courier

/-! ## The consumer -/

namespace Consumer

variable {c : Consumer}

theorem step_done (h : c.phase = .done) (s : Signal) : c.step s = (c, []) := by
  unfold step
  rw [h]

/-- **A consumer that has seen the end of its records** is done, and was not told to
shut down before. -/
def SawEnd (c : Consumer) : Prop :=
  c.phase = .done ∧ c.summary.interrupted = false

/-- **A consumer that is told to shut down** counts nothing, and takes down that it was
told, unless it has seen the end of its records before. -/
theorem summary_shutdown (c : Consumer) :
    (c.step .shutdown).1.summary.failed = c.summary.failed ∧
      (¬c.SawEnd → (c.step .shutdown).1.summary.interrupted = true) := by
  by_cases h : c.phase = .done
  · rw [step_done h]
    exact ⟨rfl, fun hunseen => Bool.of_not_eq_false fun hkept => hunseen ⟨h, hkept⟩⟩
  · rw [step_shutdown h]
    exact ⟨rfl, fun _ => rfl⟩

end Consumer

namespace Pipeline

/-! ## After the shutdown -/

variable {p q r : Pipeline} {effects more : List Effect}

/-- **A signal of a pipeline that is to shut down**: no record is dealt with, nothing is
counted, and the consumer stays as it is or notices that it is to shut down. -/
structure Winds (p q : Pipeline) (effects : List Effect) : Prop where
  /-- It is still to shut down. -/
  shutDown : q.shutDown = true
  /-- All that it shows is that a position is stored. -/
  stores : ∀ e ∈ effects, ∃ position, e = .stored position
  /-- Nothing is counted. -/
  statistics_eq : q.statistics = p.statistics
  /-- The consumer is told at most that it is to shut down. -/
  consumer_eq : q.consumer = p.consumer ∨ q.consumer = (p.consumer.step .shutdown).1

theorem Winds.aside (hshut : q.shutDown = true) (hstatistics : q.statistics = p.statistics)
    (hconsumer : q.consumer = p.consumer) : Winds p q [] :=
  ⟨hshut, fun _ he => (nomatch he), hstatistics, .inl hconsumer⟩

/-- **One after another.** The consumer notices it once. -/
theorem Winds.trans (h : Winds p q effects) (h' : Winds q r more) :
    Winds p r (effects ++ more) where
  shutDown := h'.shutDown
  stores e he := (List.mem_append.mp he).elim (h.stores e) (h'.stores e)
  statistics_eq := h'.statistics_eq.trans h.statistics_eq
  consumer_eq := by
    obtain hkept | htold := h.consumer_eq
    · rw [← hkept]
      exact h'.consumer_eq
    · have hdone : q.consumer.phase = .done := htold ▸ phase_tell_shutdown p
      obtain hkept' | htold' := h'.consumer_eq
      · exact .inr (hkept'.trans htold)
      · rw [Consumer.step_done hdone] at htold'
        exact .inr (htold'.trans htold)

/-- **One thing that is done.** The consumer takes no record and no result any more. -/
theorem Turn.winds {s : Signal} (hturn : Turn p s q effects) (h : p.shutDown = true) :
    Winds p q effects := by
  cases hturn with
  | idle => exact .aside h rfl rfl
  | reads => exact .aside h rfl rfl
  | hands => exact .aside h rfl rfl
  | refuses => exact .aside h rfl rfl
  | stops => exact .aside h rfl rfl
  | notices => exact ⟨h, fun _ he => (nomatch he), rfl, .inr rfl⟩
  | takes hopen => exact nomatch hopen.symm.trans h
  | closes hopen => exact nomatch hopen.symm.trans h
  | hears hopen => exact nomatch hopen.symm.trans h
  | runs => exact .aside h rfl rfl
  | reports hopen => exact nomatch hopen.symm.trans h
  | concludes hopen => exact nomatch hopen.symm.trans h
  | fails hopen => exact nomatch hopen.symm.trans h
  | @stores position session hoffer =>
    exact ⟨h, fun e he => ⟨position, List.mem_singleton.mp he⟩, rfl, .inl rfl⟩
  | retries => exact .aside h rfl rfl
  | givesUp => exact .aside h rfl rfl
  | handles hopen => exact nomatch hopen.symm.trans h
  | shutsDown => exact .aside rfl rfl rfl

/-- **One signal.** -/
theorem winds_step (h : p.shutDown = true) (s : Signal) :
    Winds p (p.step s).1 (p.step s).2 := by
  cases turns_step p s with
  | one hturn => exact hturn.winds h
  | two hturn _ _ hturn' =>
    have hfirst := hturn.winds h
    exact hfirst.trans (hturn'.winds hfirst.shutDown)

/-- **The consumer notices that it is to shut down** before everything else. -/
theorem runConsumer_of_shutDown (h : p.shutDown = true) :
    p.runConsumer = ({ p.tell .shutdown with deliveries := [] }, []) := by
  unfold runConsumer
  rw [if_pos h]

/-- **Several signals.** -/
theorem winds_run (signals : List Signal) : ∀ {p : Pipeline}, p.shutDown = true →
    Winds p (p.run signals).1 (p.run signals).2 := by
  induction signals with
  | nil => exact fun h => .aside h rfl rfl
  | cons s rest ih =>
    intro p h
    have hstep := winds_step h s
    exact hstep.trans (ih hstep.shutDown)

/-- **What comes of a shutdown**: nothing is counted, and the consumer takes down that it
was interrupted, unless it had seen the end of its records. -/
structure Spared (told last : Pipeline) : Prop where
  /-- The consumer counts no failure. -/
  failed_eq : last.consumer.summary.failed = told.consumer.summary.failed
  /-- Nor is anything counted of the deliveries. -/
  statistics_eq : last.statistics = told.statistics
  /-- When the consumer is done, it has been interrupted. -/
  interrupted : last.consumer.phase = .done → ¬told.consumer.SawEnd →
    last.consumer.summary.interrupted = true

/-- That is what comes of the signals after it. -/
theorem Winds.spared (h : Winds p q effects) : Spared p q := by
  obtain ⟨hfailed, hinterrupted⟩ := Consumer.summary_shutdown p.consumer
  obtain hkept | htold := h.consumer_eq
  · refine ⟨by rw [hkept], h.statistics_eq, fun hdone hunseen => ?_⟩
    rw [hkept] at hdone ⊢
    rw [Consumer.step_done hdone] at hinterrupted
    exact hinterrupted hunseen
  · refine ⟨by rw [htold]; exact hfailed, h.statistics_eq, fun _ hunseen => ?_⟩
    rw [htold]
    exact hinterrupted hunseen

/-! ## Pipelines that have come to the end of their records -/

/-- **A pipeline that has left out no record**: it is not to shut down, or its consumer had
seen the end of its records before. -/
def Kept (p : Pipeline) : Prop :=
  p.shutDown = false ∨ p.consumer.SawEnd

/-- **It had left out none before.** -/
theorem Kept.before {s : Signal} (h : (p.step s).1.Kept) : p.Kept := by
  cases hshut : p.shutDown with
  | false => exact .inl hshut
  | true =>
    have hwinds := winds_step hshut s
    obtain hopen | ⟨hdone, hkept⟩ := h
    · exact nomatch hwinds.shutDown.symm.trans hopen
    · refine .inr (Classical.byContradiction fun hunseen => ?_)
      exact nomatch (hwinds.spared.interrupted hdone hunseen).symm.trans hkept

end Pipeline

end Courier
