import Courier.Proofs.Delivery.Signals
import Courier.Proofs.Fanout
import Courier.Proofs.Pipeline.Turns
/-!
# The deliveries that a pipeline tends

While a record is being delivered there is a delivery of it to each sink, and a
place for the report of each; and a report that is in its place is what the
delivery has ended with (`Tended`). Running a delivery keeps that
(`Tended.step`), and so does taking a report (`Tended.arrive`); when all places
are filled, there is one report for each sink, in their order
(`Tended.of_reports`).

As long as a pipeline has not been told to shut down it calls no delivery off.
So what its deliveries are is what they have become by going on and by what
their sinks have answered, from their start (`Undisturbed`), and so is
everything that the pipeline shows: a record is delivered when all of them have
ended well, and has failed when one of them has ended with the failure
(`Effect.Earned`, `Attentive.step`, `earned_run`).
-/

namespace Courier

open Courier.Delivery (Machine)

/-! ## Deliveries and places -/

/-- **Deliveries to some sinks, with the places of their reports**: one to each sink that
has a property, and the reports in the places are what they have ended with. -/
structure Tended (P : String → Machine → Prop) (sinks : List String) (deliveries : List Machine)
    (fanout : Fanout) : Prop where
  /-- There is a delivery to each sink. -/
  delivery : ∀ (i : Nat) sink, sinks[i]? = some sink → ∃ m, deliveries[i]? = some m ∧ P sink m
  /-- There is a place for the report of each sink. -/
  slots : fanout.slots.map (·.1) = sinks
  /-- A report in its place is what the delivery has ended with. -/
  filled : ∀ (i : Nat) sink report, fanout.slots[i]? = some (sink, some report) →
    ∃ m, deliveries[i]? = some m ∧ m.result? = some (.ok report)

namespace Tended

variable {P : String → Machine → Prop} {sinks : List String} {deliveries : List Machine}
variable {fanout : Fanout} {index : Nat} {m : Machine}

/-- **Deliveries that start** have no reports yet. -/
theorem start {begin : String → Machine} (h : ∀ sink, P sink (begin sink)) :
    Tended P sinks (sinks.map begin) (.start sinks) where
  delivery i sink hi := ⟨begin sink, by rw [List.getElem?_map, hi]; rfl, h sink⟩
  slots := by
    show ((sinks.map fun s => (s, (none : Option Report))).map (·.1)) = sinks
    rw [List.map_map]
    exact List.map_id sinks
  filled i sink report hi := by
    have hslot : (sinks.map fun s => (s, (none : Option Report)))[i]?
        = some (sink, some report) := hi
    rw [List.getElem?_map, Option.map_eq_some_iff] at hslot
    obtain ⟨_, -, hne⟩ := hslot
    exact nomatch (Prod.mk.inj hne).2

/-- **A delivery is run.** The others stay as they are, and so does one that has
ended. -/
theorem step (h : Tended P sinks deliveries fanout) (hm : deliveries[index]? = some m)
    {signal : Delivery.Signal} (hP : ∀ sink, P sink m → P sink (m.step signal).1) :
    Tended P sinks (deliveries.set index (m.step signal).1) fanout where
  delivery i sink hi := by
    obtain ⟨m', hm', hp⟩ := h.delivery i sink hi
    by_cases hidx : index = i
    · subst hidx
      obtain rfl : m = m' := Option.some.inj (hm.symm.trans hm')
      exact ⟨_, List.getElem?_set_self (List.getElem?_eq_some_iff.mp hm).1, hP sink hp⟩
    · rw [List.getElem?_set_ne hidx]
      exact ⟨m', hm', hp⟩
  slots := h.slots
  filled i sink report hi := by
    -- a report is taken only of a delivery that has ended, and that one stays as it is
    obtain ⟨m', hm', hres⟩ := h.filled i sink report hi
    by_cases hidx : index = i
    · subst hidx
      obtain rfl : m = m' := Option.some.inj (hm.symm.trans hm')
      rw [Machine.step_of_ended (Machine.result?_eq_some_iff.mp hres)]
      exact ⟨m, List.getElem?_set_self (List.getElem?_eq_some_iff.mp hm).1, hres⟩
    · rw [List.getElem?_set_ne hidx]
      exact ⟨m', hm', hres⟩

/-- **A report is taken**: the place of its sink has it now, and the others have what they
had. -/
theorem arrive (h : Tended P sinks deliveries fanout) (hm : deliveries[index]? = some m)
    {report : Report} (hr : m.result? = some (.ok report)) :
    Tended P sinks deliveries ⟨fanout.slots.modify index fun x => (x.1, some report)⟩ where
  delivery := h.delivery
  slots := by
    refine .trans (List.ext_getElem? fun i => ?_) h.slots
    rw [List.getElem?_map, List.getElem?_map, List.getElem?_modify, Option.map_eq_map,
      Option.map_map]
    refine congrArg (fun g => Option.map g fanout.slots[i]?) (funext fun x => ?_)
    rw [Function.comp_apply]
    split
    · rfl
    · rfl
  filled i sink report' hi := by
    rw [List.getElem?_modify] at hi
    obtain ⟨x, hx, hi⟩ := Option.map_eq_some_iff.mp hi
    by_cases hidx : index = i
    · subst hidx
      rw [if_pos rfl] at hi
      obtain rfl : report = report' := Option.some.inj (Prod.mk.inj hi).2
      exact ⟨m, hm, hr⟩
    · rw [if_neg hidx] at hi
      exact h.filled i sink report' (by rw [hx]; exact congrArg some hi)

/-- **When all places are filled** there is one report for each sink, in their order, and
each is what the delivery to its sink has ended with. -/
theorem of_reports (h : Tended P sinks deliveries fanout) {reports : List (String × Report)}
    (hreports : fanout.reports? = some reports) :
    reports.map (·.1) = sinks ∧ ∀ x ∈ reports, ∃ m, P x.1 m ∧ m.result? = some (.ok x.2) := by
  have hslots : fanout.slots = reports.map fun x => (x.1, some x.2) :=
    Fanout.filled?_eq_some_iff.mp hreports
  have hsinks : reports.map (·.1) = sinks := by
    rw [← h.slots, hslots, List.map_map]
    rfl
  refine ⟨hsinks, fun x hx => ?_⟩
  obtain ⟨i, hi⟩ := List.getElem?_of_mem hx
  obtain ⟨m, hm, hr⟩ := h.filled i x.1 x.2 (by rw [hslots, List.getElem?_map, hi]; rfl)
  obtain ⟨m', hm', hp⟩ := h.delivery i x.1 (by rw [← hsinks, List.getElem?_map, hi]; rfl)
  obtain rfl : m = m' := Option.some.inj (hm.symm.trans hm')
  exact ⟨m, hp, hr⟩

end Tended

/-! ## Deliveries that have not been called off -/

namespace Delivery.Machine

/-- A delivery after several signals. -/
def after (m : Machine) (signals : List Signal) : Machine :=
  signals.foldl (fun m s => (m.step s).1) m

end Delivery.Machine

/-- **A signal that a delivery hears when it is not called off**, with answers of a kind. -/
def Delivery.Signal.Among (heard : Delivery.Answer → Prop) : Delivery.Signal → Prop
  | .go => True
  | .answered a => heard a
  | .cancel => False

/-- **A delivery of a batch to a sink that has not been called off**: from its start it has
gone on, and heard answers of a kind, and nothing else has happened to it. -/
def Undisturbed (heard : Delivery.Answer → Prop) (strategy : Retry.Strategy) (batch : List Event)
    (sink : String) (m : Machine) : Prop :=
  ∃ signals : List Delivery.Signal, (∀ s ∈ signals, s.Among heard) ∧
    m = (Machine.start sink ItemStatus.classify strategy batch).after signals

namespace Undisturbed

variable {heard : Delivery.Answer → Prop} {strategy : Retry.Strategy} {batch : List Event}
variable {sink : String} {m : Machine}

/-- A delivery that starts has not been. -/
theorem start (heard : Delivery.Answer → Prop) (strategy : Retry.Strategy) (batch : List Event)
    (sink : String) :
    Undisturbed heard strategy batch sink (.start sink ItemStatus.classify strategy batch) :=
  ⟨[], fun _ h => (nomatch h), rfl⟩

/-- **It goes on, or hears an answer.** -/
theorem step (h : Undisturbed heard strategy batch sink m) {s : Delivery.Signal}
    (hs : s.Among heard) : Undisturbed heard strategy batch sink (m.step s).1 := by
  obtain ⟨signals, hsignals, rfl⟩ := h
  refine ⟨signals ++ [s], fun s' hs' => ?_, ?_⟩
  · obtain hs' | hs' := List.mem_append.mp hs'
    · exact hsignals s' hs'
    · exact List.mem_singleton.mp hs' ▸ hs
  · unfold Machine.after
    rw [List.foldl_append]
    rfl

/-- **What every signal keeps that does not call it off**, a delivery has that has not been
called off. -/
theorem rec_on {motive : Machine → Prop} (h : Undisturbed heard strategy batch sink m)
    (hstart : motive (.start sink ItemStatus.classify strategy batch))
    (hstep : ∀ m s, motive m → s.Among heard → motive (m.step s).1) : motive m := by
  obtain ⟨signals, hsignals, rfl⟩ := h
  have key : ∀ (signals : List Delivery.Signal) (m : Machine), motive m →
      (∀ s ∈ signals, s.Among heard) → motive (m.after signals) := by
    intro signals
    induction signals with
    | nil => exact fun _ hm _ => hm
    | cons s rest ih =>
      intro m hm hall
      exact ih (m.step s).1 (hstep m s hm (hall s List.mem_cons_self)) fun s' hs' =>
        hall s' (List.mem_cons_of_mem s hs')
  exact key signals _ hstart hsignals

/-- **The report of a delivery accounts for its batch**: every event is delivered or
refused. -/
theorem accounts (h : Undisturbed heard strategy batch sink m) {report : Report}
    (hr : m.result? = some (.ok report)) : report.delivered + report.dropped = batch.length := by
  by_cases hne : batch = []
  · have hended : m.phase = .ended (.ok .empty) := by
      refine h.rec_on (motive := fun m => m.phase = .ended (.ok .empty)) ?_ fun m s hm _ => ?_
      · rw [hne]
        rfl
      · rw [Machine.step_of_ended hm]
        exact hm
    obtain rfl := Except.ok.inj
      (Option.some.inj (hr.symm.trans (Machine.result?_eq_some_iff.mpr hended)))
    rw [hne]
    rfl
  · have hdelivers : m.Delivers sink batch :=
      h.rec_on (Machine.start_delivers sink _ strategy hne) fun m s hm _ => hm.step s
    rw [Machine.result?_eq_some_iff] at hr
    obtain hsound | ⟨f, hf⟩ := hdelivers
    · obtain ⟨hresolved, rfl⟩ := hsound.resolved report hr
      have hlength := congrArg List.length
        (Delivery.Ledger.report_ids hsound.coherent hresolved (m.ledger.attempt - 1))
      rw [List.length_map, List.length_map, hsound.batch_eq] at hlength
      rw [← hlength]
      exact Delivery.countP_success_add_isDropped fun o ho =>
        (Delivery.Ledger.report_isFinal hsound.coherent ho).1
    · exact nomatch hr.symm.trans hf

end Undisturbed

namespace Delivery.Machine

variable {m : Machine} {operation : String}

/-- A failure that is put to the strategy does not call a delivery off. -/
theorem judge_ne_cancelled (m : Machine) (f : Failure) :
    (m.judge f).1.phase ≠ .ended (.error (.cancelled operation)) := by
  unfold judge
  split
  · exact fun h => nomatch h
  · exact fun h => nomatch h

/-- An answer that ends a delivery as if it were called off says so itself. -/
theorem eq_of_take_cancelled {request : List Event} {a : Answer}
    (h : (m.take request a).1.phase = .ended (.error (.cancelled operation))) :
    a = .error (.cancelled operation) := by
  unfold take at h
  cases a with
  | ok statuses =>
    dsimp only at h
    split at h
    · exact nomatch h
    · exact absurd h (judge_ne_cancelled _ _)
  | error f =>
    dsimp only at h
    split at h
    · exact absurd h (judge_ne_cancelled _ _)
    · exact congrArg Except.error (Except.error.inj (Phase.ended.inj h))

/-- **A delivery that ends as one that is called off** had ended so before, or it is called
off, or its sink answers so. -/
theorem step_cancelled {s : Signal}
    (h : (m.step s).1.phase = .ended (.error (.cancelled operation))) :
    m.phase = .ended (.error (.cancelled operation)) ∨ s = .cancel ∨
      s = .answered (.error (.cancelled operation)) := by
  cases s with
  | cancel => exact .inr (.inl rfl)
  | go =>
    cases hp : m.phase with
    | ended r => exact .inl (by rw [step_of_ended hp, hp] at h; exact h)
    | ready => simp [step, hp] at h
    | inFlight request => simp [step, hp] at h
    | waiting delay next => simp [step, hp] at h
  | answered a =>
    cases hp : m.phase with
    | ended r => exact .inl (by rw [step_of_ended hp, hp] at h; exact h)
    | ready => simp [step, hp] at h
    | waiting delay next => simp [step, hp] at h
    | inFlight request =>
      have htake : (m.step (.answered a)).1 = (m.take request a).1 := by simp [step, hp]
      rw [htake] at h
      exact .inr (.inr (congrArg Signal.answered (eq_of_take_cancelled h)))

/-- A delivery does not start as one that is called off. -/
theorem start_ne_cancelled (sink : String) (classify : ItemStatus → ItemClass)
    (strategy : Retry.Strategy) (batch : List Event) :
    (start sink classify strategy batch).phase ≠ .ended (.error (.cancelled operation)) := by
  unfold start
  dsimp only
  split
  · exact fun h => nomatch h
  · unfold Ledger.start
    split
    · next hf =>
      split at hf
      · obtain rfl := Except.error.inj hf
        exact fun h => nomatch h
      · exact nomatch hf
    · exact fun h => nomatch h

end Delivery.Machine

/-- **A delivery that has not been called off ends as if it were** only when its sink has
answered so. -/
theorem Undisturbed.heard_of_cancelled {heard : Delivery.Answer → Prop}
    {strategy : Retry.Strategy} {batch : List Event} {sink : String} {m : Machine}
    (h : Undisturbed heard strategy batch sink m) {operation : String}
    (hr : m.result? = some (.error (.cancelled operation))) :
    heard (.error (.cancelled operation)) := by
  rw [Machine.result?_eq_some_iff] at hr
  refine h.rec_on (motive := fun m => m.phase = .ended (.error (.cancelled operation)) →
    heard (.error (.cancelled operation))) (fun h => ?_) (fun m s ih hs h => ?_) hr
  · exact absurd h (Machine.start_ne_cancelled _ _ _ _)
  · obtain hm | rfl | rfl := Machine.step_cancelled h
    · exact ih hm
    · exact hs.elim
    · exact hs

/-! ## Pipelines -/

namespace Pipeline

/-- **What is shown is earned**: a record is delivered when its delivery to every sink has
ended well, and has failed when one of its deliveries has ended with the failure; and none
of them has been called off. -/
def Effect.Earned (heard : Delivery.Answer → Prop) (sinks : List String)
    (strategy : Retry.Strategy) : Effect → Prop
  | .delivered r reports => reports.map (·.1) = sinks ∧
    ∀ x ∈ reports, ∃ m, Undisturbed heard strategy r.events x.1 m ∧ m.result? = some (.ok x.2)
  | .failed r f =>
    ∃ sink ∈ sinks, ∃ m, Undisturbed heard strategy r.events sink m ∧
      m.result? = some (.error f)
  | .stored _ => True

/-- **A pipeline that calls no delivery off** as long as it has not been told to shut down. -/
structure Attentive (heard : Delivery.Answer → Prop) (sinks : List String)
    (strategy : Retry.Strategy) (p : Pipeline) : Prop where
  /-- Its sinks. -/
  sinks_eq : p.sinks = sinks
  /-- Its strategy. -/
  strategy_eq : p.strategy = strategy
  /-- It tends a delivery to each of them. -/
  tended : p.shutDown = false → ∀ r, p.consumer.phase = .delivering r →
    p.deliveries.length = sinks.length ∧
      Tended (Undisturbed heard strategy r.events) sinks p.deliveries p.fanout

variable {heard : Delivery.Answer → Prop} {sinks : List String} {strategy : Retry.Strategy}
variable {p q : Pipeline}

/-- A pipeline with the same deliveries, if it has a record delivered at all. -/
theorem Attentive.of_eq (h : p.Attentive heard sinks strategy) (hsinks : q.sinks = p.sinks)
    (hstrategy : q.strategy = p.strategy) (hopen : q.shutDown = false → p.shutDown = false)
    (hsame : ∀ r, q.consumer.phase = .delivering r → p.consumer.phase = .delivering r ∧
      q.deliveries = p.deliveries ∧ q.fanout = p.fanout) :
    q.Attentive heard sinks strategy where
  sinks_eq := hsinks.trans h.sinks_eq
  strategy_eq := hstrategy.trans h.strategy_eq
  tended hq r hr := by
    obtain ⟨hphase, hdeliveries, hfanout⟩ := hsame r hr
    rw [hdeliveries, hfanout]
    exact h.tended (hopen hq) r hphase

/-- **One signal keeps a pipeline attentive, and what it shows is earned.** -/
def Keeps (heard : Delivery.Answer → Prop) (sinks : List String) (strategy : Retry.Strategy)
    (after : Pipeline × List Effect) : Prop :=
  after.1.Attentive heard sinks strategy ∧ ∀ e ∈ after.2, e.Earned heard sinks strategy

theorem Attentive.keeps (h : q.Attentive heard sinks strategy) :
    Keeps heard sinks strategy (q, []) :=
  ⟨h, fun _ he => nomatch he⟩

theorem Attentive.keeps_of_phase (h : p.Attentive heard sinks strategy) {effects : List Effect}
    {phase : Consumer.Phase} (hsinks : q.sinks = p.sinks) (hstrategy : q.strategy = p.strategy)
    (hopen : q.shutDown = p.shutDown) (hphase : q.consumer.phase = phase)
    (hne : ∀ r, phase ≠ .delivering r) (hearned : ∀ e ∈ effects, e.Earned heard sinks strategy) :
    Keeps heard sinks strategy (q, effects) :=
  ⟨h.of_eq hsinks hstrategy (fun hq => hopen.symm.trans hq) fun r hr =>
    absurd (hphase.symm.trans hr) (hne r), hearned⟩

theorem Attentive.keeps_of_same (h : p.Attentive heard sinks strategy) {effects : List Effect}
    (hsinks : q.sinks = p.sinks) (hstrategy : q.strategy = p.strategy)
    (hopen : q.shutDown = p.shutDown) (hconsumer : q.consumer = p.consumer)
    (hdeliveries : q.deliveries = p.deliveries) (hfanout : q.fanout = p.fanout)
    (hearned : ∀ e ∈ effects, e.Earned heard sinks strategy) :
    Keeps heard sinks strategy (q, effects) :=
  ⟨h.of_eq hsinks hstrategy (fun hq => hopen.symm.trans hq) fun _ hr =>
    ⟨hconsumer ▸ hr, hdeliveries, hfanout⟩, hearned⟩

/-- **A record that is taken** begins to be delivered to each sink. -/
theorem Attentive.take_record (h : p.Attentive heard sinks strategy)
    (hphase : p.consumer.phase = .waiting) (r : Record) (rest : List Record) :
    Attentive heard sinks strategy
      { p.tell (.record r) with
        channel := rest
        deliveries := p.sinks.map fun sink =>
          Machine.start sink ItemStatus.classify p.strategy r.events
        fanout := .start p.sinks } where
  sinks_eq := h.sinks_eq
  strategy_eq := h.strategy_eq
  tended _ r' hr' := by
    obtain rfl := Consumer.Phase.delivering.inj ((phase_tell_record hphase r).symm.trans hr')
    rw [h.sinks_eq, h.strategy_eq]
    exact ⟨List.length_map .., .start fun sink => .start heard strategy r.events sink⟩

/-- **A delivery is run**, and hears an answer of the kind or none. It is not called off,
since the pipeline has not been told to shut down. -/
theorem Attentive.run_delivery (h : p.Attentive heard sinks strategy) {index : Nat}
    {answer : Option Delivery.Answer} (hanswer : ∀ a, answer = some a → heard a) {m : Machine}
    (hm : p.deliveries[index]? = some m) {signal : Delivery.Signal}
    (hsignal : deliverySignal p.shutDown m answer = some signal)
    (series : List (Series × Nat)) :
    Attentive heard sinks strategy
      { p with deliveries := p.deliveries.set index (m.step signal).1, series := series } where
  sinks_eq := h.sinks_eq
  strategy_eq := h.strategy_eq
  tended hopen r hr := by
    obtain ⟨hlength, htended⟩ := h.tended hopen r hr
    have hamong : signal.Among heard := by
      have hopen : p.shutDown = false := hopen
      unfold deliverySignal at hsignal
      rw [hopen, if_neg Bool.false_ne_true] at hsignal
      split at hsignal
      · next a _ => exact Option.some.inj hsignal ▸ hanswer a rfl
      · exact nomatch hsignal
      · exact Option.some.inj hsignal ▸ trivial
    exact ⟨(List.length_set ..).trans hlength, htended.step hm fun _ hp => hp.step hamong⟩

/-- **The consumer takes a report.** -/
theorem Attentive.take_report (h : p.Attentive heard sinks strategy) {index : Nat} {m : Machine}
    {report : Report} {r : Record} (hopen : p.shutDown = false)
    (hphase : p.consumer.phase = .delivering r) (hm : p.deliveries[index]? = some m)
    (hr : m.result? = some (.ok report)) :
    Attentive heard sinks strategy
      { p with fanout := ⟨p.fanout.slots.modify index fun x => (x.1, some report)⟩ } where
  sinks_eq := h.sinks_eq
  strategy_eq := h.strategy_eq
  tended _ r' hr' := by
    obtain rfl := Consumer.Phase.delivering.inj (hphase.symm.trans hr')
    obtain ⟨hlength, htended⟩ := h.tended hopen r hphase
    exact ⟨hlength, htended.arrive hm hr⟩

/-- A failure that the consumer takes is what a delivery has ended with. -/
theorem Attentive.earned_failed (h : p.Attentive heard sinks strategy) {index : Nat} {m : Machine}
    {r : Record} {f : Failure} (hopen : p.shutDown = false)
    (hphase : p.consumer.phase = .delivering r) (hm : p.deliveries[index]? = some m)
    (hr : m.result? = some (.error f)) : (Effect.failed r f).Earned heard sinks strategy := by
  obtain ⟨hlength, htended⟩ := h.tended hopen r hphase
  have hlt : index < sinks.length := hlength ▸ (List.getElem?_eq_some_iff.mp hm).1
  obtain ⟨m', hm', hp⟩ := htended.delivery index _ (List.getElem?_eq_getElem hlt)
  obtain rfl : m = m' := Option.some.inj (hm.symm.trans hm')
  exact ⟨_, List.getElem_mem hlt, m, hp, hr⟩

/-- **One thing that is done.** -/
theorem Attentive.turn (h : p.Attentive heard sinks strategy) {s : Signal}
    (hs : ∀ index a, s = .delivery index (some a) → heard a) {effects : List Effect}
    (hturn : Turn p s q effects) : Keeps heard sinks strategy (q, effects) := by
  have hnone : ∀ e ∈ ([] : List Effect), e.Earned heard sinks strategy := fun _ he => nomatch he
  have hone {e : Effect} (he : e.Earned heard sinks strategy) :
      ∀ e' ∈ [e], e'.Earned heard sinks strategy :=
    fun _ he' => List.mem_singleton.mp he' ▸ he
  cases hturn with
  | idle => exact h.keeps
  | reads => exact h.keeps_of_same rfl rfl rfl rfl rfl rfl hnone
  | hands => exact h.keeps_of_same rfl rfl rfl rfl rfl rfl hnone
  | refuses => exact h.keeps_of_same rfl rfl rfl rfl rfl rfl hnone
  | stops => exact h.keeps_of_same rfl rfl rfl rfl rfl rfl hnone
  | notices => exact h.keeps_of_phase rfl rfl rfl (phase_tell_shutdown p) nofun hnone
  | takes hopen hphase => exact (h.take_record hphase _ _).keeps
  | closes hopen hphase =>
    exact h.keeps_of_phase rfl rfl rfl (phase_tell_closed hphase) nofun hnone
  | hears hopen hphase =>
    exact h.keeps_of_phase rfl rfl rfl (phase_tell_acked hphase _) nofun hnone
  | @runs index answer m signal hm hsignal =>
    exact (h.run_delivery (fun a ha => hs index a (ha ▸ rfl)) hm hsignal _).keeps
  | reports hopen hphase hm hr => exact (h.take_report hopen hphase hm hr).keeps
  | @concludes _ r reports hopen hphase hreports =>
    have hearned : (Effect.delivered r reports).Earned heard sinks strategy :=
      (h.tended hopen r hphase).2.of_reports hreports
    exact h.keeps_of_phase rfl rfl rfl (phase_tell_delivered hphase) nofun (hone hearned)
  | fails hopen hphase hm hr =>
    exact h.keeps_of_phase rfl rfl rfl (phase_tell_failed hphase _) nofun
      (hone (h.earned_failed hopen hphase hm hr))
  | stores => exact h.keeps_of_same rfl rfl rfl rfl rfl rfl (hone trivial)
  | retries => exact h.keeps_of_same rfl rfl rfl rfl rfl rfl hnone
  | givesUp => exact h.keeps_of_same rfl rfl rfl rfl rfl rfl hnone
  | handles hopen hphase =>
    exact h.keeps_of_phase rfl rfl rfl (phase_tell_handled hphase) nofun hnone
  | shutsDown => exact ⟨⟨h.sinks_eq, h.strategy_eq, fun hopen => nomatch hopen⟩, hnone⟩

/-- **One signal.** -/
theorem Attentive.step (h : p.Attentive heard sinks strategy) {s : Signal}
    (hs : ∀ index a, s = .delivery index (some a) → heard a) :
    Keeps heard sinks strategy (p.step s) := by
  cases turns_step p s with
  | one hturn => exact h.turn hs hturn
  | two hturn _ _ hturn' => exact (h.turn hs hturn).1.turn hs hturn'

/-- **Several signals.** -/
theorem Attentive.run (signals : List Signal) : ∀ {p : Pipeline},
    p.Attentive heard sinks strategy →
    (∀ index a, Signal.delivery index (some a) ∈ signals → heard a) →
    Keeps heard sinks strategy (p.run signals) := by
  induction signals with
  | nil => exact fun h _ => h.keeps
  | cons s rest ih =>
    intro p h hs
    obtain ⟨hstep, hshown⟩ := h.step fun index a heq => hs index a (heq ▸ List.mem_cons_self)
    obtain ⟨hrest, hmore⟩ := ih hstep fun index a ha => hs index a (List.mem_cons_of_mem s ha)
    exact ⟨hrest, fun e he => (List.mem_append.mp he).elim (hshown e) (hmore e)⟩

/-- **The answers among signals**: a request of a delivery has been answered so. -/
def Answered (signals : List Signal) (a : Delivery.Answer) : Prop :=
  ∃ index, .delivery index (some a) ∈ signals

/-- **What a pipeline shows is earned**, by what its sinks have answered. -/
theorem earned_run (hphase : ∀ r, p.consumer.phase ≠ .delivering r) (signals : List Signal) :
    ∀ e ∈ (p.run signals).2, e.Earned (Answered signals) p.sinks p.strategy := by
  have hattentive : p.Attentive (Answered signals) p.sinks p.strategy :=
    ⟨rfl, rfl, fun _ r hr => absurd hr (hphase r)⟩
  exact (hattentive.run signals fun index a ha => ⟨index, ha⟩).2

end Pipeline

end Courier
