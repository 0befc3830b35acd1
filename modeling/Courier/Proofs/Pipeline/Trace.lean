import Courier.Proofs.Checkpoint.Mishaps
import Courier.Proofs.Pipeline.Course
import Courier.Proofs.Pipeline.Outlook
/-!
# The signals of a pipeline beside its files

`Along` is a pipeline that goes on beside the files it stores its positions in,
with the signals that it is given. Its parts are run in any order and the sinks
answer whatever they answer; the store answers by what it does to the files,
and anything may go wrong while it does; and the run may be left after any
signal, or with a position half stored.

The signals are a run of the pipeline (`Along.pipeline_eq`), and what they show to
be stored is what the files tell (`Along.load_eq`): the last position that the run
has stored, or the one that was there before. A pipeline that is driven to its
end is driven by signals of this kind (`along_drive`).
-/

namespace Courier

namespace Shard

variable {p : Shard}

/-- A keeper that stores nothing has its offers end at once. -/
def Idle (p : Shard) : Prop :=
  p.keeper.dry = true ∧ ∀ a, p.ack = some a → a.ended ≠ none

/-- An offer that has ended is as it was after any answer, and stores nothing. -/
theorem Ack.eq_of_ended {a : Ack} (h : a.ended ≠ none) (answer : Except Failure Unit) :
    a.answered answer = a ∧ a.stores answer = [] ∧ a.broken = a := by
  obtain ⟨x, hx⟩ := Option.ne_none_iff_exists'.mp h
  unfold Ack.answered Ack.stores Ack.broken
  rw [hx]
  exact ⟨rfl, rfl, rfl⟩

/-- The offers that a consumer of an idle keeper has after a signal have ended. -/
theorem Idle.ended_ackAfter (h : p.Idle) (s : Consumer.Signal) {a : Ack}
    (ha : p.ackAfter s = some a) : a.ended ≠ none := by
  obtain ⟨hdry, hended⟩ := h
  unfold ackAfter at ha
  split at ha
  · split at ha
    · obtain rfl := Option.some.inj ha
      unfold Ack.start
      rw [hdry]
      exact nofun
    · exact hended a ha
  · exact nomatch ha
  · exact hended a ha

/-- They have ended whatever happens. -/
theorem Idle.step (h : p.Idle) (e : Event) : (p.step e).Idle ∧ p.stores e = [] := by
  have ⟨hdry, hended⟩ := h
  cases hears : p.hears e with
  | some s =>
    rw [step_of_hears hears, stores_of_hears hears]
    exact ⟨⟨hdry, fun a ha => h.ended_ackAfter s ha⟩, rfl⟩
  | none =>
    rw [step_of_unheard hears]
    cases e with
    | answered answer =>
      cases hack : p.ack with
      | none =>
        refine ⟨⟨hdry, fun a ha => ?_⟩, by unfold stores; rw [hack]; rfl⟩
        have hmap : p.ack.map (·.answered answer) = some a := ha
        rw [hack] at hmap
        exact nomatch hmap
      | some a =>
        obtain ⟨hsame, hstores, -⟩ := Ack.eq_of_ended (hended a hack) answer
        refine ⟨⟨hdry, fun b hb => ?_⟩, ?_⟩
        · have hmap : p.ack.map (·.answered answer) = some b := hb
          rw [hack, Option.map_some, hsame] at hmap
          exact hended b (hack.trans hmap)
        · unfold stores
          rw [hack]
          exact (List.append_nil _).trans hstores
    | broken =>
      refine ⟨⟨hdry, fun b hb => ?_⟩, rfl⟩
      obtain ⟨a, hack, rfl⟩ := Option.map_eq_some_iff.mp hb
      rw [(Ack.eq_of_ended (hended a hack) (.ok ())).2.2]
      exact hended a hack
    | arrived r =>
      refine ⟨⟨?_, fun a ha => hended a (ack_arrived.symm.trans ha)⟩, rfl⟩
      show (if p.closed then p else { p with channel := p.channel ++ [r] }).keeper.dry = true
      split <;> exact hdry
    | _ => exact ⟨⟨hdry, hended⟩, rfl⟩

/-- **A keeper that stores nothing stores nothing**, whatever happens. -/
theorem Idle.stored_eq (events : List Event) : ∀ {p : Shard}, p.Idle → p.stored events = [] := by
  induction events with
  | nil => exact fun _ => rfl
  | cons e rest ih =>
    intro p h
    obtain ⟨hstep, hstores⟩ := h.step e
    show p.stores e ++ (p.step e).stored rest = []
    rw [hstores, ih hstep]
    rfl

end Shard

namespace Pipeline

open Courier.Checkpoint (FileStore)

variable {p : Pipeline}

/-! ## What is stored by a signal -/

/-- **A dry run stores nothing.** -/
theorem Fresh.stored_of_dry (h : p.Fresh) (hdry : p.keeper.dry = true) (signals : List Signal) :
    (p.run signals).2.filterMap Effect.stored? = [] := by
  obtain ⟨events, -, hstored⟩ := follows_run signals p
  rw [hstored]
  refine Shard.Idle.stored_eq events ⟨hdry, fun a ha => ?_⟩
  have hnone : p.shard.ack = none := congrArg (Option.map Offer.ack) h.offer_eq
  exact nomatch hnone.symm.trans ha

/-- **Only the store stores.** -/
theorem Turn.stored_eq_nil {q : Pipeline} {s : Signal} {effects : List Effect}
    (hturn : Turn p s q effects) (hs : ∀ answer, s ≠ .store answer) :
    effects.filterMap Effect.stored? = [] := by
  cases hturn with
  | stores => exact absurd rfl (hs _)
  | _ => rfl

/-- So does no signal of another part. -/
theorem stored_step {s : Signal} (hs : ∀ answer, s ≠ .store answer) :
    (p.step s).2.filterMap Effect.stored? = [] := by
  cases turns_step p s with
  | one hturn => exact hturn.stored_eq_nil hs
  | two _ _ _ hturn => exact hturn.stored_eq_nil hs

/-- **A position is stored when the store says so.** -/
theorem stored_takeAnswer {position : String} {session : Retry.Session}
    (hoffer : p.offer = some ⟨position, session, none⟩) (answer : Except Failure Unit) :
    (p.step (.store answer)).2.filterMap Effect.stored?
      = match answer with
        | .ok () => [position]
        | .error _ => [] := by
  show (p.takeAnswer answer).2.filterMap Effect.stored? = _
  unfold takeAnswer
  rw [hoffer]
  cases answer with
  | ok u => rfl
  | error f =>
    dsimp only
    split <;> rfl

/-! ## Signals beside files -/

/-- **A pipeline that goes on beside its files**, from a scene on, with the signals that it
is given. -/
inductive Along (store : FileStore) (exception : ExceptionStrategy) (x : Scene) :
    List Signal → Scene → Prop
  /-- Nothing has happened. -/
  | refl : Along store exception x [] x
  /-- A part of the pipeline is run, a sink answers, or the pipeline is told to shut
  down. The handler of failures is done only where it lets the pipeline go on. -/
  | signal {signals : List Signal} {p : Pipeline} {files : Files}
      (h : Along store exception x signals ⟨p, files⟩) (s : Signal)
      (hstore : ∀ answer, s ≠ .store answer)
      (hhandled : s = .handled → intervene exception = none) :
      Along store exception x (signals ++ [s]) ⟨(p.step s).1, files⟩
  /-- The store is asked to store the position that is offered, and something may go
  wrong. -/
  | commit {signals : List Signal} {p : Pipeline} {files files' : Files}
      {answer : Except Failure Unit} {position : String} {session : Retry.Session}
      (h : Along store exception x signals ⟨p, files⟩)
      (hoffer : p.offer = some ⟨position, session, none⟩) (moment : FileStore.Moment)
      (mishap : FileStore.Mishap)
      (hcommit : store.commitAmid files ⟨position, moment.text⟩ mishap = (files', answer)) :
      Along store exception x (signals ++ [.store answer])
        ⟨(p.step (.store answer)).1, files'⟩
  /-- The process ends while a position is being stored, after the other file has been
  written, or a part of it. -/
  | torn {signals : List Signal} {p : Pipeline} {files : Files}
      (h : Along store exception x signals ⟨p, files⟩) (left : Option (List UInt8)) :
      Along store exception x signals ⟨p, store.leave files left⟩

variable {store : FileStore} {exception : ExceptionStrategy} {x y z : Scene}
variable {signals more : List Signal}

/-- **The signals are a run of the pipeline.** -/
theorem Along.pipeline_eq (h : Along store exception x signals y) :
    y.pipeline = (x.pipeline.run signals).1 := by
  induction h with
  | refl => rfl
  | signal _ s _ _ ih => rw [run_concat, ← ih]
  | commit _ _ _ _ _ ih => rw [run_concat, ← ih]
  | torn _ _ ih => exact ih

/-- One after another. -/
theorem Along.trans (h : Along store exception x signals y)
    (h' : Along store exception y more z) : Along store exception x (signals ++ more) z := by
  induction h' with
  | refl => rw [List.append_nil]; exact h
  | signal _ s hstore hhandled ih => rw [← List.append_assoc]; exact ih.signal s hstore hhandled
  | commit _ hoffer moment mishap hcommit ih =>
    rw [← List.append_assoc]
    exact ih.commit hoffer moment mishap hcommit
  | torn _ left ih => exact ih.torn left

/-- **What is looked up is the last position that the run has stored**, or what was looked
up before. -/
theorem Along.load_eq (h : Along store exception x signals y) {last : Option String}
    (hlast : store.load x.files = .ok last) :
    store.load y.files
      = .ok (((x.pipeline.run signals).2.filterMap Effect.stored?).getLast?.or last) := by
  induction h with
  | refl => exact hlast
  | @signal signals p files h s hstore _ ih =>
    have hp : p = (x.pipeline.run signals).1 := h.pipeline_eq
    rw [run_concat, List.filterMap_append, ← hp, stored_step hstore, List.append_nil]
    exact ih
  | @commit signals p files files' answer position session h hoffer moment mishap hcommit ih =>
    have hp : p = (x.pipeline.run signals).1 := h.pipeline_eq
    rw [run_concat, List.filterMap_append, ← hp, stored_takeAnswer hoffer]
    cases answer with
    | ok u =>
      dsimp only
      rw [List.getLast?_concat]
      exact store.commitAmid_ok hcommit moment.valid
    | error failure =>
      dsimp only
      rw [List.append_nil, ← ih]
      exact (store.commitAmid_error hcommit).2
  | @torn signals p files _ left ih =>
    dsimp only at ih ⊢
    rw [store.load_leave files left]
    exact ih

/-! ## Pipelines that are driven -/

section Driven

variable {σ : Type} (w : World σ) (e : ExceptionStrategy)

/-- **The signal that a task is**, with the answer of what is outside. -/
def signalOf (s : σ) : Task → Signal
  | .reader => .reader
  | .consumer => .consumer
  | .delivery index => .delivery index none
  | .request index events => .delivery index (some (w.send s index events).2)
  | .settle index => .settle index
  | .store position => .store (w.store s position).2
  | .handle => .handled

/-- **The signals that a pipeline is driven by.** -/
def signalsOf : (tasks : Nat) → σ → Pipeline → List Signal
  | 0, _, _ => []
  | tasks + 1, s, p =>
    match p.task? with
    | none => []
    | some task =>
      match task, intervene e with
      | .handle, some _ => []
      | task, _ =>
        signalOf w s task ::
          signalsOf tasks (perform w s p task).1 (perform w s p task).2

/-- **One task of a pipeline that is driven**: the handler ends the run, or the task is done
and the pipeline goes on. -/
theorem drive_succ (tasks : Nat) (s : σ) {p : Pipeline} {task : Task}
    (htask : p.task? = some task) :
    (∃ ending, drive w e (tasks + 1) s p = (s, p, ending) ∧
        signalsOf w e (tasks + 1) s p = []) ∨
      (task = .handle → intervene e = none) ∧
        drive w e (tasks + 1) s p
          = drive w e tasks (perform w s p task).1 (perform w s p task).2 ∧
        signalsOf w e (tasks + 1) s p
          = signalOf w s task ::
              signalsOf w e tasks (perform w s p task).1 (perform w s p task).2 := by
  rw [drive, signalsOf, htask]
  cases task with
  | handle =>
    cases hint : intervene e with
    | none => exact .inr ⟨fun _ => rfl, rfl, rfl⟩
    | some ending => exact .inl ⟨ending, rfl, rfl⟩
  | _ => exact .inr ⟨Task.noConfusion, rfl, rfl⟩

end Driven

/-- **Doing what is to be done next** is a signal. -/
theorem along_perform {w : World Files} {moment : FileStore.Moment}
    (hw : w.Beside store moment.text) {p : Pipeline} {task : Task}
    (htask : p.task? = some task) (hhandle : task = .handle → intervene exception = none)
    (files : Files) :
    Along store exception ⟨p, files⟩ [signalOf w files task]
      ⟨(perform w files p task).2, (perform w files p task).1⟩ := by
  have hsignal (s : Signal) (hstore : ∀ answer, s ≠ .store answer)
      (hhandled : s = .handled → intervene exception = none) :
      Along store exception ⟨p, files⟩ [s] ⟨(p.step s).1, files⟩ :=
    Along.refl.signal s hstore hhandled
  cases task with
  | reader => exact hsignal .reader (fun _ => Signal.noConfusion) Signal.noConfusion
  | consumer => exact hsignal .consumer (fun _ => Signal.noConfusion) Signal.noConfusion
  | delivery index =>
    exact hsignal (.delivery index none) (fun _ => Signal.noConfusion) Signal.noConfusion
  | request index events =>
    have hdelivery := hsignal (.delivery index (some (w.send files index events).2))
      (fun _ => Signal.noConfusion) Signal.noConfusion
    show Along store exception ⟨p, files⟩ _ ⟨_, (w.send files index events).1⟩
    rw [hw.send_files]
    exact hdelivery
  | settle index =>
    exact hsignal (.settle index) (fun _ => Signal.noConfusion) Signal.noConfusion
  | store position =>
    obtain ⟨session, hoffer⟩ := offer_of_task? htask
    show Along store exception ⟨p, files⟩ [.store (w.store files position).2]
      ⟨(p.step (.store (w.store files position).2)).1, (w.store files position).1⟩
    rw [hw.store_eq]
    cases hcommit : store.commit files ⟨position, moment.text⟩ with
    | mk files' answer => exact Along.refl.commit hoffer moment .none hcommit
  | handle => exact hsignal .handled (fun _ => Signal.noConfusion) fun _ => hhandle rfl

/-- **A pipeline that is driven** goes on beside its files, from where it begins to where it
is left. -/
theorem along_drive {w : World Files} {moment : FileStore.Moment}
    (hw : w.Beside store moment.text) (tasks : Nat) : ∀ (files : Files) (p : Pipeline),
    Along store exception ⟨p, files⟩ (signalsOf w exception tasks files p)
      ⟨(drive w exception tasks files p).2.1, (drive w exception tasks files p).1⟩ := by
  induction tasks with
  | zero => exact fun _ _ => .refl
  | succ tasks ih =>
    intro files p
    cases htask : p.task? with
    | none =>
      rw [drive, signalsOf, htask]
      exact .refl
    | some task =>
      obtain ⟨ending, hend, hnone⟩ | ⟨hhandle, hnext, hmore⟩ :=
        drive_succ w exception tasks files htask
      · rw [hend, hnone]
        exact .refl
      · rw [hnext, hmore]
        exact (along_perform hw htask hhandle files).trans
          (ih (perform w files p task).1 (perform w files p task).2)

end Pipeline

end Courier
