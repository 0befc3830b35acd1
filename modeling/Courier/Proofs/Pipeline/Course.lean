import Mathlib.Logic.Relation
import Courier.Pipeline.Drive
import Courier.Proofs.Checkpoint.Store
import Courier.Proofs.Pipeline.Flow
/-!
# Pipelines that store their positions in a file

A pipeline runs beside the files it stores its positions in. Its parts are run
in any order and the sinks answer whatever they answer; the store answers by
what it does to the files, or it cannot be used; and what it writes to the
other file first may be cut off. A run may come to an end after any of these
moves, and then the files are what is left of it (`Move`, `Course`).

Two things are followed along a course. The lines of the source that are
delivered are resolved by every sink (`Course.delivered`), and the position
that is looked up is the one from before, or one that has been stored on the
way (`Course.load`). A pipeline that is driven to its end is on such a course
all the time (`course_drive`).
-/

namespace Courier.Pipeline

open Courier.Checkpoint (Entry FileStore)
open Relation (ReflTransGen)

/-- **A pipeline under way and the files beside it.** -/
structure Scene where
  /-- The pipeline. -/
  pipeline : Pipeline
  /-- The files. -/
  files : Files

/-- **What can happen to a pipeline and its files.** -/
inductive Move (store : FileStore) (exception : ExceptionStrategy) : Scene → Scene → Prop
  /-- A part of the pipeline is run, a sink answers, or the pipeline is told to shut
  down. The handler of failures is done only where it lets the pipeline go on. -/
  | signal (p : Pipeline) (files : Files) (signal : Signal)
      (hstore : ∀ answer, signal ≠ .store answer)
      (hhandled : signal = .handled → intervene exception = none) :
      Move store exception ⟨p, files⟩ ⟨(p.step signal).1, files⟩
  /-- The store is asked to store the position that is offered. -/
  | commit (p : Pipeline) (files : Files) (position : String) (session : Retry.Session)
      (moment : String) (hoffer : p.offer = some ⟨position, session, none⟩) :
      Move store exception ⟨p, files⟩
        ⟨(p.step (.store (store.commit files ⟨position, moment⟩).2)).1,
          (store.commit files ⟨position, moment⟩).1⟩
  /-- The store cannot be used. -/
  | refused (p : Pipeline) (files : Files) (failure : Failure) :
      Move store exception ⟨p, files⟩ ⟨(p.step (.store (.error failure))).1, files⟩
  /-- Something is written to the other file, an entry or a part of it. -/
  | torn (p : Pipeline) (files files' : Files) (bytes : List UInt8)
      (hwrite : files.write store.draft bytes = .ok files') :
      Move store exception ⟨p, files⟩ ⟨p, files'⟩

/-- **A course of moves.** -/
abbrev Course (store : FileStore) (exception : ExceptionStrategy) : Scene → Scene → Prop :=
  ReflTransGen (Move store exception)

variable {store : FileStore} {exception : ExceptionStrategy} {x y z : Scene}

/-! ## The lines that are delivered -/

section Delivered

variable {s : Source} {bytes : List UInt8} {sinks : List String} {d : Nat}

/-- **A move delivers one record more at most**, unless failures let the pipeline go
on. -/
theorem Move.advances (h : Move store exception x y) (hexc : intervene exception ≠ none)
    (hx : x.pipeline.At s bytes sinks d) : Advances s bytes sinks d x.pipeline y.pipeline := by
  cases h with
  | signal p files signal _ hhandled => exact hx.step fun hs => hexc (hhandled hs)
  | commit p files position session moment hoffer => exact hx.step Signal.noConfusion
  | refused p files failure => exact hx.step Signal.noConfusion
  | torn p files files' bytes hwrite => exact .inl hx

/-- **The event of a line has been resolved by a sink** between two moments of a
course: at one of them the delivery to the sink had ended well, of a record that
covers the line and with a final outcome for the event. -/
def ResolvedBetween (store : FileStore) (exception : ExceptionStrategy) (s : Source)
    (bytes : List UInt8) (x y : Scene) (n : Nat) (e : Event) (i : Nat) (sink : String) : Prop :=
  ∃ q, Course store exception x q ∧ Course store exception q y ∧
    ∃ r a b, Source.Covers s bytes a b r ∧ a < n ∧ n ≤ b ∧ q.pipeline.Resolved r i sink e

theorem ResolvedBetween.trans {n : Nat} {e : Event} {i : Nat} {sink : String}
    (h : ResolvedBetween store exception s bytes x y n e i sink)
    (hyz : Course store exception y z) :
    ResolvedBetween store exception s bytes x z n e i sink := by
  obtain ⟨q, hxq, hqy, hr⟩ := h
  exact ⟨q, hxq, hqy.trans hyz, hr⟩

/-- **The lines up to one are resolved** by every sink, between two moments of a
course. -/
def Settled (store : FileStore) (exception : ExceptionStrategy) (s : Source)
    (bytes : List UInt8) (sinks : List String) (x y : Scene) (d : Nat) : Prop :=
  ∀ n e, n ≤ d → s.eventAt bytes n = some e → ∀ (i : Nat) sink, sinks[i]? = some sink →
    ResolvedBetween store exception s bytes x y n e i sink

/-- **One move further**, the lines that are delivered are still resolved, those of
the record that the move delivers among them. -/
theorem Settled.move (h : Settled store exception s bytes sinks x y d)
    (hy : y.pipeline.At s bytes sinks d) (hexc : intervene exception ≠ none)
    (hxy : Course store exception x y) (hyz : Move store exception y z) :
    ∃ d', z.pipeline.At s bytes sinks d' ∧
      Settled store exception s bytes sinks x z d' := by
  have hcourse : Course store exception y z := .single hyz
  obtain hz | ⟨r, b, hcovers, hresolved, hz⟩ := hyz.advances hexc hy
  · exact ⟨d, hz, fun n e hn he i sink hi => (h n e hn he i sink hi).trans hcourse⟩
  · refine ⟨b, hz, fun n e hn he i sink hi => ?_⟩
    by_cases hnd : n ≤ d
    · exact (h n e hnd he i sink hi).trans hcourse
    · -- the line is one of the record that has just been delivered
      have hdn : d < n := Nat.not_le.mp hnd
      have hmem : e ∈ r.events := by
        rw [hcovers.events_eq]
        exact Source.mem_eventsIn.mpr ⟨n, hdn, hn, he⟩
      exact ⟨y, hxy, hcourse, r, d, b, hcovers, hdn, hn, hresolved i sink hi e hmem⟩

/-- **The lines that are delivered in a course are resolved by every sink**, unless
failures let the pipeline go on. -/
theorem Course.delivered (hx : x.pipeline.At s bytes sinks 0)
    (hexc : intervene exception ≠ none) (h : Course store exception x y) :
    ∃ d, y.pipeline.At s bytes sinks d ∧ Settled store exception s bytes sinks x y d := by
  induction h with
  | refl =>
    refine ⟨0, hx, fun n e hn he => ?_⟩
    obtain rfl : n = 0 := Nat.le_zero.mp hn
    cases he
  | tail hxy hyz ih =>
    obtain ⟨d, hy, hsettled⟩ := ih
    exact hsettled.move hy hexc hxy hyz

end Delivered

/-! ## The position that is looked up -/

/-- **A move that stores a position**: it is the one that is offered, and the store
has put it into its file. -/
def Stores (store : FileStore) (position : String) (x y : Scene) : Prop :=
  ∃ session moment, x.pipeline.offer = some ⟨position, session, none⟩ ∧
    store.commit x.files ⟨position, moment⟩ = (y.files, .ok ()) ∧
    y.pipeline = (x.pipeline.step (.store (.ok ()))).1

/-- **A position that is looked up after a move** was looked up before, or the move
has stored it. -/
theorem Move.load (h : Move store exception x y) {position : String}
    (hload : store.load y.files = .ok (some position)) :
    store.load x.files = .ok (some position) ∨ Stores store position x y := by
  cases h with
  | signal p files signal _ hhandled => exact .inl hload
  | refused p files failure => exact .inl hload
  | torn p files files' bytes hwrite =>
    exact .inl ((store.load_write_draft hwrite position).mp hload)
  | commit p files position' session moment hoffer =>
    cases hcommit : store.commit files ⟨position', moment⟩ with
    | mk files' answer =>
      rw [hcommit] at hload
      cases answer with
      | error failure => exact .inl ((store.load_commit_error hcommit position).mp hload)
      | ok u =>
        obtain ⟨-, rfl⟩ := (store.load_commit hcommit position).mp hload
        exact .inr ⟨session, moment, hoffer, hcommit, rfl⟩

/-- **A position that is looked up at the end of a course** was looked up at its
beginning, or has been stored on the way. -/
theorem Course.load (h : Course store exception x y) {position : String}
    (hload : store.load y.files = .ok (some position)) :
    store.load x.files = .ok (some position) ∨
      ∃ u v, Course store exception x u ∧ Stores store position u v ∧ Move store exception u v ∧
        Course store exception v y := by
  induction h with
  | refl => exact .inl hload
  | tail hxy hyz ih =>
    obtain hy | hstores := hyz.load hload
    · obtain hx | ⟨u, v, hxu, hstores, huv, hvy⟩ := ih hy
      · exact .inl hx
      · exact .inr ⟨u, v, hxu, hstores, huv, hvy.tail hyz⟩
    · exact .inr ⟨_, _, hxy, hstores, hyz, .refl⟩

/-! ## Pipelines that are driven -/

/-- **Sinks that leave the files as they are, and a store** that stores at a
moment. -/
structure World.Beside (w : World Files) (store : FileStore) (moment : String) : Prop where
  /-- An answer of a sink leaves the files as they are. -/
  send_files : ∀ files index events, (w.send files index events).1 = files
  /-- The store answers by what it does to the files. -/
  store_eq : ∀ files position, w.store files position = store.commit files ⟨position, moment⟩

/-- A delivery that has not ended is run or has its request answered. -/
theorem pending_ne_store (deliveries : List Delivery.Machine) (position : String) :
    ∀ index, pending index deliveries ≠ some (.store position) := by
  induction deliveries with
  | nil => exact fun _ h => nomatch h
  | cons m rest ih =>
    intro index h
    unfold pending at h
    split at h
    · exact ih _ h
    · exact nomatch h
    · exact nomatch h

/-- A result that has not been taken is taken. -/
theorem untaken_ne_store (slots : List (String × Option Report)) (position : String) :
    ∀ index, untaken index slots ≠ some (.store position) := by
  induction slots with
  | nil => exact fun _ h => nomatch h
  | cons slot rest ih =>
    intro index h
    unfold untaken at h
    split at h
    · exact nomatch h
    · exact nomatch h
    · next heq => exact ih _ ((List.cons.inj heq).2 ▸ h)

/-- **The store is asked for the position that is offered.** -/
theorem offer_of_task? {p : Pipeline} {position : String}
    (h : p.task? = some (.store position)) :
    ∃ session, p.offer = some ⟨position, session, none⟩ := by
  unfold task? at h
  split at h
  · split at h <;> exact nomatch h
  · split at h <;> exact nomatch h
  · split at h
    · exact nomatch h
    · split at h
      · next heq => exact absurd (heq.trans h) (pending_ne_store _ _ _)
      · exact absurd h (untaken_ne_store _ _ _)
  · split at h
    · next session _ hoffer =>
      obtain rfl := Task.store.inj (Option.some.inj h)
      exact ⟨session, hoffer⟩
    · exact nomatch h
  · split at h <;> exact nomatch h

/-- **Doing what is to be done next is a move.** -/
theorem move_perform {w : World Files} {moment : String} (hw : w.Beside store moment)
    {p : Pipeline} {task : Task} (htask : p.task? = some task)
    (hhandle : task = .handle → intervene exception = none) (files : Files) :
    Move store exception ⟨p, files⟩
      ⟨(perform w files p task).2, (perform w files p task).1⟩ := by
  cases task with
  | reader => exact .signal p files .reader (fun _ => Signal.noConfusion) Signal.noConfusion
  | consumer => exact .signal p files .consumer (fun _ => Signal.noConfusion) Signal.noConfusion
  | delivery index =>
    exact .signal p files (.delivery index none) (fun _ => Signal.noConfusion)
      Signal.noConfusion
  | request index events =>
    show Move store exception ⟨p, files⟩ ⟨_, (w.send files index events).1⟩
    rw [hw.send_files]
    exact .signal p files (.delivery index _) (fun _ => Signal.noConfusion) Signal.noConfusion
  | settle index =>
    exact .signal p files (.settle index) (fun _ => Signal.noConfusion) Signal.noConfusion
  | store position =>
    obtain ⟨session, hoffer⟩ := offer_of_task? htask
    show Move store exception ⟨p, files⟩
      ⟨(p.step (.store (w.store files position).2)).1, (w.store files position).1⟩
    rw [hw.store_eq]
    exact .commit p files position session moment hoffer
  | handle =>
    exact .signal p files .handled (fun _ => Signal.noConfusion) fun _ => hhandle rfl

/-- **A pipeline that is driven is on a course** from where it begins to where it is
left. -/
theorem course_drive {w : World Files} {moment : String} (hw : w.Beside store moment)
    (tasks : Nat) : ∀ (files : Files) (p : Pipeline),
    Course store exception ⟨p, files⟩
      ⟨(drive w exception tasks files p).2.1, (drive w exception tasks files p).1⟩ := by
  induction tasks with
  | zero => exact fun _ _ => .refl
  | succ tasks ih =>
    intro files p
    unfold drive
    split
    · exact .refl
    · next task htask =>
      split
      · exact .refl
      · next hnext =>
        -- where the handler would end the run, the run has ended already
        refine .head (move_perform hw htask (fun hhandle => ?_) files) (ih _ _)
        cases hint : intervene exception with
        | none => rfl
        | some ending => exact absurd hint (hnext ending hhandle)

end Courier.Pipeline
