import Courier.Proofs.Pipeline.Restart
import Courier.Proofs.Pipeline.Trace
/-!
# The line that is stored goes up

The records of a source end at lines that go up, behind the line that the source
is resumed after, and positions are stored in the order of the records
(`Pipeline.Fresh.marked_sublist`). So the positions that a run stores are the
numerals of lines that go up, behind the line that is found, and the line that
the run leaves behind is the last of them, or the one that it has found
(`Shift.exists_lines`, `Shift.lineLeft_eq`).

Runs one after another (`Shifts`) may be of different blueprints, which need
only agree on the path that positions are stored in: each of them finds the line
that is left by the one before, and so the lines that are found and left do not
go down (`Shifts.exists_climb`).
-/

namespace Courier.Run

open Courier.Checkpoint (FileStore)
open Courier.Pipeline

variable {b : Blueprint} {s : Settings} {files : Files} {p : Plan}

/-! ## What a run begins with -/

/-- **The numeral of a line is the position of the line.** -/
theorem lineOf_numeral {n : Nat} (h : n ≤ Text.word64) : lineOf (toString n) = .ok n := by
  unfold lineOf
  rw [Text.readNumeral_toString, if_pos h]

/-- **The pipeline of a plan** has not been run, and has the keeper of the blueprint. -/
theorem plan_fresh (h : plan b s files = .ok p) :
    p.pipeline.Fresh ∧ p.pipeline.keeper = keeperOf b s ∧ p.pipeline.shutDown = s.shutDown := by
  obtain ⟨handles, -, h⟩ := bind_eq_ok h
  obtain ⟨line, -, h⟩ := bind_eq_ok h
  obtain ⟨reader, -, h⟩ := bind_eq_ok h
  obtain rfl := Except.ok.inj h
  exact ⟨⟨rfl, rfl, rfl⟩, rfl, rfl⟩

/-- **What a reader hands over that has just opened a file**: the records of the source,
or none when it is shut down. -/
theorem finish_reader {source : Source} {path : String} {shutDown : Bool} {reader : Reader}
    (h : source.reader files path shutDown = .ok reader) :
    (shutDown = true → reader.finish.2 = []) ∧
      (shutDown = false →
        ∃ bytes, files.read path = .ok bytes ∧ reader.finish.2 = source.records bytes) := by
  unfold Source.reader at h
  unfold Files.read
  cases hopen : files.open? path with
  | error e =>
    rw [hopen] at h
    cases h
  | ok node =>
    rw [hopen] at h
    cases shutDown with
    | true =>
      obtain rfl := Except.ok.inj h
      exact ⟨fun _ => Reader.finish_done rfl, nofun⟩
    | false =>
      obtain ⟨bytes, hbytes, rfl⟩ := map_eq_ok h
      exact ⟨nofun, fun _ => ⟨bytes, mapError_eq_ok hbytes, rfl⟩⟩

/-- **The records ahead of the pipeline of a plan** are those of its source, or none when
the run is shut down before it begins. -/
theorem plan_ahead (h : plan b s files = .ok p) :
    (s.shutDown = true → p.pipeline.ahead = []) ∧
      (s.shutDown = false → ∃ bytes, files.read b.source.path = .ok bytes ∧
        p.pipeline.ahead = (Source.ofSettings b.source p.resumedAfter).records bytes) := by
  obtain ⟨-, -, -, hreader, hconsumer, hchannel, -⟩ := plan_ok h
  have hahead : p.pipeline.ahead = p.pipeline.reader.finish.2 := by
    unfold ahead
    rw [hconsumer, hchannel]
    rfl
  rw [hahead]
  exact finish_reader hreader

/-! ## One run -/

/-- **A run that has been left**, of a blueprint that stores positions in the file of a
path. It may have been left at any moment: before it was over, or after that and
before a position that it was still offering was stored. -/
structure Shift (path : String) where
  /-- The blueprint. -/
  blueprint : Blueprint
  /-- How it is run. -/
  settings : Settings
  /-- The files that are found. -/
  found : Files
  /-- The plan. -/
  plan : Plan
  /-- What has happened to the pipeline. -/
  signals : List Signal
  /-- Where the run is left. -/
  left : Scene
  /-- Positions are stored in the file of the path. -/
  path_eq : blueprint.checkpointPath = path
  /-- The plan is the one of the blueprint. -/
  plan_eq : Run.plan blueprint settings found = .ok plan
  /-- The size of the source is a number of 64 bits, as sizes of files are. -/
  size_le : ∀ bytes, found.read blueprint.source.path = .ok bytes → bytes.length ≤ Text.word64
  /-- The run has come to where it is left. -/
  along : Along plan.store blueprint.exception ⟨plan.pipeline, found⟩ signals left

namespace Shift

variable {path : String} (run : Shift path)

/-- What a run reads. -/
def source : Source :=
  .ofSettings run.blueprint.source run.plan.resumedAfter

/-- What a run has shown. -/
def effects : List Effect :=
  (run.plan.pipeline.run run.signals).2

/-- **The positions that a run has stored**, in their order. -/
def committed : List String :=
  run.effects.filterMap Effect.stored?

/-- **The line that a run leaves behind**: the one that the next run resumes after. -/
def lineLeft : Except Failure Nat :=
  resumeLine ⟨path⟩ run.left.files

/-- A run that stores no positions. -/
def Dry : Prop :=
  run.blueprint.checkpoint.dry = true ∨ run.settings.dry = true

theorem store_eq : run.plan.store = ⟨path⟩ := by
  rw [(plan_ok run.plan_eq).1, run.path_eq]

/-- **A run resumes after the line that it finds.** -/
theorem resumeLine_found : resumeLine ⟨path⟩ run.found = .ok run.plan.resumedAfter := by
  rw [← run.store_eq]
  exact (plan_ok run.plan_eq).2.1

/-- **What is looked up when a run is left** is the last position that it has stored, or
what it has found. -/
theorem load_left {last : Option String} (h : (FileStore.mk path).load run.found = .ok last) :
    (FileStore.mk path).load run.left.files = .ok (run.committed.getLast?.or last) := by
  rw [← run.store_eq] at h ⊢
  exact run.along.load_eq h

/-- **The records ahead of a run** that is not shut down before it begins are those that
the events of its source are cut into. -/
theorem exists_cut (hopen : run.settings.shutDown = false) : ∃ bytes portions,
    run.found.read run.blueprint.source.path = .ok bytes ∧
      Cut run.source.batchSize (linesOf bytes).length (run.source.numbered bytes) portions ∧
      run.plan.pipeline.ahead = portions.map Portion.record := by
  obtain ⟨bytes, hread, hahead⟩ := (plan_ahead run.plan_eq).2 hopen
  have hsize : 1 ≤ run.source.batchSize := Nat.le_max_left 1 _
  obtain ⟨portions, hcut, hrecords⟩ := run.source.records_cut bytes hsize
  exact ⟨bytes, portions, hread, hcut, hahead.trans hrecords⟩

/-- Portions of the events of a source end at lines that go up, behind the line that the run
resumes after. -/
theorem upTo_of_cut {bytes : List UInt8} {portions : List Portion}
    (hread : run.found.read run.blueprint.source.path = .ok bytes)
    (hcut : Cut run.source.batchSize (linesOf bytes).length (run.source.numbered bytes) portions) :
    (portions.map (·.upTo)).Pairwise (· < ·) ∧
      ∀ n ∈ portions.map (·.upTo), run.plan.resumedAfter < n ∧ n ≤ Text.word64 := by
  have hsorted := run.source.numbered_pairwise bytes
  have hle (x : Nat × Event) (hx : x ∈ run.source.numbered bytes) :
      x.1 ≤ (linesOf bytes).length := Source.le_length_of_mem_numbered hx
  refine ⟨List.pairwise_map.mpr ((hcut.upTo_pairwise hsorted hle).imp fun h => h.1), fun n hn => ?_⟩
  obtain ⟨portion, hp, rfl⟩ := List.mem_map.mp hn
  have hlines := Nat.le_trans (hcut.upTo_le hle portion hp) (length_linesOf_le bytes)
  exact ⟨Source.resumeAfter_lt_upTo hcut hp, Nat.le_trans hlines (run.size_le bytes hread)⟩

/-- **The records ahead of a run** end at lines that go up, behind the line that it resumes
after. -/
theorem exists_portions : ∃ portions : List Portion,
    run.plan.pipeline.ahead = portions.map Portion.record ∧
      (portions.map (·.upTo)).Pairwise (· < ·) ∧
      ∀ n ∈ portions.map (·.upTo), run.plan.resumedAfter < n ∧ n ≤ Text.word64 := by
  cases hshut : run.settings.shutDown with
  | true => exact ⟨[], (plan_ahead run.plan_eq).1 hshut, .nil, nofun⟩
  | false =>
    obtain ⟨bytes, portions, hread, hcut, hahead⟩ := run.exists_cut hshut
    exact ⟨portions, hahead, run.upTo_of_cut hread hcut⟩

/-- **The positions that are stored, and those of the records that fail**, are those of
records that were ahead, in the order of these. -/
theorem exists_marks {portions : List Portion}
    (hahead : run.plan.pipeline.ahead = portions.map Portion.record) :
    ∃ lines : List Nat, run.effects.filterMap Effect.mark? = lines.map toString ∧
      lines.Sublist (portions.map (·.upTo)) := by
  obtain ⟨hfresh, -, -⟩ := plan_fresh run.plan_eq
  have houtlook : run.plan.pipeline.outlook = (portions.map (·.upTo)).map toString := by
    unfold outlook asked
    rw [hfresh.offer_eq, hahead, List.map_map, List.map_map]
    rfl
  have hmarks : (run.effects.filterMap Effect.mark?).Sublist
      ((portions.map (·.upTo)).map toString) := by
    rw [← houtlook]
    exact (List.sublist_append_left _ _).trans (hfresh.marked_sublist run.signals)
  obtain ⟨lines, hlines, heq⟩ := List.sublist_map_iff.mp hmarks
  exact ⟨lines, heq, hlines⟩

/-- What is stored is marked. -/
theorem stored_sublist_marks (effects : List Effect) :
    (effects.filterMap Effect.stored?).Sublist (effects.filterMap Effect.mark?) := by
  induction effects with
  | nil => exact List.Sublist.refl _
  | cons e rest ih =>
    cases e with
    | delivered r reports => exact ih
    | failed r f => exact ih.cons r.position
    | stored position => exact ih.cons_cons position

/-- **The positions that a run stores** are the numerals of lines that go up, behind the
line that it resumes after. -/
theorem exists_lines : ∃ lines : List Nat,
    run.committed = lines.map toString ∧ lines.Pairwise (· < ·) ∧
      ∀ n ∈ lines, run.plan.resumedAfter < n ∧ n ≤ Text.word64 := by
  obtain ⟨portions, hahead, hsorted, hbounds⟩ := run.exists_portions
  obtain ⟨marks, hmarks, hsublist⟩ := run.exists_marks hahead
  have hstored := stored_sublist_marks run.effects
  rw [hmarks] at hstored
  obtain ⟨lines, hlines, heq⟩ := List.sublist_map_iff.mp hstored
  have hamong := hlines.trans hsublist
  exact ⟨lines, heq, hsorted.sublist hamong, fun n hn => hbounds n (hamong.subset hn)⟩

/-- **The line that a run leaves behind** is the last one that it has stored, or the one
that it has found. -/
theorem lineLeft_eq {lines : List Nat} (hlines : run.committed = lines.map toString)
    (hle : ∀ n ∈ lines, n ≤ Text.word64) :
    run.lineLeft = .ok (lines.getLast?.getD run.plan.resumedAfter) := by
  obtain ⟨last, hlast, -⟩ := bind_eq_ok run.resumeLine_found
  have hleft := run.load_left hlast
  rw [hlines, List.getLast?_map] at hleft
  unfold lineLeft
  cases hl : lines.getLast? with
  | none =>
    rw [hl] at hleft
    rw [resumeLine_congr (hleft.trans hlast.symm)]
    exact run.resumeLine_found
  | some n =>
    rw [hl] at hleft
    unfold resumeLine
    rw [hleft]
    exact lineOf_numeral (hle n (List.mem_of_getLast? hl))

/-- **A dry run stores nothing**, and what is looked up stays as it is. -/
theorem committed_of_dry (h : run.Dry) :
    run.committed = [] ∧
      (FileStore.mk path).load run.left.files = (FileStore.mk path).load run.found := by
  obtain ⟨hfresh, hkeeper, -⟩ := plan_fresh run.plan_eq
  have hdry : run.plan.pipeline.keeper.dry = true := by
    rw [hkeeper]
    exact (Bool.or_eq_true _ _).mpr h
  have hnone : run.committed = [] := hfresh.stored_of_dry hdry run.signals
  obtain ⟨last, hlast, -⟩ := bind_eq_ok run.resumeLine_found
  have hleft := run.load_left hlast
  rw [hnone] at hleft
  exact ⟨hnone, hleft.trans hlast.symm⟩

section Executed

variable (b : Blueprint) (s : Settings) (files : Files)

/-- The plan of a run that can begin. -/
def planOf (h : (Run.plan b s files).isOk = true) : Plan :=
  match Run.plan b s files, h with
  | .ok plan, _ => plan

/-- It is the plan of the run. -/
theorem plan_planOf (h : (Run.plan b s files).isOk = true) :
    Run.plan b s files = .ok (planOf b s files h) := by
  unfold planOf
  split
  next hplan _ => exact hplan

variable (exchange : Sink.Request → Sink.Ending) (moment : FileStore.Moment)

/-- **The signals of a run to its end.** -/
def signalsToEnd (plan : Plan) : List Signal :=
  signalsOf (worldOf plan s.moment exchange) b.exception plan.pipeline.tasksLeft files plan.pipeline

/-- **Where a run to its end is left.** -/
def sceneAtEnd (plan : Plan) : Scene :=
  let aftermath := plan.pipeline.complete (worldOf plan s.moment exchange) b.exception files
  ⟨aftermath.2.1, aftermath.1⟩

/-- A run to its end goes on beside the files. -/
theorem along_executed (plan : Plan) (hmoment : s.moment = moment.text) :
    Along plan.store b.exception ⟨plan.pipeline, files⟩ (signalsToEnd b s files exchange plan)
      (sceneAtEnd b s files exchange plan) := by
  have hbeside : (worldOf plan s.moment exchange).Beside plan.store moment.text := by
    rw [← hmoment]
    exact worldOf_beside plan s.moment exchange
  exact along_drive hbeside plan.pipeline.tasksLeft files plan.pipeline

variable (hpath : b.checkpointPath = path) (hmoment : s.moment = moment.text)
  (hbegins : (Run.plan b s files).isOk = true)
  (hsize : ∀ bytes, files.read b.source.path = .ok bytes → bytes.length ≤ Text.word64)

/-- **The run of a blueprint to its end**, as one that is left there. -/
def executed : Shift path where
  blueprint := b
  settings := s
  found := files
  plan := planOf b s files hbegins
  signals := signalsToEnd b s files exchange (planOf b s files hbegins)
  left := sceneAtEnd b s files exchange (planOf b s files hbegins)
  path_eq := hpath
  plan_eq := plan_planOf b s files hbegins
  size_le := hsize
  along := along_executed b s files exchange moment (planOf b s files hbegins) hmoment

/-- A run to its end leaves the files of its aftermath. -/
theorem files_executed :
    (executed b s files exchange moment hpath hmoment hbegins hsize).left.files
      = (execute b s exchange files).files := by
  unfold execute
  rw [plan_planOf b s files hbegins]
  rfl

end Executed

end Shift

/-! ## Runs one after another -/

/-- **Runs one after another**, and the files they leave behind. The first one finds no
position, and every other one the position that has been left by the one before; all
else may have changed between them, and a run that cannot begin changes nothing. -/
inductive Shifts (path : String) : List (Shift path) → Files → Prop
  /-- Nothing has been run, and no position is stored. -/
  | nil (files : Files) (hnone : (FileStore.mk path).load files = .ok none) :
      Shifts path [] files
  /-- One run more. -/
  | snoc {runs : List (Shift path)} {files : Files} (h : Shifts path runs files)
      (run : Shift path)
      (hfound : (FileStore.mk path).load run.found = (FileStore.mk path).load files) :
      Shifts path (runs ++ [run]) run.left.files

/-- The last of some lines that go up behind another one is not before any of them. -/
theorem getLast?_getD_bounds {lines : List Nat} {line : Nat} (hsorted : lines.Pairwise (· < ·))
    (hlt : ∀ n ∈ lines, line < n) :
    line ≤ lines.getLast?.getD line ∧ ∀ n ∈ lines, n ≤ lines.getLast?.getD line := by
  induction lines using List.reverseRecOn with
  | nil => exact ⟨Nat.le_refl line, nofun⟩
  | append_singleton lines last _ =>
    rw [List.getLast?_concat, Option.getD_some]
    obtain ⟨-, -, hbefore⟩ := List.pairwise_append.mp hsorted
    refine ⟨Nat.le_of_lt (hlt last (List.mem_append_right _ List.mem_cons_self)), fun n hn => ?_⟩
    obtain hn | hn := List.mem_append.mp hn
    · exact Nat.le_of_lt (hbefore n hn last List.mem_cons_self)
    · exact Nat.le_of_eq (List.mem_singleton.mp hn)

/-- **Lines in an order**, beginning before the first line, and none behind some line. -/
structure Climb (R : Nat → Nat → Prop) (lines : List Nat) (line : Nat) : Prop where
  /-- They are in the order. -/
  pairwise : (0 :: lines).Pairwise R
  /-- None is behind the line. -/
  le : ∀ n ∈ 0 :: lines, n ≤ line

theorem Climb.nil {R : Nat → Nat → Prop} : Climb R [] 0 where
  pairwise := List.pairwise_singleton _ _
  le _ hn := Nat.le_of_eq (List.mem_singleton.mp hn)

/-- **More lines**, in the order with all that are not behind the line so far. -/
theorem Climb.append {R : Nat → Nat → Prop} {lines more : List Nat} {line now : Nat}
    (h : Climb R lines line) (hmore : more.Pairwise R)
    (hafter : ∀ n m, n ≤ line → m ∈ more → R n m) (hge : line ≤ now)
    (hle : ∀ n ∈ more, n ≤ now) : Climb R (lines ++ more) now where
  pairwise := by
    rw [← List.cons_append]
    exact List.pairwise_append.mpr
      ⟨h.pairwise, hmore, fun n hn m hm => hafter n m (h.le n hn) hm⟩
  le := by
    rw [← List.cons_append]
    intro n hn
    obtain hn | hn := List.mem_append.mp hn
    · exact Nat.le_trans (h.le n hn) hge
    · exact hle n hn

/-- **The lines that are left by runs one after another** do not go down, and those that
are stored go up. -/
theorem Shifts.exists_climb {path : String} {runs : List (Shift path)} {files : Files}
    (h : Shifts path runs files) :
    ∃ (line : Nat) (left lines : List Nat), resumeLine ⟨path⟩ files = .ok line ∧
      runs.map Shift.lineLeft = left.map .ok ∧ Climb (· ≤ ·) left line ∧
      runs.flatMap Shift.committed = lines.map toString ∧ Climb (· < ·) lines line := by
  induction h with
  | nil files hnone =>
    refine ⟨0, [], [], ?_, rfl, .nil, rfl, .nil⟩
    unfold resumeLine
    rw [hnone]
    rfl
  | @snoc runs files _ run hfound ih =>
    obtain ⟨line, left, lines, hline, hleft, hup, hlines, hsorted⟩ := ih
    -- the run resumes after the line that the runs before it have left
    have hresumed : run.plan.resumedAfter = line := by
      have hresume := run.resumeLine_found
      rw [resumeLine_congr hfound, hline] at hresume
      exact (Except.ok.inj hresume).symm
    obtain ⟨more, hmore, hmoreSorted, hbounds⟩ := run.exists_lines
    have hnow := run.lineLeft_eq hmore fun n hn => (hbounds n hn).2
    rw [hresumed] at hnow hbounds
    obtain ⟨hge, hlast⟩ := getLast?_getD_bounds hmoreSorted fun n hn => (hbounds n hn).1
    generalize more.getLast?.getD line = now at hnow hge hlast
    refine ⟨now, left ++ [now], lines ++ more, hnow, ?_, ?_, ?_, ?_⟩
    · rw [List.map_append, List.map_append, hleft]
      exact congrArg _ (congrArg (fun x => [x]) hnow)
    · refine hup.append (List.pairwise_singleton _ _) (fun n m hn hm => ?_) hge fun n hn => ?_
      · rw [List.mem_singleton.mp hm]
        exact Nat.le_trans hn hge
      · exact Nat.le_of_eq (List.mem_singleton.mp hn)
    · rw [List.flatMap_append, List.map_append, hlines, List.flatMap_singleton, hmore]
    · refine hsorted.append hmoreSorted (fun n m hn hm => ?_) hge hlast
      exact Nat.lt_of_le_of_lt hn (hbounds m hm).1

/-- **The line that is stored never goes down.** Wherever a run is left, the positions that
it has stored are the numerals of lines, read again as these lines, that go up and stand
behind the line that it resumes after; and the last of them is the line that the next run
resumes after, if there is one. A dry run stores none and changes nothing of what is looked
up. Over runs one after another, beginning with no position stored, the lines that they
leave behind do not go down, and all the lines that they store go up. -/
theorem stored_lines_go_up (path : String) :
    (∀ run : Shift path, resumeLine ⟨path⟩ run.found = .ok run.plan.resumedAfter ∧
      (∃ lines : List Nat, run.committed = lines.map toString ∧
        (∀ n ∈ lines, lineOf (toString n) = .ok n ∧ run.plan.resumedAfter < n) ∧
        lines.Pairwise (· < ·) ∧
        run.lineLeft = .ok (lines.getLast?.getD run.plan.resumedAfter)) ∧
      (run.Dry → run.committed = [] ∧
        (FileStore.mk path).load run.left.files = (FileStore.mk path).load run.found)) ∧
    (∀ (runs : List (Shift path)) (files : Files), Shifts path runs files →
      ∃ left lines : List Nat,
        runs.map Shift.lineLeft = left.map .ok ∧ (0 :: left).Pairwise (· ≤ ·) ∧
        runs.flatMap Shift.committed = lines.map toString ∧ (0 :: lines).Pairwise (· < ·)) := by
  refine ⟨fun run => ⟨run.resumeLine_found, ?_, run.committed_of_dry⟩, fun runs files h => ?_⟩
  · obtain ⟨lines, hlines, hsorted, hbounds⟩ := run.exists_lines
    refine ⟨lines, hlines, fun n hn => ?_, hsorted, ?_⟩
    · exact ⟨lineOf_numeral (hbounds n hn).2, (hbounds n hn).1⟩
    · exact run.lineLeft_eq hlines fun n hn => (hbounds n hn).2
  · obtain ⟨_, left, lines, _, hleft, hup, hlines, hsorted⟩ := h.exists_climb
    exact ⟨left, lines, hleft, hup.pairwise, hlines, hsorted.pairwise⟩

/-- The moment of the settings that say nothing of it. -/
def epoch : FileStore.Moment :=
  ⟨"1970-01-01T00:00:00Z", by decide +kernel⟩

theorem moment_epoch : ({} : Settings).moment = epoch.text :=
  rfl

/-- A source of some bytes is of a size of 64 bits when there are no more of them. -/
theorem size_le_of_read {b : Blueprint} {files : Files} {n : Nat}
    (h : ((files.read b.source.path).toOption.map List.length) = some n) (hn : n ≤ Text.word64) :
    ∀ bytes, files.read b.source.path = .ok bytes → bytes.length ≤ Text.word64 := by
  intro bytes hread
  rw [hread] at h
  rw [Option.some.inj h]
  exact hn

/-- A run of one line to its end. -/
def oneLineRun : Shift logging.checkpointPath :=
  .executed logging {} oneLine (fun _ => default) epoch rfl moment_epoch (by decide +kernel)
    (size_le_of_read (n := 2) (by decide +kernel) (by decide))

/-- Files among which is one of two lines, when the position of the first has been
stored. -/
def oneLineMore : Files :=
  ((FileStore.mk logging.checkpointPath).commit
    (Files.empty.put ["in", "work"] (.file [120, 10, 121, 10])) ⟨"1", epoch.text⟩).1

/-- A run of one line more to its end. -/
def oneLineMoreRun (dry : Bool) (h : (Run.plan logging { dry := dry } oneLineMore).isOk = true) :
    Shift logging.checkpointPath :=
  .executed logging { dry := dry } oneLineMore (fun _ => default) epoch rfl moment_epoch h
    (size_le_of_read (n := 4) (by decide +kernel) (by decide))

/-- **Three runs to the end**: of one line, of one line more and dry, and of one line more. -/
theorem stored_lines_go_up_logging :
    ∃ dry second : Shift logging.checkpointPath,
      Shifts logging.checkpointPath [oneLineRun, dry, second] second.left.files ∧ dry.Dry ∧
      dry.committed = [] ∧
      [oneLineRun, dry, second].map Shift.lineLeft = [1, 1, 2].map .ok ∧
      ∃ left lines : List Nat,
        [oneLineRun, dry, second].map Shift.lineLeft = left.map .ok ∧
        (0 :: left).Pairwise (· ≤ ·) ∧
        [oneLineRun, dry, second].flatMap Shift.committed = lines.map toString ∧
        (0 :: lines).Pairwise (· < ·) := by
  let dry := oneLineMoreRun true (by decide +kernel)
  let second := oneLineMoreRun false (by decide +kernel)
  obtain ⟨hone, hmany⟩ := stored_lines_go_up logging.checkpointPath
  have hdry : dry.Dry := .inr rfl
  obtain ⟨hnone, hkept⟩ := (hone dry).2.2 hdry
  have hload : (FileStore.mk logging.checkpointPath).load oneLineRun.left.files = .ok (some "1") :=
    ok_of_toOption (by decide +kernel)
  have hfound : (FileStore.mk logging.checkpointPath).load oneLineMore
      = (FileStore.mk logging.checkpointPath).load oneLineRun.left.files :=
    (ok_of_toOption (by decide +kernel)).trans hload.symm
  have hshifts : Shifts logging.checkpointPath ([] ++ [oneLineRun] ++ [dry] ++ [second])
      second.left.files :=
    .snoc (.snoc (.snoc (.nil oneLine rfl) oneLineRun rfl) dry hfound) second hkept.symm
  have hfirst : oneLineRun.lineLeft = .ok 1 := by
    unfold Shift.lineLeft resumeLine
    rw [hload]
    exact lineOf_numeral (n := 1) (by decide)
  have hafter : dry.lineLeft = .ok 1 :=
    (resumeLine_congr hkept).trans ((resumeLine_congr hfound).trans hfirst)
  have hsecond : second.lineLeft = .ok 2 := ok_of_toOption (by decide +kernel)
  have hlefts : [oneLineRun, dry, second].map Shift.lineLeft = [1, 1, 2].map .ok := by
    show [oneLineRun.lineLeft, dry.lineLeft, second.lineLeft] = _
    rw [hfirst, hafter, hsecond]
    rfl
  exact ⟨dry, second, hshifts, hdry, hnone, hlefts, hmany _ _ hshifts⟩

end Courier.Run
