import Courier.Pipeline.Run
import Courier.Proofs.Pipeline.Course
import Courier.Proofs.Sink.Roster
import Courier.Proofs.Text.Numeral
/-!
# What a stored position says about the runs before it

A run resumes after the line of the position that is stored, and wherever it
is left, in the middle of a move to its files or after any number of them, the
position that is stored then is the one it has found or one that it has stored
itself. In the second case every sink had resolved all events up to the line
of the position before it was stored (`Passage.stored`).

So runs may be left and begun again any number of times (`History`): a line up
to the one that is stored has been resolved by every sink of one of the runs.
-/

namespace Courier.Run

open Courier.Checkpoint (FileStore)
open Courier.Pipeline

/-! ## What a run begins with -/

/-- **The line of the position of a line** is the line. -/
theorem lineOf_toString {n line : Nat} (h : lineOf (toString n) = .ok line) : n = line := by
  unfold lineOf at h
  rw [Text.readNumeral_toString] at h
  by_cases hn : n ≤ Text.word64
  · rw [if_pos hn] at h
    exact Except.ok.inj h
  · rw [if_neg hn] at h
    cases h

/-- **A run resumes at the beginning, or after the line of the position that is
looked up.** -/
theorem resumeLine_eq_ok {store : FileStore} {files : Files} {line : Nat}
    (h : resumeLine store files = .ok line) :
    line = 0 ∨
      ∃ position, store.load files = .ok (some position) ∧ lineOf position = .ok line := by
  obtain ⟨found, hfound, h⟩ := bind_eq_ok h
  cases found with
  | none => exact .inl (Except.ok.inj h).symm
  | some position => exact .inr ⟨position, hfound, h⟩

theorem resumeLine_congr {store : FileStore} {files files' : Files}
    (h : store.load files = store.load files') :
    resumeLine store files = resumeLine store files' := by
  unfold resumeLine
  rw [h]

/-- **What the plan of a run consists of.** -/
theorem plan_ok {b : Blueprint} {s : Settings} {files : Files} {p : Plan}
    (h : plan b s files = .ok p) :
    p.store = ⟨b.checkpointPath⟩ ∧ resumeLine p.store files = .ok p.resumedAfter ∧
      p.pipeline.sinks = b.sinks.map (·.name) ∧
      (Source.ofSettings b.source p.resumedAfter).reader files b.source.path s.shutDown
        = .ok p.pipeline.reader ∧
      p.pipeline.consumer = {} ∧ p.pipeline.channel = [] ∧ p.pipeline.offer = none := by
  obtain ⟨handles, hhandles, h⟩ := bind_eq_ok h
  obtain ⟨line, hline, h⟩ := bind_eq_ok h
  obtain ⟨reader, hreader, h⟩ := bind_eq_ok h
  obtain rfl := Except.ok.inj h
  refine ⟨rfl, mapError_eq_ok hline, ?_, mapError_eq_ok hreader, rfl, rfl, rfl⟩
  rw [← Sink.Registry.names_getAll (mapError_eq_ok hhandles)]
  exact List.map_map

/-- **A reader that has just opened a file** has offered none of its lines. -/
theorem reader_at {s : Source} {files : Files} {path : String} {shutDown : Bool}
    {bytes : List UInt8} {reader : Reader} (hread : files.read path = .ok bytes)
    (h : s.reader files path shutDown = .ok reader) : reader.At s bytes 0 := by
  obtain ⟨node, hopen, hcontents⟩ := bind_eq_ok hread
  unfold Source.reader at h
  rw [hopen] at h
  dsimp only at h
  split at h
  · obtain rfl := Except.ok.inj h
    exact Reader.at_done rfl (Nat.le_refl 0) rfl
  · rw [hcontents] at h
    obtain rfl := Except.ok.inj h
    exact Reader.at_start s bytes

/-- **What is outside the pipeline of a plan**: sinks that leave the files as they are,
and its store. -/
theorem worldOf_beside (p : Plan) (moment : String) (exchange : Sink.Request → Sink.Ending) :
    (worldOf p moment exchange).Beside p.store moment where
  send_files files index events := by
    unfold worldOf
    dsimp only
    cases p.clients[index]? with
    | none => rfl
    | some client => rfl
  store_eq _ _ := by
    unfold worldOf
    dsimp only

/-! ## One run -/

/-- **A run that has been left**: of a blueprint that stores positions in the file of a
path and reads a source of some bytes, whose failures do not let it go on. It may
have been left at any moment. -/
structure Passage (path : String) (bytes : List UInt8) where
  /-- The blueprint. -/
  blueprint : Blueprint
  /-- How it is run. -/
  settings : Settings
  /-- The files that are found. -/
  found : Files
  /-- The plan. -/
  plan : Plan
  /-- Where the run is left. -/
  left : Scene
  /-- Positions are stored in the file of the path. -/
  path_eq : blueprint.checkpointPath = path
  /-- The source is of the bytes. -/
  read_eq : found.read blueprint.source.path = .ok bytes
  /-- A failure ends the process, or stops everything. -/
  intervene_ne : intervene blueprint.exception ≠ none
  /-- The plan is the one of the blueprint. -/
  plan_eq : Run.plan blueprint settings found = .ok plan
  /-- The run has come to where it is left. -/
  course : Course plan.store blueprint.exception ⟨plan.pipeline, found⟩ left

namespace Passage

variable {path : String} {bytes : List UInt8}

/-- Where a run begins. -/
def start (run : Passage path bytes) : Scene :=
  ⟨run.plan.pipeline, run.found⟩

/-- What a run reads. -/
def source (run : Passage path bytes) : Source :=
  .ofSettings run.blueprint.source run.plan.resumedAfter

/-- **The course of a run**, from one moment to another. -/
def Leads (run : Passage path bytes) : Scene → Scene → Prop :=
  Course run.plan.store run.blueprint.exception

/-- **The event of a line has been resolved by every sink** of a run by a moment of
it. -/
def Resolves (run : Passage path bytes) (u : Scene) (n : Nat) (e : Event) : Prop :=
  ∀ (i : Nat) sink, run.blueprint.sinks[i]? = some sink →
    ResolvedBetween run.plan.store run.blueprint.exception run.source bytes run.start u n e i
      sink.name

/-- **A run begins with no line delivered.** -/
theorem start_at (run : Passage path bytes) :
    run.start.pipeline.At run.source bytes (run.blueprint.sinks.map (·.name)) 0 := by
  obtain ⟨-, -, hsinks, hreader, hconsumer, hchannel, hoffer⟩ := plan_ok run.plan_eq
  have hphase : run.plan.pipeline.consumer.phase = .waiting := by rw [hconsumer]
  refine ⟨hsinks, fun _ => ⟨0, ?_, reader_at run.read_eq hreader⟩, fun r hb => ?_, fun o ho => ?_⟩
  · show Source.Spans run.source bytes 0 run.plan.pipeline.channel 0
    rw [hchannel]
    exact .nil 0
  · exact nomatch hphase.symm.trans hb
  · exact nomatch hoffer.symm.trans ho

/-- **A line that is stored and has not been found** has been stored by the run, and
before that every sink had resolved all events of the lines up to it. -/
theorem stored (run : Passage path bytes) {line : Nat}
    (h : resumeLine ⟨path⟩ run.left.files = .ok line) (hlt : run.plan.resumedAfter < line) :
    ∃ u v, run.Leads run.start u ∧ Stores run.plan.store (toString line) u v ∧ run.Leads u v ∧
      run.Leads v run.left ∧
      ∀ n e, n ≤ line → run.source.eventAt bytes n = some e → run.Resolves u n e := by
  obtain ⟨hstore, hresume, -⟩ := plan_ok run.plan_eq
  rw [run.path_eq] at hstore
  rw [← hstore] at h
  obtain rfl | ⟨position, hload, hline⟩ := resumeLine_eq_ok h
  · exact absurd hlt (Nat.not_lt_zero _)
  obtain hload | ⟨u, v, hu, hstores, huv, hv⟩ := Course.load run.course hload
  · -- the position that was found is the one of another line
    have hfound : resumeLine run.plan.store run.found = .ok line := by
      unfold resumeLine
      rw [hload]
      exact hline
    obtain rfl := Except.ok.inj (hfound.symm.trans hresume)
    exact absurd hlt (Nat.lt_irrefl _)
  · obtain ⟨d, hat, hsettled⟩ := Course.delivered run.start_at run.intervene_ne hu
    have ⟨session, moment, hoffer, _⟩ := hstores
    obtain ⟨k, hk, rfl⟩ := hat.offered _ hoffer
    obtain rfl := lineOf_toString hline
    refine ⟨u, v, hu, hstores, .single huv, hv, fun n e hn he i sink hi => ?_⟩
    refine hsettled n e (Nat.le_trans hn hk) he i sink.name ?_
    rw [List.getElem?_map, hi]
    rfl

/-- **The run of a blueprint to its end**, as one that is left there. -/
def executed {b : Blueprint} {s : Settings} {files : Files} {plan : Plan}
    (exchange : Sink.Request → Sink.Ending)
    (hread : files.read b.source.path = .ok bytes) (hexc : intervene b.exception ≠ none)
    (hplan : Run.plan b s files = .ok plan) : Passage b.checkpointPath bytes where
  blueprint := b
  settings := s
  found := files
  plan := plan
  left :=
    let aftermath := plan.pipeline.complete (worldOf plan s.moment exchange) b.exception files
    ⟨aftermath.2.1, aftermath.1⟩
  path_eq := rfl
  read_eq := hread
  intervene_ne := hexc
  plan_eq := hplan
  course := course_drive (worldOf_beside plan s.moment exchange) _ _ _

/-- A run to its end leaves the files of its aftermath. -/
theorem files_executed {b : Blueprint} {s : Settings} {files : Files} {plan : Plan}
    (exchange : Sink.Request → Sink.Ending)
    (hread : files.read b.source.path = .ok bytes) (hexc : intervene b.exception ≠ none)
    (hplan : Run.plan b s files = .ok plan) :
    (executed exchange hread hexc hplan).left.files = (execute b s exchange files).files := by
  unfold execute
  rw [hplan]
  rfl

end Passage

/-! ## Runs one after another -/

/-- **Runs one after another**, and the files they leave behind. The first one finds no
position, and every other one the position that has been left by the one before. -/
inductive History (path : String) (bytes : List UInt8) :
    List (Passage path bytes) → Files → Prop
  /-- Nothing has been run, and no position is stored. -/
  | nil (files : Files) (hnone : (FileStore.mk path).load files = .ok none) :
      History path bytes [] files
  /-- One run more. -/
  | snoc {runs : List (Passage path bytes)} {files : Files} (h : History path bytes runs files)
      (run : Passage path bytes)
      (hfound : (FileStore.mk path).load run.found = (FileStore.mk path).load files) :
      History path bytes (runs ++ [run]) run.left.files

/-- **A line up to the one that is stored** has its event resolved by every sink of one
of the runs. -/
theorem History.resolved {path : String} {bytes : List UInt8}
    {runs : List (Passage path bytes)} {files : Files} (h : History path bytes runs files) :
    ∀ {line n : Nat}, resumeLine ⟨path⟩ files = .ok line → n ≤ line →
      Source.HoldsEvent bytes n → ∃ run ∈ runs, ∃ e, run.source.eventAt bytes n = some e ∧
        run.Resolves run.left n e := by
  induction h with
  | nil files hnone =>
    intro line n hline hn hholds
    unfold resumeLine at hline
    rw [hnone] at hline
    obtain rfl := Except.ok.inj hline
    obtain ⟨m, -, -, rfl, -⟩ := hholds
    exact absurd hn (Nat.not_succ_le_zero m)
  | @snoc runs files _ run hfound ih =>
    intro line n hline hn hholds
    obtain ⟨hstore, hresume, -⟩ := plan_ok run.plan_eq
    by_cases hold : n ≤ run.plan.resumedAfter
    · -- the line stands before those that the last run has read
      rw [hstore, run.path_eq, resumeLine_congr hfound] at hresume
      obtain ⟨run', hrun, hresolves⟩ := ih hresume hold hholds
      exact ⟨run', List.mem_append_left _ hrun, hresolves⟩
    · have hnew : run.plan.resumedAfter < n := Nat.not_le.mp hold
      obtain ⟨e, he⟩ := (Source.exists_eventAt_iff (s := run.source)).mpr ⟨hnew, hholds⟩
      obtain ⟨u, v, -, -, huv, hv, hresolves⟩ := run.stored hline (Nat.lt_of_lt_of_le hnew hn)
      refine ⟨run, List.mem_append_right _ (List.mem_singleton_self run), e, he,
        fun i sink hi => ?_⟩
      exact (hresolves n e hn he i sink hi).trans (huv.trans hv)

/-- **At least once.** However a run is left, a line that is stored then and has not been
found has been stored by the run, after every sink had resolved all events of the
lines up to it. And over runs one after another, beginning with no position
stored, no line up to the one that is stored in the end has an event that a sink
has left open: every sink of one of the runs has resolved it. -/
theorem stored_lines_resolved (path : String) (bytes : List UInt8) :
    (∀ (run : Passage path bytes) (line : Nat), resumeLine ⟨path⟩ run.left.files = .ok line →
      run.plan.resumedAfter < line →
      ∃ u v, run.Leads run.start u ∧ Stores run.plan.store (toString line) u v ∧
        run.Leads u v ∧ run.Leads v run.left ∧
        ∀ n e, n ≤ line → run.source.eventAt bytes n = some e → run.Resolves u n e) ∧
    (∀ (runs : List (Passage path bytes)) (files : Files) (line n : Nat),
      History path bytes runs files → resumeLine ⟨path⟩ files = .ok line → n ≤ line →
      Source.HoldsEvent bytes n →
      ∃ run ∈ runs, ∃ e, run.source.eventAt bytes n = some e ∧ run.Resolves run.left n e) :=
  ⟨fun run _ hline hlt => run.stored hline hlt,
    fun _ _ _ _ h hline hn hholds => h.resolved hline hn hholds⟩

/-- A blueprint that logs the lines of a file one at a time. -/
def logging : Blueprint :=
  ⟨default, .standard, .standard, .exit, ⟨"in", 1, none, none⟩, [⟨"out", .log, []⟩]⟩

/-- Files among which is one of one line. -/
def oneLine : Files :=
  Files.empty.put ["in", "work"] (.file [120, 10])

/-- **One run to its end**: the line is stored, and the log had taken it before. -/
theorem stored_lines_resolved_logging :
    ∃ (run : Passage logging.checkpointPath [120, 10]) (u : Scene) (e : Event),
      run.source.eventAt [120, 10] 1 = some e ∧ run.Leads run.start u ∧ run.Leads u run.left ∧
      run.Resolves u 1 e ∧
      ∃ run' ∈ [run], ∃ e', run'.source.eventAt [120, 10] 1 = some e' ∧
        run'.Resolves run'.left 1 e' := by
  have hread : oneLine.read logging.source.path = .ok [120, 10] := rfl
  have hexc : intervene logging.exception ≠ none := by decide
  have hok : (Run.plan logging {} oneLine).isOk = true := by decide +kernel
  obtain ⟨plan, hplan⟩ : ∃ plan, Run.plan logging {} oneLine = .ok plan := by
    cases hplan : Run.plan logging {} oneLine with
    | error t =>
      rw [hplan] at hok
      cases hok
    | ok plan => exact ⟨plan, rfl⟩
  let run : Passage logging.checkpointPath [120, 10] :=
    .executed (fun _ => default) hread hexc hplan
  have hline : resumeLine ⟨logging.checkpointPath⟩ run.left.files = .ok 1 := by
    rw [Passage.files_executed]
    rfl
  have hnone : (FileStore.mk logging.checkpointPath).load oneLine = .ok none := rfl
  have hresume : plan.resumedAfter = 0 := by
    obtain ⟨hstore, hresume, -⟩ := plan_ok hplan
    unfold resumeLine at hresume
    rw [hstore, hnone] at hresume
    exact (Except.ok.inj hresume).symm
  have hholds : Source.HoldsEvent [120, 10] 1 :=
    ⟨0, [120], ['x'], rfl, rfl, rfl, rfl⟩
  have hhistory : History logging.checkpointPath [120, 10] ([] ++ [run]) run.left.files :=
    .snoc (.nil oneLine hnone) run rfl
  obtain ⟨hone, hmany⟩ := stored_lines_resolved logging.checkpointPath [120, 10]
  have hlt : run.plan.resumedAfter < 1 := by
    show plan.resumedAfter < 1
    rw [hresume]
    exact Nat.one_pos
  obtain ⟨u, v, hu, -, huv, hv, hresolves⟩ := hone run 1 hline hlt
  obtain ⟨e, he⟩ := (Source.exists_eventAt_iff (s := run.source)).mpr ⟨hlt, hholds⟩
  exact ⟨run, u, e, he, hu, huv.trans hv, hresolves 1 e (Nat.le_refl 1) he,
    hmany [run] run.left.files 1 1 hhistory hline (Nat.le_refl 1) hholds⟩

end Courier.Run
