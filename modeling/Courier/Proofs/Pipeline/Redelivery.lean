import Courier.Proofs.Pipeline.Shift
/-!
# Records that fail and are read again

A record that fails is not acknowledged, and its position is not stored. But a
position stands for all lines up to it, and when the run goes on after a failure
the position of a later record may be stored: then the next run resumes behind
the record that has failed, and does not deal with it again.

A failed record is lost in no other way. It is among the records of the next run
as long as no position has been stored after it (`Shift.Resumes.mem_ahead_iff`),
and that run deals with all of its records when it comes to the end of the source.
Where the store takes every position, one is stored for each record that is
delivered (`Pipeline.Fresh.marked_eq`), so the failed record comes again as long as
no record has been delivered after it (`Shift.Ended.stored_iff_delivered`).
-/

namespace Courier

/-! ## What is shown after a failure -/

namespace Pipeline

/-- The record that is delivered, if that is what is shown. -/
def Effect.delivered? : Effect → Option Record
  | .delivered r _ => some r
  | _ => none

/-- What is shown is counted once as a mark and once as a record that is dealt with, but for
records that are delivered and positions that are stored. -/
theorem length_marks (effects : List Effect) :
    (effects.filterMap Effect.mark?).length + (effects.filterMap Effect.delivered?).length
      = (effects.filterMap Effect.dealt?).length
        + (effects.filterMap Effect.stored?).length := by
  induction effects with
  | nil => rfl
  | cons e rest ih =>
    cases e
    all_goals
      simp only [List.filterMap_cons, Effect.mark?, Effect.delivered?, Effect.dealt?,
        Effect.stored?, List.length_cons]
      omega

end Pipeline

/-! ## Reading again -/

/-- Behind an item of a list that goes up are those above it. -/
theorem drop_eq_filter {α : Type} {f : α → Nat} {l : List α} (h : (l.map f).Pairwise (· < ·)) :
    ∀ {k : Nat} {a : α}, l[k]? = some a → l.drop (k + 1) = l.filter fun b => f a < f b := by
  induction l with
  | nil => exact fun ha => nomatch ha
  | cons x l ih =>
    intro k a ha
    obtain ⟨hlt, hl⟩ := List.pairwise_cons.mp h
    have hlt (b : α) (hb : b ∈ l) : f x < f b := hlt (f b) (List.mem_map_of_mem hb)
    cases k with
    | zero =>
      obtain rfl := Option.some.inj ha
      rw [List.filter_cons_of_neg (by simp)]
      exact (List.filter_eq_self.mpr fun b hb => decide_eq_true (hlt b hb)).symm
    | succ k =>
      have hbelow := hlt a (List.mem_of_getElem? ha)
      rw [List.filter_cons_of_neg (by simpa using Nat.le_of_lt hbelow)]
      exact ih hl ha

/-- **Portions behind a line** at which one of them ends, or before all of them, are cut from
the events behind it. -/
theorem Cut.resume_filter {size total : Nat} {xs : List (Nat × Event)} {ps : List Portion}
    (h : Cut size total xs ps) (hsorted : xs.Pairwise fun x y => x.1 < y.1)
    (hle : ∀ x ∈ xs, x.1 ≤ total) {m : Nat}
    (hm : (∀ x ∈ xs, m < x.1) ∨ ∃ p ∈ ps, p.upTo = m) :
    Cut size total (xs.filter fun x => m < x.1) (ps.filter fun p => m < p.upTo) := by
  obtain hall | ⟨p, hp, rfl⟩ := hm
  · have hxs : (xs.filter fun x => decide (m < x.1)) = xs :=
      List.filter_eq_self.mpr fun x hx => decide_eq_true (hall x hx)
    have hps : (ps.filter fun p => decide (m < p.upTo)) = ps := by
      refine List.filter_eq_self.mpr fun p hp => decide_eq_true ?_
      obtain ⟨x, hx⟩ := List.exists_mem_of_length_pos (h.length_events p hp).1
      exact Nat.lt_of_lt_of_le (hall x (h.mem_of_mem hp hx)) (h.le_upTo hsorted hle p hp x hx)
    rw [hxs, hps]
    exact h
  · obtain ⟨k, hk⟩ := List.getElem?_of_mem hp
    have hup : (ps.map (·.upTo)).Pairwise (· < ·) :=
      List.pairwise_map.mpr ((h.upTo_pairwise hsorted hle).imp fun h => h.1)
    rw [← drop_eq_filter hup hk]
    exact h.resume hsorted hle hk

namespace Run

open Courier.Checkpoint (FileStore)
open Courier.Pipeline

namespace Shift

variable {path : String} (run : Shift path)

/-- **The records that a run has dealt with**: they are delivered, or they have failed. -/
def dealt : List Record :=
  run.effects.filterMap Effect.dealt?

/-- **A run that has come to the end of its source.** -/
structure Ended : Prop where
  /-- The consumer is done. -/
  phase_eq : run.left.pipeline.consumer.phase = .done
  /-- It was not told to shut down. -/
  shutDown_eq : run.left.pipeline.shutDown = false

/-- **A run whose store takes every position** that it is asked to store. -/
def Works : Prop :=
  ∀ s ∈ run.signals, s.refuses = false

/-- **A run that goes on where another one was left**: it reads the same bytes in the same
way, and finds the position that the other one has left. -/
structure Resumes (next : Shift path) : Prop where
  /-- The source is read in the same way. -/
  source_eq : next.blueprint.source = run.blueprint.source
  /-- It has not changed. -/
  read_eq : next.found.read next.blueprint.source.path = run.found.read run.blueprint.source.path
  /-- Nor has the position. -/
  load_eq : (FileStore.mk path).load next.found = (FileStore.mk path).load run.left.files

variable {run} {next : Shift path}

/-- A run to the end of its source was not shut down before it began. -/
theorem Ended.settings_shutDown (h : run.Ended) : run.settings.shutDown = false := by
  obtain ⟨-, -, hshut⟩ := plan_fresh run.plan_eq
  refine Bool.eq_false_iff.mpr fun hset => ?_
  have hrun := (winds_run run.signals (hshut.trans hset)).shutDown
  rw [← run.along.pipeline_eq] at hrun
  exact nomatch hrun.symm.trans h.shutDown_eq

/-- **A run to the end of its source** has dealt with all records that were ahead, and asks
for no position any more. -/
theorem Ended.dealt_eq (h : run.Ended) :
    run.dealt = run.plan.pipeline.ahead ∧ (run.plan.pipeline.run run.signals).1.asked = [] := by
  obtain ⟨hphase, hopen⟩ := h
  rw [run.along.pipeline_eq] at hphase hopen
  obtain ⟨hfresh, -, -⟩ := plan_fresh run.plan_eq
  exact ⟨hfresh.dealt_of_ended run.signals (.inl hopen) hphase,
    asked_of_none (hfresh.offer_of_ended run.signals (.inl hopen) hphase)⟩

/-- **A record of one of some portions** is one of those behind a line when its position is
behind the line. -/
theorem mem_filter_portions {portions : List Portion} {m n : Nat} {r : Record}
    (hr : r ∈ portions.map Portion.record) (hn : r.position = toString n) :
    r ∈ (portions.filter fun p => m < p.upTo).map Portion.record ↔ m < n := by
  constructor
  · intro h
    obtain ⟨p, hp, rfl⟩ := List.mem_map.mp h
    rw [← Text.toString_nat_inj hn]
    exact of_decide_eq_true (List.mem_filter.mp hp).2
  · intro h
    obtain ⟨p, hp, rfl⟩ := List.mem_map.mp hr
    rw [← Text.toString_nat_inj hn] at h
    exact List.mem_map_of_mem (List.mem_filter.mpr ⟨hp, decide_eq_true h⟩)

/-- **The records ahead of a run that resumes** behind one of the records of the run before
it, or where that one did, are those behind the line. -/
theorem Resumes.ahead_eq (h : run.Resumes next) (hopen : next.settings.shutDown = false)
    {bytes : List UInt8} {portions : List Portion}
    (hread : run.found.read run.blueprint.source.path = .ok bytes)
    (hcut : Cut run.source.batchSize (linesOf bytes).length (run.source.numbered bytes) portions)
    (hbehind : next.plan.resumedAfter = run.plan.resumedAfter ∨
      ∃ portion ∈ portions, portion.upTo = next.plan.resumedAfter) :
    next.plan.pipeline.ahead
      = (portions.filter fun p => next.plan.resumedAfter < p.upTo).map Portion.record := by
  obtain ⟨bytes', portions', hread', hcut', hahead⟩ := next.exists_cut hopen
  obtain rfl := Except.ok.inj (hread'.symm.trans (h.read_eq.trans hread))
  have hsource : next.source = { run.source with resumeAfter := next.plan.resumedAfter } := by
    unfold source
    rw [h.source_eq]
    rfl
  have hle : run.source.resumeAfter ≤ next.plan.resumedAfter := by
    obtain heq | ⟨portion, hp, heq⟩ := hbehind
    · exact Nat.le_of_eq heq.symm
    · rw [← heq]
      exact Nat.le_of_lt (Source.resumeAfter_lt_upTo hcut hp)
  -- both runs cut the events behind the line, and there is one way to do so
  rw [hsource, Source.numbered_resume hle] at hcut'
  rw [hahead, hcut'.unique (hcut.resume_filter (run.source.numbered_pairwise bytes')
    (fun x => Source.le_length_of_mem_numbered) ?_)]
  refine hbehind.imp (fun heq x hx => ?_) id
  rw [heq]
  exact Source.resumeAfter_lt_of_eventAt (Source.mem_numberedIn.mp hx).2.2

/-- **A run that resumes** does so behind the last line that the run before it has stored. -/
theorem Resumes.resumedAfter_eq (h : run.Resumes next) {lines : List Nat}
    (hlines : run.committed = lines.map toString) (hle : ∀ n ∈ lines, n ≤ Text.word64) :
    next.plan.resumedAfter = lines.getLast?.getD run.plan.resumedAfter := by
  have hline := next.resumeLine_found
  rw [resumeLine_congr h.load_eq] at hline
  exact Except.ok.inj (hline.symm.trans (run.lineLeft_eq hlines hle))

/-- **A failed record among the lines that are stored**: those that are stored before it
fails stand before its line, and those that are stored later stand behind it. -/
theorem exists_line_of_failed {portions : List Portion} {before after : List Effect}
    {r : Record} {f : Failure} (hahead : run.plan.pipeline.ahead = portions.map Portion.record)
    (hsorted : (portions.map (·.upTo)).Pairwise (· < ·))
    (heffects : run.effects = before ++ .failed r f :: after) :
    ∃ (n : Nat) (past later : List Nat), r.position = toString n ∧
      before.filterMap Effect.stored? = past.map toString ∧
      after.filterMap Effect.stored? = later.map toString ∧
      (∀ m ∈ past, m < n) ∧ (∀ m ∈ later, n < m) ∧
      ∀ m ∈ n :: (past ++ later), m ∈ portions.map (·.upTo) := by
  obtain ⟨lines, hmarks, hsublist⟩ := run.exists_marks hahead
  rw [heffects, List.filterMap_append] at hmarks
  obtain ⟨marked, others, rfl, hmarked, hothers⟩ := List.map_eq_append_iff.mp hmarks.symm
  obtain ⟨n, more, rfl, hn, hmore⟩ := List.map_eq_cons_iff.mp hothers
  obtain ⟨-, hbehind, hbefore⟩ := List.pairwise_append.mp (hsorted.sublist hsublist)
  have hpast := stored_sublist_marks before
  rw [← hmarked] at hpast
  have hlater := stored_sublist_marks after
  rw [← hmore] at hlater
  obtain ⟨past, hpastLines, hpastEq⟩ := List.sublist_map_iff.mp hpast
  obtain ⟨later, hlaterLines, hlaterEq⟩ := List.sublist_map_iff.mp hlater
  refine ⟨n, past, later, hn.symm, hpastEq, hlaterEq, fun m hm => ?_, fun m hm => ?_,
    fun m hm => hsublist.subset ?_⟩
  · exact hbefore m (hpastLines.subset hm) n List.mem_cons_self
  · exact (List.pairwise_cons.mp hbehind).1 m (hlaterLines.subset hm)
  · obtain rfl | hm := List.mem_cons.mp hm
    · exact List.mem_append_right _ List.mem_cons_self
    · obtain hm | hm := List.mem_append.mp hm
      · exact List.mem_append_left _ (hpastLines.subset hm)
      · exact List.mem_append_right _ (List.mem_cons_of_mem _ (hlaterLines.subset hm))

/-- **A failed record is ahead of the run that resumes** as long as no position has been
stored after it has failed. -/
theorem Resumes.mem_ahead_iff (h : run.Resumes next) (hopen : next.settings.shutDown = false)
    {before after : List Effect} {r : Record} {f : Failure}
    (heffects : run.effects = before ++ .failed r f :: after) :
    r ∈ next.plan.pipeline.ahead ↔ after.filterMap Effect.stored? = [] := by
  have hr : r ∈ run.plan.pipeline.ahead := by
    refine (dealt_sublist_run run.plan.pipeline run.signals).subset (List.mem_append_left _ ?_)
    refine List.mem_filterMap.mpr ⟨.failed r f, ?_, rfl⟩
    show Effect.failed r f ∈ run.effects
    rw [heffects]
    exact List.mem_append_right _ List.mem_cons_self
  have hbegun : run.settings.shutDown = false := by
    refine Bool.eq_false_iff.mpr fun hshut => ?_
    rw [(plan_ahead run.plan_eq).1 hshut] at hr
    exact nomatch hr
  obtain ⟨bytes, portions, hread, hcut, hahead⟩ := run.exists_cut hbegun
  obtain ⟨hsorted, hbounds⟩ := run.upTo_of_cut hread hcut
  obtain ⟨n, past, later, hn, hpast, hlater, hbefore, hbehind, hamong⟩ :=
    run.exists_line_of_failed hahead hsorted heffects
  have hcommitted : run.committed = (past ++ later).map toString := by
    rw [List.map_append, ← hpast, ← hlater]
    show run.effects.filterMap Effect.stored? = _
    rw [heffects, List.filterMap_append]
    rfl
  have hline := h.resumedAfter_eq hcommitted fun m hm =>
    (hbounds m (hamong m (List.mem_cons_of_mem _ hm))).2
  have hlt : run.plan.resumedAfter < n := (hbounds n (hamong n List.mem_cons_self)).1
  have hresumed : next.plan.resumedAfter = run.plan.resumedAfter ∨
      ∃ portion ∈ portions, portion.upTo = next.plan.resumedAfter := by
    rw [hline]
    cases hlast : (past ++ later).getLast? with
    | none => exact .inl rfl
    | some m =>
      have hm := hamong m (List.mem_cons_of_mem _ (List.mem_of_getLast? hlast))
      exact .inr (List.mem_map.mp hm)
  rw [h.ahead_eq hopen hread hcut hresumed, mem_filter_portions (hahead ▸ hr) hn, hlater, hline]
  cases hlast : later.getLast? with
  | none =>
    -- the last line that is stored, if there is one, is of a record before
    obtain rfl := List.getLast?_eq_none_iff.mp hlast
    refine iff_of_true ?_ rfl
    rw [List.append_nil]
    cases hlast : past.getLast? with
    | none => exact hlt
    | some m => exact hbefore m (List.mem_of_getLast? hlast)
  | some m =>
    refine iff_of_false (fun hm => ?_) fun hnil => ?_
    · rw [List.getLast?_append, hlast] at hm
      exact Nat.lt_asymm hm (hbehind m (List.mem_of_getLast? hlast))
    · rw [List.map_eq_nil_iff.mp hnil] at hlast
      exact nomatch hlast

/-- **Where the store takes every position**, none is stored after a record has failed as
long as no record is delivered. -/
theorem Ended.stored_iff_delivered (h : run.Ended) (hworks : run.Works) (hdry : ¬run.Dry)
    {before after : List Effect} {r : Record} {f : Failure}
    (heffects : run.effects = before ++ .failed r f :: after) :
    after.filterMap Effect.stored? = [] ↔ after.filterMap Effect.delivered? = [] := by
  obtain ⟨hfresh, hkeeper, -⟩ := plan_fresh run.plan_eq
  have hkeeps : run.plan.pipeline.keeper.dry = false := by
    rw [hkeeper]
    exact Bool.eq_false_iff.mpr fun hset => hdry ((Bool.or_eq_true _ _).mp hset)
  have hmarks : run.effects.filterMap Effect.mark? = run.dealt.map (·.position) := by
    have hmarks := hfresh.marked_eq hkeeps hworks
    unfold marked due at hmarks
    rw [h.dealt_eq.2, asked_of_none hfresh.offer_eq, List.append_nil] at hmarks
    exact hmarks
  obtain ⟨portions, hahead, hsorted, -⟩ := run.exists_portions
  obtain ⟨lines, hlines, hsublist⟩ := run.exists_marks hahead
  -- no position is marked twice, so the marks behind the one of the record are those of
  -- the records that are dealt with after it
  have hnodup : (run.effects.filterMap Effect.mark?).Nodup := by
    have hne : lines.Nodup := (hsorted.sublist hsublist).imp Nat.ne_of_lt
    rw [hlines]
    exact hne.map fun n m heq => Text.toString_nat_inj heq
  unfold dealt at hmarks
  rw [heffects, List.filterMap_append] at hmarks hnodup
  rw [List.filterMap_append, List.map_append] at hmarks
  have hapart := (List.nodup_cons.mp (List.nodup_middle.mp hnodup)).1
  rw [List.mem_append, not_or] at hapart
  have hsplit : before.filterMap Effect.mark? ++ r.position :: after.filterMap Effect.mark?
      = (before.filterMap Effect.dealt?).map (·.position)
        ++ r.position :: (after.filterMap Effect.dealt?).map (·.position) := hmarks
  obtain ⟨-, -, hafter⟩ := (List.append_cons_inj_of_notMem hapart.1 hapart.2).mp hsplit
  have hlength := congrArg List.length hafter
  rw [List.length_map] at hlength
  have hcount := length_marks after
  rw [← List.length_eq_zero_iff, ← List.length_eq_zero_iff]
  omega

end Shift

/-- **When a failed record is dealt with again.** A run that resumes where another one was
left, and comes to the end of the source, deals again with a record that has failed in the
other run as long as no position was stored there after the record had failed. Where the
other run came to the end of the source and its store took every position, that is as long
as it delivered no record after the one that failed. -/
theorem failed_redelivered_iff {path : String} {run next : Shift path}
    (hresumes : run.Resumes next) (hended : next.Ended) {before after : List Effect}
    {r : Record} {f : Failure} (heffects : run.effects = before ++ .failed r f :: after) :
    (r ∈ next.dealt ↔ after.filterMap Effect.stored? = []) ∧
      (run.Ended → run.Works → ¬run.Dry →
        (r ∈ next.dealt ↔ after.filterMap Effect.delivered? = [])) := by
  have hiff : r ∈ next.dealt ↔ after.filterMap Effect.stored? = [] := by
    rw [hended.dealt_eq.1]
    exact hresumes.mem_ahead_iff hended.settings_shutDown heffects
  refine ⟨hiff, fun hrun hworks hdry => hiff.trans ?_⟩
  exact hrun.stored_iff_delivered hworks hdry heffects

/-- A blueprint that logs the events of a file two at a time, by their names, and goes on
after a failure. -/
def naming : Blueprint :=
  ⟨default, .standard, .standard, .continue, ⟨"in", 2, some "id", none⟩, [⟨"out", .log, []⟩]⟩

/-- Files among which is one of a line for each of some names of one letter. -/
def named (letters : List UInt8) : Files :=
  Files.empty.put ["in", "work"]
    (.file (letters.flatMap fun c => [123, 34, 105, 100, 34, 58, 34, c, 34, 125, 10]))

/-- The statistics of a run that is over. -/
def Conclusion.statistics? : Conclusion → Option Statistics.Run
  | .over statistics => some statistics
  | _ => none

/-- **A failed record that is passed over**: two events of a name make a record that fails,
the third one is delivered and its position is stored, and the next run reads nothing. -/
theorem failed_passed_over :
    let first := execute naming {} (fun _ => default) (named [97, 97, 98])
    let second := execute naming {} (fun _ => default) first.files
    (first.conclusion.statistics?.map fun s => (s.eventsRead, s.consumer.failed)) = some (3, 1) ∧
      (first.conclusion.statistics?.map fun s => (s.consumer.acknowledged, s.consumer.committed))
        = some (1, 1) ∧
      (second.conclusion.statistics?.map fun s => (s.eventsRead, s.resumedAfter))
        = some (0, 3) := by
  decide +kernel

/-- The files that a run of named lines to its end leaves behind. -/
def afterwards (files : Files) : Files :=
  (execute naming {} (fun _ => default) files).files

theorem size_le_named : 22 ≤ Text.word64 := by
  decide

/-- A run of two named lines to its end. -/
def namedRun (files : Files) (hbegins : (Run.plan naming {} files).isOk = true)
    (hread : ((files.read naming.source.path).toOption.map List.length) = some 22) :
    Shift naming.checkpointPath :=
  .executed naming {} files (fun _ => default) epoch rfl moment_epoch hbegins
    (size_le_of_read hread size_le_named)

theorem resumes_namedRun {files : Files} {hbegins : (Run.plan naming {} files).isOk = true}
    {hread : ((files.read naming.source.path).toOption.map List.length) = some 22}
    {hagain : (Run.plan naming {} (afterwards files)).isOk = true}
    {hreread : (((afterwards files).read naming.source.path).toOption.map List.length) = some 22}
    (hsame : (afterwards files).read naming.source.path = files.read naming.source.path) :
    (namedRun files hbegins hread).Resumes (namedRun (afterwards files) hagain hreread) where
  source_eq := rfl
  read_eq := hsame
  load_eq := congrArg _ (Shift.files_executed naming {} files _ epoch rfl moment_epoch hbegins _).symm

/-- A record that is dealt with has failed where none is delivered. -/
theorem exists_failed {effects : List Effect} {r : Record}
    (hr : r ∈ effects.filterMap Effect.dealt?) (hnone : effects.filterMap Effect.delivered? = []) :
    ∃ f, Effect.failed r f ∈ effects := by
  obtain ⟨e, he, hdealt⟩ := List.mem_filterMap.mp hr
  cases e with
  | delivered r' reports =>
    have hdelivered : r' ∈ effects.filterMap Effect.delivered? :=
      List.mem_filterMap.mpr ⟨_, he, rfl⟩
    rw [hnone] at hdelivered
    exact nomatch hdelivered
  | failed r' f =>
    obtain rfl := Option.some.inj hdealt
    exact ⟨f, he⟩
  | stored position => exact nomatch hdealt

/-- **A record of two events of one name**, which fails and is all that there is: the next run
deals with it again. -/
theorem failed_redelivered_iff_alone :
    ∃ (run next : Shift naming.checkpointPath) (before after : List Effect) (r : Record)
      (f : Failure),
      run.effects = before ++ .failed r f :: after ∧ run.Resumes next ∧ next.Ended ∧
      run.Ended ∧ run.Works ∧ ¬run.Dry ∧ after.filterMap Effect.stored? = [] ∧
      after.filterMap Effect.delivered? = [] ∧ r ∈ next.dealt := by
  let run := namedRun (named [97, 97]) (by decide +kernel) (by decide +kernel)
  let next := namedRun (afterwards (named [97, 97])) (by decide +kernel) (by decide +kernel)
  have hrun : run.Ended := ⟨by decide +kernel, by decide +kernel⟩
  have hnext : next.Ended := ⟨by decide +kernel, by decide +kernel⟩
  have hdry : ¬run.Dry := by
    unfold Shift.Dry
    decide +kernel
  have hworks : run.Works := by
    unfold Shift.Works
    decide +kernel
  have hresumes : run.Resumes next := resumes_namedRun (by decide +kernel)
  have hnone : run.effects.filterMap Effect.delivered? = [] := by decide +kernel
  have hdealt : run.dealt ≠ [] := by decide +kernel
  obtain ⟨r, hr⟩ := List.exists_mem_of_ne_nil _ hdealt
  obtain ⟨f, hf⟩ := exists_failed hr hnone
  obtain ⟨before, after, heffects⟩ := List.append_of_mem hf
  have hafter : after.filterMap Effect.delivered? = [] := by
    rw [heffects, List.filterMap_append] at hnone
    exact (List.append_eq_nil_iff.mp hnone).2
  obtain ⟨hstored, hdelivered⟩ := failed_redelivered_iff hresumes hnext heffects
  have hagain : r ∈ next.dealt := (hdelivered hrun hworks hdry).mpr hafter
  exact ⟨run, next, before, after, r, f, heffects, hresumes, hnext, hrun, hworks, hdry,
    hstored.mp hagain, hafter, hagain⟩

end Run

end Courier
