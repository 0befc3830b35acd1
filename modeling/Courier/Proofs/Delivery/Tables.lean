import Courier.Delivery.Tables
import Courier.Proofs.Delivery.Coherence
/-!
# Tables that stay in step

Nothing in the type of tables keeps the three in step. They are in step all the
same, whatever is done and in whatever order: for the requests and answers need
not belong together, and attempts need not be counted up. `Tables.Agrees` says
that tables and a ledger hold the same, every act keeps it so (`Agrees.actAll`),
and the tables are then as they should be (`Tables.Sound`), because the entries
of the ledger are. In the ledger an act is
done entry by entry, and a settled entry is left alone (`Ledger.actAll_entries`);
so nothing becomes outstanding again, and no final outcome is changed.
-/

namespace Courier.Delivery

/-- **What is done to a ledger** while its batch is being delivered, with any
arguments whatever. -/
inductive Act
  /-- An answer is taken in, to a request of the given events. -/
  | answer (classify : ItemStatus → ItemClass) (sent : List Event) (statuses : List ItemStatus)
  /-- It is taken in that such a request got no answer. -/
  | miss (sent : List Event) (f : Failure)
  /-- The attempt of a number begins. -/
  | advance (attempt : Nat)

namespace Ledger

/-- One act. -/
def act (l : Ledger) : Act → Ledger
  | .answer classify sent statuses => (l.answer classify sent statuses).1
  | .miss sent f => l.unanswered sent f
  | .advance attempt => l.advance attempt

/-- Acts one after another. -/
def actAll (l : Ledger) (acts : List Act) : Ledger :=
  acts.foldl act l

end Ledger

namespace Tables

/-- One act. -/
def act (t : Tables) : Act → Tables
  | .answer classify sent statuses => (t.answer classify sent statuses).1
  | .miss sent f => t.unanswered sent f
  | .advance attempt => t.advance attempt

/-- Acts one after another. -/
def actAll (t : Tables) (acts : List Act) : Tables :=
  acts.foldl act t

/-! ## Tables and a ledger that hold the same -/

/-- **Tables that hold an entry.** -/
structure Holds (t : Tables) (e : Entry) : Prop where
  /-- Its identity is outstanding when it is. -/
  outstanding : e.event.id ∈ t.outstanding ↔ e.isOutstanding = true
  /-- Its final outcome is the one that is held. -/
  resolved : t.resolved.lookup e.event.id = e.final?
  /-- So is the outcome of its last answer. -/
  pending : t.pending.lookup e.event.id = e.pending?

/-- **Tables that hold what a ledger holds**, and nothing else. -/
structure Agrees (t : Tables) (l : Ledger) : Prop where
  /-- They are of the same batch. -/
  batch_eq : t.batch = l.batch
  /-- They are at the same attempt. -/
  attempt_eq : t.attempt = l.attempt
  /-- The tables hold all entries. -/
  held : ∀ e ∈ l.entries, t.Holds e
  /-- They hold nothing under other identities. -/
  absent : ∀ id ∉ l.batch.map (·.id),
    id ∉ t.outstanding ∧ t.resolved.lookup id = none ∧ t.pending.lookup id = none

variable {t : Tables} {l : Ledger}

/-- The tables of a batch hold what its fresh ledger holds. -/
theorem agrees_fresh (sink : String) (batch : List Event) :
    (fresh batch).Agrees (.fresh sink batch) where
  batch_eq := (Ledger.batch_fresh sink batch).symm
  attempt_eq := rfl
  held e he := by
    obtain ⟨x, hx, rfl⟩ := List.mem_map.mp he
    refine ⟨⟨fun _ => rfl, fun _ => ?_⟩, Finmap.lookup_empty _, Finmap.lookup_empty _⟩
    exact List.mem_toFinset.mpr (List.mem_map_of_mem hx)
  absent id hid := by
    rw [Ledger.batch_fresh] at hid
    exact ⟨fun h => hid (List.mem_toFinset.mp h), Finmap.lookup_empty _, Finmap.lookup_empty _⟩

/-- An identity of the batch is that of an entry. -/
theorem exists_entry {id : EventId} (h : id ∈ l.batch.map (·.id)) :
    ∃ e ∈ l.entries, e.event.id = id := by
  obtain ⟨x, hx, rfl⟩ := List.mem_map.mp h
  obtain ⟨e, he, rfl⟩ := List.mem_map.mp hx
  exact ⟨e, he, rfl⟩

/-- **Tables hold of an identity what an entry says, or nothing.** -/
theorem Agrees.held_or_absent (h : t.Agrees l) (id : EventId) :
    (∃ e ∈ l.entries, e.event.id = id ∧ t.Holds e) ∨
      (id ∉ t.outstanding ∧ t.resolved.lookup id = none ∧ t.pending.lookup id = none) := by
  by_cases hid : id ∈ l.batch.map (·.id)
  · obtain ⟨e, he, rfl⟩ := exists_entry hid
    exact .inl ⟨e, he, rfl, h.held e he⟩
  · exact .inr (h.absent id hid)

/-- An identity is outstanding in the tables when it is in the ledger. -/
theorem Agrees.mem_outstanding (h : t.Agrees l) {id : EventId} :
    id ∈ t.outstanding ↔ l.isOutstanding id = true := by
  unfold Ledger.isOutstanding
  rw [List.any_eq_true]
  constructor
  · intro hid
    obtain ⟨e, he, rfl, hheld⟩ | ⟨hno, -⟩ := h.held_or_absent id
    · exact ⟨e, he, by simp [hheld.outstanding.mp hid]⟩
    · exact absurd hid hno
  · rintro ⟨e, he, ho⟩
    rw [Bool.and_eq_true, decide_eq_true_iff] at ho
    obtain ⟨rfl, ho⟩ := ho
    exact (h.held e he).outstanding.mpr ho

/-- An outstanding identity has no final outcome. -/
theorem Agrees.resolved_of_outstanding (h : t.Agrees l) {id : EventId}
    (hid : id ∈ t.outstanding) : t.resolved.lookup id = none := by
  obtain ⟨e, -, rfl, hheld⟩ | ⟨hno, -⟩ := h.held_or_absent id
  · have ho := hheld.outstanding.mp hid
    rw [Entry.isOutstanding_eq] at ho
    rw [hheld.resolved, Option.isNone_iff_eq_none.mp ho]
  · exact absurd hid hno

/-! ### One event -/

/-- **A new standing for an outstanding event**, in the ledger and in the tables: they
have to hold it under its identity, and what they held under the others. -/
theorem Agrees.update (h : t.Agrees l) {id : EventId} (hid : id ∈ t.outstanding)
    {s : Standing} {t' : Tables} (hbatch : t'.batch = t.batch) (hattempt : t'.attempt = t.attempt)
    (hself : ∀ x : Event, x.id = id → t'.Holds ⟨x, s⟩)
    (hother : ∀ id', id' ≠ id → (id' ∈ t'.outstanding ↔ id' ∈ t.outstanding) ∧
      t'.resolved.lookup id' = t.resolved.lookup id' ∧
      t'.pending.lookup id' = t.pending.lookup id') :
    t'.Agrees (l.update id s) := by
  have hids : (l.update id s).batch = l.batch := by
    rw [Ledger.update_eq]
    show (l.entries.map _).map _ = l.entries.map _
    rw [List.map_map]
    exact List.map_congr_left fun e _ => Entry.updated_event id s e
  refine ⟨hbatch.trans (h.batch_eq.trans hids.symm), hattempt.trans h.attempt_eq, ?_, ?_⟩
  · intro e' he'
    rw [Ledger.update_eq] at he'
    obtain ⟨e, he, rfl⟩ := List.mem_map.mp he'
    have hheld := h.held e he
    by_cases hne : e.event.id = id
    · subst hne
      rw [Entry.updated_self s (hheld.outstanding.mp hid)]
      exact hself e.event rfl
    · rw [Entry.updated_of_ne s hne]
      obtain ⟨ho, hr, hp⟩ := hother _ hne
      exact ⟨ho.trans hheld.outstanding, hr.trans hheld.resolved, hp.trans hheld.pending⟩
  · intro id' hid'
    rw [hids] at hid'
    obtain ⟨ho, hr, hp⟩ := h.absent id' hid'
    obtain ⟨ho', hr', hp'⟩ := hother id' fun heq => ho (heq ▸ hid)
    exact ⟨fun hmem => ho (ho'.mp hmem), hr'.trans hr, hp'.trans hp⟩

/-- **An event is settled** in both. -/
theorem Agrees.resolve (h : t.Agrees l) {id : EventId} (hid : id ∈ t.outstanding)
    (o : Outcome) : (t.resolve id o).Agrees (l.update id (.settled o)) := by
  refine h.update hid rfl rfl ?_ ?_
  · rintro x rfl
    refine ⟨⟨fun hmem => ?_, fun ho => nomatch ho⟩, Finmap.lookup_insert _,
      Finmap.lookup_erase _ _⟩
    exact absurd hmem (Finset.notMem_erase _ _)
  · intro id' hne
    refine ⟨?_, Finmap.lookup_insert_of_ne _ hne, Finmap.lookup_erase_ne hne⟩
    exact ⟨Finset.mem_of_mem_erase, Finset.mem_erase_of_ne_of_mem hne⟩

/-- **An event may be sent again** in both. -/
theorem Agrees.suspend (h : t.Agrees l) {id : EventId} (hid : id ∈ t.outstanding)
    (o : Outcome) : (t.suspend id o).Agrees (l.update id (.outstanding (some o))) := by
  refine h.update hid rfl rfl ?_ ?_
  · rintro x rfl
    exact ⟨⟨fun _ => rfl, fun _ => hid⟩, h.resolved_of_outstanding hid, Finmap.lookup_insert _⟩
  · intro id' hne
    exact ⟨Iff.rfl, rfl, Finmap.lookup_insert_of_ne _ hne⟩

/-! ### One answer -/

/-- **An answer that is taken in by both alike.** -/
structure Intake.Agrees (i : Intake) (j : Delivery.Intake) : Prop where
  /-- The tables hold what the ledger holds. -/
  tables : i.tables.Agrees j.ledger
  /-- Statuses were about the same events. -/
  answered : ∀ id, id ∈ i.answered ↔ id ∈ j.answered
  /-- The answer did the same so far. -/
  tally_eq : i.tally = j.tally

variable {i : Intake} {j : Delivery.Intake}

theorem Intake.Agrees.insert (h : i.Agrees j) (id : EventId) :
    ∀ id', id' ∈ Insert.insert id i.answered ↔ id' ∈ id :: j.answered := by
  intro id'
  rw [Finset.mem_insert, List.mem_cons, h.answered]

/-- **A status is taken in by both alike.** -/
theorem Intake.Agrees.take (h : i.Agrees j) (classify : ItemStatus → ItemClass)
    (about : Option EventId) (s : ItemStatus) :
    (i.take classify about s).Agrees (j.take classify about s) := by
  have ignored : i.ignore.Agrees
      { j with tally := { j.tally with ignored := j.tally.ignored + 1 } } :=
    ⟨h.tables, h.answered,
      congrArg (fun n : Tally => { n with ignored := n.ignored + 1 }) h.tally_eq⟩
  cases about with
  | none => exact ignored
  | some id =>
    unfold Intake.take Delivery.Intake.take
    dsimp only
    -- a status counts for an event that is outstanding and has had none of this answer
    by_cases ho : id ∈ i.tables.outstanding
    · have hl := h.tables.mem_outstanding.mp ho
      rw [if_neg (not_not_intro ho)]
      by_cases ha : id ∈ i.answered
      · have ha' := (h.answered id).mp ha
        rw [if_pos ha, if_pos (by simp [ha'])]
        exact ignored
      · have ha' := mt (h.answered id).mpr ha
        rw [if_neg ha, if_neg (by simp [hl, ha']), h.tables.attempt_eq]
        cases classify s with
        | success =>
          exact ⟨h.tables.resolve ho _, h.insert id,
            congrArg (fun n : Tally => { n with succeeded := n.succeeded + 1 }) h.tally_eq⟩
        | fatal =>
          exact ⟨h.tables.resolve ho _, h.insert id,
            congrArg (fun n : Tally => { n with dropped := n.dropped + 1 }) h.tally_eq⟩
        | retryable =>
          exact ⟨h.tables.suspend ho _, h.insert id,
            congrArg (fun n : Tally => { n with retryable := n.retryable + 1 }) h.tally_eq⟩
    · have hl := Bool.eq_false_iff.mpr (mt h.tables.mem_outstanding.mpr ho)
      rw [if_pos ho, if_pos (by simp [hl])]
      exact ignored

/-- **All statuses are.** -/
theorem Intake.Agrees.takeAll (classify : ItemStatus → ItemClass) (sent : List Event)
    (statuses : List ItemStatus) : ∀ (position : Nat) {i : Intake} {j : Delivery.Intake},
    i.Agrees j → (Intake.takeAll classify sent position i statuses).Agrees
      (Delivery.Intake.takeAll classify sent position j statuses) := by
  induction statuses with
  | nil => exact fun _ _ _ h => h
  | cons s rest ih => exact fun position _ _ h => ih (position + 1) (h.take classify _ s)

/-- **An event that no status was about is missed by both alike.** -/
theorem Intake.Agrees.miss (h : i.Agrees j) (e : Event) : (i.miss e).Agrees (j.miss e) := by
  unfold Intake.miss Delivery.Intake.miss
  by_cases hc : e.id ∈ i.tables.outstanding ∧ e.id ∉ i.answered
  · have hl := h.tables.mem_outstanding.mp hc.1
    have ha : e.id ∉ j.answered := mt (h.answered e.id).mpr hc.2
    rw [if_pos hc, if_pos (by simp [hl, ha]), h.tables.attempt_eq]
    exact ⟨h.tables.suspend hc.1 _, h.answered,
      congrArg (fun n : Tally => { n with retryable := n.retryable + 1 }) h.tally_eq⟩
  · rw [h.answered, h.tables.mem_outstanding] at hc
    rw [if_neg (by rw [h.answered, h.tables.mem_outstanding]; exact hc),
      if_neg (by simpa using hc)]
    exact h

/-- **An answer does the same to both.** -/
theorem Agrees.answer (h : t.Agrees l) (classify : ItemStatus → ItemClass) (sent : List Event)
    (statuses : List ItemStatus) :
    (t.answer classify sent statuses).1.Agrees (l.answer classify sent statuses).1 ∧
      (t.answer classify sent statuses).2 = (l.answer classify sent statuses).2 := by
  have missed : ∀ (sent : List Event) {i : Intake} {j : Delivery.Intake}, i.Agrees j →
      (sent.foldl Intake.miss i).Agrees (sent.foldl Delivery.Intake.miss j) := by
    intro sent
    induction sent with
    | nil => exact fun h => h
    | cons e sent ih => exact fun h => ih (h.miss e)
  have hstart : Intake.Agrees ⟨t, ∅, {}⟩ ⟨l, [], {}⟩ := ⟨h, by simp, rfl⟩
  have hend := missed sent (Intake.Agrees.takeAll classify sent statuses 0 hstart)
  exact ⟨hend.tables, hend.tally_eq⟩

/-- **A missing answer does the same to both.** -/
theorem Agrees.unanswered (sent : List Event) (f : Failure) :
    ∀ {t : Tables} {l : Ledger}, t.Agrees l → (t.unanswered sent f).Agrees (l.unanswered sent f) := by
  unfold Tables.unanswered Ledger.unanswered
  induction sent with
  | nil => exact fun h => h
  | cons e sent ih =>
    intro t l h
    rw [List.foldl_cons, List.foldl_cons]
    refine ih ?_
    by_cases ho : e.id ∈ t.outstanding
    · rw [if_pos ho, if_pos (h.mem_outstanding.mp ho), h.attempt_eq]
      exact h.suspend ho _
    · rw [if_neg ho, if_neg (mt h.mem_outstanding.mpr ho)]
      exact h

/-- Another attempt does not change what they hold. -/
theorem Agrees.advance (h : t.Agrees l) (attempt : Nat) :
    (t.advance attempt).Agrees (l.advance attempt) where
  batch_eq := h.batch_eq
  attempt_eq := rfl
  held e he := ⟨(h.held e he).outstanding, (h.held e he).resolved, (h.held e he).pending⟩
  absent := h.absent

/-- **Acts do the same to both**, whatever they are. -/
theorem Agrees.actAll (acts : List Act) : ∀ {t : Tables} {l : Ledger}, t.Agrees l →
    (t.actAll acts).Agrees (l.actAll acts) := by
  induction acts with
  | nil => exact fun h => h
  | cons a acts ih =>
    intro t l h
    refine ih ?_
    cases a with
    | answer classify sent statuses => exact (h.answer classify sent statuses).1
    | miss sent f => exact Agrees.unanswered sent f h
    | advance attempt => exact h.advance attempt

end Tables

/-! ## What acts keep -/

/-- **What an act may do to an entry**: it keeps its event, it leaves a settled one
alone, and it files what it puts there. -/
structure Entry.Kept (f : Entry → Entry) : Prop where
  /-- The event stays the same. -/
  event_eq : ∀ e, (f e).event = e.event
  /-- A settled entry stays as it is. -/
  settled : ∀ e, e.isOutstanding = false → f e = e
  /-- What is filed where it belongs stays so. -/
  filed : ∀ e : Entry, e.Filed → (f e).Filed

theorem Entry.kept_id : Kept id where
  event_eq _ := rfl
  settled _ _ := rfl
  filed _ h := h

/-- What keeps entries one after another keeps them. -/
theorem Entry.Kept.comp {f g : Entry → Entry} (hg : Kept g) (hf : Kept f) : Kept (g ∘ f) where
  event_eq e := (hg.event_eq (f e)).trans (hf.event_eq e)
  settled e he := by
    show g (f e) = e
    rw [hf.settled e he, hg.settled e he]
  filed e he := hg.filed _ (hf.filed e he)

namespace Ledger

/-- **An act is done entry by entry.** -/
theorem act_entries (l : Ledger) (a : Act) :
    ∃ f, Entry.Kept f ∧ (l.act a).entries = l.entries.map f := by
  cases a with
  | answer classify sent statuses =>
    refine ⟨_, ⟨Entry.answered_event classify l.attempt sent statuses, ?_, ?_⟩,
      congrArg Ledger.entries (answer_eq l classify sent statuses)⟩
    · exact fun _ => Entry.answered_of_settled classify sent statuses
    · exact fun _ he => he.answered classify sent statuses
  | miss sent f =>
    refine ⟨_, ⟨Entry.unanswered_event l.attempt sent f.message, ?_, ?_⟩,
      congrArg Ledger.entries (unanswered_eq l sent f)⟩
    · exact fun _ => Entry.unanswered_of_settled sent f.message
    · exact fun _ he => he.unanswered sent f.message
  | advance attempt => exact ⟨id, Entry.kept_id, (List.map_id _).symm⟩

/-- **So are any number of them.** -/
theorem actAll_entries (acts : List Act) : ∀ l : Ledger,
    ∃ f, Entry.Kept f ∧ (l.actAll acts).entries = l.entries.map f := by
  induction acts with
  | nil => exact fun l => ⟨id, Entry.kept_id, (List.map_id _).symm⟩
  | cons a acts ih =>
    intro l
    obtain ⟨f, hf, hl⟩ := l.act_entries a
    obtain ⟨g, hg, hl'⟩ := ih (l.act a)
    refine ⟨g ∘ f, hg.comp hf, ?_⟩
    show ((l.act a).actAll acts).entries = _
    rw [hl', hl, List.map_map]

/-- Acts do not change the batch. -/
theorem batch_actAll (l : Ledger) (acts : List Act) : (l.actAll acts).batch = l.batch := by
  obtain ⟨f, hf, hl⟩ := l.actAll_entries acts
  show (l.actAll acts).entries.map _ = _
  rw [hl, List.map_map]
  exact List.map_congr_left fun e _ => hf.event_eq e

/-- **After any acts on a fresh ledger its entries are filed where they belong.** -/
theorem filed_actAll (sink : String) (batch : List Event) (acts : List Act) :
    ∀ e ∈ ((fresh sink batch).actAll acts).entries, e.Filed := by
  obtain ⟨f, hf, hl⟩ := (fresh sink batch).actAll_entries acts
  rw [hl]
  intro e he
  obtain ⟨x, hx, rfl⟩ := List.mem_map.mp he
  obtain ⟨event, -, rfl⟩ := List.mem_map.mp hx
  exact hf.filed _ (Entry.filed_fresh event)

end Ledger

/-! ## Tables that are as they should be -/

namespace Tables

variable {t t' : Tables} {l l' : Ledger}

/-- **Tables of a batch that are in step.** -/
structure Sound (batch : List Event) (t : Tables) : Prop where
  /-- What is outstanding is not resolved. -/
  disjoint : Disjoint t.outstanding t.resolved.keys
  /-- Every event is outstanding or resolved, and nothing else is. -/
  covered : t.outstanding ∪ t.resolved.keys = (batch.map (·.id)).toFinset
  /-- What is pending is outstanding. -/
  pending_subset : t.pending.keys ⊆ t.outstanding
  /-- What is resolved is final, and stored under its own identity. -/
  resolved_final : ∀ id o, t.resolved.lookup id = some o → o.id = id ∧ o.isFinal = true
  /-- What is pending may be sent again, and is stored under its own identity. -/
  pending_retryable : ∀ id o, t.pending.lookup id = some o →
    o.id = id ∧ o.success = false ∧ o.retryable = true
  /-- There is one outcome at most of each event, in the order of the batch. -/
  diagnostics_order : (t.diagnostics.map (·.id)).Sublist (batch.map (·.id))
  /-- Of a resolved event it is the final one. -/
  diagnostics_final : ∀ id o, t.resolved.lookup id = some o → o ∈ t.diagnostics

/-- Tables that hold an outcome hold it of an entry. -/
theorem Agrees.exists_final (h : t.Agrees l) {id : EventId} {o : Outcome}
    (ho : t.resolved.lookup id = some o) :
    ∃ e ∈ l.entries, e.event.id = id ∧ e.final? = some o := by
  obtain ⟨e, he, rfl, hheld⟩ | ⟨-, hno, -⟩ := h.held_or_absent id
  · exact ⟨e, he, rfl, hheld.resolved.symm.trans ho⟩
  · cases hno.symm.trans ho

/-- So they do with the outcome of a last answer. -/
theorem Agrees.exists_pending (h : t.Agrees l) {id : EventId} {o : Outcome}
    (ho : t.pending.lookup id = some o) :
    ∃ e ∈ l.entries, e.event.id = id ∧ e.pending? = some o := by
  obtain ⟨e, he, rfl, hheld⟩ | ⟨-, -, hno⟩ := h.held_or_absent id
  · exact ⟨e, he, rfl, hheld.pending.symm.trans ho⟩
  · cases hno.symm.trans ho

/-- **Taking outcomes out of two tables** finds what they hold of each event, when
no identity is repeated. -/
theorem drain_eq (events : List Event) : ∀ (resolved pending : OutcomeTable),
    (events.map (·.id)).Nodup →
    drain resolved pending events
      = events.filterMap fun e => (resolved.lookup e.id).or (pending.lookup e.id) := by
  induction events with
  | nil => exact fun _ _ _ => rfl
  | cons e rest ih =>
    intro resolved pending hn
    obtain ⟨hout, hn⟩ := List.nodup_cons.mp hn
    -- what is taken out is not missed by the events after this one
    have hne : ∀ x ∈ rest, x.id ≠ e.id := fun x hx heq =>
      hout (List.mem_map.mpr ⟨x, hx, heq⟩)
    unfold drain
    cases hr : resolved.lookup e.id with
    | some o =>
      rw [List.filterMap_cons_some (by rw [hr]; rfl)]
      dsimp only
      rw [ih _ _ hn]
      refine congrArg (o :: ·) (List.filterMap_congr fun x hx => ?_)
      rw [Finmap.lookup_erase_ne (hne x hx)]
    | none =>
      dsimp only
      cases hp : pending.lookup e.id with
      | some o =>
        rw [List.filterMap_cons_some (by rw [hr, hp]; rfl)]
        dsimp only
        rw [ih _ _ hn]
        refine congrArg (o :: ·) (List.filterMap_congr fun x hx => ?_)
        rw [Finmap.lookup_erase_ne (hne x hx)]
      | none =>
        rw [List.filterMap_cons_none (by rw [hr, hp]; rfl)]
        exact ih _ _ hn

/-- **Tables and the ledger they agree with know the same of the batch.** -/
theorem Agrees.diagnostics_eq (h : t.Agrees l) (hn : (l.batch.map (·.id)).Nodup) :
    t.diagnostics = l.diagnostics := by
  unfold Tables.diagnostics Ledger.diagnostics
  rw [h.batch_eq, drain_eq _ _ _ hn]
  show (l.entries.map _).filterMap _ = _
  rw [List.filterMap_map]
  refine List.filterMap_congr fun e he => ?_
  show (t.resolved.lookup e.event.id).or (t.pending.lookup e.event.id) = _
  rw [(h.held e he).resolved, (h.held e he).pending, Entry.known?_eq]

/-- **Tables that agree with a ledger are in step**, when its entries are filed where
they belong. -/
theorem Agrees.sound (h : t.Agrees l) (hfiled : ∀ e ∈ l.entries, e.Filed)
    (hn : (l.batch.map (·.id)).Nodup) : t.Sound l.batch where
  disjoint := by
    rw [Finset.disjoint_left]
    intro id hid hres
    rw [Finmap.mem_keys, ← Finmap.lookup_isSome, h.resolved_of_outstanding hid] at hres
    cases hres
  covered := by
    ext id
    rw [Finset.mem_union, Finmap.mem_keys, ← Finmap.lookup_isSome, List.mem_toFinset]
    constructor
    · intro hid
      by_contra hout
      obtain ⟨ho, hr, -⟩ := h.absent id hout
      rw [hr] at hid
      exact hid.elim ho Bool.noConfusion
    · intro hid
      obtain ⟨e, he, rfl⟩ := exists_entry hid
      rw [(h.held e he).outstanding, (h.held e he).resolved, Entry.isOutstanding_eq]
      cases e.final? <;> simp
  pending_subset := by
    intro id hid
    obtain ⟨o, ho⟩ := Finmap.mem_iff.mp (Finmap.mem_keys.mp hid)
    obtain ⟨e, he, rfl, hp⟩ := h.exists_pending ho
    exact (h.held e he).outstanding.mpr (Entry.isOutstanding_of_pending? hp)
  resolved_final id o ho := by
    obtain ⟨e, he, rfl, hf⟩ := h.exists_final ho
    exact ⟨(hfiled e he).about o (Entry.known?_of_final? hf), (hfiled e he).final o hf⟩
  pending_retryable id o ho := by
    obtain ⟨e, he, rfl, hp⟩ := h.exists_pending ho
    have hopen := Entry.isOutstanding_of_pending? hp
    rw [Entry.isOutstanding_eq, Option.isNone_iff_eq_none] at hopen
    have hknown : e.known? = some o := by
      rw [Entry.known?_eq, hopen, hp]
      rfl
    exact ⟨(hfiled e he).about o hknown, (hfiled e he).pending o hp⟩
  diagnostics_order := by
    rw [h.diagnostics_eq hn]
    unfold Ledger.diagnostics Ledger.batch
    rw [List.map_map]
    exact Ledger.map_filterMap_sublist _ _ _ _ fun e he o ho => (hfiled e he).about o ho
  diagnostics_final id o ho := by
    obtain ⟨e, he, -, hf⟩ := h.exists_final ho
    rw [h.diagnostics_eq hn]
    exact List.mem_filterMap.mpr ⟨e, he, Entry.known?_of_final? hf⟩

/-- **What is settled in the tables stays so**, and nothing becomes outstanding again,
when the ledger that they agree with is changed by acts. -/
theorem Agrees.follows (h : t.Agrees l) (acts : List Act) (h' : t'.Agrees (l.actAll acts)) :
    t'.outstanding ⊆ t.outstanding ∧
      ∀ id o, t.resolved.lookup id = some o → t'.resolved.lookup id = some o := by
  obtain ⟨f, hf, hl⟩ := l.actAll_entries acts
  -- tables hold of an entry what they held, once it is settled
  have hheld : ∀ e ∈ l.entries, t'.Holds (f e) := fun e he =>
    h'.held (f e) (hl ▸ List.mem_map_of_mem he)
  constructor
  · intro id hid
    obtain ⟨e', he', rfl, ho⟩ | ⟨hno, -⟩ := h'.held_or_absent id
    · rw [hl] at he'
      obtain ⟨e, he, rfl⟩ := List.mem_map.mp he'
      rw [hf.event_eq, (h.held e he).outstanding]
      by_contra hs
      rw [Bool.not_eq_true] at hs
      have hopen := ho.outstanding.mp hid
      rw [hf.settled e hs, hs] at hopen
      cases hopen
    · exact absurd hid hno
  · intro id o ho
    obtain ⟨e, he, rfl, hfinal⟩ := h.exists_final ho
    have hs : e.isOutstanding = false := by
      rw [Entry.isOutstanding_eq, hfinal]
      rfl
    have hheld := hheld e he
    rw [hf.settled e hs] at hheld
    exact hheld.resolved.trans hfinal

end Tables

/-- **The tables of a batch are in step with each other and with its ledger**, after
any acts with any arguments: every answer to any request, every missing answer,
and attempts in any order. Whatever is done later, nothing becomes outstanding
again, and what is resolved keeps its outcome. -/
theorem tables_in_step (sink : String) (batch : List Event) (hn : (batch.map (·.id)).Nodup) :
    ∃ l, Ledger.start sink batch = .ok l ∧ ∀ earlier later : List Act,
      let t := (Tables.fresh batch).actAll earlier
      let t' := t.actAll later
      t.Agrees (l.actAll earlier) ∧ t.diagnostics = (l.actAll earlier).diagnostics ∧
        t.Sound batch ∧ t'.outstanding ⊆ t.outstanding ∧
        ∀ id o, t.resolved.lookup id = some o → t'.resolved.lookup id = some o := by
  refine ⟨_, Ledger.start_of_nodup sink hn, fun earlier later => ?_⟩
  intro t t'
  have h : t.Agrees ((Ledger.fresh sink batch).actAll earlier) :=
    (Tables.agrees_fresh sink batch).actAll earlier
  have hbatch : ((Ledger.fresh sink batch).actAll earlier).batch = batch := by
    rw [Ledger.batch_actAll, Ledger.batch_fresh]
  have hn' : (((Ledger.fresh sink batch).actAll earlier).batch.map (·.id)).Nodup := by
    rw [hbatch]
    exact hn
  have hsound := h.sound (Ledger.filed_actAll sink batch earlier) hn'
  rw [hbatch] at hsound
  exact ⟨h, h.diagnostics_eq hn', hsound, h.follows later (h.actAll later)⟩

/-- An event that was throttled is delivered when it is answered again; a refusal
that comes late, for an attempt of another number, changes nothing. -/
theorem tables_in_step_late :
    let a : Event := ⟨⟨"a"⟩, [1], none⟩
    let b : Event := ⟨⟨"b"⟩, [2], none⟩
    let earlier : List Act :=
      [.answer ItemStatus.classify [a, b] [⟨none, 429, none⟩], .advance 7,
        .answer ItemStatus.classify [b] [⟨some ⟨"a"⟩, 201, none⟩]]
    let later : List Act :=
      [.advance 0, .answer ItemStatus.classify [a] [⟨none, 400, some "late"⟩]]
    ([a, b].map (·.id)).Nodup ∧
      ((Tables.fresh [a, b]).actAll earlier).diagnostics =
        [⟨⟨"a"⟩, true, 201, false, 7, none⟩,
          ⟨⟨"b"⟩, false, 0, true, 7, some "no status in response"⟩] ∧
      ((Tables.fresh [a, b]).actAll earlier).Sound [a, b] ∧
      (((Tables.fresh [a, b]).actAll earlier).actAll later).resolved.lookup ⟨"a"⟩
        = some ⟨⟨"a"⟩, true, 201, false, 7, none⟩ := by
  intro a b earlier later
  have hn : ([a, b].map (·.id)).Nodup := by decide
  obtain ⟨l, -, hl⟩ := tables_in_step "s" [a, b] hn
  obtain ⟨-, -, hsound, -, hkept⟩ := hl earlier later
  have hfinal : ((Tables.fresh [a, b]).actAll earlier).resolved.lookup ⟨"a"⟩
      = some ⟨⟨"a"⟩, true, 201, false, 7, none⟩ := by
    decide +kernel
  exact ⟨hn, by decide +kernel, hsound, hkept _ _ hfinal⟩

end Courier.Delivery
