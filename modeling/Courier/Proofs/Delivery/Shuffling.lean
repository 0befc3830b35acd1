import Mathlib.Data.List.Forall2
import Courier.Proofs.Delivery.Schedule
import Courier.Proofs.Delivery.Signals
import Courier.Proofs.Delivery.Tally
/-!
# Answers in another order

An answer whose statuses all echo identities, no two the same, says what it says
in whatever order they stand (`Echoed`): a position is looked at only where no
identity is echoed, and that the first status about an event is the one that
counts is no matter when it is the only one. So taking in such an answer and
taking in a shuffled one give the same ledger and the same numbers
(`Ledger.answer_shuffled`).

From there on nothing tells the two apart. A delivery heads the same way after
the one answer as after the other (`Machine.step_shuffled`), and so a delivery
whose answers are shuffled, each of them and each time anew, makes the same
requests at the same times, waits as long, leaves the same notes and ends the
same way (`deliver_shuffled`).
-/

namespace Courier.Delivery

/-! ## Statuses that echo identities -/

/-- **Statuses that all echo identities**, no two the same. Some may be of no event of the
request, and some events may have none. -/
structure Echoed (statuses : List ItemStatus) : Prop where
  /-- Each echoes an identity. -/
  all : ∀ s ∈ statuses, s.id ≠ none
  /-- No two echo the same one. -/
  nodup : (statuses.map (·.id)).Nodup

/-- **An answer and the same answer shuffled.** A failure stays what it is. -/
inductive Answer.Shuffled : Answer → Answer → Prop
  /-- No answer has come. -/
  | failed (f : Failure) : Shuffled (.error f) (.error f)
  /-- The statuses come in another order. -/
  | statuses {xs ys : List ItemStatus} (he : Echoed xs) (hp : xs.Perm ys) :
    Shuffled (.ok xs) (.ok ys)

variable {xs ys : List ItemStatus}

theorem Echoed.perm (he : Echoed xs) (hp : xs.Perm ys) : Echoed ys where
  all s hs := he.all s (hp.mem_iff.mpr hs)
  nodup := (hp.map _).nodup_iff.mp he.nodup

/-- A status that echoes an identity is about it, wherever it stands. -/
theorem aboutEvent_of_echoed {s : ItemStatus} (h : s.id ≠ none) (sent : List Event)
    (position : Nat) : aboutEvent sent position s = s.id := by
  unfold aboutEvent
  cases hid : s.id with
  | none => exact absurd hid h
  | some id => rfl

/-- **The status that decides an event** is the one that echoes it. -/
theorem deciding_eq_some_iff (sent : List Event) (id : EventId) (s : ItemStatus) :
    ∀ {xs : List ItemStatus} (position : Nat), Echoed xs →
      (deciding sent id position xs = some s ↔ s ∈ xs ∧ s.id = some id) := by
  intro xs
  induction xs with
  | nil => exact fun _ _ => ⟨fun h => (nomatch h), fun h => (nomatch h.1)⟩
  | cons x xs ih =>
    intro position he
    obtain ⟨hfresh, hnodup⟩ := List.nodup_cons.mp he.nodup
    have hrest : Echoed xs := ⟨fun s hs => he.all s (List.mem_cons_of_mem x hs), hnodup⟩
    unfold deciding
    rw [aboutEvent_of_echoed (he.all x List.mem_cons_self)]
    by_cases hx : x.id = some id
    · rw [if_pos hx, Option.some.injEq, List.mem_cons]
      constructor
      · rintro rfl
        exact ⟨.inl rfl, hx⟩
      · rintro ⟨rfl | hs, hid⟩
        · rfl
        · -- another status would echo the same identity
          exact absurd (List.mem_map.mpr ⟨s, hs, hid.trans hx.symm⟩) hfresh
    · rw [if_neg hx, ih _ hrest, List.mem_cons]
      constructor
      · rintro ⟨hs, hid⟩
        exact ⟨.inr hs, hid⟩
      · rintro ⟨rfl | hs, hid⟩
        · exact absurd hid hx
        · exact ⟨hs, hid⟩

/-- **Shuffling statuses does not change which of them decides an event.** -/
theorem deciding_shuffled (he : Echoed xs) (hp : xs.Perm ys) (sent : List Event) (id : EventId)
    (position : Nat) : deciding sent id position ys = deciding sent id position xs := by
  ext s
  rw [deciding_eq_some_iff sent id s position (he.perm hp),
    deciding_eq_some_iff sent id s position he, hp.mem_iff]

/-! ## One answer -/

variable {classify : ItemStatus → ItemClass}

/-- How many statuses a tally is of. -/
def Tally.total (t : Tally) : Nat :=
  t.succeeded + t.dropped + t.retryable + t.ignored

/-- Two tallies with the same numbers are the same. -/
theorem Tally.eq_of_numbers {t t' : Tally} (hs : t'.succeeded = t.succeeded)
    (hd : t'.dropped = t.dropped) (hr : t'.retryable = t.retryable)
    (hi : t'.ignored = t.ignored) : t' = t := by
  obtain ⟨succeeded, dropped, retryable, ignored⟩ := t
  obtain ⟨succeeded', dropped', retryable', ignored'⟩ := t'
  obtain ⟨rfl, rfl, rfl, rfl⟩ : succeeded' = succeeded ∧ dropped' = dropped ∧
    retryable' = retryable ∧ ignored' = ignored := ⟨hs, hd, hr, hi⟩
  rfl

/-- Every status is counted once. -/
theorem Intake.total_take (i : Intake) (about : Option EventId) (s : ItemStatus) :
    (i.take classify about s).tally.total = i.tally.total + 1 := by
  unfold Intake.take Tally.total
  cases about with
  | none => rfl
  | some id =>
    dsimp only
    split
    · rfl
    · cases classify s with
      | success => dsimp only; omega
      | fatal => dsimp only; omega
      | retryable => dsimp only; omega

/-- **All statuses of an answer are counted**, those that are ignored among them. -/
theorem Intake.total_takeAll (sent : List Event) (statuses : List ItemStatus) :
    ∀ (position : Nat) (i : Intake),
      (Intake.takeAll classify sent position i statuses).tally.total
        = i.tally.total + statuses.length := by
  induction statuses with
  | nil => exact fun _ _ => rfl
  | cons s rest ih =>
    intro position i
    rw [Intake.takeAll, ih, Intake.total_take, List.length_cons]
    omega

/-- An event that is missed is not a status that is ignored. -/
theorem Intake.ignored_foldl_miss (sent : List Event) : ∀ i : Intake,
    (sent.foldl Intake.miss i).tally.ignored = i.tally.ignored := by
  induction sent with
  | nil => exact fun _ => rfl
  | cons e sent ih =>
    intro i
    rw [List.foldl_cons, ih]
    unfold Intake.miss
    split <;> rfl

namespace Ledger

variable {l : Ledger}

/-- **What shuffled statuses say of an event** is the same. -/
theorem classOf_shuffled (he : Echoed xs) (hp : xs.Perm ys) (request : List Event) :
    classOf classify request (.ok ys) = classOf classify request (.ok xs) := by
  funext e
  exact congrArg (Option.map classify) (deciding_shuffled he hp request e.id 0)

/-- As many of the statuses are ignored. -/
theorem ignored_shuffled (hn : (l.batch.map (·.id)).Nodup) (he : Echoed xs) (hp : xs.Perm ys) :
    (l.answer classify l.request ys).2.ignored = (l.answer classify l.request xs).2.ignored := by
  have hcount : ∀ c : ItemClass,
      (Intake.takeAll classify l.request 0 ⟨l, [], {}⟩ ys).tally.of c
        = (Intake.takeAll classify l.request 0 ⟨l, [], {}⟩ xs).tally.of c := fun c => by
    rw [tally_statuses hn ys c, tally_statuses hn xs c, classOf_shuffled he hp]
  have htotal : (Intake.takeAll classify l.request 0 ⟨l, [], {}⟩ ys).tally.total
      = (Intake.takeAll classify l.request 0 ⟨l, [], {}⟩ xs).tally.total := by
    rw [Intake.total_takeAll, Intake.total_takeAll, hp.length_eq]
  have hignored : ∀ statuses, (l.answer classify l.request statuses).2.ignored
      = (Intake.takeAll classify l.request 0 ⟨l, [], {}⟩ statuses).tally.ignored :=
    fun statuses => Intake.ignored_foldl_miss l.request _
  rw [hignored, hignored]
  have hs := hcount .success
  have hd := hcount .fatal
  have hr := hcount .retryable
  unfold Tally.of at hs hd hr
  unfold Tally.total at htotal
  dsimp only at hs hd hr
  omega

/-- **Taking in a shuffled answer** gives the same ledger and the same numbers. -/
theorem answer_shuffled (hn : (l.batch.map (·.id)).Nodup) (he : Echoed xs) (hp : xs.Perm ys) :
    l.answer classify l.request ys = l.answer classify l.request xs := by
  have hclass : classOf classify l.request (.ok ys) = classOf classify l.request (.ok xs) :=
    classOf_shuffled he hp l.request
  have hsettling : settling classify l.request (.ok ys) = settling classify l.request (.ok xs) := by
    unfold settling
    rw [hclass]
  have hopen : leavesOpen classify l.request (.ok ys) = leavesOpen classify l.request (.ok xs) := by
    funext e
    rw [leavesOpen_eq_isNone, leavesOpen_eq_isNone, hsettling]
  refine Prod.ext ?_ ?_
  · rw [answer_eq, answer_eq]
    refine congrArg (fun es => { l with entries := es }) (List.map_congr_left fun e _ => ?_)
    unfold Entry.answered
    rw [deciding_shuffled he hp]
  · obtain ⟨hs, hd, hr⟩ := tally_answer hn xs
    obtain ⟨hs', hd', hr'⟩ := tally_answer hn ys
    rw [hsettling] at hs' hd'
    rw [hopen] at hr'
    exact Tally.eq_of_numbers (hs'.trans hs.symm) (hd'.trans hd.symm) (hr'.trans hr.symm)
      (ignored_shuffled hn he hp)

end Ledger

/-! ## One signal -/

/-- **A signal and the same signal with its answer shuffled.** -/
inductive Signal.Shuffled : Signal → Signal → Prop
  /-- It may go on. -/
  | go : Shuffled .go .go
  /-- The answer to its request has come. -/
  | answered {a b : Answer} (h : a.Shuffled b) : Shuffled (.answered a) (.answered b)
  /-- It is called off. -/
  | cancel : Shuffled .cancel .cancel

namespace Machine

variable {m : Machine}

/-- **A delivery that takes answers as they are meant**: it has ended, or it is one of a
batch without a repeated identity, and asks for what is outstanding. -/
def Steady (m : Machine) : Prop :=
  (∃ r, m.phase = .ended r) ∨
    ∃ sink batch, m.Sound sink batch ∧ (batch.map (·.id)).Nodup

/-- A delivery that starts is one. -/
theorem start_steady (sink : String) (classify : ItemStatus → ItemClass)
    (strategy : Retry.Strategy) (batch : List Event) :
    (start sink classify strategy batch).Steady := by
  by_cases hne : batch = []
  · subst hne
    exact .inl ⟨_, rfl⟩
  · obtain hsound | ⟨f, hf⟩ := start_delivers sink classify strategy hne
    · by_cases hn : (batch.map (·.id)).Nodup
      · exact .inr ⟨sink, batch, hsound, hn⟩
      · -- a batch with a repeated identity has failed before any request
        obtain ⟨id, -, hf⟩ := Ledger.start_of_not_nodup sink hn
        refine .inl ⟨.error (.client sink s!"duplicate event id '{id.text}' in batch"), ?_⟩
        unfold start
        rw [if_neg (by simpa using hne), hf]
    · exact .inl ⟨_, hf⟩

/-- Every signal keeps it so. -/
theorem Steady.step (h : m.Steady) (s : Signal) : (m.step s).1.Steady := by
  obtain ⟨r, hr⟩ | ⟨sink, batch, hsound, hn⟩ := h
  · rw [step_of_ended hr]
    exact .inl ⟨r, hr⟩
  · exact .inr ⟨sink, batch, hsound.step s, hn⟩

/-- **A shuffled answer is taken as the answer is.** -/
theorem take_shuffled (hn : (m.ledger.batch.map (·.id)).Nodup) {a b : Answer}
    (h : a.Shuffled b) : m.take m.ledger.request b = m.take m.ledger.request a := by
  cases h with
  | failed f => rfl
  | statuses he hp =>
    dsimp only [take]
    rw [Ledger.answer_shuffled hn he hp]

/-- **A delivery goes on after a shuffled answer as it does after the answer.** -/
theorem step_shuffled (hm : m.Steady) {s s' : Signal} (h : s.Shuffled s') :
    m.step s' = m.step s := by
  cases h with
  | go => rfl
  | cancel => rfl
  | @answered a b h =>
    unfold step
    cases hp : m.phase with
    | ready => rfl
    | waiting delay next => rfl
    | ended r => rfl
    | inFlight request =>
      obtain ⟨r, hr⟩ | ⟨sink, batch, hsound, hn⟩ := hm
      · exact nomatch hp.symm.trans hr
      · rw [hsound.asked request hp]
        exact take_shuffled (hsound.batch_eq.symm ▸ hn) h

end Machine

/-! ## All of them -/

variable {σ τ : Type} {R : σ → τ → Prop}

/-- **Transports of which one shuffles the answers of the other**: as long as what they
keep to themselves goes together, they take the same time over a request, their
answers are the same but for an order, and what they keep goes together again. -/
structure Transport.Shuffles (t : Transport σ) (t' : Transport τ) (R : σ → τ → Prop) : Prop where
  /-- They take the same time. -/
  took : ∀ {s s'} (request : List Event), R s s' → t'.took s' request = t.took s request
  /-- They answer the same, but for an order. -/
  answer : ∀ {s s'} (request : List Event), R s s' →
    (t.exchange s request).2.Shuffled (t'.exchange s' request).2
  /-- And so they go on. -/
  next : ∀ {s s'} (request : List Event), R s s' →
    R (t.exchange s request).1 (t'.exchange s' request).1

namespace Transport.Shuffles

variable {t : Transport σ} {t' : Transport τ} (h : t.Shuffles t' R)
include h

/-- **One step on the clock.** -/
theorem step {time : Nat} {s : σ} {s' : τ} {m : Machine} (hm : m.Steady) (hs : R s s') :
    (t'.next ⟨time, s', m⟩).time = (t.next ⟨time, s, m⟩).time ∧
      (t'.next ⟨time, s', m⟩).machine = (t.next ⟨time, s, m⟩).machine ∧
      (t.next ⟨time, s, m⟩).machine.Steady ∧
      R (t.next ⟨time, s, m⟩).state (t'.next ⟨time, s', m⟩).state := by
  unfold Transport.next
  cases hp : m.phase with
  | ready => exact ⟨rfl, rfl, hm.step .go, hs⟩
  | waiting delay next => exact ⟨rfl, rfl, hm.step .go, hs⟩
  | ended r => exact ⟨rfl, rfl, hm, hs⟩
  | inFlight request =>
    have hstep := Machine.step_shuffled hm (.answered (h.answer request hs))
    exact ⟨congrArg (time + ·) (h.took request hs), congrArg Prod.fst hstep, hm.step _,
      h.next request hs⟩

/-- **Any number of steps.** -/
theorem after (n : Nat) {time : Nat} {s : σ} {s' : τ} {m : Machine} (hm : m.Steady)
    (hs : R s s') :
    (t'.after n ⟨time, s', m⟩).time = (t.after n ⟨time, s, m⟩).time ∧
      (t'.after n ⟨time, s', m⟩).machine = (t.after n ⟨time, s, m⟩).machine ∧
      (t.after n ⟨time, s, m⟩).machine.Steady ∧
      R (t.after n ⟨time, s, m⟩).state (t'.after n ⟨time, s', m⟩).state := by
  induction n with
  | zero => exact ⟨rfl, rfl, hm, hs⟩
  | succ n ih =>
    rw [after_succ, after_succ]
    obtain ⟨htime, hmachine, hsteady, hstate⟩ := ih
    generalize t.after n ⟨time, s, m⟩ = c at *
    generalize t'.after n ⟨time, s', m⟩ = c' at *
    obtain ⟨time₁, s₁, m₁⟩ := c
    obtain ⟨time₂, s₂, m₂⟩ := c'
    obtain ⟨rfl, rfl⟩ : time₂ = time₁ ∧ m₂ = m₁ := ⟨htime, hmachine⟩
    exact h.step hsteady hstate

/-- **Driving a delivery** makes the same requests and leaves the same notes. -/
theorem drive (phases : Nat) : ∀ {m : Machine} {s : σ} {s' : τ}, m.Steady → R s s' →
    (m.drive t'.exchange phases s').machine = (m.drive t.exchange phases s).machine ∧
      (m.drive t'.exchange phases s').requests = (m.drive t.exchange phases s).requests ∧
      (m.drive t'.exchange phases s').notes = (m.drive t.exchange phases s).notes := by
  induction phases with
  | zero => exact fun _ _ => ⟨rfl, rfl, rfl⟩
  | succ phases ih =>
    intro m s s' hm hs
    cases hp : m.phase with
    | ready =>
      simp only [Machine.drive, hp]
      obtain ⟨hmachine, hrequests, hnotes⟩ := ih (hm.step .go) hs
      exact ⟨hmachine, hrequests, congrArg (_ ++ ·) hnotes⟩
    | waiting delay next =>
      simp only [Machine.drive, hp]
      obtain ⟨hmachine, hrequests, hnotes⟩ := ih (hm.step .go) hs
      exact ⟨hmachine, hrequests, congrArg (_ ++ ·) hnotes⟩
    | ended r =>
      rw [Machine.drive_ended _ hp, Machine.drive_ended _ hp]
      exact ⟨rfl, rfl, rfl⟩
    | inFlight request =>
      simp only [Machine.drive, hp]
      rw [Machine.step_shuffled hm (.answered (h.answer request hs))]
      obtain ⟨hmachine, hrequests, hnotes⟩ := ih (hm.step _) (h.next request hs)
      exact ⟨hmachine, congrArg (request :: ·) hrequests, congrArg (_ ++ ·) hnotes⟩

end Transport.Shuffles

/-- **A delivery does not depend on the order of the statuses in its answers**, when all of
them echo identities and none echoes one twice. Shuffle them, each answer by itself and
differently every time: the delivery makes the same requests, leaves the same notes,
which are all that is counted, and ends with the same result; and at every step it is
the same time, and it does the same, the waits included. -/
theorem deliver_shuffled {t : Transport σ} {t' : Transport τ} (h : t.Shuffles t' R) {s : σ}
    {s' : τ} (hs : R s s') (sink : String) (classify : ItemStatus → ItemClass)
    (strategy : Retry.Strategy) (batch : List Event) (time : Nat) :
    let m := Machine.start sink classify strategy batch
    let course := Machine.deliver sink classify strategy t.exchange s batch
    let course' := Machine.deliver sink classify strategy t'.exchange s' batch
    course'.requests = course.requests ∧ course'.notes = course.notes ∧
      (∃ r, course.machine.result? = some r ∧ course'.machine.result? = some r) ∧
      course'.machine = course.machine ∧
      ∀ n, (t'.after n ⟨time, s', m⟩).time = (t.after n ⟨time, s, m⟩).time ∧
        (t'.after n ⟨time, s', m⟩).machine = (t.after n ⟨time, s, m⟩).machine := by
  intro m course course'
  have hm : m.Steady := Machine.start_steady sink classify strategy batch
  obtain ⟨hmachine, hrequests, hnotes⟩ := h.drive m.phasesLeft hm hs
  obtain ⟨r, hr⟩ : ∃ r, course.machine.result? = some r :=
    deliver_ends sink classify strategy t.exchange s
  have hr' : course'.machine.result? = some r := (congrArg Machine.result? hmachine).trans hr
  refine ⟨hrequests, hnotes, ⟨r, hr, hr'⟩, hmachine, fun n => ?_⟩
  obtain ⟨htime, hmachine, -, -⟩ := h.after n hm hs
  exact ⟨htime, hmachine⟩

/-- What answers with the answers of a list, one after another, each after so many
milliseconds. -/
def Transport.listed : Transport (List (Nat × Answer)) where
  exchange answers _ := (answers.tail, (answers.headD (0, .ok [])).2)
  took answers _ := (answers.headD (0, .ok [])).1

/-- Two lists of answers that differ in the order of statuses only. -/
theorem Transport.listed_shuffles :
    listed.Shuffles listed
      (List.Forall₂ fun a b : Nat × Answer => a.1 = b.1 ∧ a.2.Shuffled b.2) where
  took _ hs := by
    cases hs with
    | nil => rfl
    | cons h _ => exact h.1.symm
  answer _ hs := by
    cases hs with
    | nil => exact .statuses ⟨fun _ h => (nomatch h), List.nodup_nil⟩ .rfl
    | cons h _ => exact h.2
  next _ hs := by
    cases hs with
    | nil => exact .nil
    | cons _ h => exact h

/-- An event that is put off and one that is delivered, in either order and with one that was
never sent beside them: the first one is sent again, a hundred milliseconds after the
answer. -/
theorem deliver_shuffled_twice :
    let a : Event := ⟨⟨"a"⟩, [], none⟩
    let b : Event := ⟨⟨"b"⟩, [], none⟩
    let late : ItemStatus := ⟨some a.id, 503, some "busy"⟩
    let done : ItemStatus := ⟨some b.id, 201, none⟩
    let stray : ItemStatus := ⟨some ⟨"z"⟩, 200, none⟩
    let answers : List (Nat × Answer) :=
      [(30, .ok [late, done, stray]), (20, .ok [⟨some a.id, 200, none⟩, done])]
    let answers' : List (Nat × Answer) :=
      [(30, .ok [stray, late, done]), (20, .ok [done, ⟨some a.id, 200, none⟩])]
    let strategy : Retry.Strategy := .new (.linear 100) 3 []
    let m := Machine.start "s" ItemStatus.classify strategy [a, b]
    let course := Machine.deliver "s" ItemStatus.classify strategy Transport.listed.exchange
      answers [a, b]
    let course' := Machine.deliver "s" ItemStatus.classify strategy Transport.listed.exchange
      answers' [a, b]
    List.Forall₂ (fun a b : Nat × Answer => a.1 = b.1 ∧ a.2.Shuffled b.2) answers answers' ∧
      course'.requests = course.requests ∧ course.requests = [[a, b], [a]] ∧
      (Transport.listed.after 4 ⟨0, answers', m⟩).time = 130 := by
  intro a b late done stray answers answers' strategy m course course'
  have hs : List.Forall₂ (fun a b : Nat × Answer => a.1 = b.1 ∧ a.2.Shuffled b.2)
      answers answers' :=
    .cons ⟨rfl, .statuses ⟨by decide, by decide⟩ (by decide)⟩
      (.cons ⟨rfl, .statuses ⟨by decide, by decide⟩ (by decide)⟩ .nil)
  obtain ⟨hrequests, -, -, -, hafter⟩ := deliver_shuffled Transport.listed_shuffles hs "s"
    ItemStatus.classify strategy [a, b] 0
  refine ⟨hs, hrequests, by decide +kernel, (hafter 4).1.trans ?_⟩
  decide +kernel

end Courier.Delivery
