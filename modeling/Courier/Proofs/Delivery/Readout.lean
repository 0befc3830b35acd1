import Courier.Proofs.Delivery.Shuffling
/-!
# An answer read off its statuses

Taking an answer in is a loop over its statuses that looks at the ledger each
time, takes events off it, and keeps in mind which it has heard of; what is in
the way of what does not show in it. Here the same is said without a loop.
Every status is attributed to an event, or to none (`attributed`); of those
attributed to an event the first one decides it (`firstAbout`); and the ledger
and the numbers are read off that, event by event (`Ledger.readout`).

A delivery at any moment takes in any answer to its request as that says
(`Machine.answer_readout`). So the numbers of an answer balance: every event of
the request is counted once, what is left outstanding is what is counted as
left over, and every status that is not the first one about an event of the
request is ignored.
-/

namespace Courier.Delivery

/-! ## Whom a status is about -/

/-- **The statuses of an answer, each with the event that it is about**: the one it
echoes, or else the one at its position in the request, if there is one. -/
def attributed (request : List Event) (statuses : List ItemStatus) :
    List (Option EventId × ItemStatus) :=
  statuses.mapIdx fun position s => (s.id.or (request[position]?.map (·.id)), s)

/-- **The first status about an event.** -/
def firstAbout (request : List Event) (statuses : List ItemStatus) (id : EventId) :
    Option ItemStatus :=
  ((attributed request statuses).find? (·.1 = some id)).map (·.2)

theorem aboutEvent_eq (request : List Event) (position : Nat) (s : ItemStatus) :
    aboutEvent request position s = s.id.or (request[position]?.map (·.id)) := by
  unfold aboutEvent
  cases s.id <;> rfl

/-- **The status that decides an event is the first one about it.** -/
theorem deciding_eq_firstAbout (request : List Event) (statuses : List ItemStatus)
    (id : EventId) : deciding request id 0 statuses = firstAbout request statuses id := by
  -- the statuses from a position on are attributed by their positions in the whole answer
  have hfrom : ∀ (statuses : List ItemStatus) (position : Nat),
      deciding request id position statuses
        = ((statuses.mapIdx fun i s => (s.id.or (request[position + i]?.map (·.id)), s)).find?
            (·.1 = some id)).map (·.2) := by
    intro statuses
    induction statuses with
    | nil => exact fun _ => rfl
    | cons s rest ih =>
      intro position
      have hshift : (fun (i : Nat) (t : ItemStatus) =>
            (t.id.or (request[position + (i + 1)]?.map (·.id)), t))
          = fun i t => (t.id.or (request[position + 1 + i]?.map (·.id)), t) := by
        funext i t
        rw [Nat.add_assoc, Nat.add_comm 1 i]
      rw [deciding, aboutEvent_eq, ih (position + 1), List.mapIdx_cons, hshift]
      by_cases h : s.id.or (request[position]?.map (·.id)) = some id
      · rw [if_pos h, List.find?_cons_of_pos (by simpa using h)]
        rfl
      · rw [if_neg h, List.find?_cons_of_neg (by simpa using h)]
  have hstart := hfrom statuses 0
  simp only [Nat.zero_add] at hstart
  exact hstart

namespace Ledger

/-! ## The ledger and the numbers -/

variable (l : Ledger) (classify : ItemStatus → ItemClass) (statuses : List ItemStatus)

/-- **How an event of the request stands by an answer**: delivered or refused for good,
or open, with the code and the reason of the first status about it; open without an
answer when there is none. -/
def standingBy (e : Event) : Standing :=
  match firstAbout l.request statuses e.id with
  | none => .outstanding (some ⟨e.id, false, 0, true, l.attempt, some "no status in response"⟩)
  | some s =>
    match classify s with
    | .success => .settled ⟨e.id, true, s.status, false, l.attempt, s.error⟩
    | .fatal => .settled ⟨e.id, false, s.status, false, l.attempt, s.error⟩
    | .retryable => .outstanding (some ⟨e.id, false, s.status, true, l.attempt, s.error⟩)

/-- How many events of the request are of a class by an answer; of none are those that
no status is about. -/
def countBy (c : Option ItemClass) : Nat :=
  l.request.countP fun e => (firstAbout l.request statuses e.id).map classify = c

/-- How many events of the request a status is about. -/
def carriedBy : Nat :=
  l.request.countP fun e => (firstAbout l.request statuses e.id).isSome

/-- **An answer to the request of a ledger, read off its statuses.** What is settled stays as
it is. -/
def readout : Ledger × Tally :=
  ({ l with
      entries := l.entries.map fun e =>
        if e.isOutstanding then ⟨e.event, l.standingBy classify statuses e.event⟩ else e },
    { succeeded := l.countBy classify statuses (some .success)
      dropped := l.countBy classify statuses (some .fatal)
      retryable := l.countBy classify statuses (some .retryable) + l.countBy classify statuses none
      ignored := statuses.length - l.carriedBy statuses })

variable {l classify statuses}

/-- **Every event of a request is counted once**: it is of one class, or of none. -/
theorem countBy_add (l : Ledger) (classify : ItemStatus → ItemClass)
    (statuses : List ItemStatus) :
    l.countBy classify statuses (some .success) + l.countBy classify statuses (some .fatal)
        + l.countBy classify statuses (some .retryable) = l.carriedBy statuses ∧
      l.carriedBy statuses + l.countBy classify statuses none = l.request.length := by
  unfold countBy carriedBy
  -- the request that statuses are attributed by stays whole while its events are counted
  generalize hof : (fun e : Event => (firstAbout l.request statuses e.id).map classify) = of
  have hsome : ∀ e : Event, (firstAbout l.request statuses e.id).isSome = (of e).isSome :=
    fun e => by rw [← hof, Option.isSome_map]
  simp only [hsome, congrFun hof]
  induction l.request with
  | nil => exact ⟨rfl, rfl⟩
  | cons e rest ih =>
    obtain ⟨hclass, hnone⟩ := ih
    simp only [List.countP_cons, List.length_cons]
    cases of e with
    | none => simp; omega
    | some c => cases c <;> simp <;> omega

theorem id_mem_request {e : Entry} (he : e ∈ l.entries) (ho : e.isOutstanding = true) :
    e.event.id ∈ l.request.map (·.id) :=
  List.mem_map_of_mem (List.mem_map_of_mem (List.mem_filter.mpr ⟨he, ho⟩))

/-- **What an answer makes of the ledger** is read off its statuses. -/
theorem answer_ledger (l : Ledger) (classify : ItemStatus → ItemClass)
    (statuses : List ItemStatus) :
    (l.answer classify l.request statuses).1 = (l.readout classify statuses).1 := by
  rw [answer_eq]
  refine congrArg (fun es => { l with entries := es }) (List.map_congr_left fun e he => ?_)
  unfold Entry.answered
  rw [deciding_eq_firstAbout]
  cases ho : e.isOutstanding with
  | false => rfl
  | true =>
    unfold standingBy
    cases hd : firstAbout l.request statuses e.event.id with
    | none =>
      dsimp only
      rw [if_pos rfl, if_pos rfl, if_pos (id_mem_request he ho)]
      rfl
    | some s =>
      dsimp only
      unfold Standing.ofStatus Outcome.classified
      cases classify s <;> rfl

/-- What an answer says of an event is the class of the first status about it. -/
theorem classOf_eq_firstAbout (request : List Event) (e : Event) :
    classOf classify request (.ok statuses) e = (firstAbout request statuses e.id).map classify :=
  congrArg (Option.map classify) (deciding_eq_firstAbout request statuses e.id)

/-- The statuses of an answer count the events of the request by their classes. -/
theorem takeAll_countBy (hn : (l.batch.map (·.id)).Nodup) (c : ItemClass) :
    (Intake.takeAll classify l.request 0 ⟨l, [], {}⟩ statuses).tally.of c
      = l.countBy classify statuses (some c) := by
  rw [tally_statuses hn]
  exact List.countP_congr fun e _ => by
    rw [decide_eq_true_iff, decide_eq_true_iff, classOf_eq_firstAbout]

/-- **A status is ignored unless it is the first one about an event of the request.** -/
theorem ignored_answer (hn : (l.batch.map (·.id)).Nodup) (classify : ItemStatus → ItemClass)
    (statuses : List ItemStatus) :
    (l.answer classify l.request statuses).2.ignored + l.carriedBy statuses
      = statuses.length := by
  have hignored : (l.answer classify l.request statuses).2.ignored
      = (Intake.takeAll classify l.request 0 ⟨l, [], {}⟩ statuses).tally.ignored :=
    Intake.ignored_foldl_miss l.request _
  have htotal := @Intake.total_takeAll classify l.request statuses 0 ⟨l, [], {}⟩
  have hcount (c : ItemClass) :
      (Intake.takeAll classify l.request 0 ⟨l, [], {}⟩ statuses).tally.of c
        = l.countBy classify statuses (some c) := takeAll_countBy hn c
  have hsuccess := hcount .success
  have hfatal := hcount .fatal
  have hretryable := hcount .retryable
  obtain ⟨hcarried, -⟩ := l.countBy_add classify statuses
  unfold Tally.of at hsuccess hfatal hretryable
  unfold Tally.total at htotal
  dsimp only at hsuccess hfatal hretryable htotal
  omega

/-- **What an answer counts** is read off its statuses. -/
theorem answer_tally (hn : (l.batch.map (·.id)).Nodup) (classify : ItemStatus → ItemClass)
    (statuses : List ItemStatus) :
    (l.answer classify l.request statuses).2 = (l.readout classify statuses).2 := by
  have hmissed : (l.request.countP fun e =>
      (Intake.takeAll classify l.request 0 ⟨l, [], {}⟩ statuses).ledger.isOutstanding e.id
        && !(Intake.takeAll classify l.request 0 ⟨l, [], {}⟩ statuses).answered.contains e.id)
      = l.countBy classify statuses none :=
    List.countP_congr fun e he => by
      rw [decide_eq_true_iff, ← classOf_eq_firstAbout]
      exact missed_iff he
  obtain ⟨hs, hd, hr⟩ := Intake.tally_foldl_miss l.request
    (Intake.takeAll classify l.request 0 ⟨l, [], {}⟩ statuses)
  refine Tally.eq_of_numbers (hs.trans (takeAll_countBy hn .success))
    (hd.trans (takeAll_countBy hn .fatal)) (hr.trans ?_) ?_
  · exact congrArg₂ (· + ·) (takeAll_countBy hn .retryable) hmissed
  · exact Nat.eq_sub_of_add_eq (ignored_answer hn classify statuses)

/-- **As many events are outstanding after an answer** as it counts as left over. -/
theorem outstanding_readout (l : Ledger) (classify : ItemStatus → ItemClass)
    (statuses : List ItemStatus) :
    (l.readout classify statuses).1.outstanding
      = (l.readout classify statuses).2.retryable := by
  have hopen : (l.readout classify statuses).1.outstanding
      = l.request.countP fun e => decide
          ((firstAbout l.request statuses e.id).map classify = some .retryable)
          || decide ((firstAbout l.request statuses e.id).map classify = none) := by
    show (l.entries.map _).countP _ = _
    rw [List.countP_map, countP_request]
    refine List.countP_congr fun e _ => ?_
    cases ho : e.isOutstanding with
    | false => simp [ho]
    | true =>
      simp only [Function.comp_apply, ho, if_pos, Bool.and_true]
      unfold standingBy Entry.isOutstanding
      cases firstAbout l.request statuses e.event.id with
      | none => simp
      | some s => cases hc : classify s <;> simp [hc]
  rw [hopen]
  refine countP_of_disjoint (fun _ _ => rfl) fun e _ h => ?_
  rw [decide_eq_true_iff] at h
  rw [h]
  rfl

end Ledger

/-! ## A delivery at any moment -/

namespace Machine

/-- **No signal changes the batch** of a delivery. -/
theorem batch_step (m : Machine) (s : Signal) : (m.step s).1.ledger.batch = m.ledger.batch := by
  have hjudge : ∀ (m : Machine) (f : Failure), (m.judge f).1.ledger = m.ledger := fun m f => by
    unfold judge
    split <;> rfl
  unfold step
  cases m.phase with
  | ready => cases s <;> rfl
  | waiting delay next => cases s <;> rfl
  | ended r => rfl
  | inFlight request =>
    cases s with
    | go => rfl
    | cancel => rfl
    | answered a =>
      cases a with
      | ok statuses =>
        show (m.take request (.ok statuses)).1.ledger.batch = _
        unfold take
        dsimp only
        split
        · exact Ledger.batch_answer m.ledger m.classify request statuses
        · rw [hjudge]
          exact Ledger.batch_answer m.ledger m.classify request statuses
      | error f =>
        show (m.take request (.error f)).1.ledger.batch = _
        unfold take
        dsimp only
        split
        · rw [hjudge]
          exact Ledger.batch_unanswered m.ledger request f
        · rfl

/-- **A delivery never has a batch with a repeated identity**, for it does not start with
one. -/
theorem nodup_run (sink : String) (classify : ItemStatus → ItemClass)
    (strategy : Retry.Strategy) (batch : List Event) (signals : List Signal) :
    ((signals.foldl (fun m s => (m.step s).1)
      (start sink classify strategy batch)).ledger.batch.map (·.id)).Nodup := by
  have hstart : ((start sink classify strategy batch).ledger.batch.map (·.id)).Nodup := by
    unfold start
    split
    · exact List.nodup_nil
    · by_cases hn : (batch.map (·.id)).Nodup
      · rw [Ledger.start_of_nodup sink hn]
        show ((Ledger.fresh sink batch).batch.map _).Nodup
        rw [Ledger.batch_fresh]
        exact hn
      · obtain ⟨id, -, hf⟩ := Ledger.start_of_not_nodup sink hn
        rw [hf]
        exact List.nodup_nil
  revert hstart
  generalize start sink classify strategy batch = m
  induction signals generalizing m with
  | nil => exact id
  | cons s rest ih =>
    intro hm
    refine ih _ ?_
    rw [batch_step]
    exact hm

/-- **A delivery at any moment takes in any answer to its request as its statuses say**,
whatever has happened to it before and however the answer is classified: the ledger and
the numbers are those that are read off the statuses, and the numbers balance. -/
theorem answer_readout (sink : String) (usual : ItemStatus → ItemClass)
    (strategy : Retry.Strategy) (batch : List Event) (signals : List Signal)
    (classify : ItemStatus → ItemClass) (statuses : List ItemStatus) :
    let l := (signals.foldl (fun m s => (m.step s).1) (start sink usual strategy batch)).ledger
    let answered := l.answer classify l.request statuses
    answered = l.readout classify statuses ∧
      answered.2.succeeded + answered.2.dropped + answered.2.retryable = l.request.length ∧
      answered.1.outstanding = answered.2.retryable ∧
      answered.2.ignored + l.carriedBy statuses = statuses.length := by
  intro l answered
  have hn : (l.batch.map (·.id)).Nodup := nodup_run sink usual strategy batch signals
  have hanswered : answered = l.readout classify statuses :=
    Prod.ext (l.answer_ledger classify statuses) (Ledger.answer_tally hn classify statuses)
  refine ⟨hanswered, ?_, ?_, Ledger.ignored_answer hn classify statuses⟩
  · obtain ⟨hcarried, hnone⟩ := l.countBy_add classify statuses
    rw [hanswered]
    show l.countBy classify statuses (some .success) + l.countBy classify statuses (some .fatal)
      + (l.countBy classify statuses (some .retryable) + l.countBy classify statuses none) = _
    omega
  · rw [hanswered]
    exact l.outstanding_readout classify statuses

end Machine

end Courier.Delivery
