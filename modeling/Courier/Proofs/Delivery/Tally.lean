import Courier.Proofs.Delivery.Report
/-!
# What an answer counts

While an answer is taken in, it is counted: events delivered, events refused,
and events that are left over. The counting looks at the ledger as each status
has left it, and so it could count an event twice, or count a status that
decides nothing. It does neither. In a batch without repeated identities each
number is one of events of the request, by the one status that decides each of
them (`Ledger.tally_answer`), and what is left over is what the next request
asks again.

The same numbers can be read off the ledger. An answer settles as many events in
a way as it counts (`Ledger.settledAs_absorb`), and a report, or the diagnostics of
a batch that is given up, says as many as the ledger holds
(`Ledger.Coherent.countP_report`, `Ledger.Coherent.countP_diagnostics`).
-/

namespace Courier.Delivery

/-! ## Counting -/

section

variable {α κ : Type} {p q r : α → Bool} {xs : List α}

/-- What is one thing or another, and never both, is counted apart. -/
theorem countP_of_disjoint (h : ∀ x ∈ xs, r x = (p x || q x))
    (hd : ∀ x ∈ xs, p x = true → q x = false) : xs.countP r = xs.countP p + xs.countP q := by
  induction xs with
  | nil => rfl
  | cons x xs ih =>
    have hx := hd x List.mem_cons_self
    rw [List.countP_cons, List.countP_cons, List.countP_cons, h x List.mem_cons_self,
      ih (fun y hy => h y (List.mem_cons_of_mem x hy))
        (fun y hy => hd y (List.mem_cons_of_mem x hy))]
    cases hp : p x with
    | true =>
      rw [hx hp, if_pos rfl, if_neg Bool.false_ne_true, Bool.or_false, if_pos rfl]
      omega
    | false =>
      rw [Bool.false_or, if_neg Bool.false_ne_true]
      omega

/-- **One item among items of different keys** makes the difference between two counts. -/
theorem countP_of_key (key : α → κ) (hn : (xs.map key).Nodup) {x : α} (hx : x ∈ xs)
    (h : ∀ y ∈ xs, key y ≠ key x → p y = q y) (hq : q x = false) :
    xs.countP p = xs.countP q + if p x then 1 else 0 := by
  induction xs with
  | nil => exact absurd hx List.not_mem_nil
  | cons y xs ih =>
    obtain ⟨hfresh, hn⟩ := List.nodup_cons.mp hn
    rw [List.countP_cons, List.countP_cons]
    obtain rfl | hin := List.mem_cons.mp hx
    · have hrest : xs.countP p = xs.countP q := List.countP_congr fun y hy => by
        rw [h y (List.mem_cons_of_mem x hy) fun heq => hfresh (heq ▸ List.mem_map_of_mem hy)]
      rw [hrest, hq, if_neg Bool.false_ne_true, Nat.add_zero]
    · have hne : key y ≠ key x := fun heq => hfresh (heq ▸ List.mem_map_of_mem hin)
      rw [ih hn hin (fun z hz => h z (List.mem_cons_of_mem y hz)), h y List.mem_cons_self hne]
      omega

end

/-! ## The classes of an answer -/

/-- The number of a tally that is of a class. -/
def Tally.of (t : Tally) : ItemClass → Nat
  | .success => t.succeeded
  | .fatal => t.dropped
  | .retryable => t.retryable

/-- **What an answer says of an event**: the class of the status that decides it. -/
def classOf (classify : ItemStatus → ItemClass) (request : List Event) (a : Answer) (e : Event) :
    Option ItemClass :=
  match a with
  | .ok statuses => (deciding request e.id 0 statuses).map classify
  | .error _ => none

/-- **How an answer settles an event**, if it does: it is delivered, or refused. -/
def settling (classify : ItemStatus → ItemClass) (request : List Event) (a : Answer) (e : Event) :
    Option ItemClass :=
  (classOf classify request a e).filter (· ≠ .retryable)

variable {classify : ItemStatus → ItemClass} {request : List Event} {a : Answer} {e : Event}

/-- An event is settled in a way exactly when that is said of it. -/
theorem settling_eq_some_iff {c : ItemClass} :
    settling classify request a e = some c
      ↔ classOf classify request a e = some c ∧ c ≠ .retryable := by
  unfold settling
  rw [Option.filter_eq_some_iff]
  simp

/-- An event is left open exactly when it is not settled. -/
theorem leavesOpen_eq_isNone :
    leavesOpen classify request a e = (settling classify request a e).isNone := by
  cases a with
  | error f => rfl
  | ok statuses =>
    have hclass : classOf classify request (.ok statuses) e
        = (deciding request e.id 0 statuses).map classify := rfl
    unfold settling
    rw [hclass]
    cases hd : deciding request e.id 0 statuses with
    | none => exact leavesOpen_of_unheard hd
    | some s =>
      rw [leavesOpen_of_deciding hd, Option.map_some]
      cases classify s <;> rfl

/-! ## Counting while an answer is taken in -/

/-- **Whether one of the statuses from a position on decides an entry in a way**, when
earlier ones were about the events in `heard`. -/
def Entry.isDecided (classify : ItemStatus → ItemClass) (sent : List Event) (heard : List EventId)
    (position : Nat) (statuses : List ItemStatus) (c : ItemClass) (e : Entry) : Bool :=
  decide (e.isOutstanding = true ∧ e.event.id ∉ heard ∧
    (deciding sent e.event.id position statuses).map classify = some c)

section

variable {sent : List Event} {heard : List EventId} {position : Nat} {s : ItemStatus}
variable {rest statuses : List ItemStatus} {c : ItemClass} {x : Entry}

/-- **The status that is about an open entry** decides it, when nothing has yet. -/
theorem Entry.isDecided_of_about (h : aboutEvent sent position s = some x.event.id)
    (ho : x.isOutstanding = true) (hn : x.event.id ∉ heard) :
    x.isDecided classify sent heard position (s :: rest) c = decide (classify s = c) := by
  unfold isDecided
  rw [deciding, if_pos h]
  simp [ho, hn]

theorem Entry.isDecided_of_not_about (h : aboutEvent sent position s ≠ some x.event.id) :
    x.isDecided classify sent heard position (s :: rest) c
      = x.isDecided classify sent heard (position + 1) rest c := by
  unfold isDecided
  rw [deciding, if_neg h]

theorem Entry.isDecided_of_settled (h : x.isOutstanding = false) :
    x.isDecided classify sent heard position statuses c = false :=
  decide_eq_false fun h' => Bool.noConfusion (h.symm.trans h'.1)

theorem Entry.isDecided_of_heard (h : x.event.id ∈ heard) :
    x.isDecided classify sent heard position statuses c = false :=
  decide_eq_false fun h' => h'.2.1 h

theorem Entry.isDecided_heard_cons {id : EventId} (h : x.event.id ≠ id) :
    x.isDecided classify sent (id :: heard) position statuses c
      = x.isDecided classify sent heard position statuses c := by
  unfold isDecided
  simp only [List.mem_cons, h, false_or]

end

namespace Ledger

/-- A new standing is given to no other event. -/
theorem batch_update (l : Ledger) (id : EventId) (s : Standing) :
    (l.update id s).batch = l.batch := by
  rw [update_eq]
  show (l.entries.map _).map _ = l.entries.map _
  rw [List.map_map]
  exact List.map_congr_left fun e _ => Entry.updated_event id s e

/-- The entries of a batch without repeated identities have none either. -/
theorem nodup_entries (l : Ledger) (h : (l.batch.map (·.id)).Nodup) :
    (l.entries.map fun e => e.event.id).Nodup := by
  unfold batch at h
  rw [List.map_map] at h
  exact h

/-- An identity is outstanding because of an entry. -/
theorem exists_of_isOutstanding {l : Ledger} {id : EventId} (h : l.isOutstanding id = true) :
    ∃ e ∈ l.entries, e.event.id = id ∧ e.isOutstanding = true := by
  unfold isOutstanding at h
  obtain ⟨e, he, h⟩ := List.any_eq_true.mp h
  rw [Bool.and_eq_true, decide_eq_true_iff] at h
  exact ⟨e, he, h⟩

end Ledger

namespace Intake

variable (classify) (sent : List Event)

/-- **A status that is taken in is counted once**, by its class; one that is ignored is
not counted. -/
theorem tally_take (i : Intake) (about : Option EventId) (s : ItemStatus) (c : ItemClass) :
    (∃ id, about = some id ∧ i.ledger.isOutstanding id = true ∧ id ∉ i.answered ∧
      (i.take classify about s).ledger
        = i.ledger.update id (.ofStatus classify i.ledger.attempt id s) ∧
      (i.take classify about s).answered = id :: i.answered ∧
      (i.take classify about s).tally.of c
        = i.tally.of c + if classify s = c then 1 else 0) ∨
    ((∀ id, about = some id → i.ledger.isOutstanding id = false ∨ id ∈ i.answered) ∧
      (i.take classify about s).ledger = i.ledger ∧
      (i.take classify about s).answered = i.answered ∧
      (i.take classify about s).tally.of c = i.tally.of c) := by
  obtain ⟨id, habout, ho, hn, hl, ha⟩ | ⟨hno, hl, ha⟩ := take_cases classify i about s
  · refine .inl ⟨id, habout, ho, hn, hl, ha, ?_⟩
    have hcond : ¬ (!i.ledger.isOutstanding id || i.answered.contains id) = true := by
      simp [ho, hn]
    rw [habout]
    simp only [take, if_neg hcond]
    cases classify s <;> cases c <;> rfl
  · refine .inr ⟨hno, hl, ha, ?_⟩
    cases about with
    | none => cases c <;> rfl
    | some id =>
      have hcond : (!i.ledger.isOutstanding id || i.answered.contains id) = true := by
        simpa using hno id rfl
      simp only [take, if_pos hcond]
      cases c <;> rfl

/-- **Statuses count the entries that they decide**, each of them once. -/
theorem tally_takeAll (c : ItemClass) (statuses : List ItemStatus) :
    ∀ (position : Nat) (i : Intake), (i.ledger.batch.map (·.id)).Nodup →
      (takeAll classify sent position i statuses).tally.of c
        = i.tally.of c + i.ledger.entries.countP
            (Entry.isDecided classify sent i.answered position statuses c) := by
  induction statuses with
  | nil =>
    intro position i _
    have hnone : i.ledger.entries.countP
        (Entry.isDecided classify sent i.answered position [] c) = 0 :=
      List.countP_eq_zero.mpr fun e _ h => nomatch (of_decide_eq_true h).2.2
    rw [hnone]
    rfl
  | cons s rest ih =>
    intro position i hn
    rw [takeAll]
    obtain ⟨id, habout, ho, hheard, hl, ha, ht⟩ | ⟨hno, hl, ha, ht⟩ :=
      tally_take classify i (aboutEvent sent position s) s c
    · -- the status decides the event `id`, which is one entry, and the later ones cannot
      obtain ⟨x, hx, rfl, hxo⟩ := Ledger.exists_of_isOutstanding ho
      have hbatch := Ledger.batch_update i.ledger x.event.id
        (.ofStatus classify i.ledger.attempt x.event.id s)
      rw [ih _ _ (by rw [hl, hbatch]; exact hn), hl, ha, ht, Ledger.update_eq, List.countP_map]
      have hkey := countP_of_key (fun e : Entry => e.event.id)
        (p := Entry.isDecided classify sent i.answered position (s :: rest) c)
        (q := Entry.isDecided classify sent (x.event.id :: i.answered) (position + 1) rest c
          ∘ Entry.updated x.event.id (.ofStatus classify i.ledger.attempt x.event.id s))
        (i.ledger.nodup_entries hn) hx ?_ ?_
      · rw [hkey, Entry.isDecided_of_about habout hxo hheard]
        simp only [decide_eq_true_eq]
        omega
      · intro y _ hy
        show _ = Entry.isDecided _ _ _ _ _ _ (y.updated _ _)
        rw [Entry.updated_of_ne _ hy, Entry.isDecided_heard_cons hy]
        exact Entry.isDecided_of_not_about fun h => hy (Option.some.inj (h.symm.trans habout))
      · show Entry.isDecided _ _ _ _ _ _ (x.updated _ _) = false
        exact Entry.isDecided_of_heard (by rw [Entry.updated_event]; exact List.mem_cons_self)
    · -- the status is ignored, because it decides no event that is still undecided
      rw [ih _ _ (by rw [hl]; exact hn), hl, ha, ht]
      refine congrArg _ (List.countP_congr fun e he => ?_)
      by_cases habout : aboutEvent sent position s = some e.event.id
      · obtain h | h := hno _ habout
        · have hsettled : e.isOutstanding = false := by
            rw [← Bool.not_eq_true]
            exact fun ho => Bool.noConfusion (h.symm.trans (Ledger.isOutstanding_of_mem he ho))
          rw [Entry.isDecided_of_settled hsettled, Entry.isDecided_of_settled hsettled]
        · rw [Entry.isDecided_of_heard h, Entry.isDecided_of_heard h]
      · rw [Entry.isDecided_of_not_about habout]

end Intake

/-! ## Counting what nobody has spoken of -/

/-- An entry stays outstanding with another answer that does not settle it. -/
theorem Entry.isOutstanding_updated (id : EventId) (last : Option Outcome) (e : Entry) :
    (e.updated id (.outstanding last)).isOutstanding = e.isOutstanding := by
  unfold Entry.updated
  split
  · next h =>
    rw [Bool.and_eq_true] at h
    exact h.2.symm
  · rfl

/-- So does an identity. -/
theorem Ledger.isOutstanding_update (l : Ledger) (id id' : EventId) (last : Option Outcome) :
    (l.update id (.outstanding last)).isOutstanding id' = l.isOutstanding id' := by
  unfold isOutstanding
  rw [update_eq, List.any_map]
  refine congrArg (fun p => l.entries.any p) (funext fun e => ?_)
  show (decide ((e.updated id _).event.id = id') && (e.updated id _).isOutstanding) = _
  rw [Entry.updated_event, Entry.isOutstanding_updated]

/-- **A missing answer is counted with what is left over**, and nothing else is. -/
theorem Intake.tally_foldl_miss (sent : List Event) : ∀ i : Intake,
    (sent.foldl miss i).tally.succeeded = i.tally.succeeded ∧
      (sent.foldl miss i).tally.dropped = i.tally.dropped ∧
      (sent.foldl miss i).tally.retryable
        = i.tally.retryable
          + sent.countP fun e => i.ledger.isOutstanding e.id && !i.answered.contains e.id := by
  induction sent with
  | nil => exact fun _ => ⟨rfl, rfl, rfl⟩
  | cons e sent ih =>
    intro i
    obtain ⟨hs, hd, hr⟩ := ih (i.miss e)
    rw [List.foldl_cons, hs, hd, hr, List.countP_cons]
    unfold miss
    split
    · have hrest : sent.countP (fun e' => (i.ledger.update e.id (.outstanding (some
            (.missing e.id i.ledger.attempt "no status in response")))).isOutstanding e'.id
            && !i.answered.contains e'.id)
          = sent.countP fun e' => i.ledger.isOutstanding e'.id && !i.answered.contains e'.id :=
        List.countP_congr fun e' _ => by rw [Ledger.isOutstanding_update]
      refine ⟨rfl, rfl, ?_⟩
      show i.tally.retryable + 1 + sent.countP _ = _
      rw [hrest]
      omega
    · exact ⟨rfl, rfl, rfl⟩

/-! ## The tally of an answer -/

namespace Ledger

variable {l : Ledger} {statuses : List ItemStatus}

/-- A count over a request is one over the outstanding entries. -/
theorem countP_request (l : Ledger) (p : Event → Bool) :
    l.request.countP p = l.entries.countP fun e => p e.event && e.isOutstanding := by
  unfold request
  rw [List.countP_map, List.countP_filter]
  rfl

/-- The statuses of an answer count the events of the request by what they say of them. -/
theorem tally_statuses (hn : (l.batch.map (·.id)).Nodup) (statuses : List ItemStatus)
    (c : ItemClass) :
    (Intake.takeAll classify l.request 0 ⟨l, [], {}⟩ statuses).tally.of c
      = l.request.countP fun e => classOf classify l.request (.ok statuses) e = some c := by
  rw [Intake.tally_takeAll classify l.request c statuses 0 ⟨l, [], {}⟩ hn, countP_request]
  have hzero : (⟨l, [], {}⟩ : Intake).tally.of c = 0 := by cases c <;> rfl
  rw [hzero, Nat.zero_add]
  refine List.countP_congr fun e _ => ?_
  unfold Entry.isDecided
  rw [decide_eq_true_iff, Bool.and_eq_true, decide_eq_true_iff]
  exact ⟨fun h => ⟨h.2.2, h.1⟩, fun h => ⟨h.2, List.not_mem_nil, h.1⟩⟩

/-- An event of the request has a missing answer exactly when no status decides it. -/
theorem missed_iff {e : Event} (he : e ∈ l.request) :
    ((Intake.takeAll classify l.request 0 ⟨l, [], {}⟩ statuses).ledger.isOutstanding e.id
      && !(Intake.takeAll classify l.request 0 ⟨l, [], {}⟩ statuses).answered.contains e.id) = true
      ↔ classOf classify l.request (.ok statuses) e = none := by
  obtain ⟨x, hx, rfl⟩ := List.mem_map.mp he
  obtain ⟨hx, ho⟩ := List.mem_filter.mp hx
  have hclass : classOf classify l.request (.ok statuses) x.event
      = (deciding l.request x.event.id 0 statuses).map classify := rfl
  have hanswered := Intake.mem_takeAll_answered classify l.request statuses x.event.id 0 ⟨l, [], {}⟩
  rw [isOutstanding_of_mem hx ho] at hanswered
  rw [hclass, Option.map_eq_none_iff, Bool.and_eq_true, Bool.not_eq_true',
    ← Bool.not_eq_true, List.contains_iff_mem, hanswered]
  constructor
  · rintro ⟨-, h⟩
    exact Option.not_isSome_iff_eq_none.mp fun hd => h (.inr ⟨rfl, hd⟩)
  · intro hd
    refine ⟨?_, by simp [hd]⟩
    have htaken : Entry.taken classify l.attempt l.request [] 0 statuses x = x := by
      unfold Entry.taken
      rw [if_pos ⟨ho, List.not_mem_nil⟩, hd]
    refine isOutstanding_of_mem (e := x) ?_ ho
    rw [Intake.takeAll_ledger]
    exact List.mem_map.mpr ⟨x, hx, htaken⟩

/-- **An answer counts the events of its request**, each once, by the status that decides
it: those that are delivered, those that are refused, and those that are left open. -/
theorem tally_answer (hn : (l.batch.map (·.id)).Nodup) (statuses : List ItemStatus) :
    (l.answer classify l.request statuses).2.succeeded
        = l.request.countP
            (fun e => settling classify l.request (.ok statuses) e = some .success) ∧
      (l.answer classify l.request statuses).2.dropped
        = l.request.countP
            (fun e => settling classify l.request (.ok statuses) e = some .fatal) ∧
      (l.answer classify l.request statuses).2.retryable
        = l.request.countP (leavesOpen classify l.request (.ok statuses)) := by
  obtain ⟨hs, hd, hr⟩ := Intake.tally_foldl_miss l.request
    (Intake.takeAll classify l.request 0 ⟨l, [], {}⟩ statuses)
  have hsettling : ∀ c : ItemClass, c ≠ .retryable →
      (l.request.countP fun e => classOf classify l.request (.ok statuses) e = some c)
        = l.request.countP fun e => settling classify l.request (.ok statuses) e = some c :=
    fun c hc => List.countP_congr fun e _ => by
      rw [decide_eq_true_iff, decide_eq_true_iff, settling_eq_some_iff, and_iff_left hc]
  refine ⟨?_, ?_, ?_⟩
  · exact hs.trans ((tally_statuses hn statuses .success).trans (hsettling .success nofun))
  · exact hd.trans ((tally_statuses hn statuses .fatal).trans (hsettling .fatal nofun))
  · refine hr.trans ?_
    -- what is left open was answered as retryable, or missed by the answer
    have hmissed : (l.request.countP fun e =>
        (Intake.takeAll classify l.request 0 ⟨l, [], {}⟩ statuses).ledger.isOutstanding e.id
          && !(Intake.takeAll classify l.request 0 ⟨l, [], {}⟩ statuses).answered.contains e.id)
        = l.request.countP fun e => classOf classify l.request (.ok statuses) e = none :=
      List.countP_congr fun e he => by rw [decide_eq_true_iff]; exact missed_iff he
    have hretryable : (Intake.takeAll classify l.request 0 ⟨l, [], {}⟩ statuses).tally.retryable
        = l.request.countP fun e => classOf classify l.request (.ok statuses) e = some .retryable :=
      tally_statuses hn statuses .retryable
    rw [hmissed, hretryable]
    refine (countP_of_disjoint (fun e _ => ?_) fun e _ h => ?_).symm
    · rw [leavesOpen_eq_isNone]
      unfold settling
      cases classOf classify l.request (.ok statuses) e with
      | none => rfl
      | some c => cases c <;> rfl
    · rw [decide_eq_true_iff] at h
      rw [h]
      rfl

end Ledger

/-! ## What the ledger holds -/

/-- **How an entry is settled**, if it is: its event is delivered, or refused. -/
def Entry.fate? (e : Entry) : Option ItemClass :=
  e.final?.map fun o => if o.success then .success else .fatal

/-- An entry is settled in one way or the other exactly when it is not outstanding. -/
theorem Entry.isOutstanding_iff_fate? {e : Entry} : e.isOutstanding = e.fate?.isNone := by
  unfold fate?
  rw [isOutstanding_eq, Option.isNone_map]

namespace Ledger

variable {l : Ledger}

/-- **How many events of a ledger are settled in a way.** -/
def settledAs (l : Ledger) (c : ItemClass) : Nat :=
  l.entries.countP fun e => e.fate? = some c

/-- **An answer settles what is not settled**, as it says. -/
theorem fate?_absorbed (l : Ledger) (classify : ItemStatus → ItemClass) (a : Answer) (e : Entry) :
    (l.absorbed classify a e).fate?
      = e.fate?.or (settling classify l.request a e.event) := by
  cases ho : e.isOutstanding with
  | false =>
    rw [absorbed_of_settled l classify a ho]
    rw [Entry.isOutstanding_iff_fate?, Option.isNone_eq_false_iff] at ho
    rw [Option.or_of_isSome ho]
  | true =>
    have hnone : e.fate? = none := by
      rw [Entry.isOutstanding_iff_fate?] at ho
      exact Option.isNone_iff_eq_none.mp ho
    rw [hnone, Option.none_or]
    have hfinal := fun o => final?_absorbed l classify a ho (o := o)
    unfold Entry.fate?
    cases hf : (l.absorbed classify a e).final? with
    | some o =>
      obtain ⟨statuses, s, rfl, hd, hc, rfl⟩ := (hfinal o).mp hf
      have hsettling : settling classify l.request (.ok statuses) e.event = some (classify s) :=
        settling_eq_some_iff.mpr ⟨by show (deciding _ _ _ _).map classify = _; rw [hd]; rfl, hc⟩
      rw [hsettling, Option.map_some]
      unfold Outcome.classified
      cases hcs : classify s with
      | success => rfl
      | fatal => rfl
      | retryable => exact absurd hcs hc
    | none =>
      rw [Option.map_none]
      refine (Option.eq_none_iff_forall_ne_some.mpr fun c hc => ?_).symm
      obtain ⟨hclass, hne⟩ := settling_eq_some_iff.mp hc
      cases a with
      | error f => exact nomatch hclass
      | ok statuses =>
        obtain ⟨s, hd, rfl⟩ := Option.map_eq_some_iff.mp hclass
        rw [(hfinal _).mpr ⟨statuses, s, rfl, hd, hne, rfl⟩] at hf
        exact nomatch hf

/-- **An answer settles as many events in a way as it counts.** -/
theorem settledAs_absorb (l : Ledger) (classify : ItemStatus → ItemClass) (a : Answer)
    (c : ItemClass) :
    (l.absorb classify a).settledAs c
      = l.settledAs c + l.request.countP fun e => settling classify l.request a e = some c := by
  unfold settledAs
  rw [absorb_eq, List.countP_map, countP_request]
  refine countP_of_disjoint (fun e _ => ?_) fun e _ h => ?_
  · show decide ((l.absorbed classify a e).fate? = some c) = _
    rw [fate?_absorbed, Entry.isOutstanding_iff_fate?]
    cases e.fate? with
    | none =>
      rw [Option.none_or, Option.isNone_none, Bool.and_true]
      rfl
    | some c' =>
      rw [Option.some_or, Option.isNone_some, Bool.and_false, Bool.or_false]
  · rw [decide_eq_true_iff] at h
    rw [Entry.isOutstanding_iff_fate?, h]
    exact Bool.and_false _

/-- **A report says as many events as the ledger holds.** -/
theorem Coherent.countP_report (hl : l.Coherent) (retries : Nat) :
    (l.report retries).delivered = l.settledAs .success ∧
      (l.report retries).dropped = l.settledAs .fatal := by
  constructor
  · show (l.entries.filterMap _).countP _ = _
    rw [List.countP_filterMap]
    refine List.countP_congr fun e _ => ?_
    unfold Entry.fate?
    cases e.final? with
    | none => exact Iff.rfl
    | some o => cases hs : o.success <;> simp [hs]
  · show (l.entries.filterMap _).countP _ = _
    rw [List.countP_filterMap]
    refine List.countP_congr fun e he => ?_
    have hfinal := (hl e he).final
    unfold Entry.fate?
    cases hf : e.final? with
    | none => exact Iff.rfl
    | some o =>
      have hdropped := Outcome.isDropped_eq_not_success (hfinal o hf)
      cases hs : o.success <;> simp [hdropped, hs]

/-- **So do the diagnostics of a batch**: what is still open is neither delivered nor
refused. -/
theorem Coherent.countP_diagnostics (hl : l.Coherent) :
    l.diagnostics.countP (·.success) = l.settledAs .success ∧
      l.diagnostics.countP (·.isDropped) = l.settledAs .fatal := by
  have hreport := hl.countP_report 0
  have hopen : ∀ e ∈ l.entries, e.final? = none →
      ∀ o, e.known? = some o → o.success = false ∧ o.isDropped = false := by
    intro e he hf o hk
    rw [Entry.known?_eq, hf, Option.none_or] at hk
    obtain ⟨hs, hr⟩ := (hl e he).pending o hk
    exact ⟨hs, by unfold Outcome.isDropped; rw [hr, Bool.not_true, Bool.and_false]⟩
  rw [← hreport.1, ← hreport.2]
  constructor
  all_goals
    show (l.entries.filterMap _).countP _ = (l.entries.filterMap _).countP _
    rw [List.countP_filterMap, List.countP_filterMap]
    refine List.countP_congr fun e he => ?_
    cases hf : e.final? with
    | some o => rw [Entry.known?_of_final? hf]
    | none =>
      cases hk : e.known? with
      | none => exact Iff.rfl
      | some o => simp [hopen e he hf o hk]

end Ledger

end Courier.Delivery
