import Courier.Delivery.Ledger
/-!
# What an answer does to each event

An answer is taken in status by status, and each status looks at the ledger
as the ones before it have left it. Seen from one event, little of that
matters: of all statuses of the answer only the first one about the event
decides it, and when there is none the event has a missing answer.

`deciding` is that status, read off the answer without any ledger, and
`Entry.answered` is the entry it makes. `Ledger.answer_eq` says that taking
an answer in is `Entry.answered` on every entry at once, whatever request
the answer is to; `Ledger.unanswered_eq` is the same for a request that got
no answer. Everything about what a ledger holds after an answer is read off
these two.
-/

namespace Courier.Delivery

/-- **The status that decides an event**: of the statuses from a position of
the answer on, the first one about it. -/
def deciding (sent : List Event) (id : EventId) : Nat → List ItemStatus → Option ItemStatus
  | _, [] => none
  | position, s :: rest =>
    if aboutEvent sent position s = some id then some s
    else deciding sent id (position + 1) rest

/-- **How an event stands once a status has decided it.** -/
def Standing.ofStatus (classify : ItemStatus → ItemClass) (attempt : Nat) (id : EventId)
    (s : ItemStatus) : Standing :=
  match classify s with
  | .retryable => .outstanding (some (.classified id s .retryable attempt))
  | c => .settled (.classified id s c attempt)

/-- A status that may not be tried again settles its event. -/
theorem Standing.ofStatus_of_ne {classify : ItemStatus → ItemClass} {attempt : Nat}
    {id : EventId} {s : ItemStatus} (h : classify s ≠ .retryable) :
    Standing.ofStatus classify attempt id s
      = .settled (.classified id s (classify s) attempt) := by
  unfold ofStatus
  cases hc : classify s with
  | success => rfl
  | fatal => rfl
  | retryable => exact absurd hc h

/-- How an event stands when no status is about it. -/
def Standing.unheard (attempt : Nat) (id : EventId) (message : String) : Standing :=
  .outstanding (some (.missing id attempt message))

namespace Entry

/-- **An entry after an answer.** A settled one stays as it is. -/
def answered (classify : ItemStatus → ItemClass) (attempt : Nat) (sent : List Event)
    (statuses : List ItemStatus) (e : Entry) : Entry :=
  if e.isOutstanding then
    match deciding sent e.event.id 0 statuses with
    | some s => { e with standing := .ofStatus classify attempt e.event.id s }
    | none =>
      if e.event.id ∈ sent.map (·.id) then
        { e with standing := .unheard attempt e.event.id "no status in response" }
      else e
  else e

/-- **An entry after a request without an answer.** -/
def unanswered (attempt : Nat) (sent : List Event) (message : String) (e : Entry) : Entry :=
  if e.isOutstanding ∧ e.event.id ∈ sent.map (·.id) then
    { e with standing := .unheard attempt e.event.id message }
  else e

end Entry

/-! ## One status -/

namespace Entry

/-- An entry after a new standing for an identity. -/
def updated (id : EventId) (s : Standing) (e : Entry) : Entry :=
  if e.event.id = id && e.isOutstanding then { e with standing := s } else e

@[simp] theorem updated_event (id : EventId) (s : Standing) (e : Entry) :
    (e.updated id s).event = e.event := by
  unfold updated
  split <;> rfl

theorem updated_of_ne {id : EventId} {e : Entry} (s : Standing) (h : e.event.id ≠ id) :
    e.updated id s = e :=
  if_neg (by simp [h])

theorem updated_of_settled {e : Entry} (id : EventId) (s : Standing)
    (h : e.isOutstanding = false) : e.updated id s = e :=
  if_neg (by simp [h])

theorem updated_self {e : Entry} (s : Standing) (h : e.isOutstanding = true) :
    e.updated e.event.id s = { e with standing := s } :=
  if_pos (by simp [h])

end Entry

namespace Ledger

theorem update_eq (l : Ledger) (id : EventId) (s : Standing) :
    l.update id s = { l with entries := l.entries.map (Entry.updated id s) } := rfl

/-- An outstanding entry makes its identity outstanding. -/
theorem isOutstanding_of_mem {l : Ledger} {e : Entry} (he : e ∈ l.entries)
    (ho : e.isOutstanding = true) : l.isOutstanding e.event.id = true := by
  unfold isOutstanding
  rw [List.any_eq_true]
  exact ⟨e, he, by rw [ho]; simp⟩

/-- A new standing for one identity leaves the others as outstanding as they
were. -/
theorem isOutstanding_update_ne (l : Ledger) {id id' : EventId} (s : Standing)
    (h : id' ≠ id) : (l.update id s).isOutstanding id' = l.isOutstanding id' := by
  unfold isOutstanding
  rw [update_eq, List.any_map]
  refine congrArg (fun p => l.entries.any p) (funext fun e => ?_)
  show (decide ((e.updated id s).event.id = id') && (e.updated id s).isOutstanding) = _
  rw [Entry.updated_event]
  by_cases hid : e.event.id = id'
  · rw [Entry.updated_of_ne s (fun h' => h (hid.symm.trans h'))]
  · rw [decide_eq_false hid, Bool.false_and, Bool.false_and]

end Ledger

namespace Intake

/-- **A status is taken in or ignored.** It is taken in exactly when it is
about an outstanding event that no earlier status was about, and then it
decides how this event stands, and nothing else. -/
theorem take_cases (classify : ItemStatus → ItemClass) (i : Intake) (about : Option EventId)
    (s : ItemStatus) :
    (∃ id, about = some id ∧ i.ledger.isOutstanding id = true ∧ id ∉ i.answered ∧
      (i.take classify about s).ledger
        = i.ledger.update id (.ofStatus classify i.ledger.attempt id s) ∧
      (i.take classify about s).answered = id :: i.answered) ∨
    ((∀ id, about = some id → i.ledger.isOutstanding id = false ∨ id ∈ i.answered) ∧
      (i.take classify about s).ledger = i.ledger ∧
      (i.take classify about s).answered = i.answered) := by
  cases about with
  | none => exact .inr ⟨fun id h => (by simp at h), rfl, rfl⟩
  | some id =>
    by_cases h : (!i.ledger.isOutstanding id || i.answered.contains id) = true
    · refine .inr ⟨fun id' h' => ?_, ?_, ?_⟩
      · obtain rfl := Option.some.inj h'
        simpa using h
      · simp only [take, if_pos h]
      · simp only [take, if_pos h]
    · have ho : i.ledger.isOutstanding id = true ∧ id ∉ i.answered := by simpa using h
      refine .inl ⟨id, rfl, ho.1, ho.2, ?_, ?_⟩
      · simp only [take, if_neg h, Standing.ofStatus]
        cases classify s <;> rfl
      · simp only [take, if_neg h]
        cases classify s <;> rfl

end Intake

/-! ## All statuses, and then the events that none was about -/

namespace Entry

/-- **An entry after the statuses from a position on**, when earlier ones were
about the events in `heard`. -/
def taken (classify : ItemStatus → ItemClass) (attempt : Nat) (sent : List Event)
    (heard : List EventId) (position : Nat) (statuses : List ItemStatus) (e : Entry) : Entry :=
  if e.isOutstanding ∧ e.event.id ∉ heard then
    match deciding sent e.event.id position statuses with
    | some s => { e with standing := .ofStatus classify attempt e.event.id s }
    | none => e
  else e

variable {classify : ItemStatus → ItemClass} {attempt position : Nat} {sent : List Event}
variable {heard : List EventId} {e : Entry} {s : ItemStatus}

/-- Without statuses an entry stays as it is. -/
theorem taken_nil : taken classify attempt sent heard position [] = id := by
  funext e
  unfold taken deciding
  exact ite_self _

/-- **A status that decides an event** is the only one that does, also when others
about it follow. -/
theorem taken_updated {id : EventId} (habout : aboutEvent sent position s = some id)
    (hn : id ∉ heard) (rest : List ItemStatus) :
    taken classify attempt sent (id :: heard) (position + 1) rest
        (e.updated id (.ofStatus classify attempt id s))
      = taken classify attempt sent heard position (s :: rest) e := by
  by_cases hid : e.event.id = id
  · subst hid
    cases hs : e.isOutstanding with
    | true =>
      rw [updated_self _ hs]
      unfold taken
      rw [if_neg (by simp), if_pos ⟨hs, hn⟩, deciding, if_pos habout]
    | false =>
      rw [updated_of_settled _ _ hs]
      unfold taken
      rw [if_neg (by simp [hs]), if_neg (by simp [hs])]
  · rw [updated_of_ne _ hid]
    have hskip : aboutEvent sent position s ≠ some e.event.id := fun h =>
      hid (Option.some.inj (h.symm.trans habout))
    unfold taken
    rw [deciding, if_neg hskip]
    simp only [List.mem_cons, hid, false_or]

/-- **A status that is not about an entry whose standing is open** leaves it to the
ones after it. -/
theorem taken_skipped (h : e.isOutstanding = true → e.event.id ∉ heard →
      aboutEvent sent position s ≠ some e.event.id) (rest : List ItemStatus) :
    taken classify attempt sent heard (position + 1) rest e
      = taken classify attempt sent heard position (s :: rest) e := by
  unfold taken
  by_cases ho : e.isOutstanding = true ∧ e.event.id ∉ heard
  · rw [if_pos ho, if_pos ho, deciding, if_neg (h ho.1 ho.2)]
  · rw [if_neg ho, if_neg ho]

end Entry

namespace Intake

variable (classify : ItemStatus → ItemClass) (sent : List Event)

/-- Statuses leave the sink and the attempt of a ledger as they are, and what
they make of its entries is `Entry.taken`. -/
theorem takeAll_ledger (statuses : List ItemStatus) : ∀ (position : Nat) (i : Intake),
    (takeAll classify sent position i statuses).ledger
      = { i.ledger with
          entries := i.ledger.entries.map
            (Entry.taken classify i.ledger.attempt sent i.answered position statuses) } := by
  induction statuses with
  | nil =>
    intro position i
    rw [Entry.taken_nil, List.map_id]
    rfl
  | cons s rest ih =>
    intro position i
    rw [takeAll, ih]
    obtain ⟨id, habout, ho, hn, hl, ha⟩ | ⟨hno, hl, ha⟩ :=
      take_cases classify i (aboutEvent sent position s) s
    · -- the status decides the event `id`, and the later ones cannot
      rw [hl, ha, Ledger.update_eq]
      simp only [List.map_map]
      refine congrArg (fun es => { i.ledger with entries := es })
        (List.map_congr_left fun e _ => ?_)
      exact Entry.taken_updated habout hn rest
    · -- the status is ignored, because it decides no event that is still undecided
      rw [hl, ha]
      refine congrArg (fun es => { i.ledger with entries := es })
        (List.map_congr_left fun e he => ?_)
      refine Entry.taken_skipped (fun ho hn habout => ?_) rest
      obtain h' | h' := hno _ habout
      · rw [Ledger.isOutstanding_of_mem he ho] at h'
        exact Bool.noConfusion h'
      · exact hn h'

/-- **The events that statuses were about** are those they were about before, and
the outstanding ones that a status decides. -/
theorem mem_takeAll_answered (statuses : List ItemStatus) (id : EventId) :
    ∀ (position : Nat) (i : Intake),
    id ∈ (takeAll classify sent position i statuses).answered
      ↔ id ∈ i.answered ∨
        i.ledger.isOutstanding id = true ∧ (deciding sent id position statuses).isSome := by
  induction statuses with
  | nil =>
    intro position i
    simp [takeAll, deciding]
  | cons s rest ih =>
    intro position i
    rw [takeAll, ih, deciding]
    obtain ⟨id', habout, ho, hn, hl, ha⟩ | ⟨hno, hl, ha⟩ :=
      take_cases classify i (aboutEvent sent position s) s
    · rw [hl, ha, habout]
      by_cases hid : id = id'
      · subst hid
        simp [ho]
      · rw [Ledger.isOutstanding_update_ne _ _ hid, List.mem_cons]
        simp only [hid, false_or, if_neg (fun h => hid (Option.some.inj h).symm)]
    · rw [hl, ha]
      by_cases habout : aboutEvent sent position s = some id
      · rw [if_pos habout]
        obtain h | h := hno id habout
        · simp [h]
        · simp [h]
      · rw [if_neg habout]

end Intake

namespace Entry

/-- An entry after the events of a request have been missed, but for those in
`heard`. -/
def missed (attempt : Nat) (heard : List EventId) (sent : List Event) (message : String)
    (e : Entry) : Entry :=
  if e.isOutstanding ∧ e.event.id ∉ heard ∧ e.event.id ∈ sent.map (·.id) then
    { e with standing := .unheard attempt e.event.id message }
  else e

theorem missed_nil (attempt : Nat) (heard : List EventId) (message : String) :
    missed attempt heard [] message = id := by
  funext e
  exact if_neg (by simp)

/-- **A request is missed event by event**, and an event that is missed twice is
missed once. -/
theorem missed_cons (attempt : Nat) (heard : List EventId) (e' : Event) (sent : List Event)
    (message : String) (h : e'.id ∉ heard) (e : Entry) :
    missed attempt heard sent message (e.updated e'.id (.unheard attempt e'.id message))
      = missed attempt heard (e' :: sent) message e := by
  unfold missed
  by_cases hid : e.event.id = e'.id
  · rw [← hid] at h ⊢
    cases hs : e.isOutstanding with
    | true =>
      rw [updated_self _ hs, if_pos (show true = true ∧ _ from ⟨rfl, h, by simp [hid]⟩)]
      exact ite_self _
    | false =>
      rw [updated_of_settled _ _ hs, if_neg (by simp [hs]), if_neg (by simp)]
  · rw [updated_of_ne _ hid]
    simp only [List.map_cons, List.mem_cons, hid, false_or]

/-- An event that is not missed changes nothing. -/
theorem missed_cons_of_not {attempt : Nat} {heard : List EventId} {e' : Event}
    {sent : List Event} {message : String} {e : Entry}
    (h : e.isOutstanding = true → e.event.id ∉ heard → e.event.id ≠ e'.id) :
    missed attempt heard sent message e = missed attempt heard (e' :: sent) message e := by
  unfold missed
  by_cases hc : e.isOutstanding = true ∧ e.event.id ∉ heard
  · simp only [List.map_cons, List.mem_cons, h hc.1 hc.2, false_or]
  · rw [if_neg (fun h' => hc ⟨h'.1, h'.2.1⟩), if_neg (fun h' => hc ⟨h'.1, h'.2.1⟩)]

end Entry

/-- **Missing the events of a request** leaves the sink, the attempt and the events
that statuses were about as they are, and makes `Entry.missed` of the
entries. -/
theorem Intake.foldl_miss (sent : List Event) : ∀ i : Intake,
    (sent.foldl Intake.miss i).ledger
      = { i.ledger with
          entries := i.ledger.entries.map
            (Entry.missed i.ledger.attempt i.answered sent "no status in response") } := by
  induction sent with
  | nil =>
    intro i
    rw [Entry.missed_nil, List.map_id]
    rfl
  | cons e' sent ih =>
    intro i
    rw [List.foldl_cons, ih]
    by_cases h : (i.ledger.isOutstanding e'.id && !i.answered.contains e'.id) = true
    · have hn : e'.id ∉ i.answered := by
        rw [Bool.and_eq_true] at h
        simpa using h.2
      unfold Intake.miss
      rw [if_pos h]
      refine congrArg (fun es => { i.ledger with entries := es }) ?_
      show (i.ledger.entries.map _).map _ = _
      rw [List.map_map]
      exact List.map_congr_left fun e _ => Entry.missed_cons _ _ _ _ _ hn e
    · unfold Intake.miss
      rw [if_neg h]
      refine congrArg (fun es => { i.ledger with entries := es })
        (List.map_congr_left fun e he => ?_)
      refine Entry.missed_cons_of_not fun ho hn hid => h ?_
      have hl := Ledger.isOutstanding_of_mem he ho
      rw [hid] at hl hn
      simp [hl, hn]

namespace Ledger

/-- **Taking an answer in is `Entry.answered` on every entry.** -/
theorem answer_eq (l : Ledger) (classify : ItemStatus → ItemClass) (sent : List Event)
    (statuses : List ItemStatus) :
    (l.answer classify sent statuses).1
      = { l with entries := l.entries.map (Entry.answered classify l.attempt sent statuses) } := by
  show (sent.foldl Intake.miss (Intake.takeAll classify sent 0 ⟨l, [], {}⟩ statuses)).ledger = _
  rw [Intake.foldl_miss, Intake.takeAll_ledger]
  simp only [List.map_map]
  refine congrArg (fun es => { l with entries := es }) (List.map_congr_left fun e he => ?_)
  show Entry.missed _ _ _ _ (Entry.taken _ _ _ _ _ _ e) = _
  unfold Entry.answered Entry.taken
  cases hs : e.isOutstanding with
  | false => simp [Entry.missed, hs]
  | true =>
    rw [if_pos (show true = true ∧ _ from ⟨rfl, List.not_mem_nil⟩), if_pos rfl]
    have hheard := Intake.mem_takeAll_answered classify sent statuses e.event.id 0 ⟨l, [], {}⟩
    rw [isOutstanding_of_mem he hs] at hheard
    cases hd : deciding sent e.event.id 0 statuses with
    | some s =>
      have hin := hheard.mpr (.inr ⟨rfl, by rw [hd]; rfl⟩)
      exact if_neg (fun h => h.2.1 hin)
    | none =>
      have hout := mt hheard.mp (by simp [hd])
      unfold Entry.missed
      by_cases hsent : e.event.id ∈ sent.map (·.id)
      · rw [if_pos ⟨hs, hout, hsent⟩]
        exact (if_pos hsent).symm
      · rw [if_neg (fun h => hsent h.2.2)]
        exact (if_neg hsent).symm

/-- **How an event stands after the answer to its own request**: as the status
that decides it says, or without an answer. -/
def after (l : Ledger) (classify : ItemStatus → ItemClass) (statuses : List ItemStatus)
    (e : Event) : Standing :=
  match deciding l.request e.id 0 statuses with
  | some s => .ofStatus classify l.attempt e.id s
  | none => .unheard l.attempt e.id "no status in response"

/-- **Every event of a request stands as the answer to it says.** -/
theorem mem_answer {l : Ledger} {e : Event} (he : e ∈ l.request)
    (classify : ItemStatus → ItemClass) (statuses : List ItemStatus) :
    ⟨e, l.after classify statuses e⟩ ∈ (l.answer classify l.request statuses).1.entries := by
  obtain ⟨x, hx, rfl⟩ := List.mem_map.mp he
  have ho : x.isOutstanding = true := (List.mem_filter.mp hx).2
  rw [answer_eq]
  refine List.mem_map.mpr ⟨x, (List.mem_filter.mp hx).1, ?_⟩
  unfold Entry.answered after
  rw [if_pos ho]
  cases deciding l.request x.event.id 0 statuses with
  | some s => rfl
  | none => exact if_pos (List.mem_map.mpr ⟨x.event, he, rfl⟩)

/-- **A request without an answer is `Entry.unanswered` on every entry.** -/
theorem unanswered_eq (l : Ledger) (sent : List Event) (f : Failure) :
    l.unanswered sent f
      = { l with entries := l.entries.map (Entry.unanswered l.attempt sent f.message) } := by
  have key : ∀ l : Ledger, l.unanswered sent f
      = { l with entries := l.entries.map (Entry.missed l.attempt [] sent f.message) } := by
    unfold unanswered
    induction sent with
    | nil =>
      intro l
      rw [Entry.missed_nil, List.map_id]
      rfl
    | cons e' sent ih =>
      intro l
      rw [List.foldl_cons, ih]
      by_cases h : l.isOutstanding e'.id = true
      · rw [if_pos h]
        refine congrArg (fun es => { l with entries := es }) ?_
        show (l.entries.map _).map _ = _
        rw [List.map_map]
        exact List.map_congr_left fun e _ =>
          Entry.missed_cons _ _ _ _ _ List.not_mem_nil e
      · rw [if_neg h]
        refine congrArg (fun es => { l with entries := es })
          (List.map_congr_left fun e he => ?_)
        refine Entry.missed_cons_of_not fun ho _ hid => h ?_
        rw [← hid]
        exact isOutstanding_of_mem he ho
  rw [key]
  refine congrArg (fun es => { l with entries := es }) (List.map_congr_left fun e _ => ?_)
  unfold Entry.missed Entry.unanswered
  simp only [List.not_mem_nil, not_false_eq_true, true_and]

end Ledger

end Courier.Delivery
