import Courier.Proofs.Delivery.Alignment
/-!
# What a ledger holds is what it says it is

A ledger is **coherent** when every outcome in it is about the event of its
entry and belongs to an attempt that has been made, every settled event has a
final outcome, and every outstanding one an outcome that may change. It is
coherent when it starts, and answers, missing answers and the step to the
next attempt keep it so, whatever they hold.

An entry is **filed** where it belongs when all of this holds but for the
attempts; that is kept even when attempts are not counted in their order.

None of them changes the batch, and none of them changes what is settled. So a
ledger with nothing outstanding has one final outcome for each event of the
batch, in its order, which is what its report says (`Ledger.report_ids`,
`Ledger.report_isFinal`).
-/

namespace Courier

/-- **An outcome that settles its event**: it is delivered, or refused. -/
def Outcome.isFinal (o : Outcome) : Bool :=
  o.success || o.isDropped

theorem Outcome.isDropped_eq_not_success {o : Outcome} (h : o.isFinal = true) :
    o.isDropped = !o.success := by
  unfold isFinal isDropped at *
  cases hs : o.success <;> simp_all

namespace Delivery

/-- **An entry that is what it says it is**, after so many attempts. -/
structure Entry.Coherent (attempt : Nat) (e : Entry) : Prop where
  /-- What is known is about the event. -/
  about : ∀ o, e.known? = some o → o.id = e.event.id
  /-- It belongs to an attempt that has been made. -/
  made : ∀ o, e.known? = some o → 1 ≤ o.attempt ∧ o.attempt ≤ attempt
  /-- What settles the event is final. -/
  final : ∀ o, e.final? = some o → o.isFinal = true
  /-- What does not settle it may change. -/
  pending : ∀ o, e.pending? = some o → o.success = false ∧ o.retryable = true

/-- **A coherent ledger.** -/
def Ledger.Coherent (l : Ledger) : Prop :=
  ∀ e ∈ l.entries, e.Coherent l.attempt

namespace Entry

/-! ## Entries -/

theorem coherent_fresh (attempt : Nat) (e : Event) :
    Coherent attempt ⟨e, .outstanding none⟩ := by
  refine ⟨?_, ?_, ?_, ?_⟩ <;> intro o h <;> simp [known?, final?, pending?] at h

theorem Coherent.mono {n m : Nat} {e : Entry} (h : e.Coherent n) (hnm : n ≤ m) :
    e.Coherent m :=
  ⟨h.about, fun o ho => ⟨(h.made o ho).1, Nat.le_trans (h.made o ho).2 hnm⟩, h.final, h.pending⟩

/-- **An entry that is filed where it belongs**: what is known is about its event,
final once the event is settled, and open while it is not. Nothing is said of
the attempts that it belongs to. -/
structure Filed (e : Entry) : Prop where
  /-- What is known is about the event. -/
  about : ∀ o, e.known? = some o → o.id = e.event.id
  /-- What settles the event is final. -/
  final : ∀ o, e.final? = some o → o.isFinal = true
  /-- What does not settle it may change. -/
  pending : ∀ o, e.pending? = some o → o.success = false ∧ o.retryable = true

theorem filed_fresh (e : Event) : Filed ⟨e, .outstanding none⟩ :=
  have h := coherent_fresh 0 e
  ⟨h.about, h.final, h.pending⟩

/-- An event that a status has decided is filed where it belongs. -/
theorem filed_ofStatus (classify : ItemStatus → ItemClass) (attempt : Nat) (e : Entry)
    (s : ItemStatus) :
    Filed { e with standing := .ofStatus classify attempt e.event.id s } := by
  unfold Standing.ofStatus
  cases hc : classify s <;> refine ⟨?_, ?_, ?_⟩ <;> intro o ho <;>
    simp only [known?, final?, pending?, Option.some.injEq, reduceCtorEq] at ho <;>
    subst ho <;> simp [Outcome.classified, Outcome.isFinal, Outcome.isDropped]

/-- An event that no status is about is filed where it belongs. -/
theorem filed_unheard (attempt : Nat) (e : Entry) (message : String) :
    Filed { e with standing := .unheard attempt e.event.id message } := by
  unfold Standing.unheard
  refine ⟨?_, ?_, ?_⟩ <;> intro o ho <;>
    simp only [known?, final?, pending?, Option.some.injEq, reduceCtorEq] at ho <;>
    subst ho <;> simp [Outcome.missing]

/-- An event that a status has decided is coherent. -/
theorem coherent_ofStatus (classify : ItemStatus → ItemClass) {attempt : Nat}
    (h : 1 ≤ attempt) (e : Entry) (s : ItemStatus) :
    Coherent attempt
      { e with standing := .ofStatus classify attempt e.event.id s } := by
  have hf := filed_ofStatus classify attempt e s
  refine ⟨hf.about, fun o ho => ?_, hf.final, hf.pending⟩
  have hattempt : o.attempt = attempt := by
    unfold Standing.ofStatus at ho
    cases hc : classify s <;> rw [hc] at ho <;> obtain rfl := Option.some.inj ho <;> rfl
  rw [hattempt]
  exact ⟨h, Nat.le_refl attempt⟩

/-- An event that no status is about is coherent. -/
theorem coherent_unheard {attempt : Nat} (h : 1 ≤ attempt) (e : Entry) (message : String) :
    Coherent attempt { e with standing := .unheard attempt e.event.id message } := by
  have hf := filed_unheard attempt e message
  refine ⟨hf.about, ?_, hf.final, hf.pending⟩
  rintro o ⟨⟩
  exact ⟨h, Nat.le_refl attempt⟩

variable (classify : ItemStatus → ItemClass) (attempt : Nat) (sent : List Event)
variable (statuses : List ItemStatus) (message : String) (e : Entry)

/-- An answer keeps the event of an entry. -/
@[simp] theorem answered_event :
    (e.answered classify attempt sent statuses).event = e.event := by
  unfold answered
  split
  · split
    · rfl
    · split <;> rfl
  · rfl

@[simp] theorem unanswered_event : (e.unanswered attempt sent message).event = e.event := by
  unfold unanswered
  split <;> rfl

variable {attempt e}

/-- An answer keeps an entry coherent. -/
theorem Coherent.answered (h : 1 ≤ attempt) (he : e.Coherent attempt) :
    (e.answered classify attempt sent statuses).Coherent attempt := by
  unfold Entry.answered
  split
  · split
    · exact coherent_ofStatus classify h e _
    · split
      · exact coherent_unheard h e _
      · exact he
  · exact he

/-- A missing answer keeps an entry coherent. -/
theorem Coherent.unanswered (h : 1 ≤ attempt) (he : e.Coherent attempt) :
    (e.unanswered attempt sent message).Coherent attempt := by
  unfold Entry.unanswered
  split
  · exact coherent_unheard h e _
  · exact he

/-- An answer keeps an entry filed where it belongs. -/
theorem Filed.answered (he : e.Filed) : (e.answered classify attempt sent statuses).Filed := by
  unfold Entry.answered
  split
  · split
    · exact filed_ofStatus classify attempt e _
    · split
      · exact filed_unheard attempt e _
      · exact he
  · exact he

/-- A missing answer keeps an entry filed where it belongs. -/
theorem Filed.unanswered (he : e.Filed) : (e.unanswered attempt sent message).Filed := by
  unfold Entry.unanswered
  split
  · exact filed_unheard attempt e _
  · exact he

/-- **An answer leaves a settled event alone.** -/
theorem answered_of_settled (h : e.isOutstanding = false) :
    e.answered classify attempt sent statuses = e :=
  if_neg (by simp [h])

/-- **A missing answer leaves a settled event alone.** -/
theorem unanswered_of_settled (h : e.isOutstanding = false) :
    e.unanswered attempt sent message = e :=
  if_neg (by simp [h])

theorem isOutstanding_eq (e : Entry) : e.isOutstanding = e.final?.isNone := by
  unfold isOutstanding final?
  cases e.standing <;> rfl

/-- An event whose last answer is kept is not settled. -/
theorem isOutstanding_of_pending? {o : Outcome} (h : e.pending? = some o) :
    e.isOutstanding = true := by
  unfold pending? at h
  unfold isOutstanding
  cases hs : e.standing <;> simp_all

/-- What is known of an entry is its final outcome, or else that of its last
answer. -/
theorem known?_eq (e : Entry) : e.known? = e.final?.or e.pending? := by
  unfold known? final? pending?
  cases e.standing <;> rfl

/-- What settles an event is known of it. -/
theorem known?_of_final? {o : Outcome} (h : e.final? = some o) : e.known? = some o := by
  unfold final? at h
  unfold known?
  cases hs : e.standing <;> simp_all

end Entry

namespace Ledger

/-! ## Ledgers -/

variable (l : Ledger) (classify : ItemStatus → ItemClass) (sent : List Event)
variable (statuses : List ItemStatus) (f : Failure) (n : Nat)

/-- An answer does not change the batch. -/
@[simp] theorem batch_answer : (l.answer classify sent statuses).1.batch = l.batch := by
  rw [answer_eq]
  show (l.entries.map _).map _ = l.entries.map _
  rw [List.map_map]
  exact List.map_congr_left fun e _ => Entry.answered_event classify l.attempt sent statuses e

/-- A missing answer does not change the batch. -/
@[simp] theorem batch_unanswered : (l.unanswered sent f).batch = l.batch := by
  rw [unanswered_eq]
  show (l.entries.map _).map _ = l.entries.map _
  rw [List.map_map]
  exact List.map_congr_left fun e _ => Entry.unanswered_event l.attempt sent f.message e

@[simp] theorem batch_advance : (l.advance n).batch = l.batch := rfl

@[simp] theorem attempt_answer :
    (l.answer classify sent statuses).1.attempt = l.attempt := by
  rw [answer_eq]

@[simp] theorem attempt_unanswered : (l.unanswered sent f).attempt = l.attempt := by
  rw [unanswered_eq]

@[simp] theorem sink_answer : (l.answer classify sent statuses).1.sink = l.sink := by
  rw [answer_eq]

@[simp] theorem sink_unanswered : (l.unanswered sent f).sink = l.sink := by
  rw [unanswered_eq]

variable {l}

/-- **Answers keep a ledger coherent**, whatever request they are to. -/
theorem Coherent.answer (hl : l.Coherent) (h : 1 ≤ l.attempt) :
    (l.answer classify sent statuses).1.Coherent := by
  intro e he
  rw [attempt_answer]
  rw [answer_eq] at he
  obtain ⟨x, hx, rfl⟩ := List.mem_map.mp he
  exact (hl x hx).answered classify sent statuses h

/-- **Missing answers keep a ledger coherent.** -/
theorem Coherent.unanswered (hl : l.Coherent) (h : 1 ≤ l.attempt) :
    (l.unanswered sent f).Coherent := by
  intro e he
  rw [attempt_unanswered]
  rw [unanswered_eq] at he
  obtain ⟨x, hx, rfl⟩ := List.mem_map.mp he
  exact (hl x hx).unanswered sent f.message h

theorem Coherent.advance (hl : l.Coherent) (h : l.attempt ≤ n) : (l.advance n).Coherent :=
  fun e he => (hl e he).mono h

/-! ## The start -/

/-- **No identity is repeated** in a list after others exactly when they are
all different, from each other and from the others. -/
theorem firstRepeated_eq_none_iff : ∀ (ids seen : List EventId),
    firstRepeated seen ids = none ↔ ids.Nodup ∧ ∀ id ∈ ids, id ∉ seen := by
  intro ids
  induction ids with
  | nil => simp [firstRepeated]
  | cons id rest ih =>
    intro seen
    unfold firstRepeated
    by_cases h : seen.contains id = true
    · rw [if_pos h]
      have hmem : id ∈ seen := by simpa using h
      simp [hmem]
    · rw [if_neg h, ih, List.nodup_cons]
      have hmem : id ∉ seen := by simpa using h
      simp only [List.mem_cons, not_or, forall_eq_or_imp]
      constructor
      · rintro ⟨hn, hs⟩
        exact ⟨⟨fun hin => (hs id hin).1 rfl, hn⟩, hmem, fun x hx => (hs x hx).2⟩
      · rintro ⟨⟨hin, hn⟩, -, hs⟩
        exact ⟨hn, fun x hx => ⟨fun hx' => hin (hx' ▸ hx), hs x hx⟩⟩

/-- The ledger that a batch of different identities starts with. -/
def fresh (sink : String) (batch : List Event) : Ledger :=
  ⟨sink, batch.map fun e => ⟨e, .outstanding none⟩, 1⟩

/-- **A batch whose identities are all different starts with a fresh ledger.** -/
theorem start_of_nodup (sink : String) {batch : List Event}
    (h : (batch.map (·.id)).Nodup) : start sink batch = .ok (fresh sink batch) := by
  have hnone := (firstRepeated_eq_none_iff (batch.map (·.id)) []).mpr
    ⟨h, fun _ _ => List.not_mem_nil⟩
  unfold start
  rw [hnone]
  rfl

/-- **A batch in which an identity is repeated does not start**: the failure is
the client's, and names the first identity that stands there again. -/
theorem start_of_not_nodup (sink : String) {batch : List Event}
    (h : ¬ (batch.map (·.id)).Nodup) :
    ∃ id, firstRepeated [] (batch.map (·.id)) = some id ∧
      start sink batch
        = .error (.client sink s!"duplicate event id '{id.text}' in batch") := by
  cases hr : firstRepeated [] (batch.map (·.id)) with
  | none => exact absurd ((firstRepeated_eq_none_iff _ _).mp hr).1 h
  | some id =>
    refine ⟨id, rfl, ?_⟩
    unfold start
    rw [hr]

/-- A fresh ledger is coherent. -/
theorem coherent_fresh (sink : String) (batch : List Event) : (fresh sink batch).Coherent := by
  intro e he
  obtain ⟨e, -, rfl⟩ := List.mem_map.mp he
  exact Entry.coherent_fresh 1 e

/-- A fresh ledger is of its batch. -/
theorem batch_fresh (sink : String) (batch : List Event) :
    (fresh sink batch).batch = batch := by
  show (batch.map _).map _ = batch
  rw [List.map_map]
  exact List.map_id batch

/-- **Its first request is the batch.** -/
theorem request_fresh (sink : String) (batch : List Event) :
    (fresh sink batch).request = batch := by
  show ((batch.map _).filter _).map _ = batch
  rw [List.filter_map, List.map_map]
  exact (congrArg _ (List.filter_eq_self.mpr fun _ _ => rfl)).trans (List.map_id batch)

/-! ## Reports -/

/-- Nothing is outstanding exactly when every entry is settled. -/
theorem isResolved_iff (l : Ledger) :
    l.isResolved = true ↔ ∀ e ∈ l.entries, e.isOutstanding = false := by
  unfold isResolved outstanding
  rw [decide_eq_true_iff, List.countP_eq_zero]
  simp only [Bool.not_eq_true]

/-- Every event of a resolved ledger has a final outcome. -/
theorem exists_final? {l : Ledger} (h : l.isResolved = true) {e : Entry}
    (he : e ∈ l.entries) : ∃ o, e.final? = some o := by
  have hs := (isResolved_iff l).mp h e he
  rw [Entry.isOutstanding_eq, Option.isNone_eq_false_iff] at hs
  exact Option.isSome_iff_exists.mp hs

/-- A list whose items all have a value has one value for each of them. -/
theorem map_filterMap_of_some {α β γ : Type} (xs : List α) (v : α → Option β) (p : α → γ)
    (q : β → γ) (h : ∀ x ∈ xs, ∃ y, v x = some y ∧ q y = p x) :
    (xs.filterMap v).map q = xs.map p := by
  induction xs with
  | nil => rfl
  | cons x xs ih =>
    obtain ⟨y, hy, hq⟩ := h x List.mem_cons_self
    rw [List.filterMap_cons_some hy, List.map_cons, List.map_cons, hq,
      ih (fun x hx => h x (List.mem_cons_of_mem _ hx))]

/-- A list some of whose items have a value has the values in their order. -/
theorem map_filterMap_sublist {α β γ : Type} (xs : List α) (v : α → Option β) (p : α → γ)
    (q : β → γ) (h : ∀ x ∈ xs, ∀ y, v x = some y → q y = p x) :
    ((xs.filterMap v).map q).Sublist (xs.map p) := by
  induction xs with
  | nil => exact List.Sublist.slnil
  | cons x xs ih =>
    have ih := ih fun x hx => h x (List.mem_cons_of_mem _ hx)
    cases hv : v x with
    | none =>
      rw [List.filterMap_cons_none hv]
      exact ih.cons (p x)
    | some y =>
      rw [List.filterMap_cons_some hv, List.map_cons, h x List.mem_cons_self y hv]
      exact ih.cons_cons (p x)

/-- **The report of a resolved ledger has one outcome for each event of the
batch, in its order.** -/
theorem report_ids (hl : l.Coherent) (h : l.isResolved = true) (retries : Nat) :
    (l.report retries).outcomes.map (·.id) = l.batch.map (·.id) := by
  show (l.entries.filterMap _).map _ = (l.entries.map _).map _
  rw [List.map_map]
  refine map_filterMap_of_some _ _ _ _ fun e he => ?_
  obtain ⟨o, ho⟩ := exists_final? h he
  exact ⟨o, ho, (hl e he).about o (Entry.known?_of_final? ho)⟩

theorem mem_report {l : Ledger} {retries : Nat} {o : Outcome} :
    o ∈ (l.report retries).outcomes ↔ ∃ e ∈ l.entries, e.final? = some o :=
  List.mem_filterMap

/-- **Every outcome of a report is final**, and belongs to an attempt that was
made. -/
theorem report_isFinal (hl : l.Coherent) {retries : Nat} {o : Outcome}
    (ho : o ∈ (l.report retries).outcomes) :
    o.isFinal = true ∧ 1 ≤ o.attempt ∧ o.attempt ≤ l.attempt := by
  obtain ⟨e, he, ho⟩ := mem_report.mp ho
  exact ⟨(hl e he).final o ho, (hl e he).made o (Entry.known?_of_final? ho)⟩

end Ledger

/-- **Final outcomes are delivered or refused**: counted together they are all of
them. -/
theorem countP_success_add_isDropped {outcomes : List Outcome}
    (h : ∀ o ∈ outcomes, o.isFinal = true) :
    outcomes.countP (·.success) + outcomes.countP (·.isDropped) = outcomes.length := by
  have hd : outcomes.countP (·.isDropped) = outcomes.countP (fun o => !o.success) :=
    List.countP_congr fun o ho => by
      rw [Outcome.isDropped_eq_not_success (h o ho)]
  rw [hd, List.length_eq_countP_add_countP (fun o : Outcome => o.success)]
  refine congrArg (_ + ·) (List.countP_congr fun o _ => ?_)
  simp

end Delivery

end Courier
