import Mathlib.Data.List.Nodup
import Courier.Sink.Bulk
import Courier.Proofs.Delivery.Rounds
/-!
# Which event an item of a bulk answer decides

Two alignments meet in a bulk answer. The sink gives the items the identities
of the events that are in the request, by position, and puts its own refusals
after them. The ledger then takes a status without an identity to be about the
event at its position in the whole batch, the events that were left out of the
request among them, and lets the first status about an event count.

So the events in the request get the items at their positions
(`deciding_alignTo_of_mem`). For an event that was left out it depends on the
length of the answer: an item beyond the events in the request keeps no
identity, and when an event that was left out stands at its position in the
batch, it is the item that counts and not the refusal
(`SearchBulk.round_aligns_iff`, `SearchBulk.round_delivers_left_out`).
-/

namespace Courier

open Courier.Delivery

namespace Delivery

variable {sent : List Event} {id : EventId}

/-! ## Statuses one after another -/

theorem aboutEvent_of_named {x : ItemStatus} (h : x.id = some id) (position : Nat) :
    aboutEvent sent position x = some id := by
  unfold aboutEvent
  rw [h]

/-- **The first of two lists of statuses decides**, and the second one only where
it says nothing. -/
theorem deciding_append (xs ys : List ItemStatus) : ∀ position : Nat,
    deciding sent id position (xs ++ ys)
      = (deciding sent id position xs).or (deciding sent id (position + xs.length) ys) := by
  induction xs with
  | nil =>
    intro position
    rfl
  | cons x xs ih =>
    intro position
    rw [List.cons_append, deciding, deciding]
    by_cases h : aboutEvent sent position x = some id
    · rw [if_pos h, if_pos h, Option.some_or]
    · rw [if_neg h, if_neg h, ih, List.length_cons, Nat.add_right_comm, Nat.add_assoc]

/-- Statuses that name other events decide nothing. -/
theorem deciding_of_named {xs : List ItemStatus} (h : ∀ x ∈ xs, ∃ id', x.id = some id' ∧ id' ≠ id) :
    ∀ position : Nat, deciding sent id position xs = none := by
  induction xs with
  | nil =>
    intro position
    rfl
  | cons x xs ih =>
    intro position
    obtain ⟨id', hx, hne⟩ := h x List.mem_cons_self
    rw [deciding, aboutEvent_of_named hx, if_neg (fun h' => hne (Option.some.inj h'))]
    exact ih (fun y hy => h y (List.mem_cons_of_mem x hy)) (position + 1)

/-- **Statuses that name nobody decide by position**: an event is decided by the
one at its own position in the request. -/
theorem deciding_of_unnamed (hn : (sent.map (·.id)).Nodup) {p : Nat} {e : Event}
    (he : sent[p]? = some e) {xs : List ItemStatus} (h : ∀ x ∈ xs, x.id = none) :
    ∀ position : Nat, deciding sent e.id position xs
      = if position ≤ p then xs[p - position]? else none := by
  induction xs with
  | nil =>
    intro position
    rw [List.getElem?_nil, ite_self]
    rfl
  | cons x xs ih =>
    intro position
    have habout : aboutEvent sent position x = some e.id ↔ position = p := by
      unfold aboutEvent
      rw [h x List.mem_cons_self]
      show sent[position]?.map (·.id) = some e.id ↔ _
      rw [← List.getElem?_map]
      have hp : (sent.map (·.id))[p]? = some e.id := by rw [List.getElem?_map, he]; rfl
      refine ⟨fun h' => ?_, fun h' => h' ▸ hp⟩
      refine (List.getElem?_inj ?_ hn).mp (h'.trans hp.symm)
      exact (List.getElem?_eq_some_iff.mp h').1
    rw [deciding]
    by_cases hp : position = p
    · rw [if_pos (habout.mpr hp), if_pos (Nat.le_of_eq hp), hp, Nat.sub_self]
      rfl
    · rw [if_neg (fun h' => hp (habout.mp h')),
        ih (fun y hy => h y (List.mem_cons_of_mem x hy))]
      by_cases hle : position ≤ p
      · obtain ⟨d, rfl⟩ : ∃ d, p = position + (d + 1) := ⟨p - position - 1, by omega⟩
        rw [if_pos hle, if_pos (by omega), Nat.add_sub_cancel_left,
          List.getElem?_cons_succ]
        exact congrArg (fun k => xs[k]?) (by omega)
      · rw [if_neg hle, if_neg (by omega)]

end Delivery

namespace Sink

variable {sent : List Event} {id : EventId}

/-! ## Statuses aligned to the events in a request -/

/-- There is nobody to align to. -/
@[simp] theorem alignTo_nil (xs : List ItemStatus) : alignTo [] xs = xs := by
  induction xs with
  | nil => rfl
  | cons x xs ih => rw [alignTo, ih]

/-- **An event in the request is decided by the status at its position there**,
and by none when the answer is shorter. -/
theorem deciding_alignTo_of_mem (ids : List EventId) : ∀ (xs : List ItemStatus)
    (_ : ∀ x ∈ xs, x.id = none) (_ : ids.Nodup) {k : Nat} (_ : ids[k]? = some id)
    (position : Nat),
    deciding sent id position (alignTo ids xs) = xs[k]?.map fun x => { x with id := some id } := by
  induction ids with
  | nil =>
    intro xs _ _ k hk
    simp at hk
  | cons id' ids ih =>
    intro xs hx hn k hk position
    cases xs with
    | nil => rfl
    | cons x xs =>
      have hid : x.id.getD id' = id' := by rw [hx x List.mem_cons_self]; rfl
      rw [alignTo, deciding, hid, aboutEvent_of_named rfl]
      cases k with
      | zero =>
        obtain rfl : id' = id := by simpa using hk
        exact if_pos rfl
      | succ k =>
        rw [List.getElem?_cons_succ] at hk
        have hne : id' ≠ id := fun h =>
          (List.nodup_cons.mp hn).1 (h ▸ List.mem_of_getElem? hk)
        rw [if_neg (fun h => hne (Option.some.inj h)), List.getElem?_cons_succ]
        exact ih xs (fun y hy => hx y (List.mem_cons_of_mem x hy))
          (List.nodup_cons.mp hn).2 hk (position + 1)

/-- **An event that is not in the request is passed over by the aligned
statuses**, and what may decide it are those beyond them. -/
theorem deciding_alignTo_of_not_mem (ids : List EventId) : ∀ (xs : List ItemStatus)
    (_ : ∀ x ∈ xs, x.id = none) (_ : id ∉ ids) (position : Nat),
    deciding sent id position (alignTo ids xs)
      = deciding sent id (position + ids.length) (xs.drop ids.length) := by
  induction ids with
  | nil =>
    intro xs _ _ position
    rw [alignTo_nil]
    rfl
  | cons id' ids ih =>
    intro xs hx hid position
    cases xs with
    | nil => rfl
    | cons x xs =>
      have hx' : x.id.getD id' = id' := by rw [hx x List.mem_cons_self]; rfl
      have hne : id' ≠ id := fun h => hid (h ▸ List.mem_cons_self)
      rw [alignTo, deciding, hx', aboutEvent_of_named rfl, if_neg (fun h => hne (Option.some.inj h)),
        ih xs (fun y hy => hx y (List.mem_cons_of_mem x hy))
          (fun h => hid (List.mem_cons_of_mem id' h)) (position + 1),
        List.length_cons, List.drop_succ_cons, Nat.add_right_comm, Nat.add_assoc]

/-! ## What the sink leaves out -/

namespace BulkBody

/-- Whether an event is in the request for its batch. -/
def encodes (e : Event) : Bool :=
  match bulkDocument e.payload with
  | .ok _ => true
  | .error _ => false

/-- The answer that the sink itself gives to an event it leaves out. -/
def refusal? (e : Event) : Option ItemStatus :=
  match bulkDocument e.payload with
  | .ok _ => none
  | .error reason => some ⟨some e.id, 400, some reason⟩

theorem encodes_of_error {e : Event} {reason : String}
    (h : bulkDocument e.payload = .error reason) : encodes e = false := by
  unfold encodes
  rw [h]

theorem refusal?_of_error {e : Event} {reason : String}
    (h : bulkDocument e.payload = .error reason) :
    refusal? e = some ⟨some e.id, 400, some reason⟩ := by
  unfold refusal?
  rw [h]

/-- An event in the request is not refused. -/
theorem refusal?_of_encodes {e : Event} (h : encodes e = true) : refusal? e = none := by
  unfold encodes at h
  unfold refusal?
  cases hd : bulkDocument e.payload with
  | ok document => rfl
  | error reason =>
    rw [hd] at h
    exact Bool.noConfusion h

/-- A refusal names the event that is refused. -/
theorem id_of_refusal? {e : Event} {x : ItemStatus} (h : refusal? e = some x) :
    x.id = some e.id := by
  unfold refusal? at h
  cases hd : bulkDocument e.payload with
  | ok document => simp [hd] at h
  | error reason =>
    rw [hd] at h
    exact (Option.some.inj h) ▸ rfl

/-- **The events of a batch, one after another**, are put in the request or
refused. -/
theorem foldl_add (index : String) (batch : List Event) : ∀ b : BulkBody,
    (batch.foldl (add index) b).included = b.included ++ (batch.filter encodes).map (·.id) ∧
    (batch.foldl (add index) b).rejected = b.rejected ++ batch.filterMap refusal? := by
  induction batch with
  | nil =>
    intro b
    exact ⟨(List.append_nil _).symm, (List.append_nil _).symm⟩
  | cons e batch ih =>
    intro b
    obtain ⟨hi, hr⟩ := ih (add index b e)
    rw [List.foldl_cons, hi, hr]
    unfold add
    cases hd : bulkDocument e.payload with
    | ok document =>
      have he : encodes e = true := by unfold encodes; rw [hd]
      rw [List.filter_cons_of_pos he, List.filterMap_cons_none (refusal?_of_encodes he)]
      exact ⟨List.append_assoc _ _ _, rfl⟩
    | error reason =>
      rw [List.filter_cons_of_neg (by rw [encodes_of_error hd]; exact Bool.false_ne_true),
        List.filterMap_cons_some (refusal?_of_error hd)]
      exact ⟨rfl, List.append_assoc _ _ _⟩

theorem included_encode (index : String) (batch : List Event) :
    (encode index batch).included = (batch.filter encodes).map (·.id) :=
  (foldl_add index batch ⟨[], [], []⟩).1

theorem rejected_encode (index : String) (batch : List Event) :
    (encode index batch).rejected = batch.filterMap refusal? :=
  (foldl_add index batch ⟨[], [], []⟩).2

/-- The refusals of other events decide nothing. -/
theorem deciding_refusals_of_ne {batch : List Event} (h : id ∉ batch.map (·.id))
    (position : Nat) : deciding sent id position (batch.filterMap refusal?) = none := by
  refine deciding_of_named (fun x hx => ?_) position
  obtain ⟨e, he, hr⟩ := List.mem_filterMap.mp hx
  exact ⟨e.id, id_of_refusal? hr, fun h' => h (List.mem_map.mpr ⟨e, he, h'⟩)⟩

/-- **Among the refusals of a batch an event is decided by its own.** -/
theorem deciding_refusals {e : Event} (batch : List Event) :
    ∀ (_ : (batch.map (·.id)).Nodup) (_ : e ∈ batch) (position : Nat),
    deciding sent e.id position (batch.filterMap refusal?) = refusal? e := by
  induction batch with
  | nil => exact fun _ he => absurd he List.not_mem_nil
  | cons e' batch ih =>
    intro hn he position
    obtain ⟨hfresh, hn⟩ := List.nodup_cons.mp hn
    obtain rfl | he := List.mem_cons.mp he
    · cases hr : refusal? e with
      | none =>
        rw [List.filterMap_cons_none hr]
        exact deciding_refusals_of_ne hfresh position
      | some x =>
        rw [List.filterMap_cons_some hr, deciding,
          aboutEvent_of_named (id_of_refusal? hr), if_pos rfl]
    · have hne : e'.id ≠ e.id := fun h => hfresh (List.mem_map.mpr ⟨e, he, h.symm⟩)
      cases hr : refusal? e' with
      | none =>
        rw [List.filterMap_cons_none hr]
        exact ih hn he position
      | some x =>
        rw [List.filterMap_cons_some hr, deciding,
          aboutEvent_of_named (id_of_refusal? hr),
          if_neg (fun h => hne (Option.some.inj h))]
        exact ih hn he (position + 1)

end BulkBody

/-! ## A request sent and its answer taken in -/

/-- How an event stands that an item decides, or that no item is about. -/
def itemStanding (attempt : Nat) (id : EventId) : Option BulkItem → Standing
  | some i => .ofStatus ItemStatus.classify attempt id i.answer
  | none => .unheard attempt id "no status in response"

/-- How an event stands that was refused because it cannot be put in a request. -/
def refusedStanding (attempt : Nat) (id : EventId) (reason : String) : Standing :=
  .settled ⟨id, false, 400, false, attempt, some reason⟩

/-- **An item stands in for a refusal** exactly when it says the same: the code
four hundred and the reason of the refusal. -/
theorem itemStanding_eq_refused_iff {attempt : Nat} {id : EventId} {i : BulkItem}
    {reason : String} :
    itemStanding attempt id (some i) = refusedStanding attempt id reason
      ↔ i.status = 400 ∧ i.error.map describeError = some reason := by
  show Standing.ofStatus ItemStatus.classify attempt id i.answer
    = .settled ⟨id, false, 400, false, attempt, some reason⟩ ↔ _
  unfold Standing.ofStatus
  constructor
  · intro h
    cases hc : ItemStatus.classify i.answer <;> rw [hc] at h <;>
      simp only [Standing.settled.injEq, reduceCtorEq, Outcome.classified,
        Outcome.mk.injEq] at h
    · exact absurd h.2.1 (by decide)
    · exact ⟨h.2.2.1, h.2.2.2.2.2⟩
  · rintro ⟨hs, he⟩
    have hc : ItemStatus.classify i.answer = .fatal := by
      show ItemClass.ofStatus i.status = .fatal
      rw [hs]
      rfl
    rw [hc]
    simp only [Outcome.classified, BulkItem.answer, hs, he]
    rfl

namespace SearchBulk

/-- No request is made when every event is left out of it. -/
theorem request?_eq_none_iff (s : SearchBulk) (batch : List Event) :
    s.request? batch = none ↔ batch.filter BulkBody.encodes = [] := by
  have hempty : (BulkBody.encode s.index batch).included.isEmpty
      = (batch.filter BulkBody.encodes).isEmpty := by
    rw [BulkBody.included_encode, List.isEmpty_map]
  rw [← List.isEmpty_iff, ← hempty]
  show (if (BulkBody.encode s.index batch).included.isEmpty then none else some _) = none ↔ _
  cases (BulkBody.encode s.index batch).included.isEmpty <;> simp

/-- **The statuses of a batch**: the refusals alone when nothing is in the request,
or else the items, aligned to what is in it, and then the refusals. -/
def statuses (batch : List Event) (items : List BulkItem) : List ItemStatus :=
  if batch.filter BulkBody.encodes = [] then batch.filterMap BulkBody.refusal?
  else alignTo ((batch.filter BulkBody.encodes).map (·.id)) (items.map (·.answer))
    ++ batch.filterMap BulkBody.refusal?

/-- A readable answer makes the statuses of its items. -/
theorem send_eq (s : SearchBulk) {exchange : Request → Ending} {batch : List Event}
    {status : Nat} {body : List UInt8} {items : List BulkItem}
    (hx : ∀ q, s.request? batch = some q → exchange q = .response status body)
    (hs : 200 ≤ status ∧ status ≤ 299)
    (hread : Json.decode bulkItems (String.ofList (Text.Utf8.decodeLossy body))
      = .ok (items.map some)) :
    s.send exchange batch = .ok (statuses batch items) := by
  unfold statuses
  cases hq : s.request? batch with
  | none =>
    have hnil := (request?_eq_none_iff s batch).mp hq
    unfold send
    rw [hq, if_pos hnil, ← BulkBody.rejected_encode s.index]
  | some q =>
    have hne : batch.filter BulkBody.encodes ≠ [] := fun h => by
      rw [(request?_eq_none_iff s batch).mpr h] at hq
      cases hq
    have hbody : successBody s.name s.endpoint (.response status body)
        = .ok (status, String.ofList (Text.Utf8.decodeLossy body)) := if_pos hs
    have hparse : parseBulkAnswer (String.ofList (Text.Utf8.decodeLossy body))
        = .ok (items.map (·.answer)) := by
      unfold parseBulkAnswer
      rw [hread]
      show Except.ok (((items.map some).filterMap id).map (·.answer)) = _
      rw [List.filterMap_map, Function.id_comp, List.filterMap_some]
    have hsend : s.send exchange batch = s.receive batch (exchange q) := by
      unfold send
      rw [hq]
    rw [if_neg hne, hsend, hx q hq]
    unfold receive
    rw [hbody]
    dsimp only [bind, Except.bind]
    rw [hparse, BulkBody.included_encode, BulkBody.rejected_encode]

/-- How an event stands that was left out, when it stands at a position of the
batch and so many events are in the request. -/
def leftOutStanding (attempt encoded : Nat) (items : List BulkItem) (p : Nat) (id : EventId)
    (reason : String) : Standing :=
  if encoded = 0 ∨ p < encoded ∨ items.length ≤ p then refusedStanding attempt id reason
  else itemStanding attempt id items[p]?

variable {l : Ledger} {items : List BulkItem} {e : Event}

/-- The answer of an item that names nobody names nobody. -/
theorem answers_unnamed (h : ∀ i ∈ items, i.id = none) :
    ∀ x ∈ items.map (·.answer), x.id = none := by
  intro x hx
  obtain ⟨i, hi, rfl⟩ := List.mem_map.mp hx
  show i.id.map _ = none
  rw [h i hi]
  rfl

/-- **An event in the request stands as the item at its position there says.** -/
theorem after_of_encoded (hn : (l.request.map (·.id)).Nodup) (hid : ∀ i ∈ items, i.id = none)
    {k : Nat} (he : (l.request.filter BulkBody.encodes)[k]? = some e) :
    l.after ItemStatus.classify (statuses l.request items) e
      = itemStanding l.attempt e.id items[k]? := by
  obtain ⟨hmem, henc⟩ := List.mem_filter.mp (List.mem_of_getElem? he)
  have hids : ((l.request.filter BulkBody.encodes).map (·.id)).Nodup :=
    hn.sublist (List.filter_sublist.map _)
  have hk : ((l.request.filter BulkBody.encodes).map (·.id))[k]? = some e.id := by
    rw [List.getElem?_map, he]
    rfl
  have hne : l.request.filter BulkBody.encodes ≠ [] :=
    List.ne_nil_of_mem (List.mem_of_getElem? he)
  unfold Ledger.after statuses
  rw [if_neg hne, deciding_append, deciding_alignTo_of_mem _ _ (answers_unnamed hid) hids hk,
    List.getElem?_map, BulkBody.deciding_refusals _ hn hmem, BulkBody.refusal?_of_encodes henc]
  cases items[k]? with
  | none => rfl
  | some i => rfl

/-- **An event that was left out stands refused**, unless an item beyond those of
the events in the request stands at its position. -/
theorem after_of_left_out (hn : (l.request.map (·.id)).Nodup) (hid : ∀ i ∈ items, i.id = none)
    {p : Nat} {reason : String} (he : l.request[p]? = some e)
    (hr : bulkDocument e.payload = .error reason) :
    l.after ItemStatus.classify (statuses l.request items) e
      = leftOutStanding l.attempt (l.request.filter BulkBody.encodes).length items p e.id
          reason := by
  have hmem : e ∈ l.request := List.mem_of_getElem? he
  have hout : e.id ∉ (l.request.filter BulkBody.encodes).map (·.id) := fun h => by
    obtain ⟨e', he', heq⟩ := List.mem_map.mp h
    obtain ⟨hmem', henc⟩ := List.mem_filter.mp he'
    obtain rfl := List.inj_on_of_nodup_map hn hmem' hmem heq
    rw [BulkBody.encodes_of_error hr] at henc
    exact Bool.noConfusion henc
  unfold Ledger.after leftOutStanding statuses
  by_cases hnil : l.request.filter BulkBody.encodes = []
  · rw [if_pos hnil, BulkBody.deciding_refusals _ hn hmem, BulkBody.refusal?_of_error hr,
      if_pos (.inl (List.length_eq_zero_iff.mpr hnil))]
    rfl
  have hzero : (l.request.filter BulkBody.encodes).length ≠ 0 := fun h =>
    hnil (List.length_eq_zero_iff.mp h)
  rw [if_neg hnil, deciding_append,
    deciding_alignTo_of_not_mem _ _ (answers_unnamed hid) hout,
    deciding_of_unnamed hn he (fun x hx => answers_unnamed hid x (List.mem_of_mem_drop hx)),
    BulkBody.deciding_refusals _ hn hmem, BulkBody.refusal?_of_error hr, Nat.zero_add,
    List.length_map, List.getElem?_drop, List.getElem?_map]
  generalize (l.request.filter BulkBody.encodes).length = n at hzero ⊢
  by_cases hle : n ≤ p
  · rw [if_pos hle, Nat.add_sub_cancel' hle]
    cases hi : items[p]? with
    | none =>
      rw [if_pos (.inr (.inr (List.getElem?_eq_none_iff.mp hi)))]
      rfl
    | some i =>
      have hlt : p < items.length := (List.getElem?_eq_some_iff.mp hi).1
      rw [if_neg (by omega)]
      rfl
  · rw [if_neg hle, if_pos (.inr (.inl (Nat.lt_of_not_le hle)))]
    rfl

/-- An event of a ledger with distinct identities stands in one way. -/
theorem standing_unique {l : Ledger} (hn : (l.batch.map (·.id)).Nodup) {st st' : Standing}
    (h : ⟨e, st⟩ ∈ l.entries) (h' : ⟨e, st'⟩ ∈ l.entries) : st = st' := by
  have hn' : (l.entries.map (·.event.id)).Nodup := by
    have hb : l.batch.map (·.id) = l.entries.map (·.event.id) := List.map_map
    rwa [hb] at hn
  exact congrArg Entry.standing (List.inj_on_of_nodup_map hn' h h' rfl)

/-- **A ledger after an answer whose items count for the events in the request
only.** -/
structure Aligned (l : Ledger) (items : List BulkItem) (l' : Ledger) : Prop where
  /-- The events in the request stand as the items at their positions there say,
  and those beyond the last item may be sent again. -/
  encoded : ∀ (k : Nat) e, (l.request.filter BulkBody.encodes)[k]? = some e →
    ⟨e, itemStanding l.attempt e.id items[k]?⟩ ∈ l'.entries
  /-- The events that were left out are refused. -/
  left_out : ∀ e ∈ l.request, ∀ reason, bulkDocument e.payload = .error reason →
    ⟨e, refusedStanding l.attempt e.id reason⟩ ∈ l'.entries
  /-- What was settled before stands as it did. -/
  settled : ∀ x ∈ l.entries, x.isOutstanding = false → x ∈ l'.entries

/-- **No item is mistaken for the answer to an event that was left out**: where one
beyond those of the events in the request stands at the position of such an
event, it says what the refusal says. -/
def NoneMistaken (request : List Event) (items : List BulkItem) : Prop :=
  request.filter BulkBody.encodes = [] ∨
    ∀ p e reason i, request[p]? = some e → bulkDocument e.payload = .error reason →
      (request.filter BulkBody.encodes).length ≤ p → items[p]? = some i →
      i.status = 400 ∧ i.error.map describeError = some reason

/-- How an event that was left out stands when the answer has no item at its
position beyond those of the events in the request. -/
theorem leftOutStanding_eq_refused_iff {request : List Event} {p : Nat} {reason : String}
    {attempt : Nat} :
    leftOutStanding attempt (request.filter BulkBody.encodes).length items p e.id reason
        = refusedStanding attempt e.id reason
      ↔ request.filter BulkBody.encodes = [] ∨
        ∀ i, (request.filter BulkBody.encodes).length ≤ p → items[p]? = some i →
          i.status = 400 ∧ i.error.map describeError = some reason := by
  unfold leftOutStanding
  rw [← List.length_eq_zero_iff]
  generalize (request.filter BulkBody.encodes).length = n
  by_cases h : n = 0 ∨ p < n ∨ items.length ≤ p
  · rw [if_pos h]
    refine iff_of_true rfl ?_
    obtain h | h | h := h
    · exact .inl h
    · exact .inr fun i hle _ => absurd h (Nat.not_lt.mpr hle)
    · refine .inr fun i _ hi => ?_
      rw [List.getElem?_eq_none_iff.mpr h] at hi
      cases hi
  · rw [if_neg h]
    simp only [not_or, Nat.not_lt, Nat.not_le] at h
    rw [List.getElem?_eq_getElem h.2.2, itemStanding_eq_refused_iff]
    refine ⟨fun h' => .inr fun i _ hi => Option.some.inj hi ▸ h', fun h' => ?_⟩
    exact (h'.resolve_left h.1) _ h.2.1 rfl

/-- **What a bulk answer makes of a batch, exactly.** The events in the request get
the items at their positions there. An event that was left out is refused, or
stands as the item at its position in the batch says when that item is beyond
those of the events in the request. So the items count for the events in the
request only, exactly when none of them is mistaken for the answer to an event
that was left out. -/
theorem round_aligned_iff (s : SearchBulk) (exchange : Request → Ending) (l : Ledger)
    (hn : (l.batch.map (·.id)).Nodup) {status : Nat} {body : List UInt8}
    (hx : ∀ q, s.request? l.request = some q → exchange q = .response status body)
    (hs : 200 ≤ status ∧ status ≤ 299)
    (hread : Json.decode bulkItems (String.ofList (Text.Utf8.decodeLossy body))
      = .ok (items.map some))
    (hid : ∀ i ∈ items, i.id = none) :
    ∃ l', s.round exchange l = .ok l' ∧
      (∀ (k : Nat) e, (l.request.filter BulkBody.encodes)[k]? = some e →
        ⟨e, itemStanding l.attempt e.id items[k]?⟩ ∈ l'.entries) ∧
      (∀ (p : Nat) e reason, l.request[p]? = some e → bulkDocument e.payload = .error reason →
        ⟨e, leftOutStanding l.attempt (l.request.filter BulkBody.encodes).length items p e.id
          reason⟩ ∈ l'.entries) ∧
      (Aligned l items l' ↔ NoneMistaken l.request items) := by
  have hreq : (l.request.map (·.id)).Nodup := hn.sublist (l.request_sublist.map _)
  have hround : s.round exchange l
      = .ok (l.answer ItemStatus.classify l.request (statuses l.request items)).1 := by
    unfold round
    rw [send_eq s hx hs hread]
    rfl
  refine ⟨_, hround, ?_⟩
  have hbatch : (((l.answer ItemStatus.classify l.request
      (statuses l.request items)).1.batch).map (·.id)).Nodup := by
    rwa [Ledger.batch_answer]
  have hin : ∀ e ∈ l.request, ⟨e, l.after ItemStatus.classify (statuses l.request items) e⟩
      ∈ (l.answer ItemStatus.classify l.request (statuses l.request items)).1.entries :=
    fun e he => Ledger.mem_answer he _ _
  have hkept : ∀ x ∈ l.entries, x.isOutstanding = false →
      x ∈ (l.answer ItemStatus.classify l.request (statuses l.request items)).1.entries := by
    intro x hxm ho
    rw [Ledger.answer_eq]
    exact List.mem_map.mpr ⟨x, hxm, Entry.answered_of_settled _ _ _ ho⟩
  generalize (l.answer ItemStatus.classify l.request (statuses l.request items)).1 = l'
    at hbatch hin hkept ⊢
  have henc : ∀ (k : Nat) e, (l.request.filter BulkBody.encodes)[k]? = some e →
      ⟨e, itemStanding l.attempt e.id items[k]?⟩ ∈ l'.entries := by
    intro k e he
    rw [← after_of_encoded hreq hid he]
    exact hin e (List.mem_filter.mp (List.mem_of_getElem? he)).1
  have hout : ∀ (p : Nat) e reason, l.request[p]? = some e →
      bulkDocument e.payload = .error reason →
      ⟨e, leftOutStanding l.attempt (l.request.filter BulkBody.encodes).length items p e.id
        reason⟩ ∈ l'.entries := by
    intro p e reason he hr
    rw [← after_of_left_out hreq hid he hr]
    exact hin e (List.mem_of_getElem? he)
  refine ⟨henc, hout, fun ha => ?_, fun hm => ⟨henc, ?_, hkept⟩⟩
  · -- an event stands in one way only, so as it does stand is refused
    refine Classical.byContradiction fun hnot => ?_
    obtain ⟨hne, hnot⟩ := not_or.mp hnot
    refine hnot fun p e reason i he hr hle hi => ?_
    have hmem := List.mem_of_getElem? he
    have heq := standing_unique hbatch (hout p e reason he hr) (ha.left_out e hmem reason hr)
    exact (leftOutStanding_eq_refused_iff.mp heq).resolve_left hne i hle hi
  · intro e hmem reason hr
    obtain ⟨p, he⟩ := List.mem_iff_getElem?.mp hmem
    have heq : leftOutStanding l.attempt _ items p e.id reason
        = refusedStanding l.attempt e.id reason :=
      leftOutStanding_eq_refused_iff.mpr (hm.imp_right fun h i hle hi => h p e reason i he hr hle hi)
    rw [← heq]
    exact hout p e reason he hr

/-! ## An answer that is longer than the request -/

/-- A search engine that takes two documents. -/
def twoTaken : List UInt8 :=
  Text.Utf8.encode ("\x7b\"items\":[\x7b\"index\":\x7b\"status\":201\x7d\x7d," ++
    "\x7b\"index\":\x7b\"status\":201\x7d\x7d]\x7d").toList

/-- A batch of two events, the second of which cannot be put in a request. -/
def oneLeftOut : List Event :=
  [⟨⟨"good"⟩, [0x7b, 0x7d], none⟩, ⟨⟨"bad"⟩, [0xff, 0xfe], none⟩]

set_option maxRecDepth 20000 in
theorem decode_twoTaken :
    Json.decode bulkItems (String.ofList (Text.Utf8.decodeLossy twoTaken))
      = .ok ([⟨none, 201, none⟩, ⟨none, 201, none⟩].map some) := rfl

/-- With the batch the other way round no item is mistaken: the second one stands at
the position of the event in the request, which the first one has decided. -/
theorem round_aligned_iff_reversed :
    ∃ l', SearchBulk.round ⟨"es", "logs", default, 1000⟩ (fun _ => .response 200 twoTaken)
        (Ledger.fresh "es" oneLeftOut.reverse) = .ok l' ∧
      Aligned (Ledger.fresh "es" oneLeftOut.reverse) [⟨none, 201, none⟩, ⟨none, 201, none⟩]
        l' := by
  obtain ⟨l', hround, -, -, hiff⟩ := round_aligned_iff ⟨"es", "logs", default, 1000⟩
    (fun _ => .response 200 twoTaken) (Ledger.fresh "es" oneLeftOut.reverse) (by decide)
    (fun _ _ => rfl) (by decide) decode_twoTaken (by simp)
  refine ⟨l', hround, hiff.mpr (.inr fun p e reason i he hr hle _ => ?_)⟩
  match p, hle with
  | 1, _ =>
    obtain rfl : ⟨⟨"good"⟩, [0x7b, 0x7d], none⟩ = e := Option.some.inj he
    cases hr
  | p + 2, _ => cases he

/-- **The items of an answer do not always count for the events in the request
only.** Of the batch only the first event is in the request, and yet the second
item of the answer delivers the second event, which was never sent. -/
theorem round_delivers_left_out :
    ¬ ∀ (s : SearchBulk) (exchange : Request → Ending) (l : Ledger) (status : Nat)
        (body : List UInt8) (items : List BulkItem),
      (l.batch.map (·.id)).Nodup →
      (∀ q, s.request? l.request = some q → exchange q = .response status body) →
      200 ≤ status ∧ status ≤ 299 →
      Json.decode bulkItems (String.ofList (Text.Utf8.decodeLossy body))
        = .ok (items.map some) →
      (∀ i ∈ items, i.id = none) →
      ∃ l', s.round exchange l = .ok l' ∧ Aligned l items l' := by
  intro h
  obtain ⟨l', hround, ha⟩ := h ⟨"es", "logs", default, 1000⟩ (fun _ => .response 200 twoTaken)
    (Ledger.fresh "es" oneLeftOut) 200 twoTaken _ (by decide) (fun _ _ => rfl) (by decide)
    decode_twoTaken (by simp)
  have hbad := ha.left_out ⟨⟨"bad"⟩, [0xff, 0xfe], none⟩ (by decide) _ rfl
  have hl : l'.entries = [⟨⟨⟨"good"⟩, [0x7b, 0x7d], none⟩,
        .settled ⟨⟨"good"⟩, true, 201, false, 1, none⟩⟩,
      ⟨⟨⟨"bad"⟩, [0xff, 0xfe], none⟩, .settled ⟨⟨"bad"⟩, true, 201, false, 1, none⟩⟩] := by
    obtain rfl := Except.ok.inj (hround.symm.trans (rfl : _ = Except.ok _))
    rfl
  rw [hl] at hbad
  exact absurd hbad (by decide)

end SearchBulk

end Sink

end Courier
