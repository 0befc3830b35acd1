import Mathlib.Order.Bounds.Defs
import Courier.Proofs.Delivery.Concurrency
import Courier.Proofs.Delivery.Tables
/-!
# The failure that an answer leaves

A strategy is asked about a failure, and when an answer has left events outstanding
that failure is worked out from the codes of what is pending. What is pending is
kept from attempt to attempt: an outcome that no answer replaces stays what it was,
and nothing in it says of which answer it is.

Yet the failure is that of the last answer alone. Every event of a request has its
outcome replaced by the answer to it, for there is a status that is about it or it
is missed, and what is outstanding afterwards was in the request
(`Ledger.pendingCodes_absorb`). So the failure reflects the codes that this answer
has for what it leaves (`Reflects`), and they determine it (`Reflects.unique`):
which other answers there were before, whether requests have failed, and in what
order what is pending is looked at, makes no difference (`Call.failure_reflects`).

In the tables in which a ledger can be kept the pending outcomes have no order of
their own. `Tables.failure` works the failure out from them in any order, and the
tables are those that all rounds of the call have left, one after another
(`Call.Follows`).
-/

namespace Courier.Delivery

/-! ## Codes -/

/-- **The code that an answer has for an event of its request**: that of the status that
decides the event, if there is one. -/
def codeOf (request : List Event) (statuses : List ItemStatus) (e : Event) : Option Nat :=
  (deciding request e.id 0 statuses).map (·.status)

/-- A code by which a sink says that it is not able to answer. -/
def IsServerCode (code : Nat) : Prop :=
  500 ≤ code ∧ code ≤ 599

/-- **All were throttled.** -/
def AllThrottled (codes : List (Option Nat)) : Prop :=
  ∀ c ∈ codes, c = some 429

/-- **All were throttled or met a sink that was not able to answer**, and one of them did the
latter. -/
def AllBusy (codes : List (Option Nat)) : Prop :=
  (∀ c ∈ codes, c = some 429 ∨ ∃ n, c = some n ∧ IsServerCode n) ∧
    ∃ n, some n ∈ codes ∧ IsServerCode n

/-- **A failure that reflects codes**: those that the answer to a request has for what it has
left outstanding, each if there is one. -/
structure Reflects (sink : String) (attempt : Nat) (codes : List (Option Nat))
    (f : Failure) : Prop where
  /-- All were throttled. -/
  throttled :
    f = .throttled sink s!"{codes.length} item(s) throttled on attempt {attempt}"
      ↔ AllThrottled codes
  /-- All were throttled or the sink was not able to answer. -/
  busy :
    (∃ status, f = .serverBusy sink status s!"{codes.length} item(s) failed on attempt {attempt}")
      ↔ AllBusy codes
  /-- The greatest of its codes is the one that is named. -/
  greatest : ∀ status message, f = .serverBusy sink status message →
    IsGreatest {n | some n ∈ codes ∧ IsServerCode n} status
  /-- There is no other failure. -/
  leftOver :
    f = .partialFailure sink codes.length attempt ↔ ¬ AllThrottled codes ∧ ¬ AllBusy codes

variable {sink : String} {attempt : Nat} {codes : List (Option Nat)} {f f' : Failure}

/-- Who was throttled has not met a sink that was not able to answer. -/
theorem AllThrottled.not_allBusy (h : AllThrottled codes) : ¬ AllBusy codes := by
  rintro ⟨-, n, hn, hserver, -⟩
  obtain rfl := Option.some.inj (h _ hn)
  exact absurd hserver (by decide)

/-- An event without a code was not throttled, and did not meet such a sink. -/
theorem not_all_of_none (h : none ∈ codes) : ¬ AllThrottled codes ∧ ¬ AllBusy codes := by
  refine ⟨fun hall => absurd (hall none h) (by decide), fun hbusy => ?_⟩
  obtain hnone | ⟨n, hnone, -⟩ := hbusy.1 none h
  · cases hnone
  · cases hnone

namespace Reflects

/-- **Codes determine the failure that reflects them.** -/
theorem unique (h : Reflects sink attempt codes f) (h' : Reflects sink attempt codes f') :
    f = f' := by
  by_cases hall : AllThrottled codes
  · rw [h.throttled.mpr hall, h'.throttled.mpr hall]
  · by_cases hbusy : AllBusy codes
    · obtain ⟨status, rfl⟩ := h.busy.mpr hbusy
      obtain ⟨status', rfl⟩ := h'.busy.mpr hbusy
      rw [(h.greatest _ _ rfl).unique (h'.greatest _ _ rfl)]
    · rw [h.leftOver.mpr ⟨hall, hbusy⟩, h'.leftOver.mpr ⟨hall, hbusy⟩]

/-- When all were throttled that is the failure. -/
theorem of_allThrottled (h : AllThrottled codes) :
    Reflects sink attempt codes
      (.throttled sink s!"{codes.length} item(s) throttled on attempt {attempt}") where
  throttled := iff_of_true rfl h
  busy := iff_of_false (fun ⟨_, heq⟩ => by cases heq) h.not_allBusy
  greatest _ _ heq := by cases heq
  leftOver := iff_of_false (fun heq => by cases heq) fun hno => hno.1 h

/-- When the sink was not able to answer that is the failure, with the greatest code. -/
theorem of_allBusy (h : AllBusy codes) {status : Nat}
    (hs : IsGreatest {n | some n ∈ codes ∧ IsServerCode n} status) :
    Reflects sink attempt codes
      (.serverBusy sink status s!"{codes.length} item(s) failed on attempt {attempt}") where
  throttled := iff_of_false (fun heq => by cases heq) fun hall => hall.not_allBusy h
  busy := iff_of_true ⟨status, rfl⟩ h
  greatest _ _ heq := by
    obtain ⟨-, rfl, -⟩ := Failure.serverBusy.inj heq
    exact hs
  leftOver := iff_of_false (fun heq => by cases heq) fun hno => hno.2 h

/-- Otherwise something is left over. -/
theorem of_neither (hall : ¬ AllThrottled codes) (hbusy : ¬ AllBusy codes) :
    Reflects sink attempt codes (.partialFailure sink codes.length attempt) where
  throttled := iff_of_false (fun heq => by cases heq) hall
  busy := iff_of_false (fun ⟨_, heq⟩ => by cases heq) hbusy
  greatest _ _ heq := by cases heq
  leftOver := iff_of_true rfl ⟨hall, hbusy⟩

end Reflects

/-! ## The failure that is worked out -/

/-- **The failure that is worked out** from so many events outstanding and the codes of what
is pending, in the order in which it is looked at. -/
def failureOfCodes (sink : String) (attempt outstanding : Nat) (codes : List Nat) : Failure :=
  if codes.isEmpty || codes.length ≠ outstanding then .partialFailure sink outstanding attempt
  else if codes.all (· = 429) then
    .throttled sink s!"{outstanding} item(s) throttled on attempt {attempt}"
  else if codes.all fun c => c = 429 || Ledger.isServerCode c then
    .serverBusy sink ((codes.filter Ledger.isServerCode).foldl max 0)
      s!"{outstanding} item(s) failed on attempt {attempt}"
  else .partialFailure sink outstanding attempt

theorem isServerCode_iff {n : Nat} : Ledger.isServerCode n = true ↔ IsServerCode n := by
  unfold Ledger.isServerCode IsServerCode
  simp

/-- **The greatest of codes**, when there is one. -/
theorem isGreatest_foldl_max {seen : List Nat} {n : Nat} (hn : n ∈ seen) :
    IsGreatest {n | n ∈ seen} (seen.foldl max 0) := by
  have hmax : (0 :: seen).max? = some (seen.foldl max 0) := List.max?_cons'
  obtain ⟨hin, hle⟩ := List.max?_eq_some_iff.mp hmax
  refine ⟨?_, fun m hm => hle m (List.mem_cons_of_mem 0 hm)⟩
  obtain hzero | hin := List.mem_cons.mp hin
  · have hle := hle n (List.mem_cons_of_mem 0 hn)
    rw [hzero, Nat.le_zero] at hle
    rw [hzero, ← hle]
    exact hn
  · exact hin

/-- **Codes that are looked at, with nought for a missing one**, in any order. -/
def Seen (codes : List (Option Nat)) (seen : List Nat) : Prop :=
  seen.Perm (codes.map (·.getD 0))

namespace Seen

variable {seen : List Nat}

/-- A code is seen when it is one of them; nought says that one is missing, or is one. -/
theorem mem_iff (h : Seen codes seen) {n : Nat} (hn : n ≠ 0) : n ∈ seen ↔ some n ∈ codes := by
  rw [List.Perm.mem_iff h, List.mem_map]
  constructor
  · rintro ⟨_ | m, hc, rfl⟩
    · exact absurd rfl hn
    · exact hc
  · exact fun hin => ⟨some n, hin, rfl⟩

/-- **All that is seen passes a test** that nought does not pass, when there is a code
everywhere and all of them pass it. -/
theorem all_iff (h : Seen codes seen) {p : Nat → Bool} (hzero : p 0 = false) :
    seen.all p = true ↔ ∀ c ∈ codes, ∃ n, c = some n ∧ p n = true := by
  rw [List.Perm.all_eq h, List.all_eq_true]
  constructor
  · intro hall c hc
    have hp := hall (c.getD 0) (List.mem_map_of_mem hc)
    cases c with
    | none => exact absurd hp (by rw [Option.getD_none, hzero]; exact Bool.false_ne_true)
    | some n => exact ⟨n, rfl, hp⟩
  · intro hall n hn
    obtain ⟨c, hc, rfl⟩ := List.mem_map.mp hn
    obtain ⟨m, rfl, hm⟩ := hall c hc
    exact hm

/-- All were throttled. -/
theorem all_throttled (h : Seen codes seen) :
    seen.all (· = 429) = true ↔ AllThrottled codes := by
  rw [h.all_iff rfl]
  refine forall₂_congr fun c _ => ?_
  constructor
  · rintro ⟨n, rfl, hn⟩
    rw [of_decide_eq_true hn]
  · rintro rfl
    exact ⟨429, rfl, rfl⟩

/-- All were throttled or met a sink that was not able to answer. -/
theorem all_busy (h : Seen codes seen) (hall : ¬ AllThrottled codes) :
    (seen.all fun c => c = 429 || Ledger.isServerCode c) = true ↔ AllBusy codes := by
  rw [h.all_iff rfl]
  have heach : ∀ c : Option Nat, (∃ n, c = some n ∧ (n = 429 || Ledger.isServerCode n) = true)
      ↔ c = some 429 ∨ ∃ n, c = some n ∧ IsServerCode n := by
    intro c
    simp only [Bool.or_eq_true, decide_eq_true_iff, isServerCode_iff]
    constructor
    · rintro ⟨n, rfl, rfl | hn⟩
      · exact .inl rfl
      · exact .inr ⟨n, rfl, hn⟩
    · rintro (rfl | ⟨n, rfl, hn⟩)
      · exact ⟨429, rfl, .inl rfl⟩
      · exact ⟨n, rfl, .inr hn⟩
  simp only [heach]
  refine ⟨fun hbusy => ⟨hbusy, ?_⟩, And.left⟩
  -- one of them was not throttled
  unfold AllThrottled at hall
  push Not at hall
  obtain ⟨c, hc, hne⟩ := hall
  obtain ⟨n, rfl, hn⟩ := (hbusy c hc).resolve_left hne
  exact ⟨n, hc, hn⟩

/-- The greatest of the codes of a sink that was not able to answer. -/
theorem isGreatest (h : Seen codes seen) (hbusy : AllBusy codes) :
    IsGreatest {n | some n ∈ codes ∧ IsServerCode n}
      ((seen.filter Ledger.isServerCode).foldl max 0) := by
  have hmem : ∀ n, n ∈ seen.filter Ledger.isServerCode ↔ some n ∈ codes ∧ IsServerCode n := by
    intro n
    rw [List.mem_filter, isServerCode_iff]
    refine and_congr_left fun hn => h.mem_iff ?_
    rintro rfl
    exact absurd hn.1 (by decide)
  obtain ⟨n, hn⟩ := hbusy.2
  have hgreatest := isGreatest_foldl_max ((hmem n).mpr hn)
  simp only [hmem] at hgreatest
  exact hgreatest

/-- **The failure that is worked out reflects the codes**, in whatever order they are looked
at. -/
theorem reflects (h : Seen codes seen) (hne : codes ≠ []) (sink : String) (attempt : Nat) :
    Reflects sink attempt codes (failureOfCodes sink attempt codes.length seen) := by
  have hlen : seen.length = codes.length := (List.Perm.length_eq h).trans (List.length_map _)
  have hpos : ¬ (seen.isEmpty || seen.length ≠ codes.length) = true := by
    have := List.length_pos_iff.mpr hne
    simp only [Bool.or_eq_true, decide_eq_true_iff, List.isEmpty_iff_length_eq_zero]
    omega
  unfold failureOfCodes
  rw [if_neg hpos]
  by_cases hall : AllThrottled codes
  · rw [if_pos (h.all_throttled.mpr hall)]
    exact .of_allThrottled hall
  · rw [if_neg (mt h.all_throttled.mp hall)]
    by_cases hbusy : AllBusy codes
    · rw [if_pos ((h.all_busy hall).mpr hbusy)]
      exact .of_allBusy hbusy (h.isGreatest hbusy)
    · rw [if_neg (mt (h.all_busy hall).mp hbusy)]
      exact .of_neither hall hbusy

end Seen

/-! ## One answer -/

namespace Ledger

variable (l : Ledger) (classify : ItemStatus → ItemClass) (statuses : List ItemStatus)

/-- **An event that an answer leaves open has the code of that answer**, or nought when it
has none for it; nothing is pending of any other event. -/
theorem pending?_absorbed {l : Ledger} {e : Entry} (he : e ∈ l.entries) :
    ((l.absorbed classify (.ok statuses) e).pending?).map (·.status)
      = if (l.absorbed classify (.ok statuses) e).isOutstanding then
          some ((codeOf l.request statuses e.event).getD 0) else none := by
  cases ho : (l.absorbed classify (.ok statuses) e).isOutstanding with
  | false =>
    rw [if_neg Bool.false_ne_true, Option.map_eq_none_iff]
    refine Option.eq_none_iff_forall_ne_some.mpr fun o hp => ?_
    rw [Entry.isOutstanding_of_pending? hp] at ho
    cases ho
  | true =>
    rw [if_pos rfl]
    rw [isOutstanding_absorbed classify _ he, Bool.and_eq_true] at ho
    show ((e.answered classify l.attempt l.request statuses).pending?).map _ = _
    unfold Entry.answered codeOf
    rw [if_pos ho.1]
    cases hd : deciding l.request e.event.id 0 statuses with
    | some s =>
      rw [leavesOpen_of_deciding hd] at ho
      show (Entry.pending? { e with standing := .ofStatus classify l.attempt e.event.id s }).map _ = _
      unfold Standing.ofStatus
      rw [of_decide_eq_true ho.2]
      rfl
    | none =>
      dsimp only
      rw [if_pos (mem_request_ids he ho.1)]
      rfl

/-- **What is pending after an answer are the codes of this answer**, for what it leaves of
its request. -/
theorem pendingCodes_absorb :
    (l.absorb classify (.ok statuses)).pendingCodes
      = ((l.request.filter (leavesOpen classify l.request (.ok statuses))).map
          (codeOf l.request statuses)).map (·.getD 0) := by
  rw [← request_absorb, absorb_eq]
  show ((l.entries.map _).filterMap fun e : Entry => e.pending?).map _
    = ((((l.entries.map _).filter fun e : Entry => e.isOutstanding).map
        fun e : Entry => e.event).map _).map _
  rw [List.map_filterMap, List.filterMap_map, List.filter_map, List.map_map, List.map_map,
    List.map_map, ← List.filterMap_eq_map, List.filterMap_filter]
  refine List.filterMap_congr fun e he => ?_
  show ((l.absorbed classify (.ok statuses) e).pending?).map _ = _
  rw [pending?_absorbed classify statuses he]
  refine if_congr Iff.rfl ?_ rfl
  show _ = some ((codeOf l.request statuses (l.absorbed classify (.ok statuses) e).event).getD 0)
  rw [absorbed_event]

theorem outstanding_eq_length : l.outstanding = l.request.length := by
  unfold outstanding request
  rw [List.length_map, List.countP_eq_length_filter]

/-- **The failure that an answer leaves reflects its codes**, in whatever order what is
pending is looked at. -/
theorem reflects_absorb
    (hne : l.request.filter (leavesOpen classify l.request (.ok statuses)) ≠ []) {seen : List Nat}
    (hseen : seen.Perm (l.absorb classify (.ok statuses)).pendingCodes) :
    Reflects l.sink l.attempt
      ((l.request.filter (leavesOpen classify l.request (.ok statuses))).map
        (codeOf l.request statuses))
      (failureOfCodes l.sink l.attempt (l.absorb classify (.ok statuses)).outstanding seen) := by
  have hseen : Seen _ seen := hseen.trans (.of_eq (l.pendingCodes_absorb classify statuses))
  rw [outstanding_eq_length, request_absorb, ← List.length_map (codeOf l.request statuses)]
  exact hseen.reflects (by simpa using hne) _ _

theorem failure_absorb :
    (l.absorb classify (.ok statuses)).failure
      = failureOfCodes l.sink l.attempt (l.absorb classify (.ok statuses)).outstanding
          (l.absorb classify (.ok statuses)).pendingCodes := by
  rw [← l.sink_absorb classify (.ok statuses), ← l.attempt_absorb classify (.ok statuses)]
  rfl

end Ledger

/-! ## In tables -/

namespace Tables

variable {t : Tables} {l : Ledger}

/-- **An order of what is pending**: each identity under which something is, once. -/
structure Lists (t : Tables) (order : List EventId) : Prop where
  /-- There is none twice. -/
  nodup : order.Nodup
  /-- Those are the identities. -/
  mem_iff : ∀ id, id ∈ order ↔ id ∈ t.pending.keys

/-- The codes of what is pending, in an order. -/
def pendingCodes (t : Tables) (order : List EventId) : List Nat :=
  order.filterMap fun id => (t.pending.lookup id).map (·.status)

/-- **The failure that tables amount to**, with what is pending in an order. -/
def failure (sink : String) (t : Tables) (order : List EventId) : Failure :=
  failureOfCodes sink t.attempt t.outstanding.card (t.pendingCodes order)

/-- **As many identities are outstanding in the tables as in the ledger.** -/
theorem Agrees.card_outstanding (h : t.Agrees l) (hn : (l.batch.map (·.id)).Nodup) :
    t.outstanding.card = l.outstanding := by
  have hids : t.outstanding = (l.request.map (·.id)).toFinset := by
    ext id
    rw [h.mem_outstanding, List.mem_toFinset, Ledger.isOutstanding, List.any_eq_true]
    unfold Ledger.request
    simp only [List.mem_map, List.mem_filter, Bool.and_eq_true, decide_eq_true_iff]
    constructor
    · rintro ⟨e, he, rfl, ho⟩
      exact ⟨e.event, ⟨e, ⟨he, ho⟩, rfl⟩, rfl⟩
    · rintro ⟨_, ⟨e, ⟨he, ho⟩, rfl⟩, rfl⟩
      exact ⟨e, he, rfl, ho⟩
  have hsub : (l.request.map (·.id)).Nodup :=
    hn.sublist ((List.filter_sublist.map _).map _)
  rw [hids, List.toFinset_card_of_nodup hsub, List.length_map, Ledger.outstanding_eq_length]

/-- **In any order the codes of the tables are those of the ledger.** -/
theorem Agrees.pendingCodes_perm (h : t.Agrees l) (hn : (l.batch.map (·.id)).Nodup)
    {order : List EventId} (ho : t.Lists order) : (t.pendingCodes order).Perm l.pendingCodes := by
  -- the identities in the order of the batch
  let ids : List EventId := (l.entries.filter (·.pending?.isSome)).map (·.event.id)
  have hids : ids.Nodup := by
    unfold Ledger.batch at hn
    rw [List.map_map] at hn
    exact hn.sublist (List.filter_sublist.map _)
  have hmem : ∀ id, id ∈ order ↔ id ∈ ids := by
    intro id
    rw [ho.mem_iff, Finmap.mem_keys, ← Finmap.lookup_isSome, List.mem_map]
    constructor
    · intro hid
      obtain ⟨o, hlook⟩ := Option.isSome_iff_exists.mp hid
      obtain ⟨e, he, rfl, hp⟩ := h.exists_pending hlook
      exact ⟨e, List.mem_filter.mpr ⟨he, by rw [hp]; rfl⟩, rfl⟩
    · rintro ⟨e, hin, rfl⟩
      obtain ⟨he, hp⟩ := List.mem_filter.mp hin
      rw [(h.held e he).pending]
      exact hp
  have hperm : order.Perm ids := (List.perm_ext_iff_of_nodup ho.nodup hids).mpr hmem
  refine (hperm.filterMap _).trans (.of_eq ?_)
  unfold Ledger.pendingCodes
  rw [List.filterMap_map, List.map_filterMap, List.filterMap_filter]
  refine List.filterMap_congr fun e he => ?_
  show (if e.pending?.isSome then (t.pending.lookup e.event.id).map _ else none) = _
  rw [(h.held e he).pending]
  cases e.pending? <;> rfl

/-- **In any order the failure of the tables is that of the ledger.** -/
theorem Agrees.failure_eq (h : t.Agrees l) (hn : (l.batch.map (·.id)).Nodup) (sink : String)
    (order : List EventId) :
    t.failure sink order = failureOfCodes sink l.attempt l.outstanding (t.pendingCodes order) := by
  unfold failure
  rw [h.attempt_eq, h.card_outstanding hn]

end Tables

/-! ## Round after round -/

/-- What is done to a ledger when a request is answered. -/
def Act.ofAnswer (classify : ItemStatus → ItemClass) (request : List Event) : Answer → Act
  | .ok statuses => .answer classify request statuses
  | .error f => .miss request f

/-- **What is done to a ledger in rounds**, from the attempt of a number on. -/
def actsOf (classify : ItemStatus → ItemClass) : Nat → List (List Event × Answer) → List Act
  | _, [] => []
  | attempt, (request, a) :: rounds =>
    .advance attempt :: .ofAnswer classify request a :: actsOf classify (attempt + 1) rounds

variable {classify : ItemStatus → ItemClass} {batch : List Event} {c : Call}
variable {rounds : List (List Event × Answer)}

/-- One more round is one more attempt, and the answer to its request. -/
theorem actsOf_concat (rounds : List (List Event × Answer)) (request : List Event) (a : Answer) :
    ∀ attempt, actsOf classify attempt (rounds ++ [(request, a)])
      = actsOf classify attempt rounds
        ++ [.advance (attempt + rounds.length), .ofAnswer classify request a] := by
  induction rounds with
  | nil => exact fun _ => rfl
  | cons x rounds ih =>
    intro attempt
    obtain ⟨request', a'⟩ := x
    rw [List.cons_append, actsOf, actsOf, ih, List.length_cons, Nat.add_right_comm, Nat.add_assoc]
    rfl

namespace Ledger

theorem act_ofAnswer (l : Ledger) (classify : ItemStatus → ItemClass) (a : Answer) :
    l.act (.ofAnswer classify l.request a) = l.absorb classify a := by
  cases a <;> rfl

theorem advance_self (l : Ledger) : l.advance l.attempt = l := rfl

end Ledger

namespace Call

/-- How many answers a call is still to get for each of its attempts to have one. -/
def due (c : Call) : Nat :=
  match c.failing, c.machine.phase with
  | some _, _ => 0
  | none, .waiting _ _ => 0
  | none, _ => 1

/-- **A call that its rounds have brought to where it is**: they are its attempts, and what
was done in them has made its ledger. -/
structure Follows (sink : String) (classify : ItemStatus → ItemClass) (batch : List Event)
    (c : Call) (rounds : List (List Event × Answer)) : Prop where
  /-- It reads answers as the sink does. -/
  classify_eq : c.machine.classify = classify
  /-- Each attempt but one that is not answered yet is a round. -/
  attempt_eq : rounds.length + c.due = c.machine.ledger.attempt
  /-- The ledger is what was done in the rounds. -/
  ledger_eq : ((Ledger.fresh sink batch).actAll (actsOf classify 1 rounds)).advance
    c.machine.ledger.attempt = c.machine.ledger

/-- **A call that has ended, or follows its rounds.** -/
def FollowsOrEnded (sink : String) (classify : ItemStatus → ItemClass) (batch : List Event)
    (c : Call) (rounds : List (List Event × Answer)) : Prop :=
  (∃ r, c.machine.phase = .ended r) ∨ c.Follows sink classify batch rounds

/-- A signal that makes no round keeps a call with its rounds when what it does keeps it. -/
theorem FollowsOrEnded.of_step (next : Call) {s : Signal} (hstep : (c.step s).1 = next)
    (hround : c.roundOf s = []) (h : next.FollowsOrEnded sink classify batch rounds) :
    (c.step s).1.FollowsOrEnded sink classify batch (rounds ++ c.roundOf s) := by
  rw [hstep, hround, List.append_nil]
  exact h

/-- A call that waits for an answer is at the attempt after its rounds. -/
theorem Follows.attempt_of_inFlight {m : Machine} {request : List Event}
    (h : Follows sink classify batch ⟨m, none⟩ rounds) (hp : m.phase = .inFlight request) :
    m.ledger.attempt = rounds.length + 1 := by
  have hattempt := h.attempt_eq
  simp only [due, hp] at hattempt
  exact hattempt.symm

/-- **The answer to its request is what is done next** to the ledger of a call. -/
theorem Follows.absorb {m : Machine} {request : List Event}
    (h : Follows sink classify batch ⟨m, none⟩ rounds) (hp : m.phase = .inFlight request)
    (a : Answer) :
    (Ledger.fresh sink batch).actAll (actsOf classify 1 (rounds ++ [(m.ledger.request, a)]))
      = m.ledger.absorb classify a := by
  have hledger : ((Ledger.fresh sink batch).actAll (actsOf classify 1 rounds)).advance
      m.ledger.attempt = m.ledger := h.ledger_eq
  rw [actsOf_concat, Nat.add_comm 1, ← h.attempt_of_inFlight hp, Ledger.actAll,
    List.foldl_append]
  show (((Ledger.fresh sink batch).actAll (actsOf classify 1 rounds)).advance
    m.ledger.attempt).act _ = _
  rw [hledger, Ledger.act_ofAnswer]

/-- **The answer to its request** is one more round for a call, unless it ends it. -/
theorem Follows.take {m : Machine} (h : Follows sink classify batch ⟨m, none⟩ rounds)
    (hp : m.phase = .inFlight m.ledger.request) (a : Answer) :
    (Call.take m m.ledger.request a).1.FollowsOrEnded sink classify batch
      (rounds ++ [(m.ledger.request, a)]) := by
  have habsorb := h.absorb hp a
  have hclassify : m.classify = classify := h.classify_eq
  obtain ⟨-, -, ht⟩ | ⟨f, -, -, ht⟩ | ⟨f, -, ht⟩ := take_cases m a <;> rw [ht]
  · exact .inl ⟨_, rfl⟩
  · exact .inl ⟨_, rfl⟩
  · refine .inr ⟨h.classify_eq, ?_, ?_⟩
    · rw [List.length_append]
      exact (h.attempt_of_inFlight hp).symm.trans (m.ledger.attempt_absorb m.classify a).symm
    · rw [habsorb, hclassify]
      exact Ledger.advance_self _

section

variable {m : Machine} (s : Signal)

/-- A signal to a call that is about to send. -/
theorem Follows.step_ready (h : Follows sink classify batch ⟨m, none⟩ rounds)
    (hp : m.phase = .ready) :
    ((Call.mk m none).step s).1.FollowsOrEnded sink classify batch
      (rounds ++ (Call.mk m none).roundOf s) := by
  have hround : (Call.mk m none).roundOf s = [] := by simp only [roundOf, hp]
  have hattempt := h.attempt_eq
  simp only [due, hp] at hattempt
  cases s with
  | go =>
    exact .of_step ⟨{ m with phase := .inFlight m.ledger.request }, none⟩
      (by simp only [step, stepClear, Machine.step, hp]) hround
      (.inr ⟨h.classify_eq, hattempt, h.ledger_eq⟩)
  | answered a =>
    exact .of_step ⟨m, none⟩ (by simp only [step, stepClear, Machine.step, hp]) hround (.inr h)
  | cancel =>
    exact .of_step ⟨m.cancelled, none⟩ (by simp only [step, stepClear, Machine.step, hp]) hround
      (.inl ⟨_, rfl⟩)

/-- One to a call that waits for an answer. -/
theorem Follows.step_inFlight (h : Follows sink classify batch ⟨m, none⟩ rounds)
    (hp : m.phase = .inFlight m.ledger.request) :
    ((Call.mk m none).step s).1.FollowsOrEnded sink classify batch
      (rounds ++ (Call.mk m none).roundOf s) := by
  cases s with
  | go =>
    exact .of_step ⟨m, none⟩ (by simp only [step, stepClear, Machine.step, hp])
      (by simp only [roundOf, hp]) (.inr h)
  | answered a =>
    have hround : (Call.mk m none).roundOf (.answered a) = [(m.ledger.request, a)] := by
      simp only [roundOf, hp]
    have hstep : (Call.mk m none).step (.answered a) = Call.take m m.ledger.request a := by
      simp only [step, stepClear, hp]
    rw [hstep, hround]
    exact h.take hp a
  | cancel =>
    exact .of_step ⟨m.cancelled, none⟩ (by simp only [step, stepClear, Machine.step, hp])
      (by simp only [roundOf, hp]) (.inl ⟨_, rfl⟩)

/-- One to a call that waits for its next attempt. -/
theorem Follows.step_waiting (h : Follows sink classify batch ⟨m, none⟩ rounds)
    {delay next : Nat} (hp : m.phase = .waiting delay next)
    (hnext : next = m.ledger.attempt + 1) :
    ((Call.mk m none).step s).1.FollowsOrEnded sink classify batch
      (rounds ++ (Call.mk m none).roundOf s) := by
  have hround : (Call.mk m none).roundOf s = [] := by simp only [roundOf, hp]
  have hattempt : rounds.length + 1 = next := by
    have hattempt := h.attempt_eq
    simp only [due, hp] at hattempt
    rw [hnext, ← hattempt]
  cases s with
  | go =>
    refine .of_step
      ⟨{ m with
          ledger := m.ledger.advance next
          retry := { m.retry with attempt := next }
          phase := .ready }, none⟩
      (by simp only [step, stepClear, Machine.step, hp]) hround
      (.inr ⟨h.classify_eq, hattempt, ?_⟩)
    have hadvanced := congrArg (fun l : Ledger => l.advance next) h.ledger_eq
    exact hadvanced
  | answered a =>
    exact .of_step ⟨m, none⟩ (by simp only [step, stepClear, Machine.step, hp]) hround (.inr h)
  | cancel =>
    exact .of_step ⟨m.cancelled, none⟩ (by simp only [step, stepClear, Machine.step, hp]) hround
      (.inl ⟨_, rfl⟩)

/-- One to a call that has a failure in its hands. -/
theorem Follows.step_failing {f : Failure} (h : Follows sink classify batch ⟨m, some f⟩ rounds) :
    ((Call.mk m (some f)).step s).1.FollowsOrEnded sink classify batch
      (rounds ++ (Call.mk m (some f)).roundOf s) := by
  cases s with
  | go =>
    refine .of_step ⟨(m.judge f).1, none⟩ rfl rfl ?_
    unfold Machine.judge
    cases m.retry.verdict f with
    | proceed delay next => exact .inr ⟨h.classify_eq, h.attempt_eq, h.ledger_eq⟩
    | terminal reason => exact .inl ⟨_, rfl⟩
  | answered a => exact .of_step ⟨m, some f⟩ rfl rfl (.inr h)
  | cancel => exact .of_step ⟨m.cancelled, none⟩ rfl rfl (.inl ⟨_, rfl⟩)

end

/-- **Every signal keeps a call with its rounds**, or it has ended. -/
theorem FollowsOrEnded.step (h : c.FollowsOrEnded sink classify batch rounds)
    (hs : c.Sound sink batch) (s : Signal) :
    (c.step s).1.FollowsOrEnded sink classify batch (rounds ++ c.roundOf s) := by
  obtain ⟨r, hp⟩ | h := h
  · have hclear : c.failing = none := by
      refine Option.eq_none_iff_forall_ne_some.mpr fun f hf => ?_
      obtain ⟨request, hflight⟩ := hs.inFlight f hf
      cases hp.symm.trans hflight
    refine .inl ⟨r, ?_⟩
    obtain ⟨request, -, hflight, -⟩ | ⟨-, hstep⟩ := stepClear_cases c.machine s
    · cases hp.symm.trans hflight
    · rw [step_of_clear hclear, hstep, Machine.step_of_ended hp]
      exact hp
  · obtain ⟨m, _ | f⟩ := c
    · have hm := hs.clear rfl
      cases hp : m.phase with
      | ready => exact h.step_ready s hp
      | inFlight request =>
        obtain rfl : request = m.ledger.request := hm.asked request hp
        exact h.step_inFlight s hp
      | waiting delay next => exact h.step_waiting s hp (hm.next_eq delay next hp)
      | ended r =>
        exact .of_step ⟨m, none⟩ (by simp only [Call.step, stepClear, Machine.step, hp])
          (by simp only [roundOf, hp]) (.inl ⟨r, hp⟩)
    · exact h.step_failing s

/-- **A call keeps to its rounds all along**, until it has ended. -/
theorem FollowsOrEnded.run (signals : List Signal) :
    ∀ {c : Call} {rounds : List (List Event × Answer)},
      c.FollowsOrEnded sink classify batch rounds → c.Sound sink batch →
      (c.run signals).call.FollowsOrEnded sink classify batch
        (rounds ++ (c.run signals).rounds) ∧ (c.run signals).call.Sound sink batch := by
  induction signals with
  | nil =>
    intro c rounds h hs
    rw [Call.run, List.append_nil]
    exact ⟨h, hs⟩
  | cons s rest ih =>
    intro c rounds h hs
    have hrest := ih (h.step hs s) (hs.step s)
    rw [List.append_assoc] at hrest
    exact hrest

/-- A call that has ended when it began does not send. -/
theorem asking?_run_of_ended (signals : List Signal) : ∀ {c : Call} {r : Except Failure Report},
    c.failing = none → c.machine.phase = .ended r → (c.run signals).call.asking? = none := by
  induction signals with
  | nil =>
    intro c r hclear hp
    unfold Call.run asking?
    rw [hclear, hp]
  | cons s rest ih =>
    intro c r hclear hp
    obtain ⟨request, -, hflight, -⟩ | ⟨-, hstep⟩ := stepClear_cases c.machine s
    · cases hp.symm.trans hflight
    · rw [Machine.step_of_ended hp, ← step_of_clear hclear] at hstep
      unfold Call.run
      rw [hstep]
      exact ih rfl hp

/-- **A call that is waiting for an answer** is one of a batch of different events, is sound,
and follows its rounds. -/
theorem of_asking (sink : String) (classify : ItemStatus → ItemClass) (strategy : Retry.Strategy)
    (batch : List Event) (signals : List Signal) {request : List Event}
    (hasking : ((start sink classify strategy batch).run signals).call.asking? = some request) :
    let log := (start sink classify strategy batch).run signals
    (batch.map (·.id)).Nodup ∧ log.call.Sound sink batch ∧
      log.call.Follows sink classify batch log.rounds := by
  intro log
  -- a call that has ended is not waiting, so the delivery has not ended at its start either
  have hends : ∀ r, (Machine.start sink classify strategy batch).phase ≠ .ended r := fun r hr => by
    rw [asking?_run_of_ended signals (c := start sink classify strategy batch) rfl hr] at hasking
    cases hasking
  have hne : batch ≠ [] := by
    rintro rfl
    exact hends _ rfl
  by_cases hn : (batch.map (·.id)).Nodup
  · have hsound : (start sink classify strategy batch).Sound sink batch := by
      obtain h | ⟨f, hf⟩ := Machine.start_delivers sink classify strategy hne
      · exact .of_machine h
      · exact absurd hf (hends _)
    have hfollows : (start sink classify strategy batch).Follows sink classify batch [] := by
      obtain ⟨hstart, -⟩ := Machine.start_underway sink classify strategy hne hn
      unfold Call.start
      rw [hstart]
      exact ⟨rfl, rfl, rfl⟩
    obtain ⟨hrun, hsound⟩ := FollowsOrEnded.run signals (.inr hfollows) hsound
    rw [List.nil_append] at hrun
    refine ⟨hn, hsound, hrun.resolve_left ?_⟩
    rintro ⟨r, hr⟩
    have hr : log.call.machine.phase = .ended r := hr
    have hasking : log.call.asking? = some request := hasking
    unfold asking? at hasking
    rw [hr] at hasking
    split at hasking
    · next hflight => cases hflight
    · cases hasking
  · obtain ⟨f, hf⟩ : ∃ f, (Machine.start sink classify strategy batch).phase = .ended (.error f) := by
      obtain ⟨id, -, hstart⟩ := Ledger.start_of_not_nodup sink hn
      refine ⟨.client sink s!"duplicate event id '{id.text}' in batch", ?_⟩
      unfold Machine.start
      rw [if_neg (by simpa using hne), hstart]
    exact absurd hf (hends _)

end Call

/-! ## The failure of an answer -/

namespace Call

/-- What a call is asking is what its delivery has in flight. -/
theorem asking?_eq_some {c : Call} {request : List Event} (h : c.asking? = some request) :
    c.failing = none ∧ c.machine.phase = .inFlight request := by
  unfold asking? at h
  split at h
  · next hclear hp =>
    cases h
    exact ⟨hclear, hp⟩
  · cases h

/-- **An answer that leaves events outstanding** leaves a call with the failure that its
ledger works out. -/
theorem step_of_left {m : Machine} {statuses : List ItemStatus}
    (hp : m.phase = .inFlight m.ledger.request)
    (hleft : m.ledger.request.filter (leavesOpen m.classify m.ledger.request (.ok statuses)) ≠ []) :
    ((Call.mk m none).step (.answered (.ok statuses))).1
      = ⟨{ m with ledger := m.ledger.absorb m.classify (.ok statuses) },
          some (m.ledger.absorb m.classify (.ok statuses)).failure⟩ := by
  have hstep : (Call.mk m none).step (.answered (.ok statuses))
      = take m m.ledger.request (.ok statuses) := by
    simp only [step, stepClear, hp]
  rw [hstep]
  obtain ⟨-, hr, -⟩ | ⟨f, ha, -⟩ | ⟨f, ⟨ha, -⟩ | ⟨-, -, rfl⟩, ht⟩ := take_cases m (.ok statuses)
  · rw [Ledger.isResolved_eq, Ledger.request_absorb, List.isEmpty_iff] at hr
    exact absurd hr hleft
  · cases ha
  · cases ha
  · rw [ht]

/-- **What an answer makes of a call that is waiting for it**, when it leaves events
outstanding: the rounds before have left a ledger, which is at the attempt that is one
more, and the answer is taken in to it. -/
theorem Follows.step_of_left (h : c.Follows sink classify batch rounds)
    (hs : c.Sound sink batch) {request : List Event} {statuses : List ItemStatus}
    (hasking : c.asking? = some request)
    (hleft : request.filter (leavesOpen classify request (.ok statuses)) ≠ []) :
    ∃ l : Ledger, l.request = request ∧ l.sink = sink ∧ l.attempt = rounds.length + 1 ∧
      l.batch = batch ∧
      (c.step (.answered (.ok statuses))).1.machine.ledger = l.absorb classify (.ok statuses) ∧
      (c.step (.answered (.ok statuses))).1.failing
        = some (l.absorb classify (.ok statuses)).failure ∧
      (Ledger.fresh sink batch).actAll (actsOf classify 1 (rounds ++ [(request, .ok statuses)]))
        = l.absorb classify (.ok statuses) := by
  obtain ⟨m, f⟩ := c
  obtain ⟨hclear, hp⟩ := asking?_eq_some hasking
  obtain rfl : f = none := hclear
  obtain rfl : request = m.ledger.request := (hs.clear rfl).asked request hp
  obtain rfl : m.classify = classify := h.classify_eq
  have hnext := Call.step_of_left hp hleft
  refine ⟨m.ledger, rfl, hs.holds.sink_eq, h.attempt_of_inFlight hp, hs.holds.batch_eq, ?_, ?_,
    h.absorb hp _⟩
  · rw [hnext]
  · rw [hnext]

end Call

/-- **The failure that is put to the strategy is that of the last answer.** Take any call at
any moment at which it waits for the answer to a request, its `k`-th; and let the answer
leave events of it outstanding. The call then has a failure in its hands, which it puts
to its strategy when it goes on. It reflects the codes of this answer: an event that it
has no status for makes it a partial failure. In whatever order the pending outcomes
are looked at that all rounds have left in the tables, it is this one. And every other
call of the sink that waits for the answer to the same request, its `k`-th too, comes to the
same failure by the same answer, whatever its batch, its strategy and its course were. -/
theorem Call.failure_reflects (sink : String) (classify : ItemStatus → ItemClass)
    (strategy : Retry.Strategy) (batch : List Event) (signals : List Signal)
    (request : List Event) (statuses : List ItemStatus)
    (hasking : ((Call.start sink classify strategy batch).run signals).call.asking? = some request)
    (hleft : request.filter (leavesOpen classify request (.ok statuses)) ≠ []) :
    let log := (Call.start sink classify strategy batch).run signals
    let k := log.rounds.length + 1
    let left := request.filter (leavesOpen classify request (.ok statuses))
    let next := (log.call.step (.answered (.ok statuses))).1
    let tables := (Tables.fresh batch).actAll
      (actsOf classify 1 (log.rounds ++ [(request, .ok statuses)]))
    ∃ f, next.failing = some f ∧ next.machine.ledger.request = left ∧
      (next.step .go).1.machine = (next.machine.judge f).1 ∧
      Reflects sink k (left.map (codeOf request statuses)) f ∧
      ((∃ e ∈ left, codeOf request statuses e = none) →
        f = .partialFailure sink left.length k) ∧
      (∀ order, tables.Lists order → tables.failure sink order = f) ∧
      ∀ strategy' batch' signals',
        let log' := (Call.start sink classify strategy' batch').run signals'
        log'.rounds.length = log.rounds.length → log'.call.asking? = some request →
          (log'.call.step (.answered (.ok statuses))).1.failing = some f := by
  intro log k left next tables
  obtain ⟨hn, hsound, hfollows⟩ := Call.of_asking sink classify strategy batch signals hasking
  obtain ⟨l, hrequest, hsink, hattempt, hbatch, hledger, hfailing, hacts⟩ :=
    hfollows.step_of_left hsound hasking hleft
  have hopen : l.request.filter (leavesOpen classify l.request (.ok statuses)) ≠ [] := by
    rw [hrequest]
    exact hleft
  -- in any order, the codes that are pending after the answer are those that it gave
  have hreflects : ∀ seen, seen.Perm (l.absorb classify (.ok statuses)).pendingCodes →
      Reflects sink k (left.map (codeOf request statuses))
        (failureOfCodes sink k (l.absorb classify (.ok statuses)).outstanding seen) := by
    intro seen hseen
    have hreflects := l.reflects_absorb classify statuses hopen hseen
    rw [hrequest, hsink, hattempt] at hreflects
    exact hreflects
  have hown := hreflects _ (.refl _)
  have hfailure := l.failure_absorb classify statuses
  rw [hsink, hattempt] at hfailure
  rw [hfailure] at hfailing
  refine ⟨_, hfailing, ?_, ?_, hown, ?_, ?_, ?_⟩
  · rw [hledger, Ledger.request_absorb, hrequest]
  · exact congrArg (·.1.machine) (Call.step_of_failing hfailing .go)
  · rintro ⟨e, he, hcode⟩
    have hin : none ∈ left.map (codeOf request statuses) := List.mem_map.mpr ⟨e, he, hcode⟩
    rw [hown.leftOver.mpr (not_all_of_none hin), List.length_map]
  · intro order horder
    have hagrees : tables.Agrees (l.absorb classify (.ok statuses)) := by
      rw [← hacts]
      exact (Tables.agrees_fresh sink batch).actAll _
    have hids : ((l.absorb classify (.ok statuses)).batch.map (·.id)).Nodup := by
      rw [Ledger.batch_absorb, hbatch]
      exact hn
    rw [hagrees.failure_eq hids, Ledger.attempt_absorb, hattempt]
    exact (hreflects _ (hagrees.pendingCodes_perm hids horder)).unique hown
  · intro strategy' batch' signals' log' hlen hasking'
    -- the other call reflects the same codes, and they determine the failure
    obtain ⟨-, hsound', hfollows'⟩ :=
      Call.of_asking sink classify strategy' batch' signals' hasking'
    obtain ⟨l', hrequest', hsink', hattempt', -, -, hfailing', -⟩ :=
      hfollows'.step_of_left hsound' hasking' hleft
    have hreflects' := l'.reflects_absorb classify statuses (by rw [hrequest']; exact hleft)
      (.refl _)
    rw [← Ledger.failure_absorb, hrequest', hsink', hattempt', hlen] at hreflects'
    rw [hown.unique hreflects']
    exact hfailing'

/-- An event had been answered with a server's code, and then the exchange broke off; with
the third answer all that is left was throttled, and that is the failure, in either order
of the two. -/
theorem Call.failure_reflects_third :
    let a : Event := ⟨⟨"a"⟩, [], none⟩
    let b : Event := ⟨⟨"b"⟩, [], none⟩
    let c : Event := ⟨⟨"c"⟩, [], none⟩
    let signals : List Signal :=
      [.go, .answered (.ok [⟨none, 503, none⟩, ⟨none, 429, none⟩, ⟨none, 201, none⟩]), .go, .go,
        .go, .answered (.error (.network "s" "reset")), .go, .go, .go]
    let statuses : List ItemStatus := [⟨none, 429, none⟩, ⟨some ⟨"b"⟩, 429, none⟩]
    let log := (start "s" ItemStatus.classify (.new (.fixed 0) 5 []) [a, b, c]).run signals
    let tables := (Tables.fresh [a, b, c]).actAll
      (actsOf ItemStatus.classify 1 (log.rounds ++ [([a, b], .ok statuses)]))
    log.call.asking? = some [a, b] ∧
      [a, b].filter (leavesOpen ItemStatus.classify [a, b] (.ok statuses)) ≠ [] ∧
      (log.call.step (.answered (.ok statuses))).1.failing
        = some (.throttled "s" s!"{2} item(s) throttled on attempt {3}") ∧
      tables.failure "s" [b.id, a.id] = .throttled "s" s!"{2} item(s) throttled on attempt {3}" := by
  intro a b c signals statuses log tables
  have hasking : log.call.asking? = some [a, b] := by decide
  have hleft : [a, b].filter (leavesOpen ItemStatus.classify [a, b] (.ok statuses)) ≠ [] := by
    decide
  have hlog : (start "s" ItemStatus.classify (.new (.fixed 0) 5 []) [a, b, c]).run signals = log :=
    rfl
  have hrounds : log.rounds.length = 2 := by decide
  have hcodes : ([a, b].filter (leavesOpen ItemStatus.classify [a, b] (.ok statuses))).map
      (codeOf [a, b] statuses) = [some 429, some 429] := by
    decide
  obtain ⟨f, hfailing, -, -, hreflects, -, htables, -⟩ := Call.failure_reflects "s"
    ItemStatus.classify (.new (.fixed 0) 5 []) [a, b, c] signals [a, b] statuses hasking hleft
  rw [hlog] at hfailing hreflects htables
  rw [hcodes, hrounds] at hreflects
  have hf : f = .throttled "s" s!"{2} item(s) throttled on attempt {3}" :=
    hreflects.throttled.mpr (by unfold AllThrottled; decide)
  rw [← hf]
  refine ⟨hasking, hleft, hfailing, htables _ ⟨by decide, ?_⟩⟩
  have hkeys : tables.pending.keys = {b.id, a.id} := by decide +kernel
  intro id
  show id ∈ [b.id, a.id] ↔ id ∈ tables.pending.keys
  rw [hkeys]
  simp

end Courier.Delivery
