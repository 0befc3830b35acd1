import Courier.Proofs.Delivery.Report
/-!
# Requests narrow to what is left open

The first request of a delivery is its batch, and each one after it is what the
answer before it has left open: nothing that was settled is sent again, and
nothing that was not is forgotten. An event that a status settles is settled
for good, with the outcome of that status, whatever is answered later and
whether anything is.

All of this is said of a delivery driven for any number of phases, so it holds
of a delivery that is called off as well: what it has done by then is what it
would have done.
-/

namespace Courier.Delivery

variable {σ : Type} {m m' : Machine} {rounds : List (List Event × Answer)}

/-! ## One round and the next -/

/-- **The first round is of the request that the ledger makes.** -/
theorem Rounds.head (hrs : Rounds m rounds m') {r : List Event} {a : Answer}
    (h : rounds[0]? = some (r, a)) : r = m.ledger.request := by
  cases hrs with
  | none => cases h
  | one => cases h; rfl
  | more => cases h; rfl

/-- **A delivery that waits has got statuses, or a failure that may pass.** -/
theorem Machine.transient_of_waiting {f : Failure} {delay next : Nat}
    (hw : (m.take m.ledger.request (.error f)).1.phase = .waiting delay next) :
    f.kind.isTransient = true := by
  rw [Machine.take_error] at hw
  by_cases ht : f.kind.isTransient = true
  · exact ht
  · rw [if_neg ht] at hw
    cases hw

/-- The request after a wait is what the answer has left open. -/
theorem Machine.request_resumed {a : Answer} {delay next : Nat}
    (hw : (m.take m.ledger.request a).1.phase = .waiting delay next) :
    ((m.take m.ledger.request a).1.resumed next).ledger.request
      = m.ledger.request.filter (leavesOpen m.classify m.ledger.request a) := by
  obtain ⟨-, -, -, ht⟩ := Machine.take_waiting hw
  rw [ht]
  exact Ledger.request_absorb m.ledger m.classify a

/-- Statuses mean the same after a wait. -/
theorem Machine.classify_resumed {a : Answer} {delay next : Nat}
    (hw : (m.take m.ledger.request a).1.phase = .waiting delay next) :
    ((m.take m.ledger.request a).1.resumed next).classify = m.classify := by
  obtain ⟨-, -, -, ht⟩ := Machine.take_waiting hw
  rw [ht]
  rfl

/-- **Each request is what the answer before it has left open**, and when that was a
failure, it is one that may pass. -/
theorem Rounds.narrow (hrs : Rounds m rounds m') :
    ∀ {k : Nat} {r r' : List Event} {a a' : Answer},
      rounds[k]? = some (r, a) → rounds[k + 1]? = some (r', a') →
      r' = r.filter (leavesOpen m.classify r a) ∧
        ∀ f, a = .error f → f.kind.isTransient = true := by
  induction hrs with
  | none =>
    intro k r r' a a' h _
    cases h
  | one =>
    intro k r r' a a' _ h'
    cases h'
  | @more m m' a₀ delay next rounds hw hrs ih =>
    intro k r r' a a' h h'
    cases k with
    | zero =>
      cases h
      refine ⟨(hrs.head h').trans (Machine.request_resumed hw), ?_⟩
      rintro f rfl
      exact Machine.transient_of_waiting hw
    | succ k =>
      rw [← Machine.classify_resumed hw]
      exact ih h h'

/-- **A failure that does not pass ends the delivery**: it is the last answer, and
the result. -/
theorem Rounds.refused (hrs : Rounds m rounds m') :
    ∀ {k : Nat} {r : List Event} {f : Failure}, rounds[k]? = some (r, .error f) →
      f.kind.isTransient = false →
      rounds.length = k + 1 ∧ m'.result? = some (.error f) := by
  induction hrs with
  | none =>
    intro k r f h _
    cases h
  | @one m a =>
    intro k r f h hf
    cases k with
    | zero =>
      cases h
      refine ⟨rfl, ?_⟩
      rw [Machine.take_error, if_neg (by rw [hf]; exact Bool.false_ne_true)]
      rfl
    | succ k => cases h
  | more hw hrs ih =>
    intro k r f h hf
    cases k with
    | zero =>
      cases h
      rw [Machine.transient_of_waiting hw] at hf
      cases hf
    | succ k =>
      obtain ⟨hlen, hres⟩ := ih h hf
      exact ⟨congrArg (· + 1) hlen, hres⟩

/-! ## What is settled stays settled -/

/-- **The answer to a request leaves settled entries in the ledger.** -/
theorem Ledger.mem_absorb_of_settled {l : Ledger} (classify : ItemStatus → ItemClass)
    (a : Answer) {e : Entry} (he : e ∈ l.entries) (hs : e.isOutstanding = false) :
    e ∈ (l.absorb classify a).entries := by
  rw [absorb_eq]
  exact List.mem_map.mpr ⟨e, he, absorbed_of_settled l classify a hs⟩

/-- A delivery that has taken an answer has its ledger as it was, or as the answer
makes it. -/
theorem Machine.ledger_take (m : Machine) (a : Answer) :
    (m.take m.ledger.request a).1.ledger = m.ledger.absorb m.classify a ∨
      ∃ f, a = .error f ∧ (m.take m.ledger.request a).1.ledger = m.ledger := by
  obtain ⟨-, -, ht⟩ | ⟨f, rfl, -, ht⟩ | ⟨f, delay, next, -, -, ht⟩ | ⟨f, reason, -, -, ht⟩ :=
    Machine.take_cases m a
  · exact .inl (by rw [ht])
  · exact .inr ⟨f, rfl, by rw [ht]⟩
  · exact .inl (by rw [ht])
  · exact .inl (by rw [ht])

/-- **What is settled is never touched again.** -/
theorem Rounds.mem_of_settled (hrs : Rounds m rounds m') {e : Entry}
    (hs : e.isOutstanding = false) : e ∈ m.ledger.entries → e ∈ m'.ledger.entries := by
  induction hrs with
  | none h _ =>
    intro he
    rw [h]
    exact he
  | @one m a =>
    intro he
    obtain h | ⟨f, -, h⟩ := m.ledger_take a <;> rw [h]
    · exact Ledger.mem_absorb_of_settled m.classify a he hs
    · exact he
  | @more m m' a delay next rounds hw hrs ih =>
    intro he
    obtain ⟨-, -, -, ht⟩ := Machine.take_waiting hw
    refine ih ?_
    rw [ht]
    exact Ledger.mem_absorb_of_settled m.classify a he hs

/-- **A status settles its event in the ledger after the answer.** -/
theorem Ledger.mem_absorb_settled {l : Ledger} {classify : ItemStatus → ItemClass}
    {statuses : List ItemStatus} {x : Event} {s : ItemStatus} (hx : x ∈ l.request)
    (hd : deciding l.request x.id 0 statuses = some s) (hc : classify s ≠ .retryable) :
    (⟨x, .settled (.classified x.id s (classify s) l.attempt)⟩ : Entry)
      ∈ (l.absorb classify (.ok statuses)).entries := by
  obtain ⟨e, he, rfl⟩ := List.mem_map.mp hx
  obtain ⟨he, ho⟩ := List.mem_filter.mp he
  rw [absorb_eq]
  refine List.mem_map.mpr ⟨e, he, ?_⟩
  show e.answered classify l.attempt l.request statuses = _
  unfold Entry.answered
  rw [if_pos ho, hd, ← Standing.ofStatus_of_ne hc]

/-- **An event that a status settles has the outcome of that status at the end**,
with the number of the attempt in which it was settled. -/
theorem Rounds.settles {batch : List Event} (hrs : Rounds m rounds m') :
    ∀ {k : Nat}, m.Underway batch k → ∀ {j : Nat} {r : List Event} {statuses : List ItemStatus}
      {x : Event} {s : ItemStatus}, rounds[j]? = some (r, .ok statuses) → x ∈ r →
      deciding r x.id 0 statuses = some s → m.classify s ≠ .retryable →
      (⟨x, .settled (.classified x.id s (m.classify s) (k + j))⟩ : Entry)
        ∈ m'.ledger.entries := by
  induction hrs with
  | none =>
    intro k _ j r statuses x s h
    cases h
  | @one m a =>
    intro k hu j r statuses x s h hx hd hc
    cases j with
    | zero =>
      cases h
      obtain h | ⟨f, h, -⟩ := m.ledger_take (.ok statuses)
      · rw [h, Nat.add_zero, ← hu.ledger_attempt]
        exact Ledger.mem_absorb_settled hx hd hc
      · cases h
    | succ j => cases h
  | @more m m' a delay next rounds hw hrs ih =>
    intro k hu j r statuses x s h hx hd hc
    cases j with
    | zero =>
      cases h
      obtain ⟨-, -, -, ht⟩ := Machine.take_waiting hw
      refine hrs.mem_of_settled rfl ?_
      rw [ht, Nat.add_zero, ← hu.ledger_attempt]
      exact Ledger.mem_absorb_settled hx hd hc
    | succ j =>
      obtain ⟨-, hu'⟩ := hu.next hw
      have hcl := Machine.classify_resumed hw
      have hin := ih hu' h hx hd (by rw [hcl]; exact hc)
      rw [hcl, show k + 1 + j = k + (j + 1) by omega] at hin
      exact hin

/-! ## All requests of a delivery -/

/-- **Requests that narrow**: what the requests of a delivery are, given the
answers to them. -/
structure Narrowed (classify : ItemStatus → ItemClass) (batch : List Event)
    (requests : List (List Event)) (answers : List Answer) : Prop where
  /-- The first one is the batch. -/
  first : ∀ {r : List Event}, requests[0]? = some r → r = batch
  /-- Each one holds events of the batch as they are there, and in its order. -/
  ordered : ∀ {k : Nat} {r : List Event}, requests[k]? = some r → r.Sublist batch
  /-- Each one has an answer, once there is another. -/
  answered : ∀ {k : Nat} {r' : List Event}, requests[k + 1]? = some r' →
    ∃ a, answers[k]? = some a
  /-- The next one is what the answer has left open. -/
  next : ∀ {k : Nat} {r r' : List Event} {a : Answer}, requests[k]? = some r →
    answers[k]? = some a → requests[k + 1]? = some r' →
    r' = r.filter (leavesOpen classify r a)
  /-- When the request has failed, the failure may pass, and all of it is sent
  again. -/
  whole : ∀ {k : Nat} {r r' : List Event} {f : Failure}, requests[k]? = some r →
    answers[k]? = some (.error f) → requests[k + 1]? = some r' →
    f.kind.isTransient = true ∧ r' = r
  /-- What an answer has settled is in no later one. -/
  once : ∀ {j i : Nat} {r r' : List Event} {statuses : List ItemStatus} {x : Event}
    {s : ItemStatus}, requests[j]? = some r → answers[j]? = some (.ok statuses) →
    deciding r x.id 0 statuses = some s → classify s ≠ .retryable → j < i →
    requests[i]? = some r' → x ∉ r'

/-- A round is a request and its answer. -/
theorem getElem?_rounds {k : Nat} {r : List Event} {a : Answer}
    (hr : (rounds.map (·.1))[k]? = some r) (ha : (rounds.map (·.2))[k]? = some a) :
    rounds[k]? = some (r, a) := by
  rw [List.getElem?_map, Option.map_eq_some_iff] at hr ha
  obtain ⟨p, hp, rfl⟩ := hr
  obtain ⟨q, hq, rfl⟩ := ha
  obtain rfl := Option.some.inj (hp.symm.trans hq)
  exact hp

/-- A request is the one of its round. -/
theorem exists_rounds {k : Nat} {r : List Event} (h : (rounds.map (·.1))[k]? = some r) :
    ∃ a, rounds[k]? = some (r, a) := by
  rw [List.getElem?_map, Option.map_eq_some_iff] at h
  obtain ⟨⟨r, a⟩, h, rfl⟩ := h
  exact ⟨a, h⟩

/-- **A request after another** asks for what the answer before it left open. -/
theorem Rounds.exists_before (hrs : Rounds m rounds m') {k : Nat} {r' : List Event}
    (h : (rounds.map (·.1))[k + 1]? = some r') :
    ∃ r a, rounds[k]? = some (r, a) ∧ r' = r.filter (leavesOpen m.classify r a) := by
  obtain ⟨a', h'⟩ := exists_rounds h
  obtain ⟨hlt, -⟩ := List.getElem?_eq_some_iff.mp h'
  have hk := List.getElem?_eq_getElem (show k < rounds.length by omega)
  exact ⟨_, _, hk, (hrs.narrow hk h').1⟩

/-- **Requests narrow over any number of rounds.** -/
theorem Rounds.sublist (hrs : Rounds m rounds m') {k : Nat} {r : List Event}
    (h : (rounds.map (·.1))[k]? = some r) :
    ∀ {i : Nat} {r' : List Event}, (rounds.map (·.1))[k + i]? = some r' → r'.Sublist r := by
  intro i
  induction i with
  | zero =>
    intro r' h'
    obtain rfl := Option.some.inj (h.symm.trans h')
    exact List.Sublist.refl r
  | succ i ih =>
    intro r' h'
    obtain ⟨r₁, a, hr₁, rfl⟩ := hrs.exists_before (k := k + i) h'
    refine List.filter_sublist.trans (ih ?_)
    rw [List.getElem?_map, hr₁]
    rfl

/-- **The requests of a delivery under way narrow**, with the rounds that they are
made in. -/
theorem Rounds.narrowed {batch : List Event} (hrs : Rounds m rounds m')
    (hfirst : m.ledger.request = batch) :
    Narrowed m.classify batch (rounds.map (·.1)) (rounds.map (·.2)) := by
  have hzero : ∀ {r : List Event}, (rounds.map (·.1))[0]? = some r → r = batch := by
    intro r h
    obtain ⟨a, h⟩ := exists_rounds h
    exact (hrs.head h).trans hfirst
  refine ⟨hzero, ?_, ?_, ?_, ?_, ?_⟩
  · intro k r h
    have hpos : 0 < (rounds.map (·.1)).length := by
      obtain ⟨hlt, -⟩ := List.getElem?_eq_some_iff.mp h
      exact Nat.lt_of_le_of_lt (Nat.zero_le k) hlt
    have h₀ := List.getElem?_eq_getElem hpos
    rw [← hzero h₀]
    exact hrs.sublist h₀ (by rw [Nat.zero_add]; exact h)
  · intro k r' h
    obtain ⟨r, a, hk, -⟩ := hrs.exists_before h
    exact ⟨a, by rw [List.getElem?_map, hk]; rfl⟩
  · intro k r r' a h ha h'
    obtain ⟨a', h'⟩ := exists_rounds h'
    exact (hrs.narrow (getElem?_rounds h ha) h').1
  · intro k r r' f h ha h'
    obtain ⟨a', h'⟩ := exists_rounds h'
    obtain ⟨rfl, ht⟩ := hrs.narrow (getElem?_rounds h ha) h'
    exact ⟨ht f rfl, List.filter_eq_self.mpr fun _ _ => rfl⟩
  · intro j i r r' statuses x s h ha hd hc hji h' hx
    obtain ⟨i, rfl⟩ := Nat.exists_eq_add_of_lt hji
    have hlt : j + 1 < (rounds.map (·.1)).length := by
      obtain ⟨hlt, -⟩ := List.getElem?_eq_some_iff.mp h'
      omega
    have h₁ := List.getElem?_eq_getElem hlt
    obtain ⟨a', h₁'⟩ := exists_rounds h₁
    have hin : x ∈ (rounds.map (·.1))[j + 1] := by
      refine (hrs.sublist h₁ (i := i) ?_).subset hx
      rw [show j + 1 + i = j + i + 1 by omega]
      exact h'
    rw [(hrs.narrow (getElem?_rounds h ha) h₁').1, List.mem_filter] at hin
    rw [leavesOpen_of_deciding hd] at hin
    exact hc (of_decide_eq_true hin.2)

/-- **The requests of a delivery narrow to what is left open**, however far it has
been driven. The first of them is made unless the batch is empty; an event that a
status settles is settled from then on as that status says, whatever comes after
it; and a failure that does not pass is the last answer and the result. -/
theorem drive_narrows (sink : String) (classify : ItemStatus → ItemClass)
    (strategy : Retry.Strategy) (exchange : σ → List Event → σ × Answer) (phases : Nat) (s : σ)
    (batch : List Event) (hn : (batch.map (·.id)).Nodup) :
    let course := (Machine.start sink classify strategy batch).drive exchange phases s
    let answers := answersTo exchange s course.requests
    Narrowed classify batch course.requests answers ∧
      (batch ≠ [] → 2 ≤ phases → course.requests[0]? = some batch) ∧
      (∀ j r statuses x st, course.requests[j]? = some r → answers[j]? = some (.ok statuses) →
        x ∈ r → deciding r x.id 0 statuses = some st → classify st ≠ .retryable →
        (⟨x, .settled (.classified x.id st (classify st) (j + 1))⟩ : Entry)
          ∈ course.machine.ledger.entries) ∧
      (∀ k f, answers[k]? = some (.error f) → f.kind.isTransient = false →
        course.requests.length = k + 1 ∧ course.machine.result? = some (.error f)) := by
  intro course answers
  by_cases hne : batch = []
  · subst hne
    have hreq : course.requests = [] :=
      congrArg Course.requests (Machine.drive_ended exchange rfl phases s)
    have hans : answers = [] := congrArg (answersTo exchange s) hreq
    rw [hreq, hans]
    refine ⟨⟨?_, ?_, ?_, ?_, ?_, ?_⟩, fun h => absurd rfl h, ?_, ?_⟩ <;> intros <;>
      simp_all
  obtain ⟨hm, hu⟩ := Machine.start_underway sink classify strategy hne hn
  have hcl : (Machine.start sink classify strategy batch).classify = classify := by rw [hm]
  have hfirst : (Machine.start sink classify strategy batch).ledger.request = batch := by
    rw [hm]
    exact Ledger.request_fresh sink batch
  -- what is said of requests and answers is read off the rounds that they make
  obtain ⟨rounds, hrs, hreq, hans⟩ := Machine.drive_rounds exchange phases
    (Machine.start sink classify strategy batch) s hu.ready
  have hreq' : course.requests = rounds.map (·.1) := hreq
  have hans' : answers = rounds.map (·.2) := hans
  refine ⟨?_, ?_, ?_, ?_⟩
  · rw [hreq', hans', ← hcl]
    exact hrs.narrowed hfirst
  · intro _ hphases
    obtain ⟨phases, rfl⟩ := Nat.exists_eq_add_of_le' hphases
    have hround := (Machine.drive_round exchange hu.ready phases s).2
    rw [hfirst] at hround
    rw [show course.requests = _ from hround]
    rfl
  · intro j r statuses x st hr ha hx hd hc
    rw [hreq'] at hr
    rw [hans'] at ha
    have hin := hrs.settles hu (getElem?_rounds hr ha) hx hd (by rw [hcl]; exact hc)
    rw [hcl, Nat.add_comm 1 j] at hin
    exact hin
  · intro k f ha hf
    rw [hans', List.getElem?_map, Option.map_eq_some_iff] at ha
    obtain ⟨⟨r, a⟩, hround, rfl⟩ := ha
    rw [hreq', List.length_map]
    exact hrs.refused hround hf

/-- The requests narrow from two events to one, which is sent once more after a
failure that may pass. -/
theorem drive_narrows_twice :
    let a : Event := ⟨⟨"a"⟩, [1], none⟩
    let b : Event := ⟨⟨"b"⟩, [2], some "k"⟩
    let exchange (answers : List Answer) (_ : List Event) : List Answer × Answer :=
      (answers.tail, answers.headD (.ok []))
    let answers : List Answer :=
      [.ok [⟨some ⟨"b"⟩, 503, none⟩, ⟨some ⟨"a"⟩, 201, none⟩], .error (.network "s" "reset"),
        .ok [⟨none, 200, none⟩]]
    let course := (Machine.start "s" ItemStatus.classify (.new (.fixed 0) 3 []) [a, b]).drive
      exchange 9 answers
    ([a, b].map (·.id)).Nodup ∧ course.requests = [[a, b], [b], [b]] ∧
      Narrowed ItemStatus.classify [a, b] course.requests
        (answersTo exchange answers course.requests) := by
  intro a b exchange answers course
  exact ⟨by decide, by decide, (drive_narrows "s" ItemStatus.classify (.new (.fixed 0) 3 [])
    exchange 9 answers [a, b] (by decide)).1⟩

end Courier.Delivery
