import Courier.Proofs.Delivery.Concurrency
/-!
# Attempts that are counted and requests that are sent

An attempt is counted before its request is sent, and the token is looked at in
between. So a call that is about to send counts an attempt whenever it is run next,
and sends only when the token is not cancelled by then. Nothing else counts an
attempt, and nothing else sends (`Call.attempts_step`).

What the calls of a dispatcher have counted together is therefore what they have
sent, and one attempt more for each of them that was stopped short of a request
(`Dispatch.attempts_run`). The two are the same exactly when none was
(`Dispatch.attempts_eq_asked_iff`), which can fail: a call that begins with its token
cancelled has counted an attempt and sent nothing (`Dispatch.attempts_unsent`).
-/

namespace Courier.Delivery

open Counters (counted)

/-! ## One call -/

/-- **Whether a call is about to send**: its next attempt is counted when it is run, and its
next request is sent unless it is called off. -/
def Call.isReady (c : Call) : Bool :=
  match c.failing, c.machine.phase with
  | none, .ready => true
  | _, _ => false

theorem Task.begun_self (x : Phase) : begun x x = [] := by
  cases x <;> rfl

namespace Call

variable {m : Machine} {request : List Event}

/-- An answer that is taken in counts no attempt. -/
theorem attempts_take (m : Machine) (request : List Event) (a : Answer) :
    (counted (take m request a).2).attempts = 0 := by
  unfold take
  cases a with
  | ok statuses =>
    dsimp only
    split <;> rfl
  | error f =>
    dsimp only
    split <;> rfl

theorem attempts_judge (m : Machine) (f : Failure) : (counted (m.judge f).2).attempts = 0 := by
  unfold Machine.judge
  cases m.retry.verdict f <;> rfl

/-- **A call that is not about to send** counts no attempt and sends nothing, whatever it
hears. -/
theorem step_of_not_isReady {c : Call} (h : c.isReady = false) (s : Signal) :
    (counted (c.step s).2).attempts = 0 ∧
      Task.begun c.machine.phase (c.step s).1.machine.phase = [] := by
  obtain ⟨m, _ | f⟩ := c
  · rw [step_of_clear rfl]
    unfold stepClear Machine.step
    cases hp : m.phase with
    | ready =>
      simp only [isReady, hp] at h
      cases h
    | inFlight request =>
      cases s with
      | go => exact ⟨rfl, rfl⟩
      | answered a => exact ⟨attempts_take m request a, rfl⟩
      | cancel => exact ⟨rfl, rfl⟩
    | waiting delay next =>
      cases s with
      | answered a =>
        refine ⟨rfl, ?_⟩
        show Task.begun _ m.phase = []
        rw [hp]
        rfl
      | _ => exact ⟨rfl, rfl⟩
    | ended r =>
      refine ⟨rfl, ?_⟩
      show Task.begun _ m.phase = []
      rw [hp]
      rfl
  · rw [step_of_failing rfl]
    cases s with
    | go => exact ⟨attempts_judge m f, Task.begun_eq_nil _ (Machine.pending_judge m f)⟩
    | answered a => exact ⟨rfl, Task.begun_self _⟩
    | cancel => exact ⟨rfl, Task.begun_eq_nil _ rfl⟩

/-- **A call that is about to send** counts an attempt and sends its request when it may go
on, and counts one all the same when it is called off. -/
theorem step_of_isReady {c : Call} (h : c.isReady = true) :
    ((counted (c.step .go).2).attempts = 1 ∧
      Task.begun c.machine.phase (c.step .go).1.machine.phase = [c.machine.ledger.request]) ∧
    ((counted (c.step .cancel).2).attempts = 1 ∧
      Task.begun c.machine.phase (c.step .cancel).1.machine.phase = []) := by
  obtain ⟨m, _ | f⟩ := c
  · have hp : m.phase = .ready := by
      unfold isReady at h
      split at h
      · assumption
      · cases h
    simp only [step, stepClear, Machine.step, hp]
    exact ⟨⟨rfl, rfl⟩, rfl, rfl⟩
  · cases h

end Call

/-! ## All together -/

namespace Dispatch

variable {ι : Type} [DecidableEq ι] {reply : Replies ι}

/-- **A move that stops a call short of a request**: the call is run when it is about to send,
and the token is cancelled. -/
def stopsShort (d : Dispatch ι) : Move ι → Bool
  | .run i => d.calledOff && (d.calls i).isReady
  | .cancel => false

/-- **How often a call is stopped short of a request.** -/
def short (reply : Replies ι) : Dispatch ι → List (Move ι) → Nat
  | _, [] => 0
  | d, move :: rest => (d.stopsShort move).toNat + short reply (d.step reply move) rest

/-- **No call is ever stopped short of a request**: whenever one is run and the token is
cancelled by then, it is not about to send. -/
def NeverShort (reply : Replies ι) (d : Dispatch ι) (schedule : List (Move ι)) : Prop :=
  ∀ before i after, schedule = before ++ .run i :: after →
    (d.run reply before).calledOff = true → ((d.run reply before).calls i).isReady = false

omit [DecidableEq ι] in
/-- A call that is about to send hears that it may go on, or that it is called off. -/
theorem hears_of_isReady {d : Dispatch ι} {i : ι} (h : (d.calls i).isReady = true) :
    d.hears reply i = if d.calledOff then .cancel else .go := by
  have hasking : (d.calls i).asking? = none := by
    unfold Call.isReady at h
    unfold Call.asking?
    split at h
    · next hf hp => rw [hf, hp]
    · cases h
  unfold hears
  rw [hasking]
  rfl

/-- **One move** counts an attempt for each request it sends, and one more when it stops a call
short of a request. -/
theorem attempts_step (reply : Replies ι) (d : Dispatch ι) (move : Move ι) :
    (d.step reply move).counters.attempts + d.asked.length
      = d.counters.attempts + (d.step reply move).asked.length
        + (d.stopsShort move).toNat := by
  cases move with
  | cancel => rfl
  | run i =>
    have hcounters : (d.step reply (.run i)).counters
        = d.counters.recordAll ((d.calls i).step (d.hears reply i)).2 := rfl
    have hasked : (d.step reply (.run i)).asked = d.asked ++ (Task.begun (d.calls i).machine.phase
        ((d.calls i).step (d.hears reply i)).1.machine.phase).map ((i, ·)) := rfl
    have hshort : d.stopsShort (.run i) = (d.calledOff && (d.calls i).isReady) := rfl
    rw [hcounters, hasked, hshort, Counters.recordAll_eq_add, Counters.attempts_add,
      List.length_append, List.length_map]
    cases hready : (d.calls i).isReady with
    | false =>
      obtain ⟨hcount, hbegun⟩ := Call.step_of_not_isReady hready (d.hears reply i)
      rw [hcount, hbegun, Bool.and_false]
      rfl
    | true =>
      obtain ⟨⟨hgo, hsent⟩, hcancel, hunsent⟩ := Call.step_of_isReady hready
      rw [hears_of_isReady hready]
      cases d.calledOff with
      | false =>
        rw [if_neg Bool.false_ne_true, hgo, hsent]
        exact Nat.add_right_comm _ _ _
      | true =>
        rw [if_pos rfl, hcancel, hunsent]
        exact Nat.add_right_comm _ _ _

/-- **The calls of a dispatcher have counted what they have sent**, and one attempt more each
time that one of them was stopped short of a request. -/
theorem attempts_run (reply : Replies ι) (schedule : List (Move ι)) : ∀ d : Dispatch ι,
    (d.run reply schedule).counters.attempts + d.asked.length
      = d.counters.attempts + (d.run reply schedule).asked.length + d.short reply schedule := by
  induction schedule with
  | nil => exact fun _ => rfl
  | cons move rest ih =>
    intro d
    have hstep := attempts_step reply d move
    have hrest := ih (d.step reply move)
    show ((d.step reply move).run reply rest).counters.attempts + _
      = _ + ((d.step reply move).run reply rest).asked.length + (_ + _)
    omega

/-- **A call is stopped short of a request at some move**, or never. -/
theorem short_eq_zero_iff (reply : Replies ι) (schedule : List (Move ι)) : ∀ d : Dispatch ι,
    d.short reply schedule = 0 ↔ d.NeverShort reply schedule := by
  induction schedule with
  | nil => exact fun d => ⟨fun _ before i after h => by simp at h, fun _ => rfl⟩
  | cons move rest ih =>
    intro d
    -- the first move is not stopped short, and neither is any of the others
    have hshort : d.short reply (move :: rest) = 0
        ↔ d.stopsShort move = false ∧ (d.step reply move).NeverShort reply rest := by
      rw [← ih (d.step reply move)]
      show (d.stopsShort move).toNat + _ = 0 ↔ _
      cases d.stopsShort move <;> simp
    rw [hshort]
    constructor
    · rintro ⟨hmove, hrest⟩ before i after hsplit hoff
      cases before with
      | nil =>
        obtain ⟨rfl, rfl⟩ := List.cons.inj hsplit
        have hoff : d.calledOff = true := hoff
        have hmove : (d.calledOff && (d.calls i).isReady) = false := hmove
        rw [hoff, Bool.true_and] at hmove
        exact hmove
      | cons first before =>
        obtain ⟨hfirst, hrests⟩ := List.cons.inj hsplit
        subst hfirst
        exact hrest before i after hrests hoff
    · intro h
      refine ⟨?_, fun before i after hsplit => h (move :: before) i after (by rw [hsplit]; rfl)⟩
      cases move with
      | cancel => rfl
      | run i =>
        have hfirst := h [] i rest rfl
        show (d.calledOff && (d.calls i).isReady) = false
        cases hoff : d.calledOff with
        | false => rfl
        | true => exact hfirst hoff

/-- **The attempts that are counted are the requests that are sent, exactly when no call is
stopped short of a request.** Whatever the batches are for which a dispatcher is called,
whatever answers come, in whatever order the calls are run, and whenever the token is
cancelled: its counter of attempts, and the series of its sink, have gone up by the
number of requests sent and by the number of times that a call was about to send when it
found the token cancelled. -/
theorem attempts_eq_asked_iff (sink : String) (classify : ItemStatus → ItemClass)
    (strategy : Retry.Strategy) (batches : ι → List Event) (reply : Replies ι)
    (schedule : List (Move ι)) (c : Counters) (t : Telemetry) :
    let begun := start sink classify strategy batches c
    let d := begun.run reply schedule
    let series := (t.addAll (seriesOf sink (d.noted.map (·.2)))).count (.attempts sink)
    (d.counters.attempts = c.attempts + d.asked.length ↔ begun.NeverShort reply schedule) ∧
      (series = t.count (.attempts sink) + d.asked.length ↔ begun.NeverShort reply schedule) ∧
      d.counters.attempts = c.attempts + d.asked.length + begun.short reply schedule ∧
      series = t.count (.attempts sink) + d.asked.length + begun.short reply schedule := by
  intro begun d series
  have hcounter : d.counters.attempts
      = c.attempts + d.asked.length + begun.short reply schedule :=
    attempts_run reply schedule begun
  have hnotes : d.counters = c + counted (d.noted.map (·.2)) :=
    counters_run reply c schedule begun (add_zero c).symm
  have hcounted : d.counters.attempts = c.attempts + (counted (d.noted.map (·.2))).attempts := by
    rw [hnotes, Counters.attempts_add]
  have hseries : series = t.count (.attempts sink) + (counted (d.noted.map (·.2))).attempts :=
    (count_seriesOf sink _ t).1
  rw [← short_eq_zero_iff]
  exact ⟨by omega, by omega, hcounter, by omega⟩

/-- **An attempt is counted that sends nothing**: the token is cancelled before the only call
is run. It has ended, and no request was sent. -/
theorem attempts_unsent :
    let batch : List Event := [⟨⟨"a"⟩, [], none⟩]
    let reply : Replies Unit := fun _ _ => .ok []
    let d := (start "s" ItemStatus.classify (.new (.fixed 0) 3 []) (fun _ => batch) {}).run reply
      [.cancel, .run ()]
    (d.calls ()).machine.result?.isSome = true ∧ d.asked = [] ∧ d.counters.attempts = 1 ∧
      (Telemetry.addAll [] (seriesOf "s" (d.noted.map (·.2)))).count (.attempts "s") = 1 := by
  decide

end Dispatch

end Courier.Delivery
