import Mathlib.Algebra.BigOperators.Group.Finset.Piecewise
import Mathlib.Logic.Function.Iterate
import Courier.Proofs.Delivery.Calls
import Courier.Proofs.Delivery.Cancellation
import Courier.Proofs.Delivery.Counting
import Courier.Proofs.Delivery.Report
import Courier.Proofs.Interleaving
/-!
# Deliveries side by side

When the answers to the requests of a call depend on its own requests only, it can
see nothing of the others that share its dispatcher: `Dispatch.seen` is what it can
see, and a move of another does not change that (`Dispatch.seen_step`). So it makes the same requests
and has the same result as when it is run alone; and the counters, into which all
count, have in the end what each of them adds when it is run alone
(`Dispatch.run_independent`). If the token is not cancelled, what becomes of the
call is what becomes of an uninterrupted delivery.
-/

namespace Courier.Delivery

variable {ι : Type} [DecidableEq ι]

/-! ## Answers -/

/-- **Answers that are apart**: those to a call depend on its own requests only. -/
def Replies.Apart (reply : Replies ι) : Prop :=
  ∀ i asked asked', own i asked = own i asked' → reply asked i = reply asked' i

/-- What answers the requests of a call, when there are no others. -/
def Replies.to (reply : Replies ι) (i : ι) (asked : List (List Event)) : Answer :=
  reply (asked.map fun request => (i, request)) i

namespace Dispatch

/-- Whether a move is of a call: it is run, or the token is cancelled. -/
def Move.concerns (i : ι) : Move ι → Bool
  | .run j => j = i
  | .cancel => true

/-! ## What a call can see -/

/-- **What there is for a call to see.** -/
structure View where
  /-- The call itself. -/
  call : Call
  /-- The requests it has made. -/
  asked : List (List Event)
  /-- The notes it has left. -/
  noted : List Note
  /-- Whether the token is cancelled. -/
  calledOff : Bool

/-- What one of the calls can see. -/
def seen (i : ι) (d : Dispatch ι) : View :=
  ⟨d.calls i, own i d.asked, own i d.noted, d.calledOff⟩

/-- What a call hears that is alone. -/
def View.hears (answer : List (List Event) → Answer) (v : View) : Signal :=
  if v.calledOff then .cancel
  else if v.call.asking?.isSome then .answered (answer v.asked) else .go

/-- **A call that is alone is run.** -/
def View.next (answer : List (List Event) → Answer) (v : View) : View :=
  let (c, notes) := v.call.step (v.hears answer)
  { v with
    call := c
    asked := v.asked ++ Task.begun v.call.machine.phase c.machine.phase
    noted := v.noted ++ notes }

/-- A move, as a call sees it. -/
def View.step (answer : List (List Event) → Answer) (i : ι) (v : View) : Move ι → View
  | .run j => if j = i then v.next answer else v
  | .cancel => { v with calledOff := true }

variable {reply : Replies ι} {d : Dispatch ι} {i : ι}

/-- Among others a call hears what it hears alone. -/
theorem hears_eq (h : reply.Apart) (d : Dispatch ι) (i : ι) :
    d.hears reply i = (d.seen i).hears (reply.to i) := by
  have hreply : reply d.asked i = reply.to i (own i d.asked) :=
    h i _ _ (own_map_self i _).symm
  unfold hears
  rw [hreply]
  rfl

/-- **A call sees nothing of the moves of others**, and its own are those of a call that is
alone. -/
theorem seen_step (h : reply.Apart) (d : Dispatch ι) (i : ι) (move : Move ι) :
    (d.step reply move).seen i = (d.seen i).step (reply.to i) i move := by
  cases move with
  | cancel => rfl
  | run j =>
    by_cases hj : j = i
    · subst hj
      rw [View.step, if_pos rfl]
      unfold step seen View.next
      dsimp only
      rw [hears_eq h, Function.update_self, own_append, own_append, own_map_self, own_map_self]
      rfl
    · rw [View.step, if_neg hj]
      unfold step seen
      dsimp only
      rw [Function.update_of_ne (Ne.symm hj), own_append, own_append, own_map_of_ne hj,
        own_map_of_ne hj, List.append_nil, List.append_nil]

/-- **So it is with several moves.** -/
theorem seen_run (h : reply.Apart) (schedule : List (Move ι)) (i : ι) : ∀ d : Dispatch ι,
    (d.run reply schedule).seen i = schedule.foldl (View.step (reply.to i) i) (d.seen i) := by
  induction schedule with
  | nil => exact fun d => rfl
  | cons move schedule ih =>
    intro d
    rw [List.foldl_cons, ← seen_step h]
    exact ih (d.step reply move)

/-- Only the moves that are of a call count for what it sees. -/
theorem View.foldl_filter (answer : List (List Event) → Answer) (i : ι)
    (schedule : List (Move ι)) : ∀ v : View,
      (schedule.filter (Move.concerns i)).foldl (View.step answer i) v
        = schedule.foldl (View.step answer i) v := by
  induction schedule with
  | nil => exact fun _ => rfl
  | cons move schedule ih =>
    intro v
    rw [List.filter_cons, List.foldl_cons]
    split
    · exact ih _
    · next hmove =>
      cases move with
      | cancel => exact absurd rfl hmove
      | run j =>
        have hj : j ≠ i := fun hj => hmove (decide_eq_true hj)
        rw [ih, View.step, if_neg hj]

/-- **A call among others sees what it sees alone.** -/
theorem seen_run_filter (h : reply.Apart) (schedule : List (Move ι)) (i : ι) (d : Dispatch ι) :
    (d.run reply schedule).seen i
      = (d.run reply (schedule.filter (Move.concerns i))).seen i := by
  rw [seen_run h, seen_run h, View.foldl_filter]

/-! ## The counters -/

/-- **The counters are up to date** when they have counted the notes of all. -/
theorem counters_run (reply : Replies ι) (c : Counters) (schedule : List (Move ι)) :
    ∀ d : Dispatch ι, d.counters = c + Counters.counted (d.noted.map (·.2)) →
      (d.run reply schedule).counters
        = c + Counters.counted ((d.run reply schedule).noted.map (·.2)) := by
  induction schedule with
  | nil => exact fun d hd => hd
  | cons move schedule ih =>
    intro d hd
    refine ih (d.step reply move) ?_
    cases move with
    | cancel => exact hd
    | run i =>
      unfold step
      dsimp only
      rw [Counters.recordAll_eq_add, hd, List.map_append, List.map_map, Counters.counted_append,
        add_assoc]
      congr 3
      exact (List.map_id _).symm

/-- **Notes count up by whose they are.** -/
theorem counted_own [Fintype ι] (noted : List (ι × Note)) :
    Counters.counted (noted.map (·.2)) = ∑ i, Counters.counted (own i noted) := by
  induction noted with
  | nil => exact (Finset.sum_eq_zero fun _ _ => rfl).symm
  | cons x noted ih =>
    obtain ⟨j, note⟩ := x
    have hown : ∀ i, Counters.counted (own i ((j, note) :: noted))
        = (if j = i then ({} : Counters).record note else 0) + Counters.counted (own i noted) := by
      intro i
      by_cases hj : j = i
      · subst hj
        rw [own_cons_self, if_pos rfl, Counters.counted_cons]
      · rw [own_cons_of_ne hj, if_neg hj, zero_add]
    rw [List.map_cons, Counters.counted_cons, ih, Finset.sum_congr rfl fun i _ => hown i,
      Finset.sum_add_distrib, Finset.sum_ite_eq, if_pos (Finset.mem_univ j)]

/-- What is left when only one call is run is its own. -/
theorem own_noted_of_filter (h : reply.Apart) {j : ι} (hj : j ≠ i) (schedule : List (Move ι)) :
    own j (d.run reply (schedule.filter (Move.concerns i))).noted = own j d.noted := by
  have hseen := congrArg View.noted (seen_run h (schedule.filter (Move.concerns i)) j d)
  refine hseen.trans ?_
  -- a call that is not run leaves no notes
  have hstay : ∀ (moves : List (Move ι)) (v : View), (∀ move ∈ moves, move ≠ .run j) →
      (moves.foldl (View.step (reply.to j) j) v).noted = v.noted := by
    intro moves
    induction moves with
    | nil => exact fun _ _ => rfl
    | cons move moves ih =>
      intro v hmoves
      rw [List.foldl_cons, ih _ fun m hm => hmoves m (List.mem_cons_of_mem move hm)]
      cases move with
      | cancel => rfl
      | run k =>
        have hk : k ≠ j := fun hk => hmoves _ List.mem_cons_self (congrArg Move.run hk)
        rw [View.step, if_neg hk]
  refine hstay _ _ fun move hmove hrun => ?_
  subst hrun
  exact hj (of_decide_eq_true (List.mem_filter.mp hmove).2)

/-- **What a call adds to the counters** is what its own notes count up, and it adds the same
when it is run alone. -/
theorem counters_filter [Fintype ι] (h : reply.Apart) (schedule : List (Move ι)) (i : ι)
    (hnoted : d.noted = []) :
    (d.run reply (schedule.filter (Move.concerns i))).counters
      = d.counters + Counters.counted (own i (d.run reply schedule).noted) := by
  have hbegin : d.counters = d.counters + Counters.counted (d.noted.map (·.2)) := by
    rw [hnoted]
    exact (add_zero _).symm
  have hown := congrArg View.noted (seen_run_filter h schedule i d)
  have hown : own i (d.run reply schedule).noted
      = own i (d.run reply (schedule.filter (Move.concerns i))).noted := hown
  rw [counters_run reply d.counters _ d hbegin, counted_own, hown,
    Finset.sum_eq_single i (fun j _ hj => ?_) (fun hi => absurd (Finset.mem_univ i) hi)]
  rw [own_noted_of_filter h hj, hnoted]
  rfl

/-! ## Alone and without interruption -/

end Dispatch

/-- The request that is in flight in a phase. -/
def Phase.pending : Phase → List (List Event)
  | .inFlight request => [request]
  | _ => []

/-- Between two phases that request begins that is then in flight. -/
theorem Task.begun_eq {x : Phase} (h : x.pending = []) (y : Phase) : begun x y = y.pending := by
  cases x with
  | inFlight request => exact nomatch h
  | _ => cases y <;> rfl

/-- No request begins between two phases when none is then in flight. -/
theorem Task.begun_eq_nil (x : Phase) {y : Phase} (h : y.pending = []) : begun x y = [] := by
  cases y with
  | inFlight request => exact nomatch h
  | _ => cases x <;> rfl

namespace Machine

/-- A failure that has been put to the strategy leaves no request in flight. -/
theorem pending_judge (m : Machine) (f : Failure) : (m.judge f).1.phase.pending = [] := by
  unfold judge
  cases m.retry.verdict f <;> rfl

/-- Neither does an answer that has been taken in. -/
theorem pending_take (m : Machine) (request : List Event) (a : Answer) :
    (m.take request a).1.phase.pending = [] := by
  unfold take
  cases a with
  | ok statuses =>
    dsimp only
    split
    · rfl
    · exact pending_judge _ _
  | error f =>
    dsimp only
    split
    · exact pending_judge _ _
    · rfl

/-- **What answers the requests of an uninterrupted delivery**: it keeps the requests that
have been made, and answers by them. -/
def exchange (answer : List (List Event) → Answer) (asked : List (List Event))
    (request : List Event) : List (List Event) × Answer :=
  (asked ++ [request], answer (asked ++ [request]))

end Machine

namespace Dispatch.View

variable {answer : List (List Event) → Answer} {m : Machine}

/-- **A call without a failure in its hands**, as it sees itself. -/
def clear (m : Machine) (asked : List (List Event)) (noted : List Note) : View :=
  ⟨⟨m, none⟩, asked ++ m.phase.pending, noted, false⟩

theorem held_clear (m : Machine) (asked : List (List Event)) (noted : List Note) :
    (clear m asked noted).call.Held :=
  fun _ h => nomatch (show none = some _ from h)

/-- A call that does not wait for an answer goes on. -/
theorem next_clear (answer : List (List Event) → Answer) (h : m.phase.pending = [])
    (asked : List (List Event)) (noted : List Note) :
    (clear m asked noted).next answer
      = clear (m.step .go).1 asked (noted ++ (m.step .go).2) := by
  have hears : (clear m asked noted).hears answer = .go := by
    unfold View.hears clear Call.asking?
    cases hp : m.phase with
    | inFlight request => rw [hp] at h; exact nomatch h
    | _ => rfl
  have hstep : (Call.mk m none).step .go = (⟨(m.step .go).1, none⟩, (m.step .go).2) := by
    obtain ⟨_, _, _, hs, _⟩ | ⟨-, hs⟩ := Call.stepClear_cases m .go
    · exact nomatch hs
    · exact hs
  unfold View.next
  rw [hears]
  unfold clear
  dsimp only
  rw [hstep, Task.begun_eq h, h, List.append_nil]

/-- **The answer to a request** is taken in, and the failure judged, if it makes one, in
one or two steps. -/
theorem next_inFlight (answer : List (List Event) → Answer) {request : List Event}
    (hp : m.phase = .inFlight request) (asked : List (List Event))
    (noted : List Note) :
    ∃ k ≤ 2, (View.next answer)^[k] (clear m asked noted)
      = clear (m.take request (answer (asked ++ [request]))).1 (asked ++ [request])
          (noted ++ (m.take request (answer (asked ++ [request]))).2) := by
  generalize ha : answer (asked ++ [request]) = a
  have hears : (clear m asked noted).hears answer = .answered a := by
    unfold View.hears clear Call.asking? Phase.pending
    rw [hp, ← ha]
    rfl
  have hstep : (Call.mk m none).step (.answered a) = Call.take m request a := by
    show Call.stepClear m _ = _
    unfold Call.stepClear
    rw [hp]
  have hnext : (clear m asked noted).next answer
      = ⟨(Call.take m request a).1, asked ++ [request], noted ++ (Call.take m request a).2,
          false⟩ := by
    unfold View.next
    rw [hears]
    unfold clear Phase.pending
    dsimp only
    rw [hstep, hp, List.append_assoc]
    rfl
  obtain ⟨hmachine, hnotes⟩ := Call.take_judged m request a
  have hpending := Machine.pending_take m request a
  rcases hc : (Call.take m request a).1 with ⟨m', f⟩
  rw [hc] at hnext hmachine hnotes
  cases f with
  | none =>
    refine ⟨1, Nat.le_succ 1, ?_⟩
    rw [← hmachine] at hpending ⊢
    rw [← hnotes, Function.iterate_one, hnext]
    unfold clear
    rw [show (Call.judged ⟨m', none⟩).1.phase.pending = [] from hpending, List.append_nil]
    show _ = View.mk _ _ (noted ++ (_ ++ [])) _
    rw [List.append_nil]
    rfl
  | some f =>
    refine ⟨2, Nat.le_refl 2, ?_⟩
    rw [← hmachine] at hpending ⊢
    rw [← hnotes, Function.iterate_succ_apply, Function.iterate_one, hnext]
    unfold clear
    rw [hpending, List.append_nil, ← List.append_assoc]
    show View.mk _ (_ ++ Task.begun _ _) _ _ = _
    rw [Task.begun_eq_nil _ (Machine.pending_judge m' f), List.append_nil]
    rfl

/-- A call that has ended has no more to do. -/
theorem next_of_ended {v : View} {r : Except Failure Report} (hp : v.call.machine.phase = .ended r)
    (hheld : v.call.Held) (hoff : v.calledOff = false) : v.next answer = v := by
  obtain ⟨⟨m, f⟩, asked, noted, off⟩ := v
  obtain rfl : off = false := hoff
  have hp : m.phase = .ended r := hp
  cases f with
  | some f =>
    obtain ⟨request, hflight⟩ := hheld f rfl
    exact nomatch hp.symm.trans hflight
  | none =>
    have hpending : m.phase.pending = [] := by rw [hp]; rfl
    have hnext := next_clear answer hpending asked noted
    unfold clear at hnext
    rw [hpending, List.append_nil, Machine.step_of_ended hp, Machine.notes_of_ended hp,
      List.append_nil, hpending, List.append_nil] at hnext
    exact hnext

/-- A failure in the hands of a call is one of its request, however often it is run. -/
theorem held_iterate {v : View} (h : v.call.Held) (k : Nat) :
    ((View.next answer)^[k] v).call.Held := by
  induction k with
  | zero => exact h
  | succ k ih =>
    rw [Function.iterate_succ_apply']
    exact ih.step _

/-- Nobody cancels the token of a call that is alone. -/
theorem calledOff_iterate (v : View) (k : Nat) :
    ((View.next answer)^[k] v).calledOff = v.calledOff := by
  induction k with
  | zero => rfl
  | succ k ih =>
    rw [Function.iterate_succ_apply']
    exact ih

/-- A call that begins has made no request. -/
theorem pending_start (sink : String) (classify : ItemStatus → ItemClass)
    (strategy : Retry.Strategy) (batch : List Event) :
    (Machine.start sink classify strategy batch).phase.pending = [] := by
  unfold Machine.start
  dsimp only
  split
  · rfl
  · split <;> rfl

/-- **What becomes of a call that is alone**, in at most two steps for each phase, is what
becomes of an uninterrupted delivery. -/
theorem exists_iterate_drive (answer : List (List Event) → Answer) (phases : Nat) :
    ∀ (m : Machine) (asked : List (List Event)) (noted : List Note),
      let course := m.drive (Machine.exchange answer) phases asked
      course.state = asked ++ course.requests ∧
        ∃ n ≤ 2 * phases, (View.next answer)^[n] (clear m asked noted)
          = clear course.machine course.state (noted ++ course.notes) := by
  induction phases with
  | zero =>
    intro m asked noted
    exact ⟨(List.append_nil asked).symm, 0, Nat.le_refl 0, by rw [Machine.drive, List.append_nil]; rfl⟩
  | succ phases ih =>
    intro m asked noted
    -- a step in which the call goes on, and is driven on from there
    have hgo : m.phase.pending = [] → m.drive (Machine.exchange answer) (phases + 1) asked
          = (let rest := (m.step .go).1.drive (Machine.exchange answer) phases asked
             { rest with notes := (m.step .go).2 ++ rest.notes }) →
        let course := m.drive (Machine.exchange answer) (phases + 1) asked
        course.state = asked ++ course.requests ∧
          ∃ n ≤ 2 * (phases + 1), (View.next answer)^[n] (clear m asked noted)
            = clear course.machine course.state (noted ++ course.notes) := by
      intro hpending hdrive
      obtain ⟨hstate, n, hn, heq⟩ := ih (m.step .go).1 asked (noted ++ (m.step .go).2)
      rw [hdrive]
      refine ⟨hstate, n + 1, by omega, ?_⟩
      rw [Function.iterate_succ_apply, next_clear answer hpending, heq, List.append_assoc]
    cases hp : m.phase with
    | ready => exact hgo (by rw [hp]; rfl) (by simp only [Machine.drive, hp])
    | waiting delay next => exact hgo (by rw [hp]; rfl) (by simp only [Machine.drive, hp])
    | inFlight request =>
      obtain ⟨k, hk, hnext⟩ := next_inFlight answer hp asked noted
      obtain ⟨hstate, n, hn, heq⟩ := ih
        (m.take request (answer (asked ++ [request]))).1 (asked ++ [request])
        (noted ++ (m.take request (answer (asked ++ [request]))).2)
      rw [Machine.drive_inFlight (Machine.exchange answer) hp]
      refine ⟨?_, n + k, by omega, ?_⟩
      · exact hstate.trans (List.append_assoc asked [request] _)
      · rw [Function.iterate_add_apply, hnext, heq, List.append_assoc]
        rfl
    | ended r =>
      rw [Machine.drive_ended (Machine.exchange answer) hp]
      exact ⟨(List.append_nil asked).symm, 0, Nat.zero_le _, by rw [List.append_nil]; rfl⟩

/-- Two times at which nothing happens any more are alike. -/
theorem iterate_eq_of_fixed {α : Type} {f : α → α} {x : α} {n k : Nat}
    (hn : f (f^[n] x) = f^[n] x) (h : n ≤ k ∨ f (f^[k] x) = f^[k] x) : f^[k] x = f^[n] x := by
  obtain hle | hk := h
  · obtain ⟨j, rfl⟩ := Nat.exists_eq_add_of_le' hle
    rw [Function.iterate_add_apply, Function.iterate_fixed hn]
  · obtain hle | hle := Nat.le_total n k
    · obtain ⟨j, rfl⟩ := Nat.exists_eq_add_of_le' hle
      rw [Function.iterate_add_apply, Function.iterate_fixed hn]
    · obtain ⟨j, rfl⟩ := Nat.exists_eq_add_of_le' hle
      rw [Function.iterate_add_apply, Function.iterate_fixed hk]

/-- **A call that is alone does what an uninterrupted delivery does**, once it has ended, and
it has ended when it has been run often enough. -/
theorem iterate_eq_deliver (sink : String) (classify : ItemStatus → ItemClass)
    (strategy : Retry.Strategy) (answer : List (List Event) → Answer) (batch : List Event)
    {k : Nat} :
    let m := Machine.start sink classify strategy batch
    let v := (View.next answer)^[k] (clear m [] [])
    let course := Machine.deliver sink classify strategy (Machine.exchange answer) [] batch
    (∃ r, v.call.machine.phase = .ended r) ∨ 2 * m.phasesLeft ≤ k →
      v = clear course.machine course.requests course.notes := by
  intro m v course h
  obtain ⟨r, hr⟩ : ∃ r, course.machine.result? = some r :=
    deliver_ends sink classify strategy (Machine.exchange answer) []
  obtain ⟨hstate, n, hn, heq⟩ := exists_iterate_drive answer m.phasesLeft m [] []
  rw [List.nil_append] at hstate heq
  rw [hstate] at heq
  have hfixed : ∀ {j : Nat} {r}, ((View.next answer)^[j] (clear m [] [])).call.machine.phase = .ended r →
      ((View.next answer)^[j] (clear m [] [])).next answer
        = (View.next answer)^[j] (clear m [] []) := fun hj =>
    next_of_ended hj (held_iterate (held_clear m [] []) _) (calledOff_iterate _ _)
  have hend : ((View.next answer)^[n] (clear m [] [])).call.machine.phase = .ended r := by
    rw [heq]
    exact Machine.result?_eq_some_iff.mp hr
  refine (iterate_eq_of_fixed (hfixed hend) ?_).trans heq
  obtain ⟨r', hr'⟩ | hk := h
  · exact .inr (hfixed hr')
  · exact .inl (Nat.le_trans hn hk)

end Dispatch.View

namespace Dispatch

/-- Without a cancellation, a call sees how often it has been run. -/
theorem View.foldl_step (answer : List (List Event) → Answer) (i : ι) (schedule : List (Move ι)) :
    ∀ v : View, .cancel ∉ schedule →
      schedule.foldl (View.step answer i) v = (View.next answer)^[schedule.count (.run i)] v := by
  induction schedule with
  | nil => exact fun _ _ => rfl
  | cons move schedule ih =>
    intro v hnot
    obtain ⟨hmove, hnot⟩ := not_or.mp (mt List.mem_cons.mpr hnot)
    rw [List.foldl_cons, ih _ hnot]
    cases move with
    | cancel => exact absurd rfl hmove
    | run j =>
      by_cases hj : j = i
      · subst hj
        rw [View.step, if_pos rfl, List.count_cons_self, Function.iterate_succ_apply]
      · rw [View.step, if_neg hj, List.count_cons_of_ne fun h => hj (Move.run.inj h)]

/-- **A call that nobody cancels does what an uninterrupted delivery does**, once it has ended
or has been run often enough. -/
theorem seen_eq_deliver (sink : String) (classify : ItemStatus → ItemClass)
    (strategy : Retry.Strategy) (batches : ι → List Event) (hreply : reply.Apart)
    (schedule : List (Move ι)) (c : Counters) (hnot : .cancel ∉ schedule) (i : ι) :
    let d := (start sink classify strategy batches c).run reply schedule
    let course := Machine.deliver sink classify strategy (Machine.exchange (reply.to i)) []
      (batches i)
    (∃ r, (d.calls i).machine.result? = some r) ∨
        2 * (Machine.start sink classify strategy (batches i)).phasesLeft
          ≤ schedule.count (.run i) →
      d.seen i = View.clear course.machine course.requests course.notes := by
  intro d course hended
  have hbegin : (start sink classify strategy batches c).seen i
      = View.clear (Machine.start sink classify strategy (batches i)) [] [] := by
    unfold View.clear
    rw [View.pending_start]
    rfl
  have hview : d.seen i = (View.next (reply.to i))^[schedule.count (.run i)]
      (View.clear (Machine.start sink classify strategy (batches i)) [] []) := by
    rw [← hbegin, ← View.foldl_step _ _ _ _ hnot]
    exact seen_run hreply schedule i _
  rw [hview]
  refine View.iterate_eq_deliver sink classify strategy (reply.to i) (batches i) ?_
  rw [← hview]
  exact hended.imp_left fun ⟨r, hr⟩ => ⟨r, Machine.result?_eq_some_iff.mp hr⟩

/-! ## Independence -/

/-- **Calls on clones of one dispatcher are independent.** Whatever batches they are for, and
in whatever order they are run, each makes the same requests and comes to the same state
as when the others are never run, with the token cancelled at the same moment of it, if it
is. The counters have in the end what each call adds to them when it is run alone. And
where the token is not cancelled, a call that has ended, or has been run often enough to
have ended, has the result, the requests and the counts of an uninterrupted delivery. -/
theorem run_independent [Fintype ι] (sink : String) (classify : ItemStatus → ItemClass)
    (strategy : Retry.Strategy) (batches : ι → List Event) {reply : Replies ι}
    (hreply : reply.Apart) (schedule : List (Move ι)) (c : Counters) :
    let d := (start sink classify strategy batches c).run reply schedule
    let alone (i : ι) := (start sink classify strategy batches c).run reply
      (schedule.filter (Move.concerns i))
    (∀ i, d.calls i = (alone i).calls i ∧ own i d.asked = own i (alone i).asked) ∧
      (∃ added : ι → Counters,
        (∀ i, (alone i).counters = c + added i) ∧ d.counters = c + ∑ i, added i) ∧
      (.cancel ∉ schedule → ∀ i,
        let course := Machine.deliver sink classify strategy (Machine.exchange (reply.to i)) []
          (batches i)
        (∃ r, (d.calls i).machine.result? = some r) ∨
            2 * (Machine.start sink classify strategy (batches i)).phasesLeft
              ≤ schedule.count (.run i) →
          (∃ r, course.machine.result? = some r ∧ (d.calls i).machine.result? = some r) ∧
            own i d.asked = course.requests ∧
            (alone i).counters = c.recordAll course.notes) := by
  intro d alone
  have hseen : ∀ i, d.seen i = (alone i).seen i := fun i => seen_run_filter hreply schedule i _
  have hadded : ∀ i, (alone i).counters = c + Counters.counted (own i d.noted) := fun i =>
    counters_filter hreply schedule i rfl
  refine ⟨fun i => ⟨congrArg View.call (hseen i), congrArg View.asked (hseen i)⟩,
    ⟨fun i => Counters.counted (own i d.noted), hadded, ?_⟩, ?_⟩
  · rw [← counted_own]
    exact counters_run reply c schedule _ (add_zero c).symm
  · intro hnot i course hended
    have hdeliver : d.seen i = View.clear course.machine course.requests course.notes :=
      seen_eq_deliver sink classify strategy batches hreply schedule c hnot i hended
    obtain ⟨r, hr⟩ : ∃ r, course.machine.result? = some r :=
      deliver_ends sink classify strategy (Machine.exchange (reply.to i)) []
    have hcall : d.calls i = ⟨course.machine, none⟩ := congrArg View.call hdeliver
    have hasked : own i d.asked = course.requests ++ course.machine.phase.pending :=
      congrArg View.asked hdeliver
    have hnoted : own i d.noted = course.notes := congrArg View.noted hdeliver
    refine ⟨⟨r, hr, by rw [hcall]; exact hr⟩, ?_, ?_⟩
    · rw [hasked, Machine.result?_eq_some_iff.mp hr]
      exact List.append_nil _
    · rw [hadded, hnoted, Counters.recordAll_eq_add]

/-- Two calls deliver the same event, and are throttled once each: both come to the result of
a delivery without the other, and the counters have what both have added. -/
theorem run_independent_same_event :
    let batch : List Event := [⟨⟨"a"⟩, [], none⟩]
    let reply : Replies Bool := fun asked i =>
      .ok [⟨none, if (own i asked).length ≤ 1 then 429 else 200, none⟩]
    let schedule : List (Move Bool) :=
      [.run true, .run false, .run false, .run true, .run false, .run false, .run true, .run false,
        .run true, .run true, .run false, .run true]
    let strategy : Retry.Strategy := .new (.fixed 0) 3 []
    let d := (start "s" ItemStatus.classify strategy (fun _ => batch) {}).run reply schedule
    reply.Apart ∧ .cancel ∉ schedule ∧ d.counters = ⟨4, 2, 2, 0, 0, 0⟩ ∧
      ∀ i, ∃ r, (Machine.deliver "s" ItemStatus.classify strategy (Machine.exchange (reply.to i)) []
          batch).machine.result? = some r ∧
        (d.calls i).machine.result? = some r ∧ own i d.asked = [batch, batch] := by
  intro batch reply schedule strategy d
  have hreply : reply.Apart := by
    intro i asked asked' h
    show Except.ok [_] = Except.ok [_]
    rw [h]
  have hnot : .cancel ∉ schedule := by decide
  obtain ⟨-, -, h⟩ := run_independent "s" ItemStatus.classify strategy (fun _ => batch) hreply
    schedule {}
  have hcounters : d.counters = ⟨4, 2, 2, 0, 0, 0⟩ := by decide +kernel
  have hasked : ∀ i, own i d.asked = [batch, batch] := by decide +kernel
  have hended : ∀ i, (d.calls i).machine.result?.isSome = true := by decide +kernel
  -- with the calls spelled out, nothing of them has to be evaluated again
  unfold d at hcounters hasked hended ⊢
  refine ⟨hreply, hnot, hcounters, fun i => ?_⟩
  obtain ⟨⟨r, hdelivered, hr⟩, -⟩ := h hnot i (.inl (Option.isSome_iff_exists.mp (hended i)))
  exact ⟨r, hdelivered, hr, hasked i⟩

end Dispatch

end Courier.Delivery
