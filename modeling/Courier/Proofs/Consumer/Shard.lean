import Courier.Consumer.Shard
import Courier.Proofs.Consumer.Work
/-!
# The events of a shard

An event of a shard is something that the consumer hears, and then it is all that
comes of it (`Shard.step_of_hears`, `Shard.Hears`), or it happens outside
(`Shard.step_of_unheard`), and then the consumer stays as it is.

What a position that is offered has come to is seen from outside by what is stored,
and by the consumer only when the task is over. In between it is stored and nobody
has heard of it (`Ack.unheard`).
-/

namespace Courier

open Courier.Checkpoint (Keeper)
open Courier.Consumer (Demand)

/-! ## The task that offers a position -/

namespace Ack

/-- **The position, once it is stored**, which nobody hears of before the task is over. -/
def unheard (a : Ack) : List String :=
  if a.ended = some (.status .committed) then [a.position] else []

/-- **What an answer has stored.** -/
def stores (a : Ack) (answer : Except Failure Unit) : List String :=
  match a.ended, answer with
  | none, .ok () => [a.position]
  | _, _ => []

theorem failedEnd_ne (reason : Retry.Reason) (f : Failure) :
    failedEnd reason f ≠ .status .committed := by
  unfold failedEnd Keeper.statusOf
  cases reason.surfaced f <;> exact fun h => nomatch h

/-- The position is the same, whatever the store answers. -/
theorem position_answered (a : Ack) (answer : Except Failure Unit) :
    (a.answered answer).position = a.position := by
  unfold answered
  split
  · rfl
  · rfl
  · split <;> rfl

/-- The position is the same when the store breaks down. -/
theorem position_broken (a : Ack) : a.broken.position = a.position := by
  unfold broken
  split <;> rfl

/-- It can only be the position that is offered. -/
theorem eq_of_mem_unheard {a : Ack} {position : String} (h : position ∈ a.unheard) :
    position = a.position := by
  unfold unheard at h
  split at h
  · exact List.mem_singleton.mp h
  · exact nomatch h

theorem unheard_start (k : Keeper) (position : String) : (start k position).unheard = [] := by
  unfold start unheard
  cases k.dry <;> rfl

theorem unheard_of_ended {a : Ack} {x : AckEnd} (h : a.ended = some x) :
    a.unheard = if x = .status .committed then [a.position] else [] := by
  unfold unheard
  simp only [h, Option.some.injEq]

/-- **What an answer has stored is all that it changes** in what is stored. -/
theorem unheard_answered (a : Ack) (answer : Except Failure Unit) :
    (a.answered answer).unheard = a.unheard ++ a.stores answer := by
  unfold answered unheard stores
  cases hend : a.ended with
  | some e => simp [hend]
  | none =>
    cases answer with
    | ok u => simp
    | error f => cases hv : a.session.verdict f <;> simp [hv, failedEnd_ne]

theorem unheard_broken (a : Ack) : a.broken.unheard = a.unheard := by
  unfold broken unheard
  cases hend : a.ended <;> simp [hend]

/-! ### Answered to the end -/

/-- **Several answers**, one after another. -/
def answeredAll (a : Ack) (answers : List (Except Failure Unit)) : Ack :=
  answers.foldl answered a

/-- **A course of attempts is answered to its end** by as many answers as it makes calls. -/
theorem ended_of_run (commit : Nat → Except Failure Unit) (position : String)
    (session : Retry.Session) (call elapsed : Nat) :
    let course := session.run commit (fun _ => true) call elapsed
    ((⟨position, session, none⟩ : Ack).answeredAll
        ((List.range' call (course.delays.length + 1)).map commit)).ended
      = course.result.map fun r => .status (Keeper.statusOf r) := by
  intro course
  unfold course
  rw [Retry.Session.run]
  cases hcommit : commit call with
  | ok u => simp [answeredAll, hcommit, answered, Keeper.statusOf]
  | error f =>
    dsimp only
    split
    · next reason hv => simp [answeredAll, hcommit, answered, hv, failedEnd]
    · next delay next hv =>
      have hone : (⟨position, session, none⟩ : Ack).answered (.error f)
          = ⟨position, session.after (session.verdict f), none⟩ := by
        simp [answered, hv]
      rw [if_pos rfl]
      dsimp only
      rw [List.length_cons, List.range'_succ, List.map_cons, answeredAll, List.foldl_cons, hcommit,
        hone]
      exact ended_of_run commit position _ (call + 1) (elapsed + delay)
termination_by session.left
decreasing_by exact Retry.Session.left_after ‹_›

/-- A course that is waited for has a result. -/
theorem exists_result (commit : Nat → Except Failure Unit) (session : Retry.Session)
    (call elapsed : Nat) :
    ∃ r, (session.run commit (fun _ => true) call elapsed).result = some r := by
  rw [Retry.Session.run]
  split
  · exact ⟨_, rfl⟩
  · split
    · exact ⟨_, rfl⟩
    · next hv =>
      rw [if_pos rfl]
      exact exists_result commit _ _ _
termination_by session.left
decreasing_by exact Retry.Session.left_after ‹_›

/-- **The end of a task** is what comes of offering the position. -/
theorem ended_of_offer (k : Keeper) (position : String) (commit : Nat → Except Failure Unit) :
    ∃ calls, ((start k position).answeredAll ((List.range calls).map commit)).ended
      = some (.status (k.offer commit)) := by
  unfold Keeper.offer Keeper.ask start
  cases k.dry with
  | true => exact ⟨0, rfl⟩
  | false =>
    obtain ⟨r, hr⟩ := exists_result commit k.strategy.session 0 0
    have hended := ended_of_run commit position k.strategy.session 0 0
    dsimp only at hended
    rw [hr, ← List.range_eq_range'] at hended
    refine ⟨_, hended.trans ?_⟩
    have hrun : k.strategy.run commit
        = k.strategy.session.run commit (fun _ => true) 0 0 := rfl
    simp [hrun, hr]

end Ack

/-! ## The shard -/

namespace Shard

/-- **The position that is stored without the consumer having heard of it.** -/
def unheard (p : Shard) : List String :=
  p.ack.toList.flatMap Ack.unheard

/-- What events show one after another. -/
def along {α : Type} (shows : Shard → Event → List α) (p : Shard) : List Event → List α
  | [] => []
  | e :: rest => shows p e ++ along shows (p.step e) rest

/-- The record that an event brings. -/
def brings (p : Shard) : Event → List Record
  | .arrived r => if p.closed then [] else [r]
  | _ => []

/-- What the consumer hears of an event, with what it asks for thereupon. -/
def tells (p : Shard) (e : Event) : List (Consumer.Signal × List Demand) :=
  ((p.hears e).map fun s => (s, (p.consumer.step s).2)).toList

/-- The position that an event has stored. -/
def stores (p : Shard) : Event → List String
  | .answered answer => p.ack.toList.flatMap (·.stores answer)
  | _ => []

/-- **The records that have arrived**, in their order. -/
def arrivals (p : Shard) (events : List Event) : List Record :=
  p.along brings events

/-- **What the consumer has heard**, each time with what it has asked for. -/
def trace (p : Shard) (events : List Event) : List (Consumer.Signal × List Demand) :=
  p.along tells events

/-- **The positions that are stored**, in the order in which they are. -/
def stored (p : Shard) (events : List Event) : List String :=
  p.along stores events

/-! ## Runs in parts -/

theorem after_append (p : Shard) (xs ys : List Event) :
    p.after (xs ++ ys) = (p.after xs).after ys :=
  List.foldl_append

/-- What is shown in two runs is shown in the one and then in the other. -/
theorem along_append {α : Type} (shows : Shard → Event → List α) (ys : List Event)
    (xs : List Event) : ∀ p : Shard,
      p.along shows (xs ++ ys) = p.along shows xs ++ (p.after xs).along shows ys := by
  induction xs with
  | nil => exact fun _ => rfl
  | cons e xs ih =>
    intro p
    show shows p e ++ (p.step e).along shows (xs ++ ys) = _
    rw [ih, ← List.append_assoc]
    rfl

theorem stored_append (p : Shard) (xs ys : List Event) :
    p.stored (xs ++ ys) = p.stored xs ++ (p.after xs).stored ys :=
  along_append stores ys xs p

/-! ## One event -/

variable {p : Shard} {e : Event} {s : Consumer.Signal}

/-- **What the consumer hears of an event is all that comes of it.** -/
theorem step_of_hears (h : p.hears e = some s) : p.step e = p.tell s := by
  unfold step
  rw [h]

theorem step_of_unheard (h : p.hears e = none) : p.step e = p.outside e := by
  unfold step
  rw [h]

/-! ### Outside of the consumer -/

/-- The consumer stays as it is. -/
theorem consumer_outside : (p.outside e).consumer = p.consumer := by
  unfold outside
  split
  · split <;> rfl
  all_goals rfl

/-- A channel that is closed stays so, and no record comes. -/
theorem closed_outside (h : p.closed = true) :
    (p.outside e).closed = true ∧ p.brings e = [] := by
  cases e with
  | arrived r =>
    have hsame : p.outside (.arrived r) = p := if_pos h
    exact ⟨hsame.symm ▸ h, if_pos h⟩
  | closed => exact ⟨rfl, rfl⟩
  | _ => exact ⟨h, rfl⟩

/-- A record that comes goes to the end of the channel. -/
theorem channel_outside : (p.outside e).channel = p.channel ++ p.brings e := by
  cases e with
  | arrived r =>
    show (if p.closed then p else { p with channel := p.channel ++ [r] }).channel
      = p.channel ++ if p.closed then [] else [r]
    split
    · exact (List.append_nil _).symm
    · rfl
  | _ => exact (List.append_nil _).symm

/-- A consumer that is to shut down is still to. -/
theorem shutDown_outside (h : p.shutDown = true) : (p.outside e).shutDown = true := by
  unfold outside
  split
  · split <;> exact h
  all_goals first | rfl | exact h

theorem ack_arrived {r : Record} : (p.outside (.arrived r)).ack = p.ack := by
  show (if p.closed then p else { p with channel := p.channel ++ [r] }).ack = p.ack
  split <;> rfl

/-- The position that is being offered is the same. -/
theorem ack_outside {a : Ack} (h : (p.outside e).ack = some a) :
    ∃ b, p.ack = some b ∧ a.position = b.position := by
  cases e with
  | arrived r => exact ⟨a, ack_arrived.symm.trans h, rfl⟩
  | answered answer =>
    obtain ⟨b, hb, rfl⟩ := Option.map_eq_some_iff.mp h
    exact ⟨b, hb, b.position_answered answer⟩
  | broken =>
    obtain ⟨b, hb, rfl⟩ := Option.map_eq_some_iff.mp h
    exact ⟨b, hb, b.position_broken⟩
  | _ => exact ⟨a, h, rfl⟩

/-- **What is stored outside is not heard of.** -/
theorem unheard_outside : (p.outside e).unheard = p.unheard ++ p.stores e := by
  cases e with
  | arrived r =>
    unfold unheard
    rw [ack_arrived]
    exact (List.append_nil _).symm
  | answered answer =>
    show (p.ack.map (·.answered answer)).toList.flatMap Ack.unheard
      = p.ack.toList.flatMap Ack.unheard ++ p.ack.toList.flatMap (·.stores answer)
    cases p.ack with
    | none => rfl
    | some a => simp [Ack.unheard_answered]
  | broken =>
    show (p.ack.map Ack.broken).toList.flatMap Ack.unheard
      = p.ack.toList.flatMap Ack.unheard ++ []
    cases p.ack with
    | none => rfl
    | some a => simp [Ack.unheard_broken]
  | _ => exact (List.append_nil _).symm

/-! ### What the consumer hears -/

theorem brings_of_hears (h : p.hears e = some s) : p.brings e = [] := by
  cases e <;> first | rfl | cases h

theorem stores_of_hears (h : p.hears e = some s) : p.stores e = [] := by
  cases e <;> first | rfl | cases h

/-- **What the consumer can hear**, and when. -/
inductive Hears (p : Shard) : Consumer.Signal → Prop
  /-- It waits for a record, and hears of the first in the channel. -/
  | record (r : Record) (rest : List Record) (hphase : p.consumer.phase = .waiting)
      (hchannel : p.channel = r :: rest) : p.Hears (.record r)
  /-- It waits for a record, and there are none any more. -/
  | closed (hphase : p.consumer.phase = .waiting) (hchannel : p.channel = [])
      (hclosed : p.closed = true) : p.Hears .closed
  /-- The record is delivered. -/
  | delivered (r : Record) (hphase : p.consumer.phase = .delivering r) : p.Hears .delivered
  /-- The record is not delivered. -/
  | failed (r : Record) (f : Failure) (hphase : p.consumer.phase = .delivering r) :
      p.Hears (.failed f)
  /-- The task that offers the position has ended. -/
  | acked (r : Record) (a : Ack) (x : AckEnd) (hphase : p.consumer.phase = .acking r)
      (hack : p.ack = some a) (hended : a.ended = some x) : p.Hears (.acked x)
  /-- The failure has been handled. -/
  | handled (r : Record) (hphase : p.consumer.phase = .handling r) : p.Hears .handled
  /-- It is to shut down. -/
  | shutdown (hphase : p.consumer.phase ≠ .done) (hshut : p.shutDown = true) :
      p.Hears .shutdown

/-- **A consumer that is to shut down notices that** unless it is done. -/
theorem notices_of_shutDown (hphase : p.consumer.phase ≠ .done) (hshut : p.shutDown = true) :
    p.notices = some .shutdown := by
  unfold notices
  rw [hshut]
  cases hp : p.consumer.phase with
  | done => exact absurd hp hphase
  | _ => rfl

/-- What the consumer notices is something that it can hear. -/
theorem hears_of_notices (h : p.notices = some s) : p.Hears s := by
  unfold notices at h
  split at h
  · exact nomatch h
  · next hshut hdone =>
    obtain rfl := Option.some.inj h
    exact .shutdown hdone hshut
  · next hphase _ =>
    split at h
    · next r rest hchannel =>
      obtain rfl := Option.some.inj h
      exact .record r rest hphase hchannel
    · next hchannel =>
      split at h
      · next hclosed =>
        obtain rfl := Option.some.inj h
        exact .closed hphase hchannel hclosed
      · exact nomatch h
  · next r hphase _ =>
    obtain ⟨x, hx, rfl⟩ := Option.map_eq_some_iff.mp h
    obtain ⟨a, hack, hended⟩ := Option.bind_eq_some_iff.mp hx
    exact .acked r a x hphase hack hended
  · exact nomatch h

/-- **What the consumer hears of an event** is something that it can hear. -/
theorem hears_cases (h : p.hears e = some s) : p.Hears s := by
  unfold hears at h
  split at h
  · exact hears_of_notices h
  · split at h
    · next r hphase _ =>
      obtain rfl := Option.some.inj h
      exact .delivered r hphase
    · exact nomatch h
  · next f =>
    split at h
    · next r hphase _ =>
      obtain rfl := Option.some.inj h
      exact .failed r f hphase
    · exact nomatch h
  · split at h
    · next r hphase _ =>
      obtain rfl := Option.some.inj h
      exact .handled r hphase
    · exact nomatch h
  · exact nomatch h

/-- **A record that the consumer hears of** is the first in the channel. -/
theorem Hears.channel_eq (h : p.Hears s) : p.channel = s.brought ++ p.channelAfter s := by
  cases h with
  | record r rest hphase hchannel =>
    rw [hchannel]
    exact congrArg (r :: ·) (congrArg List.tail hchannel).symm
  | _ => rfl

/-- **The consumer waits for what it hears**, so that it goes on. -/
theorem Hears.phase_ne (h : p.Hears s) : (p.consumer.step s).1.phase ≠ p.consumer.phase := by
  cases h with
  | record r rest hphase hchannel => simp [Consumer.step, hphase]
  | closed hphase hchannel hclosed => simp [Consumer.step, hphase]
  | delivered r hphase => simp [Consumer.step, hphase]
  | failed r f hphase => simp [Consumer.step, hphase]
  | acked r a x hphase hack hended => cases x <;> simp [Consumer.step, hphase]
  | handled r hphase => simp [Consumer.step, hphase]
  | shutdown hphase hshut => rw [Consumer.step_shutdown hphase]; exact hphase.symm

end Shard

end Courier
