import Courier.Proofs.Pipeline.Flow
import Courier.Proofs.Pipeline.Shard
import Courier.Proofs.Pipeline.Winding
import Courier.Proofs.Source.Records
import Mathlib.Data.List.Induction
/-!
# What is ahead of a pipeline

The records ahead of a pipeline are the one that is being delivered, those in the
channel, and those that its reader would still hand over. Nothing comes to them:
what is done on a signal deals with the first of them, or moves the border between
the three, or some of them are lost because the pipeline is shut down
(`Pipeline.Turn.clears`). And the positions that can still be stored are the one that
is being offered and those of the records ahead.

So the order in which records are dealt with, and the order in which positions
are stored and records fail, is the order of the source, whatever the order of
the signals is (`Pipeline.dealt_sublist_run`, `Pipeline.Fresh.marked_sublist`).
A pipeline that is not shut down leaves nothing out, and when it is done it has
dealt with all records (`Pipeline.Fresh.dealt_of_ended`). And when the store takes every
position, the positions of all records that are dealt with are marked
(`Pipeline.Fresh.marked_eq`).
-/

namespace Courier

namespace Reader

variable {r : Reader}

/-- A reader that goes on hands over the same records. -/
theorem finish_go (h : ∀ record last, r.phase ≠ .offering record last) :
    (r.step .go).finish.2 = r.finish.2 := by
  unfold step
  cases hp : r.phase with
  | reading => rw [finish_reading hp]
  | offering record last => exact absurd hp (h record last)
  | done => rfl

/-- A reader that is stopped hands over no other records. -/
theorem finish_stopped {s : Signal} (hs : s = .shutdown ∨ s = .refused) :
    (r.step s).finish.2.Sublist r.finish.2 := by
  have hdone : ({ r with phase := .done } : Reader).finish.2.Sublist r.finish.2 := by
    rw [finish_done rfl]
    exact List.nil_sublist _
  unfold step
  obtain rfl | rfl := hs
  · cases r.phase with
    | reading => exact hdone
    | offering record last => exact hdone
    | done => exact List.Sublist.refl _
  · cases r.phase with
    | offering record last => exact hdone
    | _ => exact List.Sublist.refl _

end Reader

namespace Pipeline

/-! ## What is ahead -/

/-- The record that is being delivered, in the phase in which there is one. -/
def heading : Consumer.Phase → List Record
  | .delivering r => [r]
  | _ => []

/-- **The records ahead of a pipeline.** -/
def ahead (p : Pipeline) : List Record :=
  heading p.consumer.phase ++ p.channel ++ p.reader.finish.2

/-- The position that an offer asks the store to store. -/
def Offer.asked : Option Offer → List String
  | some ⟨position, _, none⟩ => [position]
  | _ => []

/-- The position that the store is asked to store. -/
def asked (p : Pipeline) : List String :=
  Offer.asked p.offer

/-- **The positions that can still be stored.** -/
def outlook (p : Pipeline) : List String :=
  p.asked ++ p.ahead.map (·.position)

/-- The record that is dealt with, if that is what is shown. -/
def Effect.dealt? : Effect → Option Record
  | .delivered r _ => some r
  | .failed r _ => some r
  | .stored _ => none

/-- **The position that an effect marks**: one that is stored, or the one of a record that
has failed. -/
def Effect.mark? : Effect → Option String
  | .delivered _ _ => none
  | .failed r _ => some r.position
  | .stored position => some position

/-- **What is marked** when something is shown, and the position that is asked for then. -/
def marked (p : Pipeline) (effects : List Effect) : List String :=
  effects.filterMap Effect.mark? ++ p.asked

/-- **What is due to be marked** when something is shown: the position that was asked for
before, and those of the records that are dealt with. -/
def due (p : Pipeline) (effects : List Effect) : List String :=
  p.asked ++ (effects.filterMap Effect.dealt?).map (·.position)

/-- Whether a signal is that the store has failed. -/
def Signal.refuses : Signal → Bool
  | .store (.error _) => true
  | _ => false

variable {p q : Pipeline} {effects : List Effect}

theorem ahead_of_phase {phase : Consumer.Phase} (h : p.consumer.phase = phase) :
    p.ahead = heading phase ++ p.channel ++ p.reader.finish.2 := by
  rw [← h]
  rfl

/-- A pipeline whose consumer and channel hold the same records has the same ahead. -/
theorem ahead_eq {before after : Consumer.Phase} (hbefore : p.consumer.phase = before)
    (hafter : q.consumer.phase = after) (hreader : q.reader = p.reader)
    (h : heading after ++ q.channel = heading before ++ p.channel) : q.ahead = p.ahead := by
  rw [ahead_of_phase hbefore, ahead_of_phase hafter, hreader, h]

/-- No position is asked for when none is offered. -/
theorem asked_of_none (h : p.offer = none) : p.asked = [] := by
  unfold asked
  rw [h]
  rfl

/-- The position that is being offered and has no status yet. -/
theorem asked_of_offer {position : String} {session : Retry.Session}
    (h : p.offer = some ⟨position, session, none⟩) : p.asked = [position] := by
  unfold asked
  rw [h]
  rfl

/-- A position that has a status is not asked for. -/
theorem asked_of_status {position : String} {session : Retry.Session}
    {status : Checkpoint.Status} (h : p.offer = some ⟨position, session, some status⟩) :
    p.asked = [] := by
  unfold asked
  rw [h]
  rfl

/-- **What an offer asks for**: its position, unless the keeper stores nothing. -/
theorem asked_offerOf (k : Checkpoint.Keeper) (position : String) :
    Offer.asked (some (offerOf k position)) = if k.dry then [] else [position] := by
  unfold offerOf
  cases k.dry <;> rfl

/-! ## One signal -/

/-- **A pipeline that offers no position but the one of the record it has delivered.** -/
def Calm (p : Pipeline) : Prop :=
  ∀ o, p.offer = some o → (∃ r, p.consumer.phase = .acking r) ∨ p.consumer.phase = .done

/-- It offers none while the consumer has other things to do. -/
theorem Calm.offer_eq_none (h : p.Calm)
    (hphase : p.consumer.phase = .waiting ∨ ∃ r, p.consumer.phase = .delivering r) :
    p.offer = none := by
  cases hoffer : p.offer with
  | none => rfl
  | some o =>
    obtain ⟨r, hacking⟩ | hdone := h o hoffer
    · obtain hwaiting | ⟨r', hdelivering⟩ := hphase
      · exact nomatch hacking.symm.trans hwaiting
      · exact nomatch hacking.symm.trans hdelivering
    · obtain hwaiting | ⟨r', hdelivering⟩ := hphase
      · exact nomatch hdone.symm.trans hwaiting
      · exact nomatch hdone.symm.trans hdelivering

theorem calm_of_none (h : p.offer = none) : p.Calm :=
  fun _ ho => nomatch h.symm.trans ho

/-- **A signal deals with records** that were ahead, and marks positions that are due. What
is not dealt with stays ahead, unless the pipeline is shut down; and all positions that are
due are marked, unless the keeper stores nothing or the store has failed. -/
structure Clears (p q : Pipeline) (effects : List Effect) (refused : Bool) : Prop where
  /-- Nothing comes to the records that were ahead. -/
  dealt_sublist : (effects.filterMap Effect.dealt? ++ q.ahead).Sublist p.ahead
  /-- None of them is lost while the consumer goes on. -/
  dealt_eq : p.shutDown = false → p.consumer.phase ≠ .done →
    effects.filterMap Effect.dealt? ++ q.ahead = p.ahead
  /-- No other positions are marked. -/
  marked_sublist : p.Calm → (q.marked effects).Sublist (p.due effects)
  /-- All of them are when they are stored. -/
  marked_eq : p.Calm → p.keeper.dry = false → refused = false → q.marked effects = p.due effects

variable {refused : Bool}

theorem marked_nil (hasked : q.asked = p.asked) : q.marked [] = p.due [] :=
  hasked.trans (List.append_nil _).symm

theorem due_nil (p : Pipeline) : p.due [] = p.asked :=
  List.append_nil _

/-- A signal that shows nothing and loses no record. -/
theorem Clears.silent (h : q.ahead = p.ahead) (hasked : q.asked = p.asked) :
    Clears p q [] refused where
  dealt_sublist := h ▸ List.Sublist.refl _
  dealt_eq _ _ := h
  marked_sublist _ := by rw [marked_nil hasked]
  marked_eq _ _ _ := marked_nil hasked

/-- A signal that loses records, since the consumer goes on no more. -/
theorem Clears.lossy (h : q.ahead.Sublist p.ahead) (hasked : q.asked = p.asked)
    (hover : p.shutDown = true ∨ p.consumer.phase = .done) : Clears p q [] refused where
  dealt_sublist := h
  dealt_eq hopen hphase := by
    obtain hshut | hdone := hover
    · exact nomatch hopen.symm.trans hshut
    · exact absurd hdone hphase
  marked_sublist _ := by rw [marked_nil hasked]
  marked_eq _ _ _ := marked_nil hasked

/-- **One after another**, when the first shows nothing and the consumer has a record
delivered after it. -/
theorem Clears.trans {r : Pipeline} (h : Clears p q [] refused) (h' : Clears q r effects refused)
    (hopen : q.shutDown = false) {record : Record}
    (hphase : q.consumer.phase = .delivering record) (hkeeper : q.keeper = p.keeper)
    (hcalm : p.Calm → q.Calm) : Clears p r effects refused where
  dealt_sublist := h'.dealt_sublist.trans h.dealt_sublist
  dealt_eq hp hne :=
    (h'.dealt_eq hopen fun hdone => nomatch hphase.symm.trans hdone).trans (h.dealt_eq hp hne)
  marked_sublist hp := by
    have hasked : q.asked.Sublist p.asked := by
      have hfirst := h.marked_sublist hp
      rwa [marked_nil rfl, due_nil, due_nil] at hfirst
    exact (h'.marked_sublist (hcalm hp)).trans (hasked.append (List.Sublist.refl _))
  marked_eq hp hdry hrefused := by
    have hasked : q.asked = p.asked := by
      have hfirst := h.marked_eq hp hdry hrefused
      rwa [marked_nil rfl, due_nil, due_nil] at hfirst
    have hsecond := h'.marked_eq (hcalm hp) (hkeeper ▸ hdry) hrefused
    unfold due at hsecond ⊢
    rw [hsecond, hasked]

/-- **Positions that are marked could be stored**, and what can be stored later is behind
them. -/
theorem Clears.outlook_sublist (h : Clears p q effects refused) (hcalm : p.Calm) :
    (effects.filterMap Effect.mark? ++ q.outlook).Sublist p.outlook := by
  have hdue : effects.filterMap Effect.mark? ++ q.outlook
      = q.marked effects ++ q.ahead.map (·.position) := (List.append_assoc _ _ _).symm
  rw [hdue]
  refine ((h.marked_sublist hcalm).append (List.Sublist.refl _)).trans ?_
  unfold due outlook
  rw [List.append_assoc, ← List.map_append]
  exact (List.Sublist.refl _).append (h.dealt_sublist.map _)

/-- A signal that deals with the record that is being delivered, while no position is being
offered. -/
theorem Clears.dealing {r : Record} {e : Effect} {after : Consumer.Phase}
    (hphase : p.consumer.phase = .delivering r) (hafter : q.consumer.phase = after)
    (hheading : heading after = []) (hchannel : q.channel = p.channel)
    (hreader : q.reader = p.reader) (he : e.dealt? = some r)
    (hmarked : p.asked = [] → (q.marked [e]).Sublist [r.position])
    (heq : p.asked = [] → p.keeper.dry = false → q.marked [e] = [r.position]) :
    Clears p q [e] refused := by
  have hdealt : [e].filterMap Effect.dealt? = [r] := by
    rw [List.filterMap_cons_some he]
    rfl
  have hahead : [r] ++ q.ahead = p.ahead := by
    rw [ahead_of_phase hphase, ahead_of_phase hafter, hheading, hchannel, hreader]
    rfl
  have hdue (hcalm : p.Calm) : p.asked = [] ∧ p.due [e] = [r.position] := by
    have hnone := asked_of_none (hcalm.offer_eq_none (.inr ⟨r, hphase⟩))
    refine ⟨hnone, ?_⟩
    unfold due
    rw [hnone, hdealt]
    rfl
  refine ⟨by rw [hdealt, hahead], fun _ _ => by rw [hdealt, hahead], fun hp => ?_,
    fun hp hdry _ => ?_⟩
  · rw [(hdue hp).2]
    exact hmarked (hdue hp).1
  · rw [(hdue hp).2]
    exact heq (hdue hp).1 hdry

/-- **The offer of a position ends**: it is stored, or given up. -/
theorem Clears.ending {position : String} {session : Retry.Session}
    (hoffer : p.offer = some ⟨position, session, none⟩) (status : Checkpoint.Status)
    (hdealt : effects.filterMap Effect.dealt? = [])
    (hmarked : (effects.filterMap Effect.mark?).Sublist [position])
    (heq : refused = false → effects.filterMap Effect.mark? = [position]) :
    Clears p (p.endOffer ⟨position, session, none⟩ status) effects refused := by
  have hasked := asked_of_offer hoffer
  have hahead : effects.filterMap Effect.dealt?
      ++ (p.endOffer ⟨position, session, none⟩ status).ahead = p.ahead := by
    rw [hdealt]
    rfl
  have hnone : (p.endOffer ⟨position, session, none⟩ status).asked = [] :=
    asked_of_status rfl
  refine ⟨by rw [hahead], fun _ _ => hahead, fun _ => ?_, fun _ _ hrefused => ?_⟩
  · unfold marked due
    rw [hdealt, hasked, hnone, List.append_nil]
    exact hmarked
  · unfold marked due
    rw [hdealt, hasked, hnone, heq hrefused]
    rfl

/-- When the handler of failures is done, the same record is being delivered as before. -/
theorem heading_handled (p : Pipeline) :
    heading (p.tell .handled).consumer.phase = heading p.consumer.phase := by
  show heading (p.consumer.step .handled).1.phase = _
  unfold Consumer.step
  cases hphase : p.consumer.phase with
  | handling r => rfl
  | _ => exact congrArg heading hphase

/-- **One thing that is done.** -/
theorem Turn.clears {s : Signal} (hturn : Turn p s q effects) :
    Clears p q effects s.refuses := by
  have hstopped (signal : Reader.Signal) (hs : signal = .shutdown ∨ signal = .refused) :
      ({ p with reader := p.reader.step signal } : Pipeline).ahead.Sublist p.ahead :=
    (List.Sublist.refl (heading p.consumer.phase ++ p.channel)).append (Reader.finish_stopped hs)
  cases hturn with
  | idle => exact .silent rfl rfl
  | reads _ hphase =>
    refine .silent ?_ rfl
    show heading p.consumer.phase ++ p.channel ++ (p.reader.step .go).finish.2 = _
    rw [Reader.finish_go hphase]
    rfl
  | @hands record last _ hphase =>
    refine .silent ?_ rfl
    show heading p.consumer.phase ++ (p.channel ++ [record]) ++ (p.reader.step .taken).finish.2
      = heading p.consumer.phase ++ p.channel ++ p.reader.finish.2
    rw [Reader.finish_offering hphase, List.append_assoc, List.append_assoc, List.append_assoc]
    rfl
  | refuses _ _ hdone => exact .lossy (hstopped _ (.inr rfl)) rfl (.inr hdone)
  | stops hshut => exact .lossy (hstopped _ (.inl rfl)) rfl (.inl hshut)
  | notices hshut =>
    have hq : ({ p.tell .shutdown with deliveries := [] } : Pipeline).ahead
        = [] ++ p.channel ++ p.reader.finish.2 := ahead_of_phase (phase_tell_shutdown p)
    refine .lossy ?_ rfl (.inl hshut)
    rw [hq]
    unfold ahead
    rw [List.append_assoc, List.append_assoc]
    exact List.sublist_append_right _ _
  | takes _ hphase hchannel =>
    exact .silent (ahead_eq hphase (phase_tell_record hphase _) rfl hchannel.symm) rfl
  | closes _ hphase => exact .silent (ahead_eq hphase (phase_tell_closed hphase) rfl rfl) rfl
  | hears _ hphase hoffer =>
    exact .silent (ahead_eq hphase (phase_tell_acked hphase _) rfl rfl)
      (asked_of_status hoffer).symm
  | runs => exact .silent rfl rfl
  | reports => exact .silent rfl rfl
  | @concludes _ r reports _ hphase =>
    refine .dealing hphase (phase_tell_delivered hphase) rfl rfl rfl rfl (fun _ => ?_)
      fun _ hdry => ?_
    · show (Offer.asked (some (offerOf p.keeper r.position))).Sublist [r.position]
      rw [asked_offerOf]
      cases p.keeper.dry with
      | true => exact List.nil_sublist _
      | false => exact List.Sublist.refl _
    · show Offer.asked (some (offerOf p.keeper r.position)) = [r.position]
      rw [asked_offerOf, hdry]
      rfl
  | @fails _ r _ f _ hphase =>
    have hmarked (hasked : p.asked = []) : [r.position] ++ p.asked = [r.position] := by
      rw [hasked]
      rfl
    refine .dealing hphase (phase_tell_failed hphase f) rfl rfl rfl rfl (fun hasked => ?_)
      fun hasked _ => hmarked hasked
    show ([r.position] ++ p.asked).Sublist [r.position]
    rw [hmarked hasked]
  | stores hoffer => exact .ending hoffer .committed rfl (List.Sublist.refl _) fun _ => rfl
  | retries hoffer => exact .silent rfl (asked_of_offer hoffer).symm
  | givesUp hoffer => exact .ending hoffer _ rfl (List.nil_sublist _) Bool.noConfusion
  | handles => exact .silent (ahead_eq rfl rfl rfl (by rw [heading_handled]; rfl)) rfl
  | shutsDown => exact .silent rfl rfl

/-- A pipeline that is calm is so after every turn. -/
theorem Turn.calm {s : Signal} (hturn : Turn p s q effects) (h : p.Calm) : q.Calm := by
  cases hturn with
  | notices => exact fun _ _ => .inr (phase_tell_shutdown p)
  | takes _ hphase => exact calm_of_none (h.offer_eq_none (.inl hphase))
  | closes _ hphase => exact fun _ _ => .inr (phase_tell_closed hphase)
  | hears => exact calm_of_none rfl
  | concludes _ hphase => exact fun _ _ => .inl ⟨_, phase_tell_delivered hphase⟩
  | fails _ hphase => exact calm_of_none (h.offer_eq_none (.inr ⟨_, hphase⟩))
  | stores hoffer => exact fun _ _ => h _ hoffer
  | retries hoffer => exact fun _ _ => h _ hoffer
  | givesUp hoffer => exact fun _ _ => h _ hoffer
  | handles _ hphase =>
    refine fun o ho => absurd (h o ho) ?_
    rw [hphase]
    exact fun hin => hin.elim (fun ⟨_, hacking⟩ => nomatch hacking) fun hdone => nomatch hdone
  | _ => exact h

theorem Turn.keeper_eq {s : Signal} (hturn : Turn p s q effects) : q.keeper = p.keeper := by
  cases hturn <;> rfl

/-- **One signal.** -/
theorem clears_step (p : Pipeline) (s : Signal) :
    Clears p (p.step s).1 (p.step s).2 s.refuses := by
  cases turns_step p s with
  | one hturn => exact hturn.clears
  | two hturn hopen hphase hturn' =>
    exact hturn.clears.trans hturn'.clears hopen hphase hturn.keeper_eq hturn.calm

/-! ## Several signals -/

/-- A run over two parts is a run over one and then the other. -/
theorem run_append (xs ys : List Signal) : ∀ p : Pipeline,
    p.run (xs ++ ys)
      = (((p.run xs).1.run ys).1, (p.run xs).2 ++ ((p.run xs).1.run ys).2) := by
  induction xs with
  | nil => exact fun _ => rfl
  | cons s xs ih =>
    intro p
    show (((p.step s).1.run (xs ++ ys)).1, (p.step s).2 ++ ((p.step s).1.run (xs ++ ys)).2) = _
    rw [ih, ← List.append_assoc]
    rfl

/-- A run and a signal more. -/
theorem run_concat (p : Pipeline) (signals : List Signal) (s : Signal) :
    p.run (signals ++ [s])
      = (((p.run signals).1.step s).1, (p.run signals).2 ++ ((p.run signals).1.step s).2) := by
  rw [run_append]
  show (_, _ ++ (_ ++ [])) = _
  rw [List.append_nil]
  rfl

theorem keeper_run (p : Pipeline) (signals : List Signal) :
    (p.run signals).1.keeper = p.keeper :=
  run_keeps (motive := fun q => q.keeper = p.keeper) (fun hturn h => hturn.keeper_eq.trans h)
    signals rfl

/-- **Records are dealt with in the order in which they were ahead**, each of them once at
most. -/
theorem dealt_sublist_run (p : Pipeline) (signals : List Signal) :
    ((p.run signals).2.filterMap Effect.dealt? ++ (p.run signals).1.ahead).Sublist p.ahead := by
  induction signals using List.reverseRecOn with
  | nil => exact List.Sublist.refl _
  | append_singleton signals s ih =>
    rw [run_concat, List.filterMap_append, List.append_assoc]
    exact ((List.Sublist.refl _).append (clears_step _ s).dealt_sublist).trans ih

section Fresh

variable (h : p.Fresh) (signals : List Signal)

include h in
/-- **A pipeline that has been run from its start** is calm. -/
theorem Fresh.calm_run : (p.run signals).1.Calm :=
  run_keeps Turn.calm signals (calm_of_none h.offer_eq)

include h in
/-- **A pipeline that has been run from its start has a shard with an account.** -/
theorem Fresh.exists_at : ∃ a arrived stored, (p.run signals).1.shard.At a arrived stored := by
  obtain ⟨xs, hshard, -⟩ := h.exists_events
  obtain ⟨ys, hrun, -⟩ := follows_run signals p
  obtain ⟨a, hat, -⟩ := (Shard.at_start p.keeper).after (xs ++ ys)
  rw [Shard.after_append, ← hshard, ← hrun] at hat
  exact ⟨a, _, _, hat⟩

include h in
/-- **A pipeline that is done and has left out no record** has come to the end of its
records. -/
theorem Fresh.exists_closed (hkept : (p.run signals).1.Kept)
    (hdone : (p.run signals).1.consumer.phase = .done) :
    ∃ a arrived stored, (p.run signals).1.shard.At a arrived stored ∧
      a.ending = some .closed := by
  obtain ⟨a, arrived, stored, hat⟩ := h.exists_at signals
  obtain ⟨e, hend⟩ := Consumer.Account.exists_ending (hat.phase_eq.symm.trans hdone)
  refine ⟨a, arrived, stored, hat, ?_⟩
  cases e with
  | closed => exact hend
  | shutdown =>
    obtain hopen | hseen := hkept
    · exact nomatch hopen.symm.trans (hat.shutDown_of hend)
    · have hinterrupted : (p.run signals).1.consumer.summary.interrupted = true := by
        rw [show (p.run signals).1.consumer = a.consumer from hat.consumer_eq]
        exact (Consumer.Account.interrupted_iff hend).mpr rfl
      exact nomatch hseen.2.symm.trans hinterrupted

include h in
/-- Then no records are left. -/
theorem Fresh.ahead_of_ended (hkept : (p.run signals).1.Kept)
    (hdone : (p.run signals).1.consumer.phase = .done) : (p.run signals).1.ahead = [] := by
  obtain ⟨a, _, _, hat, hend⟩ := h.exists_closed signals hkept hdone
  obtain ⟨hclosed, hchannel⟩ := hat.closed_of hend
  have hreader : (p.run signals).1.reader.phase = .done := eq_of_beq hclosed
  have hchannel : (p.run signals).1.channel = [] := hchannel
  rw [ahead_of_phase hdone, hchannel, Reader.finish_done hreader]
  rfl

include h in
/-- And no position is being offered any more. -/
theorem Fresh.offer_of_ended (hkept : (p.run signals).1.Kept)
    (hdone : (p.run signals).1.consumer.phase = .done) : (p.run signals).1.offer = none := by
  obtain ⟨a, _, _, hat, hend⟩ := h.exists_closed signals hkept hdone
  have hack := hat.ack_eq_none fun r hr => nomatch (a.now_closed hend).symm.trans hr
  exact Option.map_eq_none_iff.mp hack

include h in
/-- **Positions are stored, and records fail, in the order in which they were ahead**, each
of them once at most. -/
theorem Fresh.marked_sublist :
    ((p.run signals).2.filterMap Effect.mark? ++ (p.run signals).1.outlook).Sublist
      p.outlook := by
  induction signals using List.reverseRecOn with
  | nil => exact List.Sublist.refl _
  | append_singleton signals s ih =>
    rw [run_concat, List.filterMap_append, List.append_assoc]
    refine ((List.Sublist.refl _).append ?_).trans ih
    exact (clears_step _ s).outlook_sublist (h.calm_run signals)

include h in
/-- **A pipeline whose store takes every position** marks the positions of the records that
are dealt with, in their order, but for the one that it is still asking for. -/
theorem Fresh.marked_eq (hdry : p.keeper.dry = false) {signals : List Signal}
    (hworks : ∀ s ∈ signals, s.refuses = false) :
    (p.run signals).1.marked (p.run signals).2 = p.due (p.run signals).2 := by
  induction signals using List.reverseRecOn with
  | nil => exact marked_nil rfl
  | append_singleton signals s ih =>
    have hbefore := ih fun s hs => hworks s (List.mem_append_left _ hs)
    have hkeeps : (p.run signals).1.keeper.dry = false := by
      rw [keeper_run]
      exact hdry
    have hstep := (clears_step (p.run signals).1 s).marked_eq (h.calm_run signals) hkeeps
      (hworks s (List.mem_append_right _ List.mem_cons_self))
    unfold marked due at hbefore hstep ⊢
    rw [run_concat, List.filterMap_append, List.filterMap_append, List.map_append,
      List.append_assoc, hstep, ← List.append_assoc, hbefore, List.append_assoc]

include h in
/-- **A pipeline that has left out no record** has dealt with those that are not ahead any
more. -/
theorem Fresh.dealt_eq {signals : List Signal} (hkept : (p.run signals).1.Kept) :
    (p.run signals).2.filterMap Effect.dealt? ++ (p.run signals).1.ahead = p.ahead := by
  induction signals using List.reverseRecOn with
  | nil => rfl
  | append_singleton signals s ih =>
    rw [run_concat] at hkept
    have hbefore := hkept.before
    have hclears := clears_step (p.run signals).1 s
    rw [run_concat, List.filterMap_append, List.append_assoc, ← ih hbefore]
    refine congrArg _ ?_
    by_cases hdone : (p.run signals).1.consumer.phase = .done
    · have hsublist := hclears.dealt_sublist
      rw [h.ahead_of_ended signals hbefore hdone] at hsublist ⊢
      exact List.sublist_nil.mp hsublist
    · exact hclears.dealt_eq (hbefore.resolve_right fun hseen => hdone hseen.1) hdone

include h in
/-- **When it is done it has dealt with all records.** -/
theorem Fresh.dealt_of_ended (hkept : (p.run signals).1.Kept)
    (hdone : (p.run signals).1.consumer.phase = .done) :
    (p.run signals).2.filterMap Effect.dealt? = p.ahead := by
  have hdealt := h.dealt_eq hkept
  rwa [h.ahead_of_ended signals hkept hdone, List.append_nil] at hdealt

end Fresh

end Pipeline

end Courier
