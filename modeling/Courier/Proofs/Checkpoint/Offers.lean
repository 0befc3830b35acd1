import Courier.Pipeline.Drive
import Courier.Proofs.Delivery.Rounds
import Courier.Proofs.Telemetry
import Mathlib.Order.Bounds.Basic
/-!
# What comes of offering a position

A keeper offers a position to a store until the store has answered for good.
The store is outside: it is a function that answers, and it may keep something
to itself from one call to the next. `Keeper.offerTo` is the whole of an offer,
with the calls that it makes and what they leave of the store.

What comes of an offer is in the last answer alone. The store is called again
only while it cannot be used, so the last call is the first that finds it
usable, or the last that the keeper makes (`Keeper.exists_last`). And an answer
says what has come of the offer when it is the last (`closing`): that the store
cannot be used is then that it could not be used at any call.

One answer says something else than it means. A store may itself fail because
trying again has not helped, and such a failure looks like the verdict of the
keeper on its own attempts (`closing_eq_exhausted`).

The offers of a pipeline are these offers: `Pipeline.drive_offer` has each call
made, and its answer taken, by the steps of a pipeline that is run.
-/

namespace Courier.Checkpoint

open Courier.Retry (Session)

/-! ## Answers -/

/-- **Whether an answer is that the store cannot be used.** -/
def unavailable : Except Failure Unit → Bool
  | .error (.storeUnavailable _) => true
  | _ => false

/-- **What has come of an offer after its last answer.** -/
def closing : Except Failure Unit → Status
  | .ok () => .committed
  | .error (.storeUnavailable _) => .exhausted
  | .error (.exhausted _ _ _) => .exhausted
  | .error _ => .abandoned

variable {answer : Except Failure Unit} {f : Failure}

theorem statusOf_of_available (h : unavailable (.error f) = false) :
    Keeper.statusOf (.error f : Except Failure Unit) = closing (.error f) := by
  cases f <;> first | rfl | exact nomatch h

theorem closing_of_unavailable (h : unavailable answer = true) : closing answer = .exhausted := by
  match answer, h with
  | .error (.storeUnavailable _), _ => rfl

/-- An offer whose position is not to be stored has no answer. -/
theorem closing_ne_skipped : closing answer ≠ .skipped := by
  match answer with
  | .ok () => exact nofun
  | .error f => cases f <;> exact nofun

/-- The position is stored exactly when the last answer says so. -/
theorem closing_eq_committed : closing answer = .committed ↔ answer = .ok () := by
  match answer with
  | .ok () => exact ⟨fun _ => rfl, fun _ => rfl⟩
  | .error f => cases f <;> exact ⟨nofun, nofun⟩

/-- It is given up, and said not to be storable, when the store cannot be used, or
itself says that trying again has not helped. -/
theorem closing_eq_exhausted :
    closing answer = .exhausted ↔ unavailable answer = true ∨
      ∃ attempts outcomes cause, answer = .error (.exhausted attempts outcomes cause) := by
  match answer with
  | .ok () => exact ⟨nofun, by rintro (h | ⟨_, _, _, h⟩) <;> exact nomatch h⟩
  | .error f => cases f <;> simp [closing, unavailable]

/-- It is given up at once after any other failure. -/
theorem closing_eq_abandoned :
    closing answer = .abandoned ↔
      ∃ f, answer = .error f ∧ f.kind ≠ .storeUnavailable ∧ f.kind ≠ .exhaustedRetries := by
  match answer with
  | .ok () => exact ⟨nofun, by rintro ⟨_, h, -⟩; exact nomatch h⟩
  | .error f => cases f <;> simp [closing, Failure.kind]

/-! ## A store called again and again -/

section

variable {σ : Type} (commit : σ → String → σ × Except Failure Unit) (position : String) (s : σ)

/-- What a number of calls with a position leave of a store. -/
def afterCalls (calls : Nat) : σ :=
  (fun s => (commit s position).1)^[calls] s

/-- **The answer to the call of an index**, by a store that is offered a position
again and again. -/
def answerTo (call : Nat) : Except Failure Unit :=
  (commit (afterCalls commit position s call) position).2

/-- The calls of an offer up to a number, with their answers. -/
def callsUpTo (calls : Nat) : List (String × Except Failure Unit) :=
  (List.range calls).map fun call => (position, answerTo commit position s call)

/-- A call before the others. -/
theorem callsUpTo_succ (calls : Nat) :
    callsUpTo commit position s (calls + 1)
      = (position, (commit s position).2) ::
          callsUpTo commit position (commit s position).1 calls := by
  unfold callsUpTo
  rw [List.range_succ_eq_map, List.map_cons, List.map_map]
  rfl

end

/-! ## The last call -/

namespace Keeper

section

variable {σ : Type} {commit : σ → String → σ × Except Failure Unit} {position : String}
variable {session : Session} {s : σ}

/-- **A failure is worth another attempt** exactly when it is that the store cannot be
used. -/
theorem permits_iff (hkinds : session.strategy.kinds = [.storeUnavailable]) :
    Failure.permits session.strategy.kinds f.kind = unavailable (.error f) := by
  rw [hkinds]
  cases f <;> rfl

/-- **An offer that ends with a call**, of an index: before it the store could not be
used; at it the store can be, or is called for the last time; and the answer to it says
what has come of the offer. -/
structure Ends (commit : σ → String → σ × Except Failure Unit) (position : String)
    (session : Session) (s : σ) (last : Nat) : Prop where
  /-- The store could not be used before. -/
  before : ∀ call < last, unavailable (answerTo commit position s call) = true
  /-- There are as many attempts. -/
  le_left : last ≤ session.left
  /-- There is none left, or none needed. -/
  ends : last = session.left ∨ unavailable (answerTo commit position s last) = false
  /-- What the offer has done. -/
  offer_eq : offerFrom commit position session s
    = ⟨afterCalls commit position s (last + 1), callsUpTo commit position s (last + 1),
        closing (answerTo commit position s last)⟩

/-- An offer that ends with its first call. -/
theorem Ends.first {status : Status}
    (hends : session.left = 0 ∨ unavailable (commit s position).2 = false)
    (hstatus : status = closing (commit s position).2)
    (hoffer : offerFrom commit position session s
      = ⟨(commit s position).1, [(position, (commit s position).2)], status⟩) :
    Ends commit position session s 0 where
  before _ h := absurd h (Nat.not_lt_zero _)
  le_left := Nat.zero_le _
  ends := hends.imp_left Eq.symm
  offer_eq := by rw [hoffer, hstatus]; rfl

/-- An offer that ends with its first call, because of a failure. -/
theorem Ends.failed {reason : Retry.Reason} (h : (commit s position).2 = .error f)
    (hkinds : session.strategy.kinds = [.storeUnavailable])
    (hv : session.verdict f = .terminal reason) : Ends commit position session s 0 := by
  have hpermits := permits_iff (f := f) hkinds
  have hoffer := offerFrom_terminal h hv
  rw [← h] at hoffer
  unfold Session.verdict at hv
  split at hv
  · next hkind =>
    have hav : unavailable (.error f) = false := by rw [← hpermits]; simpa using hkind
    refine .first (.inr (h ▸ hav)) ?_ hoffer
    rw [← Retry.Verdict.terminal.inj hv, h]
    exact statusOf_of_available hav
  · next hkind =>
    have hav : unavailable (.error f) = true := by rw [← hpermits]; simpa using hkind
    split at hv
    · next hlast =>
      refine .first (.inl (Nat.sub_eq_zero_of_le hlast)) ?_ hoffer
      rw [← Retry.Verdict.terminal.inj hv, h, closing_of_unavailable hav]
      rfl
    · exact nomatch hv

/-- An offer that goes on ends with what it goes on to. -/
theorem Ends.later {delay next last : Nat} (h : (commit s position).2 = .error f)
    (hkinds : session.strategy.kinds = [.storeUnavailable])
    (hv : session.verdict f = .proceed delay next)
    (hrest : Ends commit position { session with attempt := next } (commit s position).1 last) :
    Ends commit position session s (last + 1) := by
  have hav : unavailable (.error f) = true := by
    rw [← permits_iff hkinds]
    unfold Session.verdict at hv
    split at hv
    · exact nomatch hv
    · next hkind => simpa using hkind
  obtain ⟨-, hnext, hlt⟩ := Delivery.Machine.verdict_proceed hv
  have hleft : session.left = ({ session with attempt := next } : Session).left + 1 := by
    show session.strategy.maxAttempts - session.attempt = session.strategy.maxAttempts - next + 1
    omega
  refine ⟨?_, ?_, ?_, ?_⟩
  · intro call hcall
    cases call with
    | zero => rw [← hav, ← h]; rfl
    | succ call => exact hrest.before call (Nat.lt_of_succ_lt_succ hcall)
  · exact hleft ▸ Nat.succ_le_succ hrest.le_left
  · exact hrest.ends.imp_left fun heq => by rw [hleft, heq]
  · rw [offerFrom_proceed h hv, hrest.offer_eq, callsUpTo_succ _ _ _ (last + 1), h]
    rfl

/-- **Every offer ends with a call.** -/
theorem exists_ends (session : Session)
    (hkinds : session.strategy.kinds = [.storeUnavailable]) (s : σ) :
    ∃ last, Ends commit position session s last := by
  cases h : (commit s position).2 with
  | ok u => exact ⟨0, .first (.inr (by rw [h]; rfl)) (by rw [h]; rfl) (h ▸ offerFrom_ok h)⟩
  | error f =>
    cases hv : session.verdict f with
    | terminal reason => exact ⟨0, .failed h hkinds hv⟩
    | proceed delay next =>
      have hless : ({ session with attempt := next } : Session).left < session.left := by
        have := Session.left_after hv
        rwa [hv] at this
      obtain ⟨last, hrest⟩ := exists_ends { session with attempt := next } hkinds (commit s position).1
      exact ⟨last + 1, hrest.later h hkinds hv⟩
termination_by session.left

/-- An offer that ends with a call makes the calls up to it. -/
theorem Ends.length_calls {last : Nat} (h : Ends commit position session s last) :
    (offerFrom commit position session s).calls.length = last + 1 := by
  rw [h.offer_eq]
  unfold callsUpTo
  rw [List.length_map, List.length_range]

/-- The store could not be used at any call of an offer that ends without having found it
usable. -/
theorem Ends.busy_iff {last : Nat} (h : Ends commit position session s last) :
    unavailable (answerTo commit position s last) = true ↔
      last = session.left ∧
        ∀ call < last + 1, unavailable (answerTo commit position s call) = true := by
  constructor
  · intro hlast
    refine ⟨h.ends.resolve_right (by rw [hlast]; exact Bool.noConfusion), fun call hcall => ?_⟩
    obtain hlt | rfl := Nat.lt_or_eq_of_le (Nat.le_of_lt_succ hcall)
    · exact h.before call hlt
    · exact hlast
  · exact fun hall => hall.2 last (Nat.lt_succ_self last)

/-- **The last call is the first that finds the store usable**, or the last attempt. -/
theorem Ends.eq_min {last : Nat} (h : Ends commit position session s last) {first : Nat}
    (hfirst : IsLeast {call | unavailable (answerTo commit position s call) = false} first) :
    last = min session.left first := by
  have hle : last ≤ first := by
    refine Nat.le_of_not_lt fun hlt => ?_
    exact Bool.noConfusion ((h.before first hlt).symm.trans hfirst.1)
  obtain heq | hends := h.ends
  · rw [← heq, Nat.min_eq_left hle]
  · rw [Nat.le_antisymm hle (hfirst.2 hends), Nat.min_eq_right]
    exact (hfirst.2 hends).trans h.le_left

end

/-! ## Counting -/

theorem series_render_inj {x y : Status} (h : x.series.render = y.series.render) : x = y := by
  cases x <;> cases y <;> first | rfl | exact absurd h (by decide)

/-- **An offer counts up the series of its status**, by one, and that of no other
status. -/
theorem count_addAll_series {σ : Type} (o : Offering σ) (t : Telemetry) (x : Status) :
    (t.addAll o.series).count x.series = t.count x.series + if x = o.status then 1 else 0 := by
  show (t.add o.status.series 1).count x.series = _
  rw [Telemetry.count_add]
  exact congrArg _ (if_congr ⟨series_render_inj, fun h => by rw [h]⟩ rfl rfl)

/-! ## What comes of an offer -/

section

variable {σ : Type} (commit : σ → String → σ × Except Failure Unit) (position : String) (s : σ)

/-- **What comes of offering a position.** A keeper that stores nothing leaves the store
alone. Any other offers the position, and nothing else, until the store can be used or
the attempts are used up. The position is stored exactly when the last call has stored
it; the store is given up as exhausted when it could not be used at any of all the
attempts, *or when its last answer is itself that trying again has not helped*; and the
offer is abandoned after any other failure. What comes of it is counted once. -/
theorem offerTo_new (delay : Nat) (maxAttempts : UInt32) (dry : Bool) :
    let answer := answerTo commit position s
    let attempts := max 1 maxAttempts.toNat
    let o := (Keeper.new delay maxAttempts.toNat dry).offerTo commit position s
    let n := o.calls.length
    (dry = true → o = ⟨s, [], .skipped⟩) ∧
      (dry = false →
        o.calls = callsUpTo commit position s n ∧ o.store = afterCalls commit position s n ∧
          (∀ first, IsLeast {call | unavailable (answer call) = false} first →
            n = min attempts (first + 1)) ∧
          ((∀ call, unavailable (answer call) = true) → n = attempts) ∧
          o.status ≠ .skipped ∧
          (o.status = .committed ↔ answer (n - 1) = .ok ()) ∧
          (o.status = .exhausted ↔
            (n = attempts ∧ ∀ call < n, unavailable (answer call) = true) ∨
              ∃ attempts outcomes cause,
                answer (n - 1) = .error (.exhausted attempts outcomes cause)) ∧
          (o.status = .abandoned ↔
            ∃ f, answer (n - 1) = .error f ∧
              f.kind ≠ .storeUnavailable ∧ f.kind ≠ .exhaustedRetries)) ∧
      ∀ (t : Telemetry) (x : Status),
        (t.addAll o.series).count x.series = t.count x.series + if x = o.status then 1 else 0 := by
  intro answer attempts o n
  refine ⟨?_, ?_, fun t x => count_addAll_series o t x⟩
  · rintro rfl
    rfl
  · rintro rfl
    -- the attempts of the configuration are those that a fresh session has left, and the first
    have hleft : (Keeper.new delay maxAttempts.toNat false).strategy.session.left + 1
        = attempts := by
      have hmax := Delivery.Machine.maxAttempts_new (.fixed delay) maxAttempts [.storeUnavailable]
      show (Retry.Strategy.new (.fixed delay) maxAttempts.toNat [.storeUnavailable]).maxAttempts
        - 1 + 1 = attempts
      rw [hmax]
      exact Nat.sub_add_cancel (Nat.le_max_left ..)
    obtain ⟨last, h⟩ : ∃ last, Ends commit position
        (Keeper.new delay maxAttempts.toNat false).strategy.session s last :=
      exists_ends _ rfl s
    have hn : n = last + 1 := h.length_calls
    have ho : o = ⟨afterCalls commit position s n, callsUpTo commit position s n,
        closing (answer last)⟩ := hn ▸ h.offer_eq
    have hstatus : o.status = closing (answer (n - 1)) := by rw [hn, Nat.add_sub_cancel, ho]
    have hbusy : unavailable (answer (n - 1)) = true ↔
        n = attempts ∧ ∀ call < n, unavailable (answer call) = true := by
      rw [hn, Nat.add_sub_cancel, h.busy_iff, ← hleft, Nat.succ_inj]
    refine ⟨congrArg Offering.calls ho, congrArg Offering.store ho, ?_, ?_, ?_, ?_, ?_, ?_⟩
    · intro first hfirst
      rw [hn, h.eq_min hfirst, ← hleft, Nat.add_min_add_right]
    · exact fun hall => (hbusy.mp (hall (n - 1))).1
    · exact hstatus ▸ closing_ne_skipped
    · rw [hstatus, closing_eq_committed]
    · rw [hstatus, closing_eq_exhausted, hbusy]
    · rw [hstatus, closing_eq_abandoned]

end

/-- A store that cannot be used twice and then stores the position is called three
times. -/
theorem offerTo_new_third :
    let commit : Nat → String → Nat × Except Failure Unit := fun calls _ =>
      (calls + 1, if calls < 2 then .error (.storeUnavailable "locked") else .ok ())
    let o := (Keeper.new 0 3 false).offerTo commit "10" 0
    o.calls.length = 3 ∧ o.status = .committed := by
  intro commit o
  obtain ⟨-, hasked, -⟩ := offerTo_new commit "10" 0 0 3 false
  obtain ⟨-, -, hfirst, -, -, hcommitted, -, -⟩ := hasked rfl
  have hthree : o.calls.length = 3 := by
    refine hfirst 2 ⟨rfl, fun call hcall => Nat.le_of_not_lt fun hlt => ?_⟩
    have hbusy : unavailable (answerTo commit "10" 0 call) = true := by
      match call, hlt with
      | 0, _ => rfl
      | 1, _ => rfl
    exact Bool.noConfusion (hbusy.symm.trans hcall)
  refine ⟨hthree, hcommitted.mpr ?_⟩
  show answerTo commit "10" 0 (o.calls.length - 1) = .ok ()
  rw [hthree]
  rfl

/-- **A store that has tried again by itself.** It was called once, it could be used, and
there were attempts left; it is given up as if it could not have been used at any. -/
theorem offerTo_weary :
    let weary : Failure := .exhausted 2 [] (.storeCorrupt "lease lost")
    let o := (Keeper.new 0 30 false).offerTo (fun _ _ => ((), .error weary)) "10" ()
    o.calls = [("10", .error weary)] ∧ weary.kind ≠ .storeUnavailable ∧ o.status = .exhausted := by
  intro weary o
  have hverdict : (Keeper.new 0 30 false).strategy.session.verdict weary
      = .terminal (.notRetryable 1 .exhaustedRetries) := rfl
  have ho : o = ⟨(), [("10", .error weary)], .exhausted⟩ := offerFrom_terminal rfl hverdict
  rw [ho]
  exact ⟨rfl, nofun, rfl⟩

/-! ## The offers that are made -/

section

variable {σ : Type} (commit : σ → String → σ × Except Failure Unit) (position : String) (s : σ)

/-- **An offer is a course of attempts** at the answers of the store. -/
theorem offerFrom_run (session : Session) (call elapsed : Nat) :
    let o := offerFrom commit position session (afterCalls commit position s call)
    let course := session.run (answerTo commit position s) (fun _ => true) call elapsed
    o.calls.length = course.delays.length + 1 ∧
      course.result.map statusOf = some o.status := by
  intro o course
  unfold o course
  rw [Session.run]
  cases h : answerTo commit position s call with
  | ok u => rw [offerFrom_ok h]; exact ⟨rfl, rfl⟩
  | error f =>
    dsimp only
    split
    · next reason hv => rw [offerFrom_terminal h hv]; exact ⟨rfl, rfl⟩
    · next delay next hv =>
      rw [offerFrom_proceed h hv, if_pos rfl]
      have hnext : (commit (afterCalls commit position s call) position).1
          = afterCalls commit position s (call + 1) :=
        (Function.iterate_succ_apply' (fun s => (commit s position).1) call s).symm
      have hrest := offerFrom_run (session.after (session.verdict f)) (call + 1) (elapsed + delay)
      rw [hnext]
      rw [hv] at hrest ⊢
      exact ⟨congrArg Nat.succ hrest.1, hrest.2⟩
termination_by session.left
decreasing_by exact Session.left_after ‹_›

/-- **What comes of a position that is offered** to a store is what comes of the sequence
of its answers. -/
theorem status_offerTo (k : Keeper) :
    (k.offerTo commit position s).status = k.offer (answerTo commit position s) := by
  unfold offerTo offer ask
  cases k.dry with
  | true => rfl
  | false =>
    have hrun := (offerFrom_run commit position s k.strategy.session 0 0).2
    have hfrom : k.strategy.run (answerTo commit position s)
        = k.strategy.session.run (answerTo commit position s) (fun _ => true) 0 0 := rfl
    obtain ⟨r, hr, hstatus⟩ := Option.map_eq_some_iff.mp hrun
    rw [if_neg Bool.false_ne_true, if_neg Bool.false_ne_true]
    dsimp only
    rw [hfrom, hr]
    exact hstatus.symm

end

end Keeper

end Courier.Checkpoint

namespace Courier.Pipeline

open Courier.Checkpoint (Keeper)
open Courier.Retry (Session)

variable {σ : Type} (w : World σ) (e : ExceptionStrategy) {position : String} {r : Record}

/-- A pipeline whose position is being offered has the store answer. -/
theorem drive_store {s : σ} {p : Pipeline} {session : Session} (tasks : Nat)
    (hphase : p.consumer.phase = .acking r) (hrunning : p.shutDown = false)
    (hoffer : p.offer = some ⟨position, session, none⟩) :
    drive w e (tasks + 1) s p
      = drive w e tasks (w.store s position).1 (p.takeAnswer (w.store s position).2).1 := by
  have htask : p.task? = some (.store position) := by
    unfold task?
    simp only [hphase, hrunning, hoffer]
  rw [drive, htask]
  rfl

/-- An offer under way is made to the store by the steps of a pipeline, call by call. -/
theorem drive_offering (tasks : Nat) (session : Session) (s : σ) (p : Pipeline)
    (hphase : p.consumer.phase = .acking r) (hrunning : p.shutDown = false)
    (hoffer : p.offer = some ⟨position, session, none⟩) :
    let o := Keeper.offerFrom w.store position session s
    ∃ last, drive w e (tasks + o.calls.length) s p
      = drive w e tasks o.store
          { p with
            offer := some ⟨position, last, some o.status⟩
            series := p.series ++ o.series } := by
  intro o
  cases h : (w.store s position).2 with
  | ok u =>
    refine ⟨session, ?_⟩
    have ho : o = ⟨(w.store s position).1, [(position, .ok ())], .committed⟩ :=
      Keeper.offerFrom_ok h
    rw [ho]
    show drive w e (tasks + 1) s p = _
    rw [drive_store w e tasks hphase hrunning hoffer, h]
    unfold takeAnswer
    simp only [hoffer]
    rfl
  | error f =>
    cases hv : session.verdict f with
    | terminal reason =>
      refine ⟨session, ?_⟩
      have ho : o = ⟨(w.store s position).1, [(position, .error f)],
          Keeper.statusOf (.error (reason.surfaced f) : Except Failure Unit)⟩ :=
        Keeper.offerFrom_terminal h hv
      rw [ho]
      show drive w e (tasks + 1) s p = _
      rw [drive_store w e tasks hphase hrunning hoffer, h]
      unfold takeAnswer
      simp only [hoffer, hv]
      rfl
    | proceed delay next =>
      have hless : ({ session with attempt := next } : Session).left < session.left := by
        have := Session.left_after hv
        rwa [hv] at this
      let p' : Pipeline := { p with offer := some ⟨position, { session with attempt := next }, none⟩ }
      have hanswer : (p.takeAnswer (.error f)).1 = p' := by
        unfold takeAnswer
        simp only [hoffer, hv]
        rfl
      -- the rest is by induction on the attempts left, of which this call has used one up
      obtain ⟨last, hrest⟩ := drive_offering tasks { session with attempt := next }
        (w.store s position).1 p' hphase hrunning rfl
      refine ⟨last, ?_⟩
      have ho : o = { Keeper.offerFrom w.store position { session with attempt := next }
            (w.store s position).1 with
          calls := (position, .error f) ::
            (Keeper.offerFrom w.store position { session with attempt := next }
              (w.store s position).1).calls } :=
        Keeper.offerFrom_proceed h hv
      rw [ho, List.length_cons, ← Nat.add_assoc, drive_store w e _ hphase hrunning hoffer, h,
        hanswer]
      exact hrest
termination_by session.left

/-- **The offer of a pipeline**, from its beginning to its end, is the offer of its keeper:
the store is left as that offer leaves it, and what comes of it is counted. -/
theorem drive_offer (tasks : Nat) (s : σ) (p : Pipeline) (before : List (Series × Nat))
    (hphase : p.consumer.phase = .acking r) (hrunning : p.shutDown = false)
    (hoffer : p.offer = some (offerOf p.keeper position))
    (hseries : p.series = before ++ Offer.series (offerOf p.keeper position)) :
    let o := p.keeper.offerTo w.store position s
    ∃ last, drive w e (tasks + o.calls.length) s p
      = drive w e tasks o.store
          { p with
            offer := some ⟨position, last, some o.status⟩
            series := before ++ o.series } := by
  intro o
  cases hdry : p.keeper.dry with
  | true =>
    have ho : o = ⟨s, [], .skipped⟩ := if_pos hdry
    have hof : offerOf p.keeper position
        = ⟨position, p.keeper.strategy.session, some .skipped⟩ := by
      unfold offerOf
      rw [hdry]
      rfl
    refine ⟨p.keeper.strategy.session, ?_⟩
    rw [hof] at hoffer hseries
    rw [ho]
    show drive w e tasks s p = drive w e tasks s _
    congr 1
    rw [← hoffer]
    exact (congrArg (fun series => { p with series := series }) hseries :)
  | false =>
    have ho : o = Keeper.offerFrom w.store position p.keeper.strategy.session s :=
      if_neg (by rw [hdry]; exact Bool.false_ne_true)
    have hof : offerOf p.keeper position = ⟨position, p.keeper.strategy.session, none⟩ := by
      unfold offerOf
      rw [hdry]
      rfl
    rw [hof] at hoffer hseries
    have hbefore : p.series = before := hseries.trans (List.append_nil before)
    rw [ho, ← hbefore]
    exact drive_offering w e tasks p.keeper.strategy.session s p hphase hrunning hoffer

end Courier.Pipeline
