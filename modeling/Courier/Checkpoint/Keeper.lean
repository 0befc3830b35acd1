import Courier.Retry.Strategy
import Courier.Telemetry
/-!
# Storing a position

When a record is delivered, its position is offered to a store. A store that
cannot be used is asked again, some time later; one that holds something else
is not. What comes of the offer is one of four things, and it is counted.

The store is outside. Either its answers are given, one for each call
(`Keeper.offer`), or it keeps something to itself from one call to the next, and
an offer also leaves something of it (`Keeper.offerTo`).
-/

namespace Courier.Checkpoint

/-- **What came of offering a position.** -/
inductive Status
  /-- It is stored. -/
  | committed
  /-- It was not to be stored. -/
  | skipped
  /-- It could not be stored, and asking again was of no use. -/
  | abandoned
  /-- It could not be stored, however often the store was asked. -/
  | exhausted
deriving DecidableEq, Repr, Inhabited

/-- The name of a status. -/
def Status.name : Status → String
  | committed => "committed"
  | skipped => "skipped"
  | abandoned => "abandoned"
  | exhausted => "exhausted"

/-- The series that counts a status. -/
def Status.series (s : Status) : Series :=
  .checkpoint s.name

/-- **What an offer does**: to the store, by which calls, and what comes of it. -/
structure Offering (σ : Type) where
  /-- What is left of the store. -/
  store : σ
  /-- The calls: what the store was offered, and its answer. -/
  calls : List (String × Except Failure Unit)
  /-- What has come of it. -/
  status : Status

/-- What an offer counts up. -/
def Offering.series {σ : Type} (o : Offering σ) : List (Series × Nat) :=
  [(o.status.series, 1)]

/-- **What offers positions to a store.** -/
structure Keeper where
  /-- When the store is asked again. -/
  strategy : Retry.Strategy
  /-- Whether positions are not to be stored. -/
  dry : Bool
deriving Inhabited

namespace Keeper

/-- The keeper of a configuration: the store is asked again after a fixed delay
when it cannot be used. -/
def new (delay maxAttempts : Nat) (dry : Bool) : Keeper :=
  ⟨.new (.fixed delay) maxAttempts [.storeUnavailable], dry⟩

/-- The status of the last answer of a store. -/
def statusOf {α : Type} : Except Failure α → Status
  | .ok _ => .committed
  | .error (.exhausted _ _ _) => .exhausted
  | .error _ => .abandoned

/-- **Offering a position**: `commit n` is the answer of the store to the call of
index `n`. Without a result the store was not asked. -/
def ask {α : Type} (k : Keeper) (commit : Nat → Except Failure α) : Option (Retry.Course α) :=
  if k.dry then none else some (k.strategy.run commit)

/-- **What comes of offering a position.** -/
def offer {α : Type} (k : Keeper) (commit : Nat → Except Failure α) : Status :=
  match k.ask commit with
  | none => .skipped
  | some course =>
    match course.result with
    | some r => statusOf r
    | none => .abandoned

/-! ## Offers to a store -/

section

variable {σ : Type} (commit : σ → String → σ × Except Failure Unit) (position : String)

/-- **The rest of an offer**, from an attempt on. -/
def offerFrom (session : Retry.Session) (s : σ) : Offering σ :=
  match (commit s position).2 with
  | .ok () => ⟨(commit s position).1, [(position, .ok ())], .committed⟩
  | .error f =>
    match _h : session.verdict f with
    | .terminal reason =>
      ⟨(commit s position).1, [(position, .error f)],
        statusOf (.error (reason.surfaced f) : Except Failure Unit)⟩
    | .proceed _ _ =>
      let rest := offerFrom (session.after (session.verdict f)) (commit s position).1
      { rest with calls := (position, .error f) :: rest.calls }
termination_by session.left
decreasing_by exact Retry.Session.left_after _h

/-- **A position offered to a store**: `commit` is what a call does to the store, and its
answer. A keeper that stores nothing does not call it. -/
def offerTo (k : Keeper) (s : σ) : Offering σ :=
  if k.dry then ⟨s, [], .skipped⟩ else offerFrom commit position k.strategy.session s

end

section

variable {σ : Type} {commit : σ → String → σ × Except Failure Unit} {position : String}
variable {session : Retry.Session} {s : σ} {f : Failure}

theorem offerFrom_ok (h : (commit s position).2 = .ok ()) :
    offerFrom commit position session s
      = ⟨(commit s position).1, [(position, .ok ())], .committed⟩ := by
  rw [offerFrom, h]

/-- An offer that ends with a failure. -/
theorem offerFrom_terminal {reason : Retry.Reason} (h : (commit s position).2 = .error f)
    (hv : session.verdict f = .terminal reason) :
    offerFrom commit position session s
      = ⟨(commit s position).1, [(position, .error f)],
          statusOf (.error (reason.surfaced f) : Except Failure Unit)⟩ := by
  rw [offerFrom, h]
  dsimp only
  split
  · next h' => rw [Retry.Verdict.terminal.inj (hv.symm.trans h')]
  · next h' => exact nomatch hv.symm.trans h'

/-- An offer that goes on after a failure. -/
theorem offerFrom_proceed {delay next : Nat} (h : (commit s position).2 = .error f)
    (hv : session.verdict f = .proceed delay next) :
    offerFrom commit position session s
      = { offerFrom commit position { session with attempt := next } (commit s position).1 with
          calls := (position, .error f) ::
            (offerFrom commit position { session with attempt := next }
              (commit s position).1).calls } := by
  rw [offerFrom, h]
  dsimp only
  split
  · next h' => exact nomatch hv.symm.trans h'
  · rw [hv]
    rfl

end

end Keeper

end Courier.Checkpoint
