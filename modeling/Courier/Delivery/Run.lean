import Courier.Delivery.Machine
/-!
# Delivering without interruption

A delivery that is never called off goes on until it has ended: each request is
answered, each wait passes. `deliver` is that course from the first request on,
with whatever answers the requests, and what that keeps to itself from one
request to the next.
-/

namespace Courier.Delivery

/-- **A delivery that has gone on**: what answers its requests, the delivery, the
requests and the notes, each in their order. -/
structure Course (σ : Type) where
  /-- What answers the requests, as it is after them. -/
  state : σ
  /-- The delivery. -/
  machine : Machine
  /-- The requests made. -/
  requests : List (List Event)
  /-- The notes left. -/
  notes : List Note

namespace Machine

/-- **Going on for a number of phases**, or until the end. -/
def drive {σ : Type} (exchange : σ → List Event → σ × Answer) :
    (phases : Nat) → σ → Machine → Course σ
  | 0, s, m => ⟨s, m, [], []⟩
  | phases + 1, s, m =>
    match m.phase with
    | .ended _ => ⟨s, m, [], []⟩
    | .inFlight request =>
      let (s, a) := exchange s request
      let (m, notes) := m.step (.answered a)
      let rest := drive exchange phases s m
      { rest with requests := request :: rest.requests, notes := notes ++ rest.notes }
    | _ =>
      let (m, notes) := m.step .go
      let rest := drive exchange phases s m
      { rest with notes := notes ++ rest.notes }

/-- How many phases a delivery can still go through: three for each attempt, one
for its end. -/
def phasesLeft (m : Machine) : Nat :=
  3 * (m.retry.left + 1) + 1

/-- **A delivery from beginning to end.** -/
def deliver {σ : Type} (sink : String) (classify : ItemStatus → ItemClass)
    (strategy : Retry.Strategy) (exchange : σ → List Event → σ × Answer) (s : σ)
    (batch : List Event) : Course σ :=
  let m := Machine.start sink classify strategy batch
  m.drive exchange m.phasesLeft s

end Machine

end Courier.Delivery
