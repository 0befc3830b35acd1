import Courier.Delivery.Run
import Courier.Rehearsal.Script
import Courier.Sink.Client
/-!
# A scripted server

A client in a rehearsal talks to a server that answers from a script. What the
client does with the answers is no part of the rehearsal.
-/

namespace Courier.Rehearsal

open Courier.Sink (Client Request)

/-- **A scripted server and the requests made to it.** -/
structure Server where
  /-- How each exchange ends. -/
  script : List Sink.Ending
  /-- The requests, in their order. -/
  requests : List Request := []
deriving Inhabited

namespace Server

/-- The end of the exchange of an index; without a script an empty document. -/
def ending (s : Server) (index : Nat) : Sink.Ending :=
  (entryAt s.script index).getD (.response 200 "\x7b\x7d".toUTF8.toList)

/-- **A batch sent by a client.** -/
def send (s : Server) (c : Client) (batch : List Event) :
    Server × Except Failure (List ItemStatus) :=
  let answer := c.send (fun _ => s.ending s.requests.length) batch
  match c.request? batch with
  | none => (s, answer)
  | some request => ({ s with requests := s.requests ++ [request] }, answer)

/-- A batch sent several times. -/
def sendTimes (s : Server) (c : Client) (batch : List Event) :
    Nat → Server × List (Except Failure (List ItemStatus))
  | 0 => (s, [])
  | n + 1 =>
    let (s, answer) := s.send c batch
    let (s, answers) := s.sendTimes c batch n
    (s, answer :: answers)

/-- **A batch delivered by a client.** -/
def deliver (s : Server) (c : Client) (strategy : Retry.Strategy) (batch : List Event) :
    Delivery.Course Server :=
  Delivery.Machine.deliver c.name ItemStatus.classify strategy (fun s batch => s.send c batch) s batch

end Server

end Courier.Rehearsal
