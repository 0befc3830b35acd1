import Courier.Source.Reader
/-!
# A reader at its channel

A feed is a reader with the channel that it hands its records to. Who takes them out
again is outside: a receiver that may be slow, and that may go away at any time. The
reader may be told to shut down at any time, also while it waits for room in a channel
that is full. Whenever it is run it looks at that before everything else.
-/

namespace Courier

/-- **A reader with the channel that it hands its records to.** -/
structure Feed where
  /-- How many records the channel holds. -/
  capacity : Nat
  /-- The reader. -/
  reader : Reader
  /-- The records in the channel. -/
  channel : List Record := []
  /-- Whether the receiver has gone away. -/
  gone : Bool := false
  /-- Whether the reader is to shut down. -/
  shutDown : Bool := false

namespace Feed

/-- **What happens to a feed.** -/
inductive Move
  /-- The reader is run. -/
  | reader
  /-- A record is taken out of the channel. -/
  | receive
  /-- The receiver goes away. -/
  | leave
  /-- The reader is told to shut down. -/
  | shutdown
deriving DecidableEq, Repr

/-- **A feed at the beginning of a file.** -/
def start (s : Source) (bytes : List UInt8) (capacity : Nat) : Feed where
  capacity := capacity
  reader := .start s bytes

/-- **What the reader notices when it is run.** It waits while the channel is full. -/
def notices (f : Feed) : Option Reader.Signal :=
  if f.shutDown then some .shutdown
  else
    match f.reader.phase with
    | .offering _ _ =>
      if f.gone then some .refused
      else if f.channel.length < f.capacity then some .taken
      else none
    | _ => some .go

/-- The record that the reader offers. -/
def offered (f : Feed) : List Record :=
  match f.reader.phase with
  | .offering r _ => [r]
  | _ => []

/-- **What enters the channel.** -/
def enters (f : Feed) : Move → List Record
  | .reader => if f.notices = some .taken then f.offered else []
  | _ => []

/-- **One thing that happens.** -/
def step (f : Feed) (m : Move) : Feed :=
  match m with
  | .reader =>
    { f with
      reader := (f.notices.map f.reader.step).getD f.reader
      channel := f.channel ++ f.enters .reader }
  | .receive => { f with channel := f.channel.tail }
  | .leave => { f with gone := true }
  | .shutdown => { f with shutDown := true }

/-- The feed after several things have happened. -/
def after (f : Feed) (moves : List Move) : Feed :=
  moves.foldl step f

/-- **What has entered the channel** after several things have happened, in its order. -/
def entered (f : Feed) : List Move → List Record
  | [] => []
  | m :: rest => f.enters m ++ (f.step m).entered rest

/-- **What the reader returns**, once it is done: how many events it has sent. -/
def result? (f : Feed) : Option Nat :=
  if f.reader.phase = .done then some f.reader.sent else none

end Feed

end Courier
