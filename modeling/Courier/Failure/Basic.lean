import Courier.Failure.Kind
import Courier.Failure.System
import Courier.Outcome
/-!
# Failures

The causes for which work does not succeed, from the configuration to the
store of positions, with the kind of each and its wording. When trying again
has not helped, the failure holds what is known of every event and the last
cause.
-/

namespace Courier

/-- **A failure.** -/
inductive Failure
  /-- A configuration cannot be read; the fault met in it, if it is a document's. -/
  | configParse (message : String) (fault : Option (Document.Dialect × Document.Fault))
  /-- A configuration breaks a rule. -/
  | configInvalid (field message : String)
  /-- A sink was not reached, or the exchange with it broke off. -/
  | network (sink message : String)
  /-- A sink asks for patience. -/
  | throttled (sink message : String)
  /-- A sink is not able to answer. -/
  | serverBusy (sink : String) (status : Nat) (message : String)
  /-- Items are left over after an attempt. -/
  | partialFailure (sink : String) (outstanding attempt : Nat)
  /-- A sink refuses the request. -/
  | client (sink message : String)
  /-- The store of positions cannot be used. -/
  | storeUnavailable (message : String)
  /-- The store of positions holds something else. -/
  | storeCorrupt (message : String)
  /-- Trying again has not helped. -/
  | exhausted (attempts : Nat) (outcomes : List Outcome) (cause : Failure)
  /-- The work was called off. -/
  | cancelled (operation : String)
  /-- A stage of the work broke down. -/
  | pipeline (stage message : String)
  /-- A file could not be used. -/
  | io (error : SystemError)
  /-- Anything else. -/
  | other (message : String)
deriving Inhabited

namespace Failure

/-- The failure of an answer that is no success. -/
def ofStatus (sink : String) (status : Nat) (body : String) : Failure :=
  if status = 429 then .throttled sink body
  else if 400 ≤ status ∧ status ≤ 499 then .client sink body
  else .serverBusy sink status body

/-- **The kind of a failure.** -/
def kind : Failure → Kind
  | configParse _ _ => .configuration
  | configInvalid _ _ => .configuration
  | network _ _ => .network
  | throttled _ _ => .throttled
  | serverBusy _ _ _ => .serverBusy
  | partialFailure _ _ _ => .partialFailure
  | client _ _ => .client
  | storeUnavailable _ => .storeUnavailable
  | storeCorrupt _ => .storeCorrupt
  | exhausted _ _ _ => .exhaustedRetries
  | cancelled _ => .cancelled
  | pipeline _ _ => .other
  | io _ => .io
  | other _ => .other

/-- **A failure in words.** -/
def message : Failure → String
  | configParse m _ => s!"config parse error: {m}"
  | configInvalid field m => s!"config validation error at '{field}': {m}"
  | network sink m => s!"sink '{sink}' network error: {m}"
  | throttled sink m => s!"sink '{sink}' throttled request: {m}"
  | serverBusy sink status m => s!"sink '{sink}' busy (status {status}): {m}"
  | partialFailure sink outstanding attempt =>
    s!"sink '{sink}' partial failure: {outstanding} item(s) outstanding after attempt {attempt}"
  | client sink m => s!"sink '{sink}' rejected request: {m}"
  | storeUnavailable m => s!"checkpoint store unavailable: {m}"
  | storeCorrupt m => s!"checkpoint store corrupt: {m}"
  | exhausted attempts _ cause =>
    s!"retries exhausted after {attempts} attempt(s): " ++ cause.message
  | cancelled operation => s!"{operation} cancelled"
  | pipeline stage m => s!"pipeline '{stage}' failed: {m}"
  | io e => "io error: " ++ e.message
  | other m => m

/-- The wording of what lies behind a failure, if anything does. -/
def source : Failure → Option String
  | configParse m (some _) => some m
  | exhausted _ _ cause => some cause.message
  | io e => some e.message
  | _ => none

/-- What a failure knows of the events. -/
def partialOutcomes : Failure → List Outcome
  | exhausted _ outcomes _ => outcomes
  | _ => []

end Failure

end Courier
