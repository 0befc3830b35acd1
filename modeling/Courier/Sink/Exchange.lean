import Courier.Failure.Basic
import Courier.Text.Utf8
import Courier.Url.Parse
/-!
# Exchanges with a server

A sink behind a URL makes a request and gets a response, or none. A response
with a code of success has a body to read; any other makes the failure of the
whole request, with the body as its message.
-/

namespace Courier.Sink

/-- **A request.** -/
structure Request where
  /-- Where it goes to. -/
  url : Url
  /-- The type of its body. -/
  contentType : String
  /-- The operation that the server is asked for, where one server has several. -/
  operation : Option String
  /-- Its body. -/
  body : List UInt8
deriving DecidableEq, Repr, Inhabited

/-- **How an exchange ends.** -/
inductive Ending
  /-- With a response. -/
  | response (status : Nat) (body : List UInt8)
  /-- With a response that breaks off. -/
  | cutShort (status : Nat)
  /-- Without a response, in time or at all. -/
  | noResponse
deriving DecidableEq, Repr, Inhabited

/-- The failure of an exchange without a response. -/
def unreached (sink : String) (url : Url) : Failure :=
  .network sink ("error sending request for url (" ++ url.withoutCredentials.render ++ ")")

/-- **The body of a successful response**, or the failure of the request. -/
def successBody (sink : String) (url : Url) : Ending → Except Failure (Nat × String)
  | .noResponse => .error (unreached sink url)
  | .cutShort _ => .error (.network sink "error decoding response body")
  | .response status body =>
    let text := String.ofList (Text.Utf8.decodeLossy body)
    if 200 ≤ status ∧ status ≤ 299 then .ok (status, text)
    else .error (.ofStatus sink status text)

end Courier.Sink
