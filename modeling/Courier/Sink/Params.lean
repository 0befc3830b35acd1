import Courier.Blueprint.Basic
import Courier.Text.Numeral
import Courier.Url.Parse
/-!
# The parameters of sinks

What the sinks behind a URL are configured with: the URL, the index or the
stream they write to, and how long they wait for a response.
-/

namespace Courier.Sink

open Courier.Text

/-- The milliseconds that a response is waited for, unless configured. -/
def standardTimeout : Nat := 30000

/-- The failure of a parameter. -/
def paramFailure (sink key message : String) : Failure :=
  .configInvalid s!"sinks.{sink}.{key}" message

/-- **A parameter that must be there.** -/
def requiredParam (s : SinkSettings) (key : String) : Except Failure String :=
  match s.param? key with
  | some value => .ok value
  | none => .error (paramFailure s.name key s!"missing '{key}' parameter")

/-- **The time to wait for a response.** -/
def timeoutOf (s : SinkSettings) : Except Failure Nat :=
  match s.param? "timeout_ms" with
  | none => .ok standardTimeout
  | some raw =>
    match readNumeral word64 raw.toList with
    | .ok n => .ok n
    | .error fault =>
      .error (paramFailure s.name "timeout_ms" (s!"invalid timeout '{raw}': " ++ fault.message))

/-- A text without the slashes it ends in. -/
def dropTrailingSlashes (s : List Char) : List Char :=
  (s.reverse.dropWhile (· = '/')).reverse

/-- A URL with a path put behind it, as it is written, with one slash between them. -/
def joined (base : Url) (path : String) : String :=
  String.ofList
    (dropTrailingSlashes base.render.toList ++ '/' :: path.toList.dropWhile (· = '/'))

/-- **Where requests go to**: a path below a URL of the web. -/
def endpointOf (sink base path : String) : Except Failure Url :=
  let invalid (text : String) (fault : Url.Fault) : Failure :=
    paramFailure sink "url" (s!"invalid url '{text}': " ++ fault.message)
  match Url.parse base with
  | .error fault => .error (invalid base fault)
  | .ok url =>
    if url.scheme ≠ "http" && url.scheme ≠ "https" then
      .error (paramFailure sink "url" s!"unsupported scheme '{url.scheme}'")
    else
      match Url.parse (joined url path) with
      | .error fault => .error (invalid (joined url path) fault)
      | .ok url => .ok url

end Courier.Sink
