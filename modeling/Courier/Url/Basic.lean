import Courier.Url.Address
/-!
# URLs

The parts of a URL, each as it is written in it, and how they are written
together. Two URLs with the same parts are written the same.
-/

namespace Courier

namespace Url

/-- **A host.** -/
inductive Host
  /-- A domain name. -/
  | domain (name : String)
  /-- An address of four bytes. -/
  | v4 (address : Nat)
  /-- An address of eight words. -/
  | v6 (words : List Nat)
deriving DecidableEq, Repr, Inhabited

/-- A host, written. -/
def Host.render : Host → String
  | domain name => name
  | v4 address => String.ofList (renderV4 address)
  | v6 words => "[" ++ String.ofList (renderV6 words) ++ "]"

end Url

/-- **A URL.** -/
structure Url where
  /-- The scheme, in lower case. -/
  scheme : String
  /-- The user name; empty when there is none. -/
  username : String
  /-- The password. -/
  password : Option String
  /-- The host. -/
  host : Option Url.Host
  /-- The port, when it is not that of the scheme. -/
  port : Option Nat
  /-- The path, with the slash it begins with. -/
  path : String
  /-- The query, without its question mark. -/
  query : Option String
  /-- The fragment, without its number sign. -/
  fragment : Option String
deriving DecidableEq, Repr, Inhabited

namespace Url

/-- The user name and the password, with the sign that ends them. -/
def credentials (u : Url) : String :=
  match u.username, u.password with
  | "", none => ""
  | name, none => name ++ "@"
  | name, some password => name ++ ":" ++ password ++ "@"

/-- The host and the port. -/
def authority (u : Url) : String :=
  match u.host with
  | none => ""
  | some host =>
    host.render ++
      match u.port with
      | none => ""
      | some port => s!":{port}"

/-- What a server is asked for: the path and the query. -/
def target (u : Url) : String :=
  u.path ++
    match u.query with
    | none => ""
    | some query => "?" ++ query

/-- **A URL, written.** -/
def render (u : Url) : String :=
  u.scheme ++ ":" ++ (if u.host.isSome then "//" else "") ++ u.credentials ++ u.authority ++
    u.target ++
    match u.fragment with
    | none => ""
    | some fragment => "#" ++ fragment

/-- The same URL without its user name and its password. -/
def withoutCredentials (u : Url) : Url :=
  { u with username := "", password := none }

end Url

end Courier
