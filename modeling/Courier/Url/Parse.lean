import Courier.Url.Basic
/-!
# Reading URLs

A URL is read from left to right: the scheme up to the first colon, then what
stands between two slashes and the path – user, host and port – then the
path, the query and the fragment. The schemes of the web are forgiving: any
number of slashes in either direction may follow the colon, and a path is
there in any case. White space around the text does not count, and neither do
tabs and line ends within it.
-/

namespace Courier.Url

/-- **Why a text is no URL.** -/
inductive Fault
  /-- It has no scheme. -/
  | relative
  /-- It has no host, and needs one. -/
  | emptyHost
  /-- The port is no number, or too large. -/
  | port
  /-- The host is a wrong address of four bytes. -/
  | v4
  /-- The host is a wrong address of eight words. -/
  | v6
  /-- The host is no domain name. -/
  | domain
  /-- The host holds a character that no host holds. -/
  | character
deriving DecidableEq, Repr, Inhabited

/-- A fault in words. -/
def Fault.message : Fault → String
  | relative => "relative URL without a base"
  | emptyHost => "empty host"
  | port => "invalid port number"
  | v4 => "invalid IPv4 address"
  | v6 => "invalid IPv6 address"
  | domain => "invalid international domain name"
  | character => "invalid domain character"

/-- **How a scheme is read.** -/
inductive Kind
  /-- Files, which have no user and no port. -/
  | file
  /-- The schemes of the web. -/
  | web
  /-- All others. -/
  | other
deriving DecidableEq, Repr

/-- The ports that schemes of the web have by themselves. -/
def standardPorts : List (String × Nat) :=
  [("http", 80), ("https", 443), ("ws", 80), ("wss", 443), ("ftp", 21)]

/-- How a scheme is read. -/
def Kind.ofScheme (scheme : String) : Kind :=
  if scheme = "file" then .file
  else if (standardPorts.lookup scheme).isSome then .web
  else .other

/-- Whether a backslash is as good as a slash. -/
def Kind.isSpecial : Kind → Bool
  | other => false
  | _ => true

/-- A slash, or what is as good. -/
def isSlash (kind : Kind) (c : Char) : Bool :=
  c = '/' || (kind.isSpecial && c = '\\')

/-- What ends the part before the path. -/
def endsAuthority (kind : Kind) (c : Char) : Bool :=
  isSlash kind c || c = '?' || c = '#'

/-- **A text without what does not count.** -/
def cleaned (s : List Char) : List Char :=
  let low (c : Char) : Bool := c.toNat ≤ 0x20
  let s := ((s.dropWhile low).reverse.dropWhile low).reverse
  s.filter fun c => c ≠ '\t' && c ≠ '\n' && c ≠ '\r'

/-- **The scheme**, in lower case, and what follows its colon. -/
def splitScheme (s : List Char) : Option (String × List Char) :=
  let inScheme (c : Char) : Bool := c.isAlphanum || c = '+' || c = '-' || c = '.'
  match s with
  | c :: _ =>
    if c.isAlpha then
      match s.dropWhile inScheme with
      | ':' :: rest => some (String.ofList ((s.takeWhile inScheme).map Char.toLower), rest)
      | _ => none
    else none
  | [] => none

/-! ## Host and port -/

/-- Characters that no host of any scheme holds. -/
def isForbiddenInHost (c : Char) : Bool :=
  ['\x00', '\t', '\n', '\r', ' ', '#', '/', ':', '<', '>', '?', '@', '[', '\\', ']', '^',
    '|'].contains c

/-- **The host that a text names.** -/
def parseHost (kind : Kind) (s : List Char) : Except Fault Host :=
  match s with
  | '[' :: rest =>
    if rest.getLast? = some ']' then
      match parseV6 rest.dropLast with
      | some words => .ok (.v6 words)
      | none => .error .v6
    else .error .v6
  | s =>
    if !kind.isSpecial then
      if s.any isForbiddenInHost then .error .character
      else .ok (.domain (String.ofList (percentEncode isControl s)))
    else
      match domainToAscii (percentDecode s) with
      | none => .error .domain
      | some [] => .error .emptyHost
      | some name =>
        if endsInNumber name then
          match parseV4 name with
          | some address => .ok (.v4 address)
          | none => .error .v4
        else .ok (.domain (String.ofList name))

/-- The host before a colon outside of brackets, and what follows it. -/
def splitHost : (bracketed : Bool) → List Char → List Char × List Char
  | _, [] => ([], [])
  | bracketed, c :: rest =>
    if c = ':' && !bracketed then ([], c :: rest)
    else
      let bracketed := if c = '[' then true else if c = ']' then false else bracketed
      let (host, rest) := splitHost bracketed rest
      (c :: host, rest)

/-- A port, counted up from its digits. -/
def parsePort (s : List Char) : Except Fault (Option Nat) :=
  if s.all Char.isDigit then
    match numeralIn? 10 s with
    | some n => if s.isEmpty then .ok none else if n < 65536 then .ok (some n) else .error .port
    | none => .error .port
  else .error .port

/-- **The host and the port.** The port of the scheme itself is left out. -/
def parseHostPort (kind : Kind) (scheme : String) (s : List Char) :
    Except Fault (Option Host × Option Nat) := do
  let (name, rest) := splitHost false s
  if name.isEmpty then
    if kind.isSpecial || rest.head? = some ':' then throw .emptyHost
    return (none, none)
  let host ← parseHost kind name
  match rest with
  | ':' :: digits =>
    let port ← parsePort digits
    return (some host, if port = standardPorts.lookup scheme then none else port)
  | _ => return (some host, none)

/-- The text up to the last at sign, if there is one, and the text behind it. -/
def splitUser (s : List Char) : Option (List Char) × List Char :=
  let behind := (s.reverse.takeWhile (· ≠ '@')).reverse
  if behind.length = s.length then (none, s)
  else (some (s.take (s.length - behind.length - 1)), behind)

/-- A user name, and a password unless it is empty. -/
def parseUser (s : List Char) : String × Option String :=
  let name := s.takeWhile (· ≠ ':')
  let password := (s.dropWhile (· ≠ ':')).drop 1
  (String.ofList (percentEncode inUserinfo name),
    if password.isEmpty then none
    else some (String.ofList (percentEncode inUserinfo password)))

/-! ## Path -/

/-- A segment that stands for the one it is in. -/
def isHere (s : List Char) : Bool :=
  ["." , "%2e", "%2E"].contains (String.ofList s)

/-- A segment that stands for the one above. -/
def isAbove (s : List Char) : Bool :=
  ["..", "%2e%2e", "%2e%2E", "%2E%2e", "%2E%2E", "%2e.", "%2E.", ".%2e", ".%2E"].contains
    (String.ofList s)

/-- A letter of a drive, which is never gone up from. -/
def isDrive : List Char → Bool
  | [c, d] => c.isAlpha && (d = ':' || d = '|')
  | _ => false

/-- The path above, its segments the last first. -/
def above (path : List (List Char)) : List (List Char) :=
  match path with
  | [] => []
  | segment :: rest => if isDrive segment then segment :: rest else rest

/-- **The segments of a path** in their order, with those that stand for others
resolved; `path` holds the ones so far, the last first. -/
def resolve : (path : List (List Char)) → List (List Char) → List (List Char)
  | path, [] => path.reverse
  | path, [last] =>
    if isAbove last then ([] :: above path).reverse
    else if isHere last then ([] :: path).reverse
    else (last :: path).reverse
  | path, segment :: rest =>
    if isAbove segment then resolve (above path) rest
    else if isHere segment then resolve path rest
    else resolve (segment :: path) rest

/-- A text with backslashes as slashes, where they are as good. -/
def straightened (kind : Kind) (s : List Char) : List Char :=
  s.map fun c => if isSlash kind c then '/' else c

/-- **A path behind a host.** Without one the path of the schemes of the web is a
slash, and that of others is empty. -/
def parsePath (kind : Kind) (s : List Char) : String :=
  match straightened kind s with
  | [] => if kind.isSpecial then "/" else ""
  | c :: rest =>
    let s := if c = '/' then rest else c :: rest
    let segments := (partsBetween '/' s).map (percentEncode inPath)
    String.ofList ((resolve [] segments).flatMap ('/' :: ·))

/-! ## The whole -/

/-- The query and the fragment. -/
def parseTail (kind : Kind) (s : List Char) : Option String × Option String :=
  let fragment (s : List Char) : Option String :=
    match s with
    | '#' :: rest => some (String.ofList (percentEncode inFragment rest))
    | _ => none
  match s with
  | '?' :: rest =>
    (some (String.ofList (percentEncode (inQuery kind.isSpecial) (rest.takeWhile (· ≠ '#')))),
      fragment (rest.dropWhile (· ≠ '#')))
  | s => (none, fragment s)

/-- What stands before the query and the fragment, and these. -/
def splitTail (s : List Char) : List Char × List Char :=
  let inside (c : Char) : Bool := c ≠ '?' && c ≠ '#'
  (s.takeWhile inside, s.dropWhile inside)

/-- **A URL with a host**, from behind its slashes on. -/
def parseWithHost (kind : Kind) (scheme : String) (s : List Char) : Except Fault Url := do
  let inAuthority (c : Char) : Bool := !endsAuthority kind c
  let authority := s.takeWhile inAuthority
  let (path, tail) := splitTail (s.dropWhile inAuthority)
  let (query, fragment) := parseTail kind tail
  let (user, place) := splitUser authority
  if user = some [] && place.isEmpty && !(s.dropWhile inAuthority).isEmpty then throw .emptyHost
  let (username, password) := parseUser (user.getD [])
  let (host, port) ← parseHostPort kind scheme place
  if host.isNone && (username ≠ "" || password.isSome) then throw .emptyHost
  return ⟨scheme, username, password, host, port, parsePath kind path, query, fragment⟩

/-- **A URL of a file**, whose host has neither user nor port. -/
def parseFile (s : List Char) : Except Fault Url := do
  let inAuthority (c : Char) : Bool := !endsAuthority .file c
  let (host, rest) ←
    match s with
    | c :: d :: rest =>
      if isSlash .file c && isSlash .file d then
        let name := rest.takeWhile inAuthority
        if name.isEmpty || isDrive name then pure (none, rest)
        else do
          let host ← parseHost .file name
          pure (some host, rest.dropWhile inAuthority)
      else pure (none, s)
    | _ => pure (none, s)
  let (path, tail) := splitTail rest
  let (query, fragment) := parseTail .file tail
  return ⟨"file", "", none, host, none, parsePath .file path, query, fragment⟩

/-- **The URL that a text writes.** -/
def parse (s : String) : Except Fault Url :=
  match splitScheme (cleaned s.toList) with
  | none => .error .relative
  | some (scheme, rest) =>
    match Kind.ofScheme scheme with
    | .file => parseFile rest
    | .web => parseWithHost .web scheme (rest.dropWhile (isSlash .web))
    | .other =>
      match rest with
      | '/' :: '/' :: rest => parseWithHost .other scheme rest
      | rest =>
        let (path, tail) := splitTail rest
        let (query, fragment) := parseTail .other tail
        .ok ⟨scheme, "", none, none, none,
          if path.head? = some '/' then parsePath .other path
          else String.ofList (percentEncode isControl path), query, fragment⟩

end Courier.Url
