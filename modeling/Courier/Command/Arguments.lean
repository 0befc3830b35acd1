import Courier.Command.Basic
import Courier.Command.Environment
import Courier.Text.Numeral
/-!
# Arguments

The words behind the name of the program. There are two levels of them: those
before the command and those behind it. Some switches may stand on either
level, and what is said behind the command counts, unless it comes from the
environment and what stands before the command does not.

A switch that takes a value may have it attached or as the next word. The value
of the next word is looked at when the next switch comes, or at the end of the
level, which comes after the level behind it. So of two mistakes the first one
is not always the one that is found.
-/

namespace Courier.Command

open Courier.Text (digit? readNumeral word64)

/-- **What a value has to be.** -/
inductive Value
  /-- A path, which is not empty. -/
  | path
  /-- The name of a format of log lines. -/
  | format
  /-- A number of a width of 64 bits. -/
  | size
  /-- A number up to a limit. -/
  | upTo (limit : Nat)
deriving DecidableEq, Repr

/-- **What a switch does.** -/
inductive Action
  /-- It sets something. -/
  | flag
  /-- It counts up. -/
  | count
  /-- It takes a value. -/
  | takes (v : Value)
  /-- It asks for help. -/
  | help
  /-- It asks for the version. -/
  | version
deriving DecidableEq, Repr

/-- **A switch.** -/
structure Switch where
  /-- Its name behind two dashes. -/
  long : String
  /-- Its letter behind one dash. -/
  short : Option Char
  /-- What it does. -/
  action : Action
  /-- The variable of the environment that says the same. -/
  fromVariable : Option String
deriving DecidableEq, Repr

/-- **A level of arguments.** -/
structure Level where
  /-- The switches on it. -/
  switches : List Switch
  /-- The commands that end it. -/
  commands : List String
deriving DecidableEq, Repr

/-! ## The switches there are -/

/-- Asking for help. -/
def helpSwitch : Switch := ⟨"help", some 'h', .help, none⟩

/-- The switches of both levels. -/
def commonSwitches : List Switch :=
  [⟨"verbose", some 'v', .count, some "BATCHLINE_VERBOSE"⟩,
   ⟨"quiet", some 'q', .flag, none⟩,
   ⟨"log-format", none, .takes .format, some "BATCHLINE_LOG_FORMAT"⟩,
   helpSwitch]

/-- A switch for the configuration. -/
def configSwitch (fromVariable : Option String) : Switch :=
  ⟨"config", some 'c', .takes .path, fromVariable⟩

/-- A switch without a letter that sets something. -/
def plainFlag (long : String) : Switch :=
  ⟨long, none, .flag, none⟩

/-- The level before the command. -/
def Level.root : Level :=
  ⟨commonSwitches ++ [⟨"version", some 'V', .version, none⟩], ["run", "validate", "info", "help"]⟩

/-- **The level behind a command.** -/
def Level.behind (command : String) : Level :=
  let own := match command with
    | "run" =>
      [configSwitch (some "BATCHLINE_CONFIG"),
       ⟨"source", none, .takes .path, some "BATCHLINE_SOURCE"⟩,
       plainFlag "dry-run",
       ⟨"buffer-size", none, .takes .size, some "BATCHLINE_BUFFER_SIZE"⟩,
       ⟨"metrics-port", none, .takes (.upTo 65535), some "BATCHLINE_METRICS_PORT"⟩]
    | "validate" => [configSwitch none, plainFlag "json"]
    | _ => [configSwitch none, plainFlag "json", plainFlag "params"]
  ⟨own ++ commonSwitches, []⟩

/-! ## Values -/

/-- A number up to a limit, which zero may be written below. -/
def readBounded (limit : Nat) (s : List Char) : Option Nat :=
  match s with
  | '-' :: c :: rest =>
    if (c :: rest).all (· = '0') then some 0 else none
  | s => (readNumeral limit s).toOption

/-- **What is wrong with a value**, if anything is. -/
def fault? (v : Value) (s : String) : Option Misuse :=
  match v with
  | .path => if s = "" then some .noValue else none
  | .format => if LogFormat.all.any (·.name = s) then none else some .unofferedValue
  | .size => if (readNumeral word64 s.toList).toOption.isSome then none else some .invalidValue
  | .upTo limit => if (readBounded limit s.toList).isSome then none else some .invalidValue

/-! ## What has been given -/

/-- **What a switch has been given.** -/
structure Given where
  /-- Whether the environment says it. -/
  fromEnvironment : Bool
  /-- How often it has been given. -/
  count : Nat
  /-- Its value. -/
  text : String
deriving DecidableEq, Repr

/-- **What has been read of a level.** -/
structure Scan where
  /-- What the switches have been given, by their names. -/
  given : List (String × Given) := []
  /-- The last switch with its value in the next word, which is still to be looked
  at, and the value when it has come. -/
  pending : Option (Switch × Option String) := none
deriving DecidableEq, Repr

namespace Scan

/-- The switch that the next word is the value of. -/
def awaits (s : Scan) : Option Switch :=
  match s.pending with
  | some (switch, none) => some switch
  | _ => none

/-- What a switch has been given. -/
def find? (s : Scan) (long : String) : Option Given :=
  s.given.lookup long

/-- A switch given for the first and last time. -/
def put (s : Scan) (switch : Switch) (g : Given) : Except Misuse Scan :=
  if (s.find? switch.long).isSome then .error .conflict
  else .ok { s with given := (switch.long, g) :: s.given }

/-- A value given to a switch. -/
def store (s : Scan) (switch : Switch) (v : Value) (fromEnvironment : Bool) (text : String) :
    Except Misuse Scan := do
  let s ← s.put switch ⟨fromEnvironment, 1, text⟩
  match fault? v text with
  | some misuse => .error misuse
  | none => .ok s

/-- **The last switch looked at**, if that is still to be done. -/
def settle (s : Scan) : Except Misuse Scan :=
  match s.pending with
  | none => .ok s
  | some (_, none) => .error .noValue
  | some (switch, some text) =>
    let s := { s with pending := none }
    match switch.action with
    | .takes v => s.store switch v false text
    | _ => .ok s

/-- The greatest count. -/
def greatestCount : Nat := 255

/-- A switch counted up. -/
def countUp (s : Scan) (switch : Switch) : Scan :=
  let count := ((s.find? switch.long).map (·.count)).getD 0
  { s with given := (switch.long, ⟨false, min (count + 1) greatestCount, ""⟩) ::
      s.given.filter (·.1 ≠ switch.long) }

/-- **A switch without a value.** -/
def bare (s : Scan) (switch : Switch) : Except Misuse Scan := do
  let s ← s.settle
  match switch.action with
  | .flag => s.put switch ⟨false, 1, ""⟩
  | .count => .ok (s.countUp switch)
  | .help => .error .helpAsked
  | .version => .error .versionAsked
  | .takes _ => .ok { s with pending := some (switch, none) }

/-- **A switch with a value attached.** -/
def attached (s : Scan) (switch : Switch) (text : String) : Except Misuse Scan :=
  match switch.action with
  | .takes v => do
    let s ← s.settle
    s.store switch v false text
  | _ => .error .surplusValue

end Scan

/-! ## Words -/

/-- The text before the first equals sign, and the one behind it. -/
def splitEquals : List Char → List Char × Option (List Char)
  | [] => ([], none)
  | '=' :: rest => ([], some rest)
  | c :: rest =>
    let (name, value) := splitEquals rest
    (c :: name, value)

/-- **A word behind two dashes.** -/
def longWord (l : Level) (s : Scan) (word : List Char) : Except Misuse Scan :=
  let (name, value) := splitEquals word
  match l.switches.find? (·.long = String.ofList name), value with
  | none, _ => .error .unknownArgument
  | some switch, none => s.bare switch
  | some switch, some text => s.attached switch (String.ofList text)

/-- **Letters behind one dash.** Behind the letter of a switch that takes a value
the rest is the value, perhaps behind an equals sign. -/
def letters (l : Level) (s : Scan) : List Char → Except Misuse Scan
  | [] => .ok s
  | c :: rest =>
    match l.switches.find? (·.short = some c) with
    | none => .error .unknownArgument
    | some switch =>
      match switch.action, rest with
      | .takes _, '=' :: text => s.attached switch (String.ofList text)
      | .takes _, d :: text => s.attached switch (String.ofList (d :: text))
      | .takes _, [] => s.bare switch
      | _, _ => do
        let s ← s.bare switch
        letters l s rest

/-- A word that is neither a switch nor a value. -/
def stray (l : Level) : Misuse :=
  if l.commands.isEmpty then .unknownArgument else .unknownCommand

/-- The words behind two dashes alone. None of them is a switch. -/
def behindDashes (l : Level) (s : Scan) : List String → Except Misuse Scan
  | [] => .ok s
  | word :: _ => .error (if l.commands.contains word then .unknownArgument else stray l)

/-- Help asked for by a command, about a command perhaps. -/
def helpWords (l : Level) : List String → Misuse
  | [] => .helpAsked
  | [command] => if l.commands.contains command then .helpAsked else .unknownCommand
  | _ => .unknownCommand

/-- **The words of a level**: what has been read of it, and the command that ends it
with the words behind. -/
def scan (l : Level) (s : Scan) :
    List String → Except Misuse (Scan × Option (String × List String))
  | [] => .ok (s, none)
  | word :: rest =>
    if s.awaits.isNone && l.commands.contains word then
      if word = "help" then .error (helpWords l rest) else .ok (s, some (word, rest))
    else
      match word.toList, s.awaits with
      | ['-', '-'], _ => do
        let s ← behindDashes l s rest
        .ok (s, none)
      | '-' :: '-' :: name, _ => do
        let s ← longWord l s name
        scan l s rest
      | '-' :: c :: more, _ => do
        let s ← letters l s (c :: more)
        scan l s rest
      | _, some switch => scan l { s with pending := some (switch, some word) } rest
      | _, none => .error (stray l)

/-! ## Levels -/

/-- What the environment says about a switch that has not been given. -/
def fromEnvironment (environment : Environment) (s : Scan) (switch : Switch) :
    Except Misuse Scan :=
  match s.find? switch.long, switch.fromVariable.bind environment.value? with
  | none, some text =>
    match switch.action with
    | .takes v => s.store switch v true text
    | .count =>
      match readBounded Scan.greatestCount text.toList with
      | some count => s.put switch ⟨true, count, text⟩
      | none => .error .invalidValue
    | _ => .ok s
  | _, _ => .ok s

/-- **A level at its end**: the last switch is looked at, and then the environment. -/
def close (environment : Environment) (l : Level) (s : Scan) : Except Misuse Scan := do
  let s ← s.settle
  l.switches.foldlM (fromEnvironment environment) s

/-- Whether switches exclude each other. -/
def checkConflict (s : Scan) : Except Misuse Unit :=
  if (s.find? "quiet").isSome && (s.find? "verbose").isSome then .error .conflict else .ok ()

/-- **What counts of a switch of both levels.** -/
def effective (outer inner : Scan) (long : String) : Option Given :=
  match outer.find? long, inner.find? long with
  | some o, some i => if i.fromEnvironment && !o.fromEnvironment then some o else some i
  | some o, none => some o
  | none, i => i

/-- The value of a switch. -/
def text? (s : Scan) (long : String) : Option String :=
  (s.find? long).map (·.text)

/-- Whether a switch has been given. -/
def isSet (s : Scan) (long : String) : Bool :=
  (s.find? long).isSome

/-- The path of the configuration. -/
def config (s : Scan) : String :=
  (text? s "config").getD defaultConfig

/-- A number given to a switch. -/
def numberOf (s : Scan) (long : String) (otherwise : Nat) : Nat :=
  match text? s long with
  | none => otherwise
  | some text => (readBounded word64 text.toList).getD otherwise

/-- **The command of a name**, with what has been given behind it. -/
def commandOf (name : String) (s : Scan) : Command :=
  match name with
  | "run" => .run ⟨config s, text? s "source", isSet s "dry-run", numberOf s "buffer-size" 16,
      numberOf s "metrics-port" 0⟩
  | "validate" => .validate ⟨config s, isSet s "json"⟩
  | _ => .info ⟨config s, isSet s "json", isSet s "params"⟩

/-- **What arguments ask for.** -/
def parse (environment : Environment) (arguments : List String) : Except Misuse Invocation := do
  let (outer, behind) ← scan .root {} arguments
  match behind with
  | none => do
    let outer ← close environment .root outer
    .error (if outer.given.isEmpty then .nothingAsked else .noCommand)
  | some (name, rest) => do
    let level := Level.behind name
    let (inner, _) ← scan level {} rest
    let inner ← close environment level inner
    checkConflict inner
    let outer ← close environment .root outer
    checkConflict outer
    let format := (effective outer inner "log-format").bind fun g =>
      LogFormat.all.find? (·.name = g.text)
    return {
      verbose := ((effective outer inner "verbose").map (·.count)).getD 0
      quiet := (effective outer inner "quiet").isSome
      logFormat := format.getD .pretty
      command := commandOf name inner }

end Courier.Command
