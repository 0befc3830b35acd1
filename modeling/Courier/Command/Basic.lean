import Courier.LogFormat
/-!
# Commands

What the program can be asked to do, and everything that can be asked of it
besides. What is asked without meaning anything is a misuse, of which there
are several kinds; asking for help is one of them, and not a mistake.
-/

namespace Courier

/-- The path of the configuration unless another one is given. -/
def defaultConfig : String := "pipeline.toml"

/-- **What can be asked of a run.** -/
structure RunOptions where
  /-- The path of the configuration. -/
  config : String
  /-- The path of the source, instead of the configured one. -/
  source : Option String
  /-- Whether positions are not to be stored. -/
  dryRun : Bool
  /-- How many records wait between the source and the sinks. -/
  bufferSize : Nat
  /-- The port at which counts can be looked up; none when zero. -/
  metricsPort : Nat
deriving DecidableEq, Repr, Inhabited

/-- **What can be asked of a validation.** -/
structure ValidateOptions where
  /-- The path of the configuration. -/
  config : String
  /-- Whether the answer is to be a document. -/
  json : Bool
deriving DecidableEq, Repr, Inhabited

/-- **What can be asked of a listing.** -/
structure InfoOptions where
  /-- The path of the configuration. -/
  config : String
  /-- Whether the answer is to be a document. -/
  json : Bool
  /-- Whether the parameters of sinks are to be shown. -/
  params : Bool
deriving DecidableEq, Repr, Inhabited

/-- **What the program is asked to do.** -/
inductive Command
  /-- Deliver the events of a source. -/
  | run (o : RunOptions)
  /-- Say whether a configuration is legal. -/
  | validate (o : ValidateOptions)
  /-- List a configuration. -/
  | info (o : InfoOptions)
deriving DecidableEq, Repr, Inhabited

/-- **Everything that is asked of the program.** -/
structure Invocation where
  /-- How often more has been asked to be logged. -/
  verbose : Nat
  /-- Whether less is to be logged. -/
  quiet : Bool
  /-- The format of log lines. -/
  logFormat : LogFormat
  /-- What it is asked to do. -/
  command : Command
deriving DecidableEq, Repr, Inhabited

/-- **What is logged** unless that is said elsewhere. -/
def Invocation.level (i : Invocation) : String :=
  if i.quiet then "warn"
  else
    match i.verbose with
    | 0 => "info"
    | 1 => "debug"
    | _ => "trace"

/-- **Why arguments are not understood.** -/
inductive Misuse
  /-- Help is asked for. -/
  | helpAsked
  /-- The version is asked for. -/
  | versionAsked
  /-- Nothing is asked for. -/
  | nothingAsked
  /-- There is no command. -/
  | noCommand
  /-- There is no such command. -/
  | unknownCommand
  /-- There is no such argument. -/
  | unknownArgument
  /-- An argument is given twice, or beside one that excludes it. -/
  | conflict
  /-- An argument lacks its value. -/
  | noValue
  /-- A value is none of those offered. -/
  | unofferedValue
  /-- A value is no number, or out of bounds. -/
  | invalidValue
  /-- An argument has a value and takes none. -/
  | surplusValue
deriving DecidableEq, Repr, Inhabited

namespace Misuse

/-- The name of a kind of misuse. -/
def kind : Misuse → String
  | helpAsked => "DisplayHelp"
  | versionAsked => "DisplayVersion"
  | nothingAsked => "DisplayHelpOnMissingArgumentOrSubcommand"
  | noCommand => "MissingSubcommand"
  | unknownCommand => "InvalidSubcommand"
  | unknownArgument => "UnknownArgument"
  | conflict => "ArgumentConflict"
  | noValue => "InvalidValue"
  | unofferedValue => "InvalidValue"
  | invalidValue => "ValueValidation"
  | surplusValue => "TooManyValues"

/-- **The exit code of a misuse**: asking for help or the version is none. -/
def exitCode : Misuse → Nat
  | helpAsked => 0
  | versionAsked => 0
  | _ => 2

end Misuse

end Courier
