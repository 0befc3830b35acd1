import Courier.Failure.Basic
/-!
# Trouble

What a command ends in when it does not succeed: what could not be done, and
below it the causes, each the cause of the one before. The whole is written
out as a text of several lines.
-/

namespace Courier

/-- A failure and the causes behind it, in words. -/
def Failure.chain (f : Failure) : List String :=
  match f with
  | .exhausted _ _ cause => f.message :: cause.chain
  | .io e => [f.message, e.message]
  | .configParse _ (some (dialect, fault)) => [f.message, fault.describe dialect]
  | _ => [f.message]

/-- **What a command ends in when it does not succeed**, the causes behind what
could not be done. -/
structure Trouble where
  /-- What could not be done. -/
  message : String
  /-- The causes, the nearest first. -/
  causes : List String := []
deriving DecidableEq, Repr, Inhabited

namespace Trouble

/-- All of it, the outermost first. -/
def chain (t : Trouble) : List String :=
  t.message :: t.causes

/-- **A failure behind something that could not be done.** -/
def behind (message : String) (f : Failure) : Trouble :=
  ⟨message, f.chain⟩

/-- **Trouble behind something else that could not be done.** -/
def within (t : Trouble) (message : String) : Trouble :=
  ⟨message, t.chain⟩

/-- A text whose lines, but for the first, are indented. -/
def indent (blanks : Nat) (s : String) : String :=
  String.ofList (s.toList.flatMap fun c =>
    if c = '\n' then '\n' :: List.replicate blanks ' ' else [c])

/-- A number in a column of five. -/
def column (n : Nat) : String :=
  let ds := Nat.toDigits 10 n
  String.ofList (List.replicate (5 - ds.length) ' ' ++ ds)

/-- Causes with their numbers, from a number on. -/
def numbered : (number : Nat) → List String → String
  | _, [] => ""
  | n, cause :: rest => "\n" ++ column n ++ ": " ++ indent 7 cause ++ numbered (n + 1) rest

/-- **Trouble written out.** Causes are numbered when there are several. -/
def describe (t : Trouble) : String :=
  match t.causes with
  | [] => t.message
  | [cause] => t.message ++ "\n\nCaused by:\n    " ++ indent 4 cause
  | causes => t.message ++ "\n\nCaused by:" ++ numbered 0 causes

end Trouble

end Courier
