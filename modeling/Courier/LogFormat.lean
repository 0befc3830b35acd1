/-!
# Formats of log lines

The ways in which a run can write its log. A format is named without regard to
the case of ASCII letters.
-/

namespace Courier

/-- **A format of log lines.** -/
inductive LogFormat
  /-- A JSON document a line. -/
  | json
  /-- Several lines for each entry, for people. -/
  | pretty
  /-- One short line for each entry. -/
  | compact
deriving DecidableEq, Repr, Inhabited

namespace LogFormat

/-- All formats. -/
def all : List LogFormat := [json, pretty, compact]

/-- The name of a format. -/
def name : LogFormat → String
  | json => "json"
  | pretty => "pretty"
  | compact => "compact"

/-- The name of a format in a listing. -/
def title : LogFormat → String
  | json => "Json"
  | pretty => "Pretty"
  | compact => "Compact"

/-- A text with its ASCII letters in lower case. -/
def lowered (s : String) : String :=
  String.ofList (s.toList.map Char.toLower)

/-- **The format of a name**, or why it has none. -/
def ofText (s : String) : Except String LogFormat :=
  match all.find? (·.name = lowered s) with
  | some format => .ok format
  | none => .error ("unknown log format '" ++ lowered s ++ "'")

end LogFormat

end Courier
