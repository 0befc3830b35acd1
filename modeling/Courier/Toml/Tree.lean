import Courier.Document.Draft
/-!
# The tables of a TOML document

A document is built up entry by entry, and each table in it knows how it came
about: named by a header, or only on the way to something else, by a header or
by a dotted key. On this depends what may still be added to it. A table that
was named may not be named again, and dotted keys may not reach into it; a
value may not be reached into at all. Lists of tables grow by a header of
their own, and every way leads into the last of them.
-/

namespace Courier.Toml

open Courier.Document

/-- **A thing under a key.** -/
inductive Node
  /-- A value. -/
  | leaf (d : Draft)
  /-- A table: whether it only came about on the way to something else, and
  whether that was by a dotted key. -/
  | table (implicit dotted : Bool) (entries : List (String × Node))
  /-- A list of tables: the last one, and those before it, from last to first. -/
  | tables (last : List (String × Node)) (before : List (List (String × Node)))
deriving Inhabited

/-- The entries of a table, in the order of their keys. -/
abbrev Entries := List (String × Node)

/-- **Following keys into a table** and changing what is there. Tables that are
missing on the way come about. -/
def descend (dotted : Bool) (path : List String) (f : Entries → Option Entries)
    (entries : Entries) : Option Entries :=
  match path with
  | [] => f entries
  | key :: path =>
    match entries.lookup key with
    | none => (descend dotted path f []).map fun sub =>
        insertSorted key (.table true dotted sub) entries
    | some (.leaf _) => none
    | some (.tables last before) => (descend dotted path f last).map fun last =>
        insertSorted key (.tables last before) entries
    | some (.table implicit byKey sub) =>
      if dotted && !implicit then none
      else (descend dotted path f sub).map fun sub =>
        insertSorted key (.table implicit byKey sub) entries

/-- A value put under a key that is not there yet. -/
def putValue (key : String) (d : Draft) (entries : Entries) : Option Entries :=
  match entries.lookup key with
  | none => some (insertSorted key (.leaf d) entries)
  | some _ => none

/-- A table named by a header. -/
def nameTable (key : String) (entries : Entries) : Option Entries :=
  match entries.lookup key with
  | none => some (insertSorted key (.table false false []) entries)
  | some (.table true false sub) => some (insertSorted key (.table false false sub) entries)
  | some _ => none

/-- A table added to a list of tables by a header. -/
def addTable (key : String) (entries : Entries) : Option Entries :=
  match entries.lookup key with
  | none => some (insertSorted key (.tables [] []) entries)
  | some (.tables last before) => some (insertSorted key (.tables [] (last :: before)) entries)
  | some _ => none

mutual

/-- **A thing as a draft.** -/
def Node.toDraft : Node → Draft
  | .leaf d => d
  | .table _ _ entries => .table (entriesToDraft entries) true
  | .tables last before => .list (.table (entriesToDraft last) true :: tablesToDraft before).reverse true

/-- Entries as drafts. -/
def entriesToDraft : List (String × Node) → List (Draft × Draft)
  | [] => []
  | (key, node) :: rest => (.text (.ofString key), node.toDraft) :: entriesToDraft rest

/-- Tables as drafts. -/
def tablesToDraft : List (List (String × Node)) → List Draft
  | [] => []
  | entries :: rest => .table (entriesToDraft entries) true :: tablesToDraft rest

end

end Courier.Toml
