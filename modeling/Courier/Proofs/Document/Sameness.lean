import Courier.Proofs.Document.Tables
/-!
# When two documents are the same

A table is a map from its keys: its order does not count, and of repeated keys the last
one does. Lists are lists, and everything else is what it is. That is what two documents
being the same means here (`Value.Same`). A document with its tables sorted is the same as
it was (`Value.same_sorted`).
-/

namespace Courier.Document

/-- **Documents that are the same** when tables are taken as maps. -/
inductive Value.Same : Value → Value → Prop
  /-- Nothing is nothing. -/
  | null : Same .null .null
  /-- A flag is itself. -/
  | flag (b : Bool) : Same (.flag b) (.flag b)
  /-- A number is itself. -/
  | number (n : Number) : Same (.number n) (.number n)
  /-- A text is itself. -/
  | text (s : String) : Same (.text s) (.text s)
  /-- Lists are as long as each other, and the same at every position. -/
  | list {items items' : List Value} (hlength : items.length = items'.length)
      (hitems : ∀ (k : Nat) (v v' : Value), items[k]? = some v → items'[k]? = some v' →
        Same v v') : Same (.list items) (.list items')
  /-- Tables have the same keys, and what they have last under a key is the same. -/
  | table {entries entries' : List (String × Value)}
      (hkeys : ∀ key, (lookupLast entries key).isSome = (lookupLast entries' key).isSome)
      (hfound : ∀ (key : String) (v v' : Value), lookupLast entries key = some v →
        lookupLast entries' key = some v' → Same v v') : Same (.table entries) (.table entries')

/-- The items of a sorted list. -/
theorem sortedItems_eq (items : List Value) : sortedItems items = items.map Value.sorted := by
  induction items with
  | nil => rfl
  | cons v rest ih => exact congrArg (v.sorted :: ·) ih

/-- The entries of a table with their documents sorted. -/
theorem sortedEntries_eq (entries : List (String × Value)) :
    sortedEntries entries = entries.map fun e => (e.1, e.2.sorted) := by
  induction entries with
  | nil => rfl
  | cons e rest ih => exact congrArg ((e.1, e.2.sorted) :: ·) ih

/-- What is found in a table with its documents sorted is sorted. -/
theorem lookupLast_sortedEntries (entries : List (String × Value)) (key : String) :
    lookupLast (sortedEntries entries) key = (lookupLast entries key).map Value.sorted := by
  induction entries with
  | nil => rfl
  | cons e rest ih =>
    obtain ⟨k, v⟩ := e
    rw [sortedEntries, lookupLast_cons, lookupLast_cons, ih, Option.map_or]
    congr 1
    split <;> rfl

/-- **What is found in a sorted table** is what was found in the table, sorted. -/
theorem lookupLast_sorted (entries : List (String × Value)) (key : String) :
    lookupLast (sortEntries (sortedEntries entries)) key
      = (lookupLast entries key).map Value.sorted := by
  rw [lookupLast_of_nodup (nodup_of_pairwise (pairwise_sortEntries _)), lookup_sortEntries,
    lookupLast_sortedEntries]

mutual

/-- **A document with its tables sorted is the same document.** -/
theorem Value.same_sorted : ∀ v : Value, v.Same v.sorted
  | .null => .null
  | .flag b => .flag b
  | .number n => .number n
  | .text s => .text s
  | .list items => by
    rw [Value.sorted, sortedItems_eq]
    refine .list (List.length_map _).symm fun k v v' hv hv' => ?_
    rw [List.getElem?_map, hv] at hv'
    obtain rfl : v.sorted = v' := Option.some.inj hv'
    exact same_sortedItems items v (List.mem_of_getElem? hv)
  | .table entries => by
    rw [Value.sorted]
    refine .table (fun key => ?_) fun key v v' hv hv' => ?_
    · rw [lookupLast_sorted, Option.isSome_map]
    · rw [lookupLast_sorted, hv] at hv'
      obtain rfl : v.sorted = v' := Option.some.inj hv'
      exact same_sortedEntries entries (key, v) (mem_of_lookupLast hv)

theorem same_sortedItems : ∀ items : List Value, ∀ v ∈ items, v.Same v.sorted
  | [], _, hv => absurd hv List.not_mem_nil
  | w :: rest, v, hv => (List.mem_cons.mp hv).elim (fun heq => heq ▸ Value.same_sorted w)
      (same_sortedItems rest v)

theorem same_sortedEntries :
    ∀ entries : List (String × Value), ∀ e ∈ entries, e.2.Same e.2.sorted
  | [], _, he => absurd he List.not_mem_nil
  | (_, w) :: rest, e, he => (List.mem_cons.mp he).elim (fun heq => heq ▸ Value.same_sorted w)
      (same_sortedEntries rest e)

end

end Courier.Document
