import Courier.Proofs.Document.Tables
import Courier.Proofs.Toml.Value
import Courier.Toml.Tree
/-!
# Tables that are filled entry by entry

The lines of a document put its entries into tables: first those that stand on their own
line, then the tables below headers, each filled in turn. Put into an empty table, the
entries of a document make up the table of the document (`fill_nil`): without what is
nothing, and in the order of its keys (`settled`).

What is done below several keys is done in the table they lead to, one thing after
another (`descend_append`, `descend_bind`).
-/

namespace Courier.Toml

open Courier.Document

/-! ## Following keys -/

section

variable {dotted : Bool}

/-- Following keys, and then others from there on, is following all of them. -/
theorem descend_append (f : Entries → Option Entries) (p q : List String) :
    ∀ entries, descend dotted (p ++ q) f entries = descend dotted p (descend dotted q f) entries := by
  induction p with
  | nil => exact fun _ => rfl
  | cons key p ih =>
    intro entries
    have hf : descend dotted (p ++ q) f = descend dotted p (descend dotted q f) := funext ih
    rw [List.cons_append, descend, descend, hf]

/-- **Two things done at one place** are done one after the other. -/
theorem descend_bind (f g : Entries → Option Entries) (path : List String) : ∀ entries,
    descend dotted path (fun e => (f e).bind g) entries
      = (descend dotted path f entries).bind (descend dotted path g) := by
  induction path with
  | nil => exact fun _ => rfl
  | cons key path ih =>
    intro entries
    -- what was put under the key is found there, and takes its own place
    have hagain : ∀ (start : Entries) (make : Entries → Node),
        (∀ sub (entries' : Entries), entries'.lookup key = some (make sub) →
          descend dotted (key :: path) g entries'
            = (descend dotted path g sub).map fun sub => insertSorted key (make sub) entries') →
        (descend dotted path (fun e => (f e).bind g) start).map
            (fun sub => insertSorted key (make sub) entries)
          = ((descend dotted path f start).map fun sub =>
              insertSorted key (make sub) entries).bind (descend dotted (key :: path) g) := by
      intro start make hmake
      rw [ih]
      cases descend dotted path f start with
      | none => rfl
      | some sub =>
        rw [Option.map_some, Option.bind_some, Option.bind_some,
          hmake sub _ (by rw [lookup_insertSorted, if_pos rfl])]
        exact congrArg (Option.map · _) (funext fun _ => (insertSorted_insertSorted _ _).symm)
    rw [descend, descend]
    cases hlookup : entries.lookup key with
    | none =>
      refine hagain [] (.table true dotted) fun sub entries' hfound => ?_
      rw [descend, hfound]
      simp only [Bool.not_true, Bool.and_false, Bool.false_eq_true, if_false]
    | some node =>
      cases node with
      | leaf d => rfl
      | tables last before =>
        refine hagain last (fun last => .tables last before) fun sub entries' hfound => ?_
        rw [descend, hfound]
      | table implicit byKey sub =>
        dsimp only
        split
        · rfl
        · next hopen =>
          refine hagain sub (.table implicit byKey) fun sub entries' hfound => ?_
          rw [descend, hfound]
          exact if_neg hopen

end

/-! ## A document as a table -/

mutual

/-- **A document without what is nothing**, and with its tables in the order of their keys. -/
def settled : Value → Value
  | .list items => .list (settledItems items)
  | .table entries => .table (sortEntries (settledEntries entries))
  | v => v

/-- The items of a list, each settled. -/
def settledItems : List Value → List Value
  | [] => []
  | v :: rest => settled v :: settledItems rest

/-- The entries of a table that are something, each settled. -/
def settledEntries : List (String × Value) → List (String × Value)
  | [] => []
  | (k, v) :: rest => if isNothing v then settledEntries rest else (k, settled v) :: settledEntries rest

end

/-- A list of tables, which are given from the last to the first. -/
def tablesNode : List Entries → Node
  | last :: before => .tables last before
  | [] => .leaf (.list [] true)

mutual

/-- **The thing that a value is under its key.** -/
def node : Value → Node
  | .table entries => .table false false (nodes entries)
  | .list items =>
    if isBelowHeader (.list items) then tablesNode (tables items).reverse
    else .leaf ((Value.list items).draft numberDraft)
  | v => .leaf (v.draft numberDraft)

/-- The things that entries are under their keys. -/
def nodes : List (String × Value) → Entries
  | [] => []
  | (k, v) :: rest => (k, node v) :: nodes rest

/-- The tables of a list of tables. -/
def tables : List Value → List Entries
  | [] => []
  | .table entries :: rest => nodes entries :: tables rest
  | _ :: rest => tables rest

end

/-- Tables are drafts one by one. -/
theorem tablesToDraft_eq (ts : List Entries) :
    tablesToDraft ts = ts.map fun entries => .table (entriesToDraft entries) true := by
  induction ts with
  | nil => rfl
  | cons t ts ih => rw [tablesToDraft, ih]; rfl

mutual

/-- **A thing is a value as a draft.** -/
theorem toDraft_node : ∀ v : Value, (node v).toDraft = v.draft numberDraft
  | .null => rfl
  | .flag _ => rfl
  | .number _ => rfl
  | .text _ => rfl
  | .table entries => by
    show Draft.table (entriesToDraft (nodes entries)) true = _
    rw [entriesToDraft_nodes]
    rfl
  | .list items => by
    rw [node]
    split
    · next hbelow =>
      unfold isBelowHeader at hbelow
      rw [Bool.and_eq_true] at hbelow
      have hdraft := tablesToDraft_tables items hbelow.2
      cases hrev : (tables items).reverse with
      | nil =>
        rw [List.reverse_eq_nil_iff] at hrev
        rw [hrev] at hdraft
        show Draft.list [] true = Draft.list (draftItems numberDraft items) true
        rw [← hdraft]
        rfl
      | cons last before =>
        have heq : tables items = (last :: before).reverse := by rw [← hrev, List.reverse_reverse]
        show Draft.list (tablesToDraft (last :: before)).reverse true
          = Draft.list (draftItems numberDraft items) true
        rw [← hdraft, heq, tablesToDraft_eq, tablesToDraft_eq, List.map_reverse]
    · rfl

/-- Things under keys are entries as drafts. -/
theorem entriesToDraft_nodes : ∀ entries : List (String × Value),
    entriesToDraft (nodes entries) = draftEntries numberDraft entries
  | [] => rfl
  | (k, v) :: rest => by
    rw [nodes, entriesToDraft, toDraft_node v, entriesToDraft_nodes rest]
    rfl

/-- The tables of a list are its items as drafts. -/
theorem tablesToDraft_tables : ∀ items : List Value, items.all isTable = true →
    tablesToDraft (tables items) = draftItems numberDraft items
  | [], _ => rfl
  | .table entries :: rest, h => by
    rw [List.all_cons, Bool.and_eq_true] at h
    rw [tables, tablesToDraft, entriesToDraft_nodes entries, tablesToDraft_tables rest h.2]
    rfl
  | .null :: _, h => nomatch h
  | .flag _ :: _, h => nomatch h
  | .number _ :: _, h => nomatch h
  | .text _ :: _, h => nomatch h
  | .list _ :: _, h => nomatch h

end

/-! ## Filling a table -/

/-- A value that stands on its own line. -/
def isPlain (v : Value) : Bool :=
  !(isBelowHeader v || isNothing v)

/-- Entries put into a table one after another. -/
def fillAll (put : String → Value → Entries → Option Entries) :
    List (String × Value) → Entries → Option Entries
  | [], table => some table
  | (k, v) :: rest, table => (put k v table).bind (fillAll put rest)

/-- A value that stands on its own line, put into a table. -/
def putPlain (k : String) (v : Value) (table : Entries) : Option Entries :=
  if isPlain v then putValue k (v.draft numberDraft) table else some table

mutual

/-- **The tables below headers**, put into a table. -/
def fillBelow : List (String × Value) → Entries → Option Entries
  | [], table => some table
  | (k, .table entries) :: rest, table => ((nameTable k table).bind
      (descend false [k] fun sub => (fillAll putPlain entries sub).bind (fillBelow entries))).bind
        (fillBelow rest)
  | (k, .list items) :: rest, table =>
    (if isBelowHeader (.list items) then fillEach k items table else some table).bind (fillBelow rest)
  | _ :: rest, table => fillBelow rest table

/-- The tables of a list of tables, put into a table. -/
def fillEach (k : String) : List Value → Entries → Option Entries
  | [], table => some table
  | .table entries :: rest, table => ((addTable k table).bind
      (descend false [k] fun sub => (fillAll putPlain entries sub).bind (fillBelow entries))).bind
        (fillEach k rest)
  | _ :: rest, table => fillEach k rest table

end

/-- **The entries of a document, put into a table.** -/
def fill (entries : List (String × Value)) (table : Entries) : Option Entries :=
  (fillAll putPlain entries table).bind (fillBelow entries)

mutual

/-- **A document that is written as lines**: the keys of each table are different, and there is
no table within a list but in a list of tables. -/
def Tabular : Value → Prop
  | .table entries => (entries.map (·.1)).Nodup ∧ TabularEntries entries
  | .list items => InlineItems items ∨ (items ≠ [] ∧ TabularItems items)
  | _ => True

/-- A list of tables. -/
def TabularItems : List Value → Prop
  | [] => True
  | v :: rest => isTable v = true ∧ Tabular v ∧ TabularItems rest

/-- The entries of a table. -/
def TabularEntries : List (String × Value) → Prop
  | [] => True
  | (_, v) :: rest => Tabular v ∧ TabularEntries rest

end

/-- The values of a table are written as lines when the table is. -/
theorem TabularEntries.of_mem : ∀ {entries : List (String × Value)}, TabularEntries entries →
    ∀ e ∈ entries, Tabular e.2
  | _ :: _, h, e, he => by
    obtain rfl | he := List.mem_cons.mp he
    · exact h.1
    · exact of_mem h.2 e he

theorem TabularItems.all : ∀ {items : List Value}, TabularItems items → items.all isTable = true
  | [], _ => rfl
  | _ :: _, h => by rw [List.all_cons, h.1, h.2.2.all]; rfl

/-- **What stands on its own line has no table in it.** -/
theorem Tabular.inline {v : Value} (h : Tabular v) (hv : isPlain v = true) : Inline v := by
  cases v with
  | null => cases hv
  | table entries => cases hv
  | list items =>
    obtain hinline | ⟨hne, hitems⟩ := h
    · exact hinline
    · have hbelow : isBelowHeader (.list items) = true := by
        rw [isBelowHeader, hitems.all, Bool.and_true, Bool.not_eq_true', List.isEmpty_eq_false_iff]
        exact hne
      rw [isPlain, hbelow] at hv
      cases hv
  | _ => trivial

mutual

/-- A value without a table in it is settled. -/
theorem settled_of_inline : ∀ {v : Value}, Inline v → settled v = v
  | .null, _ => rfl
  | .flag _, _ => rfl
  | .number _, _ => rfl
  | .text _, _ => rfl
  | .table _, h => h.elim
  | .list _, h => congrArg Value.list (settledItems_of_inline h)

theorem settledItems_of_inline : ∀ {items : List Value}, InlineItems items →
    settledItems items = items
  | [], _ => rfl
  | v :: rest, h => by rw [settledItems, settled_of_inline h.1, settledItems_of_inline h.2]

end

/-- The items of a settled list are tables when those of the list are. -/
theorem all_isTable_settledItems (items : List Value) :
    (settledItems items).all isTable = items.all isTable := by
  induction items with
  | nil => rfl
  | cons v rest ih =>
    rw [settledItems, List.all_cons, List.all_cons, ih]
    cases v <;> rfl

/-- A settled value is written below a header when the value is. -/
theorem isBelowHeader_settled (v : Value) : isBelowHeader (settled v) = isBelowHeader v := by
  cases v with
  | list items =>
    have hempty : (settledItems items).isEmpty = items.isEmpty := by cases items <;> rfl
    show (!(settledItems items).isEmpty && (settledItems items).all isTable) = _
    rw [hempty, all_isTable_settledItems]
    rfl
  | _ => rfl

/-- A value without a table in it is not written below a header, unless it is an empty list of
tables, which is not either. -/
theorem node_settled_of_plain {v : Value} (h : Tabular v) (hv : isPlain v = true) :
    node (settled v) = .leaf (v.draft numberDraft) := by
  rw [settled_of_inline (h.inline hv)]
  cases v with
  | table entries => exact nomatch hv
  | list items =>
    have hbelow : isBelowHeader (.list items) = false := by
      unfold isPlain at hv
      cases hb : isBelowHeader (.list items) with
      | true => rw [hb] at hv; exact nomatch hv
      | false => rfl
    rw [node, if_neg (Bool.eq_false_iff.mp hbelow)]
  | _ => rfl

/-- **A table after entries of a kind were put into it.** -/
structure Filled (p : Value → Bool) (entries : List (String × Value)) (before after : Entries) :
    Prop where
  /-- Its keys stay in order. -/
  sorted : (before.map (·.1)).Pairwise (· < ·) → (after.map (·.1)).Pairwise (· < ·)
  /-- The entries of the kind are in it, and what was in it. -/
  lookup : ∀ key, after.lookup key
    = (((entries.lookup key).filter p).map fun v => node (settled v)).or (before.lookup key)

/-- **Entries of a kind are put into a table** where their keys are free. -/
theorem fillAll_spec {p : Value → Bool} {put : String → Value → Entries → Option Entries} :
    ∀ {entries : List (String × Value)}, (entries.map (·.1)).Nodup →
    (∀ e ∈ entries, p e.2 = true → ∀ table : Entries, table.lookup e.1 = none →
      put e.1 e.2 table = some (insertSorted e.1 (node (settled e.2)) table)) →
    (∀ e ∈ entries, p e.2 = false → ∀ table, put e.1 e.2 table = some table) →
    ∀ before : Entries, (∀ e ∈ entries, p e.2 = true → before.lookup e.1 = none) →
    ∃ after, fillAll put entries before = some after ∧ Filled p entries before after := by
  intro entries
  induction entries with
  | nil => exact fun _ _ _ before _ => ⟨before, rfl, id, fun _ => rfl⟩
  | cons entry rest ih =>
    obtain ⟨k, v⟩ := entry
    intro hnodup hput hskip before hfree
    obtain ⟨hk, hnodup⟩ := List.nodup_cons.mp hnodup
    have hne : ∀ e ∈ rest, e.1 ≠ k := fun e he heq => hk (List.mem_map.mpr ⟨e, he, heq⟩)
    have hnone : rest.lookup k = none :=
      List.lookup_eq_none_iff.mpr fun e he => bne_iff_ne.mpr (Ne.symm (hne e he))
    have hih := ih hnodup (fun e he => hput e (List.mem_cons_of_mem _ he))
      (fun e he => hskip e (List.mem_cons_of_mem _ he))
    cases hp : p v with
    | true =>
      obtain ⟨after, hafter, hfilled⟩ := hih (insertSorted k (node (settled v)) before)
        fun e he hpe => by
          rw [lookup_insertSorted, if_neg (hne e he)]
          exact hfree e (List.mem_cons_of_mem _ he) hpe
      refine ⟨after, ?_, fun h => hfilled.sorted (pairwise_insertSorted _ h), fun key => ?_⟩
      · rw [fillAll, hput (k, v) List.mem_cons_self hp before (hfree (k, v) List.mem_cons_self hp)]
        exact hafter
      · rw [hfilled.lookup, lookup_insertSorted, lookup_cons_eq]
        by_cases hkey : key = k
        · rw [if_pos hkey, if_pos hkey, hkey, hnone, Option.filter_some, if_pos hp]
          rfl
        · rw [if_neg hkey, if_neg hkey]
    | false =>
      obtain ⟨after, hafter, hfilled⟩ := hih before fun e he hpe =>
        hfree e (List.mem_cons_of_mem _ he) hpe
      refine ⟨after, ?_, hfilled.sorted, fun key => ?_⟩
      · rw [fillAll, hskip (k, v) List.mem_cons_self hp before]
        exact hafter
      · rw [hfilled.lookup, lookup_cons_eq]
        by_cases hkey : key = k
        · rw [if_pos hkey, hkey, hnone, Option.filter_some, if_neg (Bool.eq_false_iff.mp hp)]
          rfl
        · rw [if_neg hkey]

/-- The nodes under keys are found as the values are. -/
theorem lookup_nodes (entries : List (String × Value)) (key : String) :
    (nodes entries).lookup key = (entries.lookup key).map node := by
  induction entries with
  | nil => rfl
  | cons entry rest ih =>
    obtain ⟨k, v⟩ := entry
    rw [nodes, lookup_cons_eq, lookup_cons_eq, ih]
    split <;> rfl

/-- The keys of nodes are those of the values. -/
theorem keys_nodes (entries : List (String × Value)) :
    (nodes entries).map (·.1) = entries.map (·.1) := by
  induction entries with
  | nil => rfl
  | cons entry rest ih => exact congrArg (entry.1 :: ·) ih

/-- What is something is found settled in a settled table. -/
theorem lookup_settledEntries {entries : List (String × Value)}
    (hnodup : (entries.map (·.1)).Nodup) (key : String) :
    (settledEntries entries).lookup key
      = ((entries.lookup key).filter fun v => !isNothing v).map settled := by
  induction entries with
  | nil => rfl
  | cons entry rest ih =>
    obtain ⟨k, v⟩ := entry
    obtain ⟨hk, hnodup⟩ := List.nodup_cons.mp hnodup
    have hnone : rest.lookup k = none := List.lookup_eq_none_iff.mpr fun e he =>
      bne_iff_ne.mpr fun heq => hk (List.mem_map.mpr ⟨e, he, heq.symm⟩)
    rw [settledEntries, lookup_cons_eq]
    cases hv : isNothing v with
    | true =>
      rw [if_pos rfl, ih hnodup]
      by_cases hkey : key = k
      · rw [if_pos hkey, hkey, hnone, Option.filter_some, hv]
        rfl
      · rw [if_neg hkey]
    | false =>
      rw [if_neg Bool.false_ne_true, lookup_cons_eq, ih hnodup]
      by_cases hkey : key = k
      · rw [if_pos hkey, if_pos hkey, Option.filter_some, hv]
        rfl
      · rw [if_neg hkey, if_neg hkey]

/-- The keys of a settled table are among those of the table. -/
theorem keys_settledEntries (entries : List (String × Value)) :
    ((settledEntries entries).map (·.1)).Sublist (entries.map (·.1)) := by
  induction entries with
  | nil => exact List.Sublist.refl _
  | cons entry rest ih =>
    obtain ⟨k, v⟩ := entry
    rw [settledEntries]
    split
    · exact ih.cons k
    · exact ih.cons_cons k

/-- A value below a header, put into a table. -/
def putBelow (k : String) (v : Value) (table : Entries) : Option Entries :=
  match v with
  | .table entries => (nameTable k table).bind (descend false [k] (fill entries))
  | .list items => if isBelowHeader (.list items) then fillEach k items table else some table
  | _ => some table

/-- The tables below headers are put into a table one after another. -/
theorem fillBelow_eq (entries : List (String × Value)) : ∀ table,
    fillBelow entries table = fillAll putBelow entries table := by
  induction entries with
  | nil => exact fun _ => by rw [fillBelow, fillAll]
  | cons entry rest ih =>
    obtain ⟨k, v⟩ := entry
    have hrest : fillBelow rest = fillAll putBelow rest := funext ih
    intro table
    cases v with
    | table entries =>
      simp only [fillBelow, fillAll, putBelow, hrest]
      rfl
    | _ => simp only [fillBelow, fillAll, putBelow, hrest, Option.bind_some]

/-- **An empty table is filled with the table of the entries**, when each of them can be put
below its header. -/
theorem fill_of_putBelow {entries : List (String × Value)} (hnodup : (entries.map (·.1)).Nodup)
    (h : TabularEntries entries)
    (hput : ∀ e ∈ entries, isBelowHeader e.2 = true → ∀ table : Entries,
      table.lookup e.1 = none →
      putBelow e.1 e.2 table = some (insertSorted e.1 (node (settled e.2)) table)) :
    fill entries [] = some (nodes (sortEntries (settledEntries entries))) := by
  obtain ⟨plain, hplain, hplain'⟩ := @fillAll_spec isPlain putPlain _ hnodup
    (fun e he hp table hfree => by
      rw [putPlain, if_pos hp, putValue, hfree, node_settled_of_plain (h.of_mem e he) hp])
    (fun e _ hp table => by rw [putPlain, if_neg (Bool.eq_false_iff.mp hp)])
    [] (fun _ _ _ => rfl)
  obtain ⟨after, hafter, hafter'⟩ := @fillAll_spec isBelowHeader putBelow _ hnodup hput
    (fun e _ hp table => by
      unfold putBelow
      split
      · next heq => rw [heq] at hp; exact nomatch hp
      · next heq => rw [← heq, if_neg (Bool.eq_false_iff.mp hp)]
      · rfl)
    plain (fun e he hp => by
      rw [hplain'.lookup, lookup_of_mem hnodup he, Option.filter_some, isPlain, hp]
      rfl)
  have hsorted := sortEntries_spec (hnodup.sublist (keys_settledEntries entries))
  have hkeys : ((nodes (sortEntries (settledEntries entries))).map (·.1)).Pairwise (· < ·) := by
    rw [keys_nodes]
    exact hsorted.1
  have hsame : after = nodes (sortEntries (settledEntries entries)) := by
    refine eq_of_lookup (hafter'.sorted (hplain'.sorted List.Pairwise.nil)) hkeys fun key => ?_
    rw [hafter'.lookup, hplain'.lookup, lookup_nodes, hsorted.2, lookup_settledEntries hnodup]
    cases entries.lookup key with
    | none => rfl
    | some v =>
      simp only [Option.filter_some, isPlain]
      by_cases hbelow : isBelowHeader v = true
      · have hnothing : isNothing v = false := by cases v <;> first | rfl | exact nomatch hbelow
        simp [hbelow, hnothing]
      · by_cases hnothing : isNothing v = true <;> simp [hbelow, hnothing]
  rw [fill, hplain, Option.bind_some, fillBelow_eq, hafter, hsame]

/-- **What is done in the table under a key** is done in the one that was put there. -/
theorem descend_insertSorted {f : Entries → Option Entries} {sub sub' : Entries} (k : String)
    (h : f sub = some sub') (table : Entries) :
    descend false [k] f (insertSorted k (.table false false sub) table)
      = some (insertSorted k (.table false false sub') table) := by
  rw [descend, lookup_insertSorted, if_pos rfl]
  show (f sub).map _ = _
  rw [h, Option.map_some, insertSorted_insertSorted]

/-- What is done in the list of tables under a key is done in the last of them. -/
theorem descend_insertSorted_tables {f : Entries → Option Entries} {sub sub' : Entries}
    (k : String) (h : f sub = some sub') (before : List Entries) (table : Entries) :
    descend false [k] f (insertSorted k (.tables sub before) table)
      = some (insertSorted k (.tables sub' before) table) := by
  rw [descend, lookup_insertSorted, if_pos rfl]
  show (f sub).map _ = _
  rw [h, Option.map_some, insertSorted_insertSorted]

/-- A list of tables is not written as a value. -/
theorem not_inlineItems_of_below {items : List Value} (h : isBelowHeader (.list items) = true) :
    ¬InlineItems items := by
  cases items with
  | nil => exact nomatch h
  | cons v rest =>
    rintro ⟨hv, -⟩
    cases v with
    | table entries => exact hv
    | _ => exact nomatch h

mutual

/-- **A value below a header is put into a table** where its key is free. -/
theorem putBelow_spec : ∀ {v : Value}, Tabular v → isBelowHeader v = true →
    ∀ (k : String) (table : Entries), table.lookup k = none →
    putBelow k v table = some (insertSorted k (node (settled v)) table)
  | .null, _, h, _, _, _ => nomatch h
  | .flag _, _, h, _, _, _ => nomatch h
  | .number _, _, h, _, _, _ => nomatch h
  | .text _, _, h, _, _, _ => nomatch h
  | .table entries, hv, _, k, table, hfree => by
    have hfill := fill_of_putBelow hv.1 hv.2 (putBelow_entries hv.2)
    rw [putBelow, nameTable, hfree]
    exact descend_insertSorted k hfill table
  | .list items, hv, h, k, table, hfree => by
    obtain hinline | ⟨hne, hitems⟩ := hv
    · exact absurd hinline (not_inlineItems_of_below h)
    · match items, hne, hitems with
      | .table entries :: rest, _, hitems =>
        obtain ⟨-, hentries, hrest⟩ := hitems
        have hfill := fill_of_putBelow hentries.1 hentries.2 (putBelow_entries hentries.2)
        have hadd : addTable k table = some (insertSorted k (.tables [] []) table) := by
          rw [addTable, hfree]
        have hnode : node (settled (.list (.table entries :: rest)))
            = tablesNode (tables (settledItems (.table entries :: rest))).reverse :=
          if_pos ((isBelowHeader_settled _).trans h)
        rw [putBelow, if_pos h, fillEach, hadd, Option.bind_some]
        show ((descend false [k] (fill entries) _).bind (fillEach k rest)) = _
        rw [descend_insertSorted_tables k hfill, Option.bind_some, fillEach_spec hrest, hnode]
        show _ = some (insertSorted k (tablesNode
          (nodes (sortEntries (settledEntries entries)) :: tables (settledItems rest)).reverse) table)
        rw [List.reverse_cons]

/-- The values of a table below headers are put into a table. -/
theorem putBelow_entries : ∀ {entries : List (String × Value)}, TabularEntries entries →
    ∀ e ∈ entries, isBelowHeader e.2 = true → ∀ table : Entries, table.lookup e.1 = none →
    putBelow e.1 e.2 table = some (insertSorted e.1 (node (settled e.2)) table)
  | [], _, e, he => absurd he List.not_mem_nil
  | (k, v) :: rest, h, e, he => by
    intro hbelow table hfree
    obtain rfl | he := List.mem_cons.mp he
    · exact putBelow_spec h.1 hbelow k table hfree
    · exact putBelow_entries h.2 e he hbelow table hfree

/-- Tables are put into a list of tables one after another. -/
theorem fillEach_spec : ∀ {items : List Value}, TabularItems items →
    ∀ (k : String) (last : Entries) (before : List Entries) (table : Entries),
    fillEach k items (insertSorted k (.tables last before) table)
      = some (insertSorted k (tablesNode ((tables (settledItems items)).reverse ++ last :: before))
          table)
  | [], _, k, last, before, table => by
    rw [fillEach]
    rfl
  | .table entries :: rest, h, k, last, before, table => by
    obtain ⟨-, hentries, hrest⟩ := h
    have hfill := fill_of_putBelow hentries.1 hentries.2 (putBelow_entries hentries.2)
    have hadd : addTable k (insertSorted k (.tables last before) table)
        = some (insertSorted k (.tables [] (last :: before)) table) := by
      rw [addTable, lookup_insertSorted, if_pos rfl]
      show some (insertSorted k _ (insertSorted k _ table)) = _
      rw [insertSorted_insertSorted]
    rw [fillEach, hadd, Option.bind_some]
    show ((descend false [k] (fill entries) _).bind (fillEach k rest)) = _
    rw [descend_insertSorted_tables k hfill, Option.bind_some, fillEach_spec hrest]
    show _ = some (insertSorted k (tablesNode
      ((nodes (sortEntries (settledEntries entries)) :: tables (settledItems rest)).reverse
        ++ last :: before)) table)
    rw [List.reverse_cons, List.append_assoc]
    rfl
  | .null :: _, h, _, _, _, _ => nomatch h.1
  | .flag _ :: _, h, _, _, _, _ => nomatch h.1
  | .number _ :: _, h, _, _, _, _ => nomatch h.1
  | .text _ :: _, h, _, _, _, _ => nomatch h.1
  | .list _ :: _, h, _, _, _, _ => nomatch h.1

end

/-- **An empty table is filled with the table of the entries.** -/
theorem fill_nil {entries : List (String × Value)} (h : Tabular (.table entries)) :
    fill entries [] = some (nodes (sortEntries (settledEntries entries))) :=
  fill_of_putBelow h.1 h.2 (putBelow_entries h.2)

end Courier.Toml
