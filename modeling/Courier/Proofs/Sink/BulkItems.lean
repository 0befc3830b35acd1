import Courier.Proofs.Document.Soundness
import Courier.Proofs.Sink.BulkAlignment
/-!
# Where the statuses of a bulk answer stand

The answer of a search engine is a list of items, and an item is a table with one
entry, under the name of what was done with the document. What tells the items
apart is their positions, for an item need not name its event.

An entry is taken out of every item that has one, and an item that has none is
passed over: the statuses are those of the items that have one, in their order
(`parseBulkAnswer_eq`). So every status is at the position of its item exactly when
the empty items are the last ones (`at_own_positions_iff`). An empty item that is
followed by another one gives its event the status of the next
(`not_at_own_positions`).
-/

namespace Courier

open Courier.Document

namespace Sink

/-! ## The items of an answer -/

/-- The entries of an item, each under its name. -/
def entriesOf? : Datum → Option (List (String × BulkItem))
  | .dictionary entries => entries.mapM fun e => (BulkItem.ofDatum? e.2).map (e.1, ·)
  | _ => none

/-- **The items of an answer as they are**, each with all its entries. -/
def bulkEntries : Codec (List (List (String × BulkItem))) where
  schema := bulkItems.schema
  toDatum _ := .absent
  ofDatum?
    | .record [_, .sequence items] => items.mapM entriesOf?
    | _ => none

/-- The entry of an item that counts, if there is one. -/
def entryOf (entries : List (String × BulkItem)) : Option BulkItem :=
  entries.head?.map (·.2)

/-- The status that an item gives, if it has an entry. -/
def statusOf? (entries : List (String × BulkItem)) : Option ItemStatus :=
  (entryOf entries).map (·.answer)

/-- **What is read as an entry of an item is one.** -/
theorem BulkItem.exists_ofDatum? {d : Datum} (h : BulkItem.schema.Reads .json d) :
    ∃ item, BulkItem.ofDatum? d = some item := by
  obtain ⟨_, rfl, id, _, rfl, hid, status, _, rfl, hstatus, error, _, rfl, herror, rfl⟩ :=
    Schema.each_of_reads (by decide) h
  have hid : id = .absent ∨ ∃ s, id = .present (.text s) := by
    obtain hid | hid := hid
    · refine (Schema.optional_of_reads hid).imp_right ?_
      rintro ⟨_, rfl, _, _, htext⟩
      obtain ⟨s, -, rfl⟩ := map_eq_ok htext
      exact ⟨s, rfl⟩
    · exact .inl (Option.some.inj hid).symm
  obtain ⟨n, rfl⟩ : ∃ n, status = .natural n := by
    obtain ⟨_, _, hstatus⟩ | hstatus := hstatus
    · obtain ⟨n, -, rfl⟩ := map_eq_ok hstatus
      exact ⟨n, rfl⟩
    · cases hstatus
  have herror : error = .absent ∨ ∃ v, error = .present (.anything v) := by
    obtain herror | herror := herror
    · refine (Schema.optional_of_reads herror).imp_right ?_
      rintro ⟨_, rfl, _, _, hv⟩
      obtain ⟨v, -, rfl⟩ := map_eq_ok hv
      exact ⟨v, rfl⟩
    · exact .inl (Option.some.inj herror).symm
  obtain rfl | ⟨s, rfl⟩ := hid <;> obtain rfl | ⟨v, rfl⟩ := herror <;> exact ⟨_, rfl⟩

/-- Values that two readings both have, the second one of them those of the first in another
form, are read from a list by both. -/
theorem mapM_both {α β γ : Type} {f : α → Option β} {g : α → Option γ} {k : β → γ}
    {l : List α} (h : ∀ a ∈ l, ∃ b, f a = some b ∧ g a = some (k b)) :
    ∃ bs, l.mapM f = some bs ∧ l.mapM g = some (bs.map k) := by
  induction l with
  | nil => exact ⟨[], rfl, rfl⟩
  | cons a l ih =>
    obtain ⟨b, hf, hg⟩ := h a List.mem_cons_self
    obtain ⟨bs, hfs, hgs⟩ := ih fun a ha => h a (List.mem_cons_of_mem _ ha)
    refine ⟨b :: bs, ?_, ?_⟩
    · rw [List.mapM_cons, hf, hfs]
      rfl
    · rw [List.mapM_cons, hg, hgs]
      rfl

/-- **What is read as an item has entries**, and the first one is the one that counts. -/
theorem exists_entriesOf? {d : Datum} (h : (Schema.dictionary BulkItem.schema).Reads .json d) :
    ∃ entries, entriesOf? d = some entries ∧ actionOf? d = some (entryOf entries) := by
  obtain ⟨entries, rfl, -, hall⟩ := Schema.dictionary_of_reads h
  cases entries with
  | nil => exact ⟨[], rfl, rfl⟩
  | cons e entries =>
    obtain ⟨item, hitem⟩ := BulkItem.exists_ofDatum? (hall e List.mem_cons_self)
    obtain ⟨rest, hrest, -⟩ := mapM_both
      (f := fun e : String × Datum => (BulkItem.ofDatum? e.2).map (e.1, ·))
      (g := fun e : String × Datum => BulkItem.ofDatum? e.2) (k := Prod.snd) (l := entries)
      fun e he => by
        obtain ⟨item, hitem⟩ := BulkItem.exists_ofDatum? (hall e (List.mem_cons_of_mem _ he))
        exact ⟨(e.1, item), by rw [hitem]; rfl, hitem⟩
    obtain ⟨key, d⟩ := e
    have hitem : BulkItem.ofDatum? d = some item := hitem
    refine ⟨(key, item) :: rest, ?_, ?_⟩
    · show ((key, d) :: entries).mapM (fun e => (BulkItem.ofDatum? e.2).map (e.1, ·)) = _
      rw [List.mapM_cons, hitem, hrest]
      rfl
    · show (BulkItem.ofDatum? d).map some = _
      rw [hitem]
      rfl

/-- **The items that count are read where the items are**, and are the entries of theirs
that count. -/
theorem decode_bulkItems (text : String) :
    Json.decode bulkItems text = (Json.decode bulkEntries text).map (·.map entryOf) := by
  have hdraft : bulkItems.ofDraft .json (Json.read text).draft
      = (bulkEntries.ofDraft .json (Json.read text).draft).map (·.map entryOf) := by
    have hschema : bulkEntries.schema = bulkItems.schema := rfl
    cases hread : bulkItems.schema.read .json Dialect.json.room (Json.read text).draft with
    | error fault => simp only [Codec.ofDraft, hschema, hread, bind, Except.bind, Except.map]
    | ok d =>
      obtain ⟨_, rfl, errors, _, rfl, -, items, _, rfl, hitems, rfl⟩ :=
        Schema.each_of_reads (by decide) ⟨_, _, hread⟩
      obtain ⟨ds, rfl, hall⟩ : ∃ ds, items = .sequence ds ∧
          ∀ d ∈ ds, (Schema.dictionary BulkItem.schema).Reads .json d := by
        obtain hitems | hitems := hitems
        · exact Schema.sequence_of_reads hitems
        · exact ⟨[], (Option.some.inj hitems).symm, fun _ h => absurd h List.not_mem_nil⟩
      obtain ⟨table, htable, hactions⟩ := mapM_both fun d hd => exists_entriesOf? (hall d hd)
      have hsome : bulkItems.ofDatum? (.record [errors, .sequence ds])
          = some (table.map entryOf) := hactions
      have hentries : bulkEntries.ofDatum? (.record [errors, .sequence ds]) = some table := htable
      simp only [Codec.ofDraft, hschema, hread, bind, Except.bind, Except.map, hsome, hentries]
  show (bulkItems.ofDraft .json (Json.read text).draft >>= _) = Except.map _
    (bulkEntries.ofDraft .json (Json.read text).draft >>= _)
  rw [hdraft]
  cases bulkEntries.ofDraft .json (Json.read text).draft with
  | error fault => rfl
  | ok table =>
    show whenClosed (!(Json.read text).trailing) _
      = (whenClosed (!(Json.read text).trailing) _).map _
    cases (Json.read text).trailing <;> rfl

/-- **The statuses of an answer** are those that its items give, one after another. -/
theorem parseBulkAnswer_eq (text : String) :
    parseBulkAnswer text
      = (Json.decode bulkEntries text).map fun items => (items.map statusOf?).filterMap id := by
  have hstatuses : ∀ items : List (List (String × BulkItem)),
      ((items.map entryOf).filterMap id).map (·.answer) = (items.map statusOf?).filterMap id := by
    intro items
    rw [List.map_filterMap, List.filterMap_map, List.filterMap_map]
    rfl
  unfold parseBulkAnswer
  rw [decode_bulkItems]
  cases Json.decode bulkEntries text with
  | error fault => rfl
  | ok items => exact congrArg Except.ok (hstatuses items)

/-! ## Positions -/

section

variable {α : Type}

/-- **Things that stand further back than they are found** when those that are missing are
passed over: there is none. -/
theorem eq_none_of_shifted (n : Nat) (xs : List (Option α))
    (h : ∀ p x, xs[p]? = some (some x) → (xs.filterMap id)[p + (n + 1)]? = some x) :
    ∀ y ∈ xs, y = none := by
  induction xs generalizing n with
  | nil => exact fun _ hy => absurd hy List.not_mem_nil
  | cons y xs ih =>
    cases y with
    | none =>
      have hrest := ih (n + 1) fun p x hp => by
        have := h (p + 1) x (by simpa using hp)
        rw [Nat.add_right_comm p 1] at this
        simpa [Nat.add_assoc] using this
      intro z hz
      obtain rfl | hz := List.mem_cons.mp hz
      · rfl
      · exact hrest z hz
    | some y =>
      have hrest := ih n fun p x hp => by
        have := h (p + 1) x (by simpa using hp)
        simpa [Nat.add_right_comm p 1] using this
      have hnone : xs.filterMap id = [] := List.filterMap_eq_nil_iff.mpr hrest
      have hfirst : (y :: xs.filterMap id)[0 + (n + 1)]? = some y := h 0 y rfl
      rw [hnone] at hfirst
      simp at hfirst

/-- **Things are found at their own positions**, with those that are missing passed over,
exactly when these come last. -/
theorem getElem?_filterMap_id_iff (xs : List (Option α)) :
    (∀ (p : Nat) (x : α), xs[p]? = some (some x) → (xs.filterMap id)[p]? = some x) ↔
      ∀ (p q : Nat) (x : α), p < q → xs[p]? = some none → xs[q]? ≠ some (some x) := by
  induction xs with
  | nil => simp
  | cons y xs ih =>
    cases y with
    | none =>
      constructor
      · intro h p q x hlt hp hq
        obtain ⟨q, rfl⟩ : ∃ r, q = r + 1 := ⟨q - 1, by omega⟩
        have hrest := eq_none_of_shifted 0 xs fun p x hp => by
          simpa using h (p + 1) x (by simpa using hp)
        have hin := hrest (some x) (List.mem_of_getElem? (by simpa using hq))
        cases hin
      · intro h p x hp
        cases p with
        | zero => simp at hp
        | succ p => exact absurd hp (h 0 (p + 1) x (Nat.succ_pos p) rfl)
    | some y =>
      have hhead : (∀ (p : Nat) (x : α), (some y :: xs)[p]? = some (some x) →
          ((some y :: xs).filterMap id)[p]? = some x) ↔
            ∀ (p : Nat) (x : α), xs[p]? = some (some x) → (xs.filterMap id)[p]? = some x := by
        constructor
        · exact fun h p x hp => h (p + 1) x hp
        · intro h p x hp
          cases p with
          | zero => simpa using hp
          | succ p => exact h p x hp
      rw [hhead, ih]
      constructor
      · intro h p q x hlt hp
        obtain ⟨q, rfl⟩ : ∃ r, q = r + 1 := ⟨q - 1, by omega⟩
        cases p with
        | zero => simp at hp
        | succ p => exact h p q x (by omega) hp
      · exact fun h p q x hlt hp => h (p + 1) (q + 1) x (by omega) hp

end

/-- **Statuses at the positions of their items**: that of every item that has an entry. -/
def AtOwnPositions (items : List (List (String × BulkItem))) (statuses : List ItemStatus) : Prop :=
  ∀ (p : Nat) action item, items[p]? = some [(action, item)] →
    statuses[p]? = some ⟨item.id.map (⟨·⟩), item.status, item.error.map describeError⟩

/-- **Items of which the empty ones are the last.** -/
def EmptyLast (items : List (List (String × BulkItem))) : Prop :=
  ∀ (p q : Nat) entries, p < q → items[p]? = some [] → items[q]? = some entries → entries = []

/-- **The statuses of an answer stand at the positions of their items, exactly when the empty
items are the last ones.** Take any answer that is accepted. It has items, and when none has
more than one entry, then the status of every item that has one stands at the position of
the item, with the identity that it names, if any, its code and its error, unless there
is an empty item before one that has an entry. -/
theorem at_own_positions_iff {text : String} {statuses : List ItemStatus}
    (h : parseBulkAnswer text = .ok statuses) :
    ∃ items, Json.decode bulkEntries text = .ok items ∧
      ((∀ entries ∈ items, entries.length ≤ 1) →
        (AtOwnPositions items statuses ↔ EmptyLast items)) := by
  rw [parseBulkAnswer_eq] at h
  obtain ⟨items, hitems, rfl⟩ := map_eq_ok h
  refine ⟨items, hitems, fun hone => ?_⟩
  have hsingle : ∀ {p : Nat} {x : ItemStatus}, (items.map statusOf?)[p]? = some (some x) →
      ∃ action item, items[p]? = some [(action, item)] ∧ x = item.answer := by
    intro p x hp
    rw [List.getElem?_map, Option.map_eq_some_iff] at hp
    obtain ⟨entries, hentries, hstatus⟩ := hp
    have hlen := hone entries (List.mem_of_getElem? hentries)
    obtain _ | ⟨⟨action, item⟩, _ | _⟩ := entries
    · cases hstatus
    · exact ⟨action, item, hentries, (Option.some.inj hstatus).symm⟩
    · exact absurd hlen (by simp)
  have hempty : ∀ {p : Nat}, (items.map statusOf?)[p]? = some none ↔ items[p]? = some [] := by
    intro p
    rw [List.getElem?_map, Option.map_eq_some_iff]
    constructor
    · rintro ⟨_ | ⟨e, entries⟩, hentries, hstatus⟩
      · exact hentries
      · cases hstatus
    · exact fun hentries => ⟨[], hentries, rfl⟩
  have hown : AtOwnPositions items ((items.map statusOf?).filterMap id)
      ↔ ∀ (p : Nat) (x : ItemStatus), (items.map statusOf?)[p]? = some (some x) →
          ((items.map statusOf?).filterMap id)[p]? = some x := by
    constructor
    · intro hown p x hp
      obtain ⟨action, item, hitem, rfl⟩ := hsingle hp
      exact hown p action item hitem
    · intro hfound p action item hitem
      refine hfound p item.answer ?_
      rw [List.getElem?_map, hitem]
      rfl
  rw [hown, getElem?_filterMap_id_iff]
  constructor
  · intro hlast p q entries hlt hp hq
    obtain _ | ⟨⟨action, item⟩, more⟩ := entries
    · rfl
    · refine absurd ?_ (hlast p q item.answer hlt (hempty.mpr hp))
      rw [List.getElem?_map, hq]
      rfl
  · intro hlast p q x hlt hp hq
    obtain ⟨action, item, hitem, -⟩ := hsingle hq
    cases hlast p q _ hlt (hempty.mp hp) hitem

/-- An answer of three items: the last one is empty. -/
def lastEmpty : String :=
  "\x7b\"items\":[\x7b\"index\":\x7b\"_id\":\"a\",\"status\":201\x7d\x7d," ++
    "\x7b\"index\":\x7b\"status\":429\x7d\x7d,\x7b\x7d]\x7d"

set_option maxRecDepth 20000 in
/-- Two statuses stand where their items do. -/
theorem at_own_positions_lastEmpty :
    parseBulkAnswer lastEmpty = .ok [⟨some ⟨"a"⟩, 201, none⟩, ⟨none, 429, none⟩] ∧
      AtOwnPositions [[("index", ⟨some "a", 201, none⟩)], [("index", ⟨none, 429, none⟩)], []]
        [⟨some ⟨"a"⟩, 201, none⟩, ⟨none, 429, none⟩] := by
  have h : parseBulkAnswer lastEmpty = .ok [⟨some ⟨"a"⟩, 201, none⟩, ⟨none, 429, none⟩] := rfl
  obtain ⟨items, hitems, hiff⟩ := at_own_positions_iff h
  obtain rfl : [[("index", ⟨some "a", 201, none⟩)], [("index", ⟨none, 429, none⟩)], []] = items :=
    Except.ok.inj ((rfl : _ = Json.decode bulkEntries lastEmpty).trans hitems)
  refine ⟨h, (hiff (by decide)).mpr fun p q entries hlt hp hq => ?_⟩
  obtain _ | _ | p := p
  · cases hp
  · cases hp
  · have hlen : q < 3 := (List.getElem?_eq_some_iff.mp hq).1
    omega

/-- An answer of two items: the first one is empty. -/
def firstEmpty : String :=
  "\x7b\"items\":[\x7b\x7d,\x7b\"index\":\x7b\"status\":201\x7d\x7d]\x7d"

set_option maxRecDepth 20000 in
/-- **The statuses of an answer do not always stand at the positions of their items.** An
empty item comes first, and the status of the second one stands in its place. So the
first event of a batch of two is delivered by what was answered to the second one, which
is left without an answer. -/
theorem not_at_own_positions :
    (¬ ∀ (text : String) (statuses : List ItemStatus) (items : List (List (String × BulkItem))),
      parseBulkAnswer text = .ok statuses → Json.decode bulkEntries text = .ok items →
      (∀ entries ∈ items, entries.length ≤ 1) → AtOwnPositions items statuses) ∧
    ∃ l, SearchBulk.round ⟨"es", "logs", default, 1000⟩
        (fun _ => .response 200 (Text.Utf8.encode firstEmpty.toList))
        (Delivery.Ledger.fresh "es" [⟨⟨"a"⟩, [0x7b, 0x7d], none⟩, ⟨⟨"b"⟩, [0x7b, 0x7d], none⟩])
          = .ok l ∧
      l.entries = [⟨⟨⟨"a"⟩, [0x7b, 0x7d], none⟩, .settled ⟨⟨"a"⟩, true, 201, false, 1, none⟩⟩,
        ⟨⟨⟨"b"⟩, [0x7b, 0x7d], none⟩, .unheard 1 ⟨"b"⟩ "no status in response"⟩] := by
  constructor
  · intro h
    have hown := h firstEmpty [⟨none, 201, none⟩] [[], [("index", ⟨none, 201, none⟩)]] rfl rfl
      (by decide)
    have hstatus := hown 1 "index" ⟨none, 201, none⟩ rfl
    cases hstatus
  · exact ⟨_, rfl, rfl⟩

end Sink

end Courier
