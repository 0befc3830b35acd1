import Courier.Proofs.Decimal.Nearest
import Courier.Proofs.Document.Soundness
import Courier.Proofs.Toml.Lines
/-!
# A value comes back from its lines

Lines leave out what is nothing, and a reader puts tables in the order of their keys. A
document of a datum that went through both is still a document of the datum
(`writes_settled`), when the shape is `Lined`: what may be nothing may be left out, and
lists hold no nothing. So a value is read from its lines when its codec makes it of its
datum again (`Carried.comesBack`). Every double comes back with it
(`readReal_numberDraft`).
-/

namespace Courier.Toml

open Courier.Document

/-! ## Shapes that are written as lines -/

/-- **A shape of values without a table in them.** -/
def Flat : Schema → Prop
  | .text => True
  | .path => True
  | .bytes => True
  | .flag => True
  | .natural _ => True
  | .real => True
  | .choice _ => True
  | .sequence s => Flat s
  | _ => False

/-- Whether the documents of a shape are tables. -/
def isTabled : Schema → Bool
  | .dictionary _ => true
  | .record _ _ => true
  | _ => false

mutual

/-- **A shape whose documents are written as lines**, and mean the same when what is nothing is
left out. -/
def Lined : Schema → Prop
  | .anything => False
  | .optional s => Lined s
  | .sequence s => Flat s ∨ (isTabled s = true ∧ Lined s)
  | .dictionary s => s.isOptional = false ∧ Lined s
  | .record _ fields => LinedFields fields
  | _ => True

/-- Fields whose documents are written as lines. -/
def LinedFields : Fields → Prop
  | .nil => True
  | .cons _ schema absence _ rest => Lined schema ∧
      (schema.isOptional = true → absence.inTable? = some .absent) ∧ LinedFields rest

end

section

variable {name : String} {schema : Schema} {absence : Absence} {omitted : Bool}
  {fields rest : Fields}

theorem Lined.record (h : LinedFields fields) : Lined (.record name fields) := h

/-- Lists of tables are written as lines. -/
theorem Lined.tables (htabled : isTabled schema = true) (h : Lined schema) :
    Lined (.sequence schema) :=
  .inr ⟨htabled, h⟩

/-- Lists without a table in them are written as lines. -/
theorem Lined.flat (h : Flat schema) : Lined (.sequence schema) :=
  .inl h

/-- Tables of something are written as lines. -/
theorem Lined.dictionary (hopt : schema.isOptional = false) (h : Lined schema) :
    Lined (.dictionary schema) :=
  ⟨hopt, h⟩

theorem LinedFields.nil : LinedFields .nil := trivial

/-- **A field that is always something** can be anything or nothing when it is left out. -/
theorem LinedFields.cons (hopt : schema.isOptional = false) (hschema : Lined schema)
    (hrest : LinedFields rest) : LinedFields (.cons name schema absence omitted rest) :=
  ⟨hschema, fun h => absurd (hopt.symm.trans h) Bool.false_ne_true, hrest⟩

/-- A field that may be nothing is nothing when it is left out. -/
theorem LinedFields.optional (hschema : Lined schema) (hrest : LinedFields rest) :
    LinedFields (.optional name schema rest) :=
  ⟨hschema, fun _ => rfl, hrest⟩

end

section

variable {real : Float → Prop}

/-- Nothing is not a document of a shape that does not allow it. -/
theorem not_writes_null {s : Schema} {d : Datum} (hs : s.isOptional = false)
    (h : s.Fits real d) : ¬s.Writes d .null := by
  cases s with
  | optional s => exact nomatch hs
  | anything => exact h.elim
  | sequence s => exact fun ⟨_, _, _, heq, _⟩ => nomatch heq
  | dictionary s => exact fun ⟨_, _, _, heq, _⟩ => nomatch heq
  | record name fields => exact fun ⟨_, _, _, heq, _⟩ => nomatch heq
  | _ => exact fun ⟨_, _, heq⟩ => nomatch heq

/-- What is written as nothing is nothing, and may be. -/
theorem absent_of_writes_null {s : Schema} {d : Datum} (h : s.Fits real d)
    (hw : s.Writes d .null) : s.isOptional = true ∧ d = .absent := by
  cases hs : s.isOptional with
  | false => exact absurd hw (not_writes_null hs h)
  | true =>
    cases s with
    | optional s =>
      obtain ⟨rfl, -⟩ | ⟨d, rfl, hw⟩ := hw
      · exact ⟨rfl, rfl⟩
      · obtain h | ⟨_, ⟨⟩, hs, h⟩ := h
        · cases h
        · exact absurd hw (not_writes_null hs h)
    | _ => exact nomatch hs

/-! ## Documents without nothing -/

/-- The items of a settled list are each settled. -/
theorem settledItems_eq (items : List Value) : settledItems items = items.map settled := by
  induction items with
  | nil => rfl
  | cons v rest ih => exact congrArg (settled v :: ·) ih

/-- Items without a table in them are each without one. -/
theorem inlineItems_iff {items : List Value} : InlineItems items ↔ ∀ v ∈ items, Inline v := by
  induction items with
  | nil => exact ⟨fun _ => nofun, fun _ => trivial⟩
  | cons v rest ih => rw [InlineItems, ih, List.forall_mem_cons]

/-- The entries of a table are settled one by one when all of them are something. -/
theorem settledEntries_eq {entries : List (String × Value)} (h : ∀ e ∈ entries, e.2 ≠ .null) :
    settledEntries entries = entries.map fun e => (e.1, settled e.2) := by
  induction entries with
  | nil => rfl
  | cons entry rest ih =>
    obtain ⟨k, v⟩ := entry
    obtain ⟨hv, hrest⟩ := List.forall_mem_cons.mp h
    have hsome : isNothing v = false := by
      cases v with
      | null => exact absurd rfl hv
      | _ => rfl
    rw [settledEntries, hsome, if_neg Bool.false_ne_true, ih hrest]
    rfl

theorem sortEntries_of_pairwise {α : Type} {entries : List (String × α)}
    (h : (entries.map (·.1)).Pairwise (· < ·)) : sortEntries entries = entries :=
  have hsorted := sortEntries_spec (nodup_of_pairwise h)
  eq_of_lookup hsorted.1 h hsorted.2

/-- **A document of values without a table in them** has none. -/
theorem inline_of_writes : ∀ (s : Schema) {d : Datum} {v : Value}, Flat s → s.Fits real d →
    s.Writes d v → Inline v
  | .text, _, _, _, _, hw => by obtain ⟨_, -, rfl⟩ := hw; trivial
  | .path, _, _, _, _, hw => by obtain ⟨_, -, rfl⟩ := hw; trivial
  | .bytes, _, _, _, _, hw => by
    obtain ⟨bs, -, rfl⟩ := hw
    refine inlineItems_iff.mpr fun v hv => ?_
    obtain ⟨b, -, rfl⟩ := List.mem_map.mp hv
    trivial
  | .flag, _, _, _, _, hw => by obtain ⟨_, -, rfl⟩ := hw; trivial
  | .natural _, _, _, _, _, hw => by obtain ⟨_, -, rfl⟩ := hw; trivial
  | .real, _, _, _, _, hw => by obtain ⟨_, -, rfl⟩ := hw; trivial
  | .choice _, _, _, _, _, hw => by obtain ⟨_, -, rfl⟩ := hw; trivial
  | .sequence s, _, _, hs, h, hw => by
    obtain ⟨ds, vs, rfl, rfl, hw⟩ := hw
    obtain ⟨_, ⟨⟩, h⟩ := h
    have hitems := ((List.forall₂_and_left ds vs).mpr ⟨h, hw⟩).imp fun d v hd =>
      And.intro (inline_of_writes s hs hd.1 hd.2) trivial
    exact inlineItems_iff.mpr ((List.forall₂_and_left vs ds).mp hitems.flip).1

/-- A document of a shape of tables is a table. -/
theorem isTable_of_writes {s : Schema} {d : Datum} {v : Value} (hs : isTabled s = true)
    (hw : s.Writes d v) : isTable v = true := by
  cases s with
  | dictionary s => obtain ⟨_, _, -, rfl, -⟩ := hw; rfl
  | record name fields => obtain ⟨_, _, -, rfl, -⟩ := hw; rfl
  | _ => exact nomatch hs

/-- Entries that are the lines of tables, one by one. -/
theorem tabularEntries_iff {entries : List (String × Value)} :
    TabularEntries entries ↔ ∀ e ∈ entries, Tabular e.2 := by
  induction entries with
  | nil => exact ⟨fun _ => nofun, fun _ => trivial⟩
  | cons entry rest ih => rw [TabularEntries, ih, List.forall_mem_cons]

/-- Tables, one by one. -/
theorem tabularItems_iff {items : List Value} :
    TabularItems items ↔ ∀ v ∈ items, isTable v = true ∧ Tabular v := by
  induction items with
  | nil => exact ⟨fun _ => nofun, fun _ => trivial⟩
  | cons v rest ih => rw [TabularItems, ih, List.forall_mem_cons, and_assoc]

/-- What is without a table in it is written as lines. -/
theorem Inline.tabular {v : Value} (h : Inline v) : Tabular v := by
  cases v with
  | table entries => exact h.elim
  | list items => exact .inl h
  | _ => trivial

/-- A list of tables that are written as lines is. -/
theorem tabular_list {items : List Value} (h : ∀ v ∈ items, isTable v = true ∧ Tabular v) :
    Tabular (.list items) := by
  by_cases hitems : items = []
  · exact .inl (hitems ▸ trivial)
  · exact .inr ⟨hitems, tabularItems_iff.mpr h⟩

/-- The documents of a dictionary have its keys. -/
theorem keys_of_writes {s : Schema} {ds : List (String × Datum)} {vs : List (String × Value)}
    (hw : List.Forall₂ (fun e w => w.1 = e.1 ∧ s.Writes e.2 w.2) ds vs) :
    vs.map (·.1) = ds.map (·.1) := by
  induction hw with
  | nil => rfl
  | cons h _ ih => rw [List.map_cons, List.map_cons, h.1, ih]

mutual

/-- **The documents of a shape are written as lines.** -/
theorem tabular_of_writes : ∀ (s : Schema) {d : Datum} {v : Value}, Lined s → s.Fits real d →
    s.Writes d v → Tabular v
  | .text, _, _, _, h, hw => (inline_of_writes .text trivial h hw).tabular
  | .path, _, _, _, h, hw => (inline_of_writes .path trivial h hw).tabular
  | .bytes, _, _, _, h, hw => (inline_of_writes .bytes trivial h hw).tabular
  | .flag, _, _, _, h, hw => (inline_of_writes .flag trivial h hw).tabular
  | .natural w, _, _, _, h, hw => (inline_of_writes (.natural w) trivial h hw).tabular
  | .real, _, _, _, h, hw => (inline_of_writes .real trivial h hw).tabular
  | .choice names, _, _, _, h, hw => (inline_of_writes (.choice names) trivial h hw).tabular
  | .optional s, _, _, hs, h, hw => by
    obtain ⟨rfl, rfl⟩ | ⟨d, rfl, hw⟩ := hw
    · trivial
    · obtain h | ⟨_, ⟨⟩, -, h⟩ := h
      · cases h
      · exact tabular_of_writes s hs h hw
  | .sequence s, _, _, hs, h, hw => by
    obtain hflat | ⟨htabled, hs⟩ := hs
    · exact (inline_of_writes (.sequence s) hflat h hw).tabular
    · obtain ⟨ds, vs, rfl, rfl, hw⟩ := hw
      obtain ⟨_, ⟨⟩, h⟩ := h
      have hitems := ((List.forall₂_and_left ds vs).mpr ⟨h, hw⟩).imp fun d v hd =>
        And.intro (And.intro (isTable_of_writes htabled hd.2) (tabular_of_writes s hs hd.1 hd.2))
          trivial
      exact tabular_list ((List.forall₂_and_left vs ds).mp hitems.flip).1
  | .dictionary s, _, _, hs, h, hw => by
    obtain ⟨ds, vs, rfl, rfl, hw⟩ := hw
    obtain ⟨_, ⟨⟩, hkeys, h⟩ := h
    refine ⟨keys_of_writes hw ▸ nodup_of_pairwise hkeys, tabularEntries_iff.mpr ?_⟩
    have hitems := ((List.forall₂_and_left ds vs).mpr ⟨h, hw⟩).imp fun e w hd =>
      And.intro (tabular_of_writes s hs.2 hd.1 hd.2.2) trivial
    exact ((List.forall₂_and_left vs ds).mp hitems.flip).1
  | .record name fields, _, _, hs, h, hw => by
    obtain ⟨ds, entries, rfl, rfl, hnodup, hknown, hw⟩ := hw
    obtain ⟨_, ⟨⟩, hnames, h⟩ := h
    refine ⟨hnodup, tabularEntries_iff.mpr fun e he => ?_⟩
    exact tabular_of_writesFields fields hs h hw (hknown e he) (lookup_of_mem hnodup he)

/-- The documents of fields are written as lines. -/
theorem tabular_of_writesFields : ∀ (fields : Fields) {ds : List Datum}
    {entries : List (String × Value)}, LinedFields fields → fields.Fits real ds →
    fields.Writes ds entries → ∀ {key : String} {v : Value}, key ∈ fields.names →
    entries.lookup key = some v → Tabular v
  | .cons name schema absence omitted rest, _, _, hs, h, hw, key, v, hkey, hv => by
    obtain ⟨d, ds, rfl, hsome, -, hrest⟩ := hw
    obtain ⟨_, _, ⟨⟩, hd, -, h⟩ := h
    obtain rfl | hkey := List.mem_cons.mp hkey
    · exact tabular_of_writes schema hs.1 hd (hsome v hv)
    · exact tabular_of_writesFields rest hs.2.2 h hrest hkey hv

end

mutual

/-- **A settled document still writes its datum.** -/
theorem writes_settled : ∀ (s : Schema) {d : Datum} {v : Value}, Lined s → s.Fits real d →
    s.Writes d v → s.Writes d (settled v)
  | .text, _, _, _, h, hw => (settled_of_inline (inline_of_writes .text trivial h hw)).symm ▸ hw
  | .path, _, _, _, h, hw => (settled_of_inline (inline_of_writes .path trivial h hw)).symm ▸ hw
  | .bytes, _, _, _, h, hw => (settled_of_inline (inline_of_writes .bytes trivial h hw)).symm ▸ hw
  | .flag, _, _, _, h, hw => (settled_of_inline (inline_of_writes .flag trivial h hw)).symm ▸ hw
  | .natural w, _, _, _, h, hw =>
    (settled_of_inline (inline_of_writes (.natural w) trivial h hw)).symm ▸ hw
  | .real, _, _, _, h, hw => (settled_of_inline (inline_of_writes .real trivial h hw)).symm ▸ hw
  | .choice names, _, _, _, h, hw =>
    (settled_of_inline (inline_of_writes (.choice names) trivial h hw)).symm ▸ hw
  | .optional s, _, _, hs, h, hw => by
    obtain ⟨rfl, rfl⟩ | ⟨d, rfl, hw⟩ := hw
    · exact .inl ⟨rfl, rfl⟩
    · obtain h | ⟨_, ⟨⟩, -, h⟩ := h
      · cases h
      · exact .inr ⟨d, rfl, writes_settled s hs h hw⟩
  | .sequence s, _, v, hs, h, hw => by
    obtain hflat | ⟨-, hs⟩ := hs
    · exact (settled_of_inline (inline_of_writes (.sequence s) hflat h hw)).symm ▸ hw
    · obtain ⟨ds, vs, rfl, rfl, hw⟩ := hw
      obtain ⟨_, ⟨⟩, h⟩ := h
      refine ⟨ds, vs.map settled, rfl, congrArg Value.list (settledItems_eq vs), ?_⟩
      rw [List.forall₂_map_right_iff]
      exact ((List.forall₂_and_left ds vs).mpr ⟨h, hw⟩).imp fun d v hd =>
        writes_settled s hs hd.1 hd.2
  | .dictionary s, _, _, hs, h, hw => by
    obtain ⟨ds, vs, rfl, rfl, hw⟩ := hw
    obtain ⟨_, ⟨⟩, hkeys, h⟩ := h
    have hboth := (List.forall₂_and_left ds vs).mpr ⟨h, hw⟩
    have hsome : ∀ e ∈ vs, e.2 ≠ .null := by
      have hitems := hboth.imp fun e w hd => And.intro
        (fun hnull : w.2 = .null => not_writes_null hs.1 hd.1 (hnull ▸ hd.2.2)) trivial
      exact ((List.forall₂_and_left vs ds).mp hitems.flip).1
    have hsorted : ((vs.map fun e => (e.1, settled e.2)).map (·.1)).Pairwise (· < ·) := by
      rw [List.map_map]
      show (vs.map (·.1)).Pairwise (· < ·)
      rw [keys_of_writes hw]
      exact hkeys
    refine ⟨ds, vs.map fun e => (e.1, settled e.2), rfl, ?_, ?_⟩
    · rw [settled, settledEntries_eq hsome, sortEntries_of_pairwise hsorted]
    · rw [List.forall₂_map_right_iff]
      exact hboth.imp fun e w hd => ⟨hd.2.1, writes_settled s hs.2 hd.1 hd.2.2⟩
  | .record name fields, _, _, hs, h, hw => by
    obtain ⟨ds, entries, rfl, rfl, hnodup, hknown, hw⟩ := hw
    obtain ⟨_, ⟨⟩, hnames, h⟩ := h
    have hsorted := sortEntries_spec (hnodup.sublist (keys_settledEntries entries))
    refine ⟨ds, _, rfl, rfl, nodup_of_pairwise hsorted.1, fun e he => ?_, ?_⟩
    · have hfound := lookup_of_mem (nodup_of_pairwise hsorted.1) he
      rw [hsorted.2, lookup_settledEntries hnodup] at hfound
      obtain ⟨v, hv, -⟩ := Option.map_eq_some_iff.mp hfound
      exact hknown (e.1, v) (mem_of_lookup (Option.eq_some_of_filter_eq_some hv))
    · refine writesFields_settled fields hs h hw fun key _ => ?_
      rw [hsorted.2, lookup_settledEntries hnodup]

/-- Settled entries still write the data of fields. -/
theorem writesFields_settled : ∀ (fields : Fields) {ds : List Datum}
    {entries entries' : List (String × Value)}, LinedFields fields → fields.Fits real ds →
    fields.Writes ds entries → (∀ key ∈ fields.names, entries'.lookup key
      = ((entries.lookup key).filter fun v => !isNothing v).map settled) →
    fields.Writes ds entries'
  | .nil, _, _, _, _, _, hw, _ => hw
  | .cons name schema absence omitted rest, _, entries, _, hs, h, hw, hlookup => by
    obtain ⟨d, ds, rfl, hsome, hnone, hrest⟩ := hw
    obtain ⟨_, _, ⟨⟩, hd, -, h⟩ := h
    have hname := hlookup name List.mem_cons_self
    refine ⟨d, ds, rfl, fun v hv => ?_, fun hv => ?_, writesFields_settled rest hs.2.2 h hrest
      fun key hkey => hlookup key (List.mem_cons_of_mem _ hkey)⟩
    · rw [hname] at hv
      obtain ⟨w, hw, rfl⟩ := Option.map_eq_some_iff.mp hv
      exact writes_settled schema hs.1 hd (hsome w (Option.eq_some_of_filter_eq_some hw))
    · rw [hname, Option.map_eq_none_iff, Option.filter_eq_none_iff] at hv
      cases hentry : entries.lookup name with
      | none => exact hnone hentry
      | some w =>
        -- what is nothing is left out, and is nothing when it is
        have hnull : w = .null := by
          have := hv w hentry
          cases w <;> first | rfl | exact absurd rfl this
        obtain ⟨hoptional, rfl⟩ := absent_of_writes_null hd (hnull ▸ hsome w hentry)
        exact hs.2.1 hoptional

end

end

/-! ## Values -/

/-- **Every double is read from its own text**: the shortest decimal lies in its interval, and a
decimal is read as the double in whose interval it lies. -/
theorem readReal_numberDraft (x : Float) : readReal (numberDraft (.real x)) = .ok x := by
  cases hx : Decimal.magnitude x with
  | nan =>
    have htext : number (.real x) = "nan".toList := by
      simp only [number, Decimal.Style.write, hx]
      rfl
    rw [numberDraft, htext, Decimal.eq_nan hx]
    rfl
  | infinite =>
    have htext : number (.real x) = signed (Decimal.isNegative x) "inf".toList := by
      simp only [number, Decimal.Style.write, hx]
      cases Decimal.isNegative x <;> rfl
    have hback := Decimal.eq_infinite hx
    rw [numberDraft, htext]
    cases hnegative : Decimal.isNegative x <;> rw [hnegative] at hback <;> rw [hback] <;> rfl
  | finite m q =>
    obtain ⟨whole, fraction, htext, hplain⟩ := number_finite hx
    have hexponent : (0 : Int) - fraction.length = (Decimal.shortest m q).exponent
        - (((Decimal.shortest m q).exponent + 1).toNat : Int) := by
      rw [hplain.length]
      omega
    have hreal : realOf (Decimal.isNegative x) whole fraction = x := by
      unfold realOf
      rw [hplain.value, hexponent]
      obtain rfl | hm := Nat.eq_zero_or_pos m
      · have hzero : (Decimal.shortest 0 q).coefficient
            * 10 ^ ((Decimal.shortest 0 q).exponent + 1).toNat = 0 := Nat.zero_mul _
        rw [hzero]
        exact (Decimal.eq_zero hx).symm
      · obtain ⟨hc, hback⟩ := Decimal.eq_double hx hm
        rw [hc.nearest_shortest, hc.negate_double]
        exact hback.symm
    rw [numberDraft, htext, word?_digits _ hplain.digits, hreal]
    rfl

/-- **The numbers of lines are read well.** -/
theorem numbersRead : NumbersRead numberDraft AnyReal where
  natural n hn := by
    have hrange : -0x8000000000000000 ≤ (n : Int) ∧ (n : Int) ≤ 0xFFFFFFFFFFFFFFFF := by omega
    exact if_pos hrange
  real x _ := readReal_numberDraft x

/-- **A value that its codec has**: a datum of the schema, of which the value is made
again. The schema is one of tables. -/
structure Carried {α : Type} (c : Codec α) (a : α) : Prop where
  /-- The value is made of its datum. -/
  law : c.ofDatum? (c.toDatum a) = some a
  /-- The datum is one of the schema. -/
  fits : c.schema.Fits AnyReal (c.toDatum a)
  /-- Its documents are written as lines. -/
  lined : Lined c.schema
  /-- Its documents are tables. -/
  tabled : isTabled c.schema = true

/-- **The text of a document that writes a value is read as the value.** -/
theorem Carried.decode {α : Type} {c : Codec α} {a : α} (h : Carried c a) {v : Value}
    (hw : c.schema.Writes (c.toDatum a) v) : decode c (write v) = .ok a := by
  have htabular := tabular_of_writes c.schema h.lined h.fits hw
  have hsettled := writes_settled c.schema h.lined h.fits hw
  have htable := isTable_of_writes h.tabled hw
  cases v with
  | table entries =>
    have hread : c.schema.read .toml Dialect.toml.room
        ((settled (.table entries)).draft numberDraft) = .ok (c.toDatum a) :=
      c.schema.read_writes numbersRead .toml h.fits hsettled trivial
    unfold Toml.decode
    rw [read_write htabular]
    show c.ofDraft .toml _ = _
    simp only [Codec.ofDraft, hread, bind, Except.bind, h.law]
  | _ => cases htable

/-- **A value comes back from its lines** when its codec has it. -/
theorem Carried.comesBack {α : Type} {c : Codec α} {a : α} (h : Carried c a) :
    Toml.decode c (write (c.toValue a)) = .ok a :=
  h.decode (c.schema.writes_write h.fits)

end Courier.Toml
