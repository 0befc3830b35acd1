import Courier.Document.Schema
import Courier.Proofs.Document.Tables
import Courier.Proofs.Json.Quote
import Courier.Proofs.Results
import Mathlib.Data.List.Forall2
/-!
# A datum is read from every document that writes it

A shape leaves some freedom to the documents of a datum: the fields of a record may
come in any order, and an optional field without a value may be nothing or be left
out. `Schema.Writes` is the relation of a datum and the documents that write it.

Whichever of them is read, the datum comes out (`Schema.read_writes`), and what the
writer writes is one of them (`Schema.writes_write`). Both take a datum that the shape
has at all, with its numbers within their widths and its choices among the names
(`Schema.Fits`).

The numbers of a text are read as the text has them, which need not be what was
written. So a document is turned into a draft by way of a function that says what its
numbers are read as (`Value.draft`).
-/

namespace Courier.Document

/-- What is read of something that is closed is what has been read. -/
theorem eq_of_whenClosed {α : Type} {closed : Bool} {a b : α}
    (h : whenClosed closed a = .ok b) : a = b := by
  cases closed with
  | true => exact Except.ok.inj h
  | false => cases h

/-! ## Drafts of documents -/

mutual

/-- **The draft of a document** whose numbers are read as a function says. -/
def Value.draft (numbers : Number → Draft) : Value → Draft
  | .null => .null
  | .flag b => .flag b
  | .number n => numbers n
  | .text s => .text (.ofString s)
  | .list items => .list (draftItems numbers items) true
  | .table entries => .table (draftEntries numbers entries) true

/-- The drafts of the items of a list. -/
def draftItems (numbers : Number → Draft) : List Value → List Draft
  | [] => []
  | v :: rest => v.draft numbers :: draftItems numbers rest

/-- The drafts of the entries of a table. -/
def draftEntries (numbers : Number → Draft) : List (String × Value) → List (Draft × Draft)
  | [] => []
  | (k, v) :: rest => (.text (.ofString k), v.draft numbers) :: draftEntries numbers rest

end

/-- **Numbers that are read well**: whole numbers of 64 bits as themselves, and certain
doubles as themselves. -/
structure NumbersRead (numbers : Number → Draft) (real : Float → Prop) : Prop where
  /-- Whole numbers are read as themselves. -/
  natural : ∀ n : Nat, n < 0x10000000000000000 →
    numbers (.integer n) = .number (some (.integer n))
  /-- The doubles are read as themselves. -/
  real : ∀ x, real x → readReal (numbers (.real x)) = .ok x

/-! ## Documents of a datum -/

/-- What a field is when a table leaves it out, if it may. -/
def Absence.inTable? : Absence → Option Datum
  | .refused => none
  | .inTable d => some d
  | .anywhere d => some d

/-- The names of fields. -/
def Fields.names : Fields → List String
  | .nil => []
  | .cons name _ _ _ rest => name :: rest.names

/-- Whether a shape allows nothing. -/
def Schema.isOptional : Schema → Bool
  | .optional _ => true
  | _ => false

mutual

/-- **How deep the documents of a shape nest.** -/
def Schema.depth : Schema → Nat
  | .optional s => s.depth
  | .sequence s => s.depth + 1
  | .dictionary s => s.depth + 1
  | .record _ fields => fields.depth + 1
  | _ => 0

/-- How deep the documents of fields nest. -/
def Fields.depth : Fields → Nat
  | .nil => 0
  | .cons _ schema _ _ rest => max schema.depth rest.depth

end

/-- There is room for so many lists and tables within each other. -/
def Room.Holds (n : Nat) : Room → Prop
  | none => True
  | some m => n ≤ m

mutual

/-- **A datum that a shape has**, with its doubles among certain ones. Documents of any
shape are left out: they have no datum of their own. -/
def Schema.Fits (real : Float → Prop) : Schema → Datum → Prop
  | .text, d => ∃ s, d = .text s
  | .path, d => ∃ s, d = .text s
  | .bytes, d => ∃ bs, d = .bytes bs
  | .flag, d => ∃ b, d = .flag b
  | .natural w, d => ∃ n, d = .natural n ∧ n < w.bound
  | .real, d => ∃ x, d = .real x ∧ real x
  | .anything, _ => False
  | .optional s, d => d = .absent ∨ ∃ d', d = .present d' ∧ s.isOptional = false ∧ s.Fits real d'
  | .sequence s, d => ∃ ds, d = .sequence ds ∧ ∀ d ∈ ds, s.Fits real d
  | .dictionary s, d => ∃ entries, d = .dictionary entries ∧
      (entries.map (·.1)).Pairwise (· < ·) ∧ ∀ e ∈ entries, s.Fits real e.2
  | .choice names, d => ∃ name, d = .choice name ∧ name ∈ names
  | .record _ fields, d => ∃ ds, d = .record ds ∧ fields.names.Nodup ∧ fields.Fits real ds

/-- Data that fields have. Where nothing is left out by the writer, it is put in again by the
reader. -/
def Fields.Fits (real : Float → Prop) : Fields → List Datum → Prop
  | .nil, ds => ds = []
  | .cons _ schema absence omitted rest, ds => ∃ d ds', ds = d :: ds' ∧ schema.Fits real d ∧
      (omitted = true → absence.inTable? = some .absent) ∧ rest.Fits real ds'

end

mutual

/-- **A document that writes a datum of a shape.** -/
def Schema.Writes : Schema → Datum → Value → Prop
  | .text, d, v => ∃ s, d = .text s ∧ v = .text s
  | .path, d, v => ∃ s, d = .text s ∧ v = .text s
  | .bytes, d, v => ∃ bs, d = .bytes bs ∧ v = .list (bs.map fun b => .nat b.toNat)
  | .flag, d, v => ∃ b, d = .flag b ∧ v = .flag b
  | .natural _, d, v => ∃ n, d = .natural n ∧ v = .nat n
  | .real, d, v => ∃ x, d = .real x ∧ v = .real x
  | .anything, d, v => d = .anything v
  | .optional s, d, v => (d = .absent ∧ v = .null) ∨ ∃ d', d = .present d' ∧ s.Writes d' v
  | .sequence s, d, v => ∃ ds vs, d = .sequence ds ∧ v = .list vs ∧ List.Forall₂ s.Writes ds vs
  | .dictionary s, d, v => ∃ ds vs, d = .dictionary ds ∧ v = .table vs ∧
      List.Forall₂ (fun e w => w.1 = e.1 ∧ s.Writes e.2 w.2) ds vs
  | .choice _, d, v => ∃ name, d = .choice name ∧ v = .text name
  | .record _ fields, d, v => ∃ ds entries, d = .record ds ∧ v = .table entries ∧
      (entries.map (·.1)).Nodup ∧ (∀ e ∈ entries, e.1 ∈ fields.names) ∧ fields.Writes ds entries

/-- **Entries that write the data of fields**: each field has an entry that writes its datum,
or has none and is what it is when left out. -/
def Fields.Writes : Fields → List Datum → List (String × Value) → Prop
  | .nil, ds, _ => ds = []
  | .cons name schema absence _ rest, ds, entries => ∃ d ds', ds = d :: ds' ∧
      (∀ v, entries.lookup name = some v → schema.Writes d v) ∧
      (entries.lookup name = none → absence.inTable? = some d) ∧ rest.Writes ds' entries

end

/-! ## Reading the parts -/

section

variable {numbers : Number → Draft} {real : Float → Prop} {dialect : Dialect} {room : Room}

/-- The drafts of items are those of each item. -/
theorem draftItems_eq (items : List Value) :
    draftItems numbers items = items.map (·.draft numbers) := by
  induction items with
  | nil => rfl
  | cons v rest ih => exact congrArg (v.draft numbers :: ·) ih

/-- A list or a table is entered where there is room for it. -/
theorem Room.Holds.enter {n : Nat} (h : room.Holds (n + 1)) :
    ∃ inner, room.enter = some inner ∧ inner.Holds n := by
  cases room with
  | none => exact ⟨none, rfl, trivial⟩
  | some m =>
    cases m with
    | zero => exact absurd h (Nat.not_succ_le_zero n)
    | succ m => exact ⟨some m, rfl, Nat.le_of_succ_le_succ h⟩

/-- Less room is needed for less. -/
theorem Room.Holds.mono {m n : Nat} (h : room.Holds n) (hm : m ≤ n) : room.Holds m := by
  cases room with
  | none => trivial
  | some k => exact Nat.le_trans hm h

/-- **Items that are all read are read as a list.** -/
theorem readItems_ok {α : Type} {item : Draft → Except Fault α} {as : List α} {drafts : List Draft}
    (h : List.Forall₂ (fun a d => item d = .ok a) as drafts) :
    readItems item drafts true = .ok as := by
  have hitems : drafts.mapM item = .ok as := by
    induction h with
    | nil => rfl
    | cons ha _ ih =>
      rw [List.mapM_cons, ha, ih]
      rfl
  unfold readItems
  rw [hitems]
  rfl

/-- **Entries in the order of their keys are read as they stand.** -/
theorem readEntries_ok {α : Type} {item : Draft → Except Fault α}
    {entries : List (String × Value)} {as : List (String × α)}
    (h : List.Forall₂ (fun a e => e.1 = a.1 ∧ item (e.2.draft numbers) = .ok a.2) as entries) :
    ∀ read : List (String × α), ((read ++ as).map (·.1)).Pairwise (· < ·) →
      readEntries item read (draftEntries numbers entries) = .ok (read ++ as) := by
  induction h with
  | nil => exact fun read _ => by rw [List.append_nil]; rfl
  | @cons a e as entries ha _ ih =>
    intro read hread
    obtain ⟨key, a⟩ := a
    obtain ⟨key', v⟩ := e
    obtain ⟨rfl, ha⟩ := ha
    have hlast : ∀ k ∈ read.map (·.1), k < key' := by
      rw [List.map_append, List.pairwise_append] at hread
      exact fun k hk => hread.2.2 k hk key' List.mem_cons_self
    have hmore : (read ++ [(key', a)]) ++ as = read ++ (key', a) :: as := by
      rw [List.append_assoc]
      rfl
    have hrest := ih (read ++ [(key', a)]) (hmore ▸ hread)
    simp only [draftEntries, readEntries, Json.text?_ofString, ha]
    rw [← hmore, ← hrest, ← insertSorted_of_lt a hlast]
    rfl

/-- **The entries of a record are read** when each of them is, whatever their order. -/
theorem readFields_ok {α : Type} {field : String → Draft → Option (Except Fault α)} :
    ∀ (entries : List (String × Value)) (read : List (String × α)),
      (entries.map (·.1)).Nodup → (∀ e ∈ entries, read.lookup e.1 = none) →
      (∀ e ∈ entries, ∃ a, field e.1 (e.2.draft numbers) = some (.ok a)) →
      ∃ after, readFields field read (draftEntries numbers entries) = .ok after ∧
        (∀ key v a, entries.lookup key = some v → field key (v.draft numbers) = some (.ok a) →
          after.lookup key = some a) ∧
        ∀ key, entries.lookup key = none → after.lookup key = read.lookup key := by
  intro entries
  induction entries with
  | nil => exact fun read _ _ _ => ⟨read, rfl, nofun, fun _ _ => rfl⟩
  | cons e entries ih =>
    obtain ⟨key, v⟩ := e
    intro read hnodup hnew hfield
    obtain ⟨hkey, hnodup⟩ := List.nodup_cons.mp hnodup
    obtain ⟨a, ha⟩ := hfield (key, v) List.mem_cons_self
    have hne : ∀ e ∈ entries, e.1 ≠ key := by
      intro e he heq
      exact hkey (List.mem_map.mpr ⟨e, he, heq⟩)
    obtain ⟨after, hread, hfound, hother⟩ := ih ((key, a) :: read) hnodup
      (fun e he => by
        rw [lookup_cons_eq, if_neg (hne e he)]
        exact hnew e (List.mem_cons_of_mem _ he))
      (fun e he => hfield e (List.mem_cons_of_mem _ he))
    have hnone : entries.lookup key = none :=
      List.lookup_eq_none_iff.mpr fun e he => bne_iff_ne.mpr (Ne.symm (hne e he))
    refine ⟨after, ?_, ?_, ?_⟩
    · simp only [draftEntries, readFields, Json.text?_ofString, hnew (key, v) List.mem_cons_self, ha]
      exact hread
    · intro k w b hk hb
      rw [lookup_cons_eq] at hk
      split at hk
      · next heq =>
        subst heq
        obtain rfl := Option.some.inj hk
        rw [ha] at hb
        rw [hother k hnone, lookup_cons_eq, if_pos rfl, Except.ok.inj (Option.some.inj hb)]
      · exact hfound k w b hk hb
    · intro k hk
      rw [lookup_cons_eq] at hk
      split at hk
      · cases hk
      · next hne => rw [hother k hk, lookup_cons_eq, if_neg hne]

/-- **A field is collected** from its entry, or left out when it may be. -/
theorem Fields.collect_cons {after : List (String × Datum)} {name : String} {schema : Schema}
    {absence : Absence} {omitted : Bool} {rest : Fields} {d : Datum} {ds : List Datum}
    (h : after.lookup name = some d ∨
      (after.lookup name = none ∧ absence.inTable? = some d))
    (hrest : rest.collect after = .ok ds) :
    (Fields.cons name schema absence omitted rest).collect after = .ok (d :: ds) := by
  unfold Fields.collect
  rw [hrest]
  obtain h | ⟨h, habsence⟩ := h
  · rw [h]
    rfl
  · rw [h]
    cases absence with
    | refused => cases habsence
    | inTable d' => rw [← Option.some.inj habsence]; rfl
    | anywhere d' => rw [← Option.some.inj habsence]; rfl

theorem read_optional {s : Schema} {draft : Draft} (h : draft ≠ .null) :
    (Schema.optional s).read dialect room draft = (s.read dialect room draft).map .present := by
  cases draft <;> first | rfl | exact absurd rfl h

/-- **Nothing is read as nothing only where that is allowed.** -/
theorem read_null {s : Schema} {d d' : Datum} (hs : s.isOptional = false) (h : s.Fits real d') :
    s.read dialect room .null ≠ .ok d := by
  cases s with
  | optional s => cases hs
  | anything => exact h.elim
  | choice names => cases dialect <;> nofun
  | _ => nofun

/-- **Bytes are read from the list of their numbers.** -/
theorem read_bytes (hn : NumbersRead numbers real) (bs : List UInt8) :
    Schema.bytes.read dialect room ((Value.list (bs.map fun b => .nat b.toNat)).draft numbers) =
      .ok (.bytes bs) := by
  have hbytes : List.Forall₂ (fun n d => readNatural .u8 d = .ok n) (bs.map (·.toNat))
      ((bs.map fun b => Value.nat b.toNat).map (·.draft numbers)) := by
    rw [List.map_map, List.forall₂_map_left_iff, List.forall₂_map_right_iff, List.forall₂_same]
    intro b _
    have hb : b.toNat < 0x100 := b.toNat_lt
    show readNatural .u8 (numbers (.integer b.toNat)) = _
    rw [hn.natural b.toNat (by omega)]
    exact if_pos ⟨Int.natCast_nonneg _, hb⟩
  have hback : (bs.map (·.toNat)).map UInt8.ofNat = bs := by
    rw [List.map_map]
    exact (List.map_congr_left fun b _ => UInt8.ofNat_toNat).trans (List.map_id bs)
  simp only [Schema.read, Value.draft, draftItems_eq, readBytes, readItems_ok hbytes]
  show Except.ok (Datum.bytes ((bs.map (·.toNat)).map UInt8.ofNat)) = _
  rw [hback]

end

/-! ## Reading the whole -/

section

variable {numbers : Number → Draft} {real : Float → Prop}

mutual

/-- **A datum is read from every document that writes it**, in every dialect, when there is
room for it. -/
theorem Schema.read_writes (hn : NumbersRead numbers real) (dialect : Dialect) :
    ∀ (s : Schema) {d : Datum} {v : Value} {room : Room}, s.Fits real d → s.Writes d v →
      room.Holds s.depth → s.read dialect room (v.draft numbers) = .ok d
  | .text, _, _, _, _, hw, _ => by
    obtain ⟨s, rfl, rfl⟩ := hw
    simp only [Schema.read, Value.draft, readText, Json.text?_ofString]
    rfl
  | .path, _, _, _, _, hw, _ => by
    obtain ⟨s, rfl, rfl⟩ := hw
    simp only [Schema.read, Value.draft, readText, Json.text?_ofString]
    rfl
  | .bytes, _, _, _, _, hw, _ => by
    obtain ⟨bs, rfl, rfl⟩ := hw
    exact read_bytes hn bs
  | .flag, _, _, _, _, hw, _ => by
    obtain ⟨b, rfl, rfl⟩ := hw
    rfl
  | .natural w, _, _, _, hfits, hw, _ => by
    obtain ⟨n, rfl, rfl⟩ := hw
    obtain ⟨_, ⟨⟩, hlt⟩ := hfits
    have hword : w.bound ≤ 0x10000000000000000 := by cases w <;> decide
    have hread : readNatural w (.number (some (.integer n))) = .ok n :=
      if_pos ⟨Int.natCast_nonneg n, hlt⟩
    show (readNatural w (numbers (.integer n))).map Datum.natural = _
    rw [hn.natural n (Nat.lt_of_lt_of_le hlt hword), hread]
    rfl
  | .real, _, _, _, hfits, hw, _ => by
    obtain ⟨x, rfl, rfl⟩ := hw
    obtain ⟨_, ⟨⟩, hreal⟩ := hfits
    show (readReal (numbers (.real x))).map Datum.real = _
    rw [hn.real x hreal]
    rfl
  | .anything, _, _, _, hfits, _, _ => hfits.elim
  | .optional s, _, v, room, hfits, hw, hroom => by
    obtain ⟨rfl, rfl⟩ | ⟨d, rfl, hw⟩ := hw
    · rfl
    · obtain hfits | ⟨_, ⟨⟩, hs, hfits⟩ := hfits
      · cases hfits
      · have hread := Schema.read_writes hn dialect s hfits hw hroom
        have hsomething : v.draft numbers ≠ .null := fun heq =>
          read_null hs hfits (heq ▸ hread)
        rw [read_optional hsomething, hread]
        rfl
  | .sequence s, _, _, room, hfits, hw, hroom => by
    obtain ⟨ds, vs, rfl, rfl, hw⟩ := hw
    obtain ⟨_, ⟨⟩, hfits⟩ := hfits
    obtain ⟨inner, henter, hinner⟩ := Room.Holds.enter hroom
    have hitems : List.Forall₂ (fun d draft => s.read dialect inner draft = .ok d) ds
        (draftItems numbers vs) := by
      rw [draftItems_eq, List.forall₂_map_right_iff]
      refine ((List.forall₂_and_left ds vs).mpr ⟨hfits, hw⟩).imp fun d v h => ?_
      exact Schema.read_writes hn dialect s h.1 h.2 hinner
    simp only [Schema.read, Value.draft, henter, readItems_ok hitems]
    rfl
  | .dictionary s, _, _, room, hfits, hw, hroom => by
    obtain ⟨ds, vs, rfl, rfl, hw⟩ := hw
    obtain ⟨_, ⟨⟩, hkeys, hfits⟩ := hfits
    obtain ⟨inner, henter, hinner⟩ := Room.Holds.enter hroom
    have hentries : List.Forall₂ (fun a e => e.1 = a.1 ∧
        s.read dialect inner (e.2.draft numbers) = .ok a.2) ds vs := by
      refine ((List.forall₂_and_left ds vs).mpr ⟨hfits, hw⟩).imp fun e w h => ?_
      exact ⟨h.2.1, Schema.read_writes hn dialect s h.1 h.2.2 hinner⟩
    have hread := readEntries_ok hentries [] hkeys
    simp only [Schema.read, Value.draft, Draft.asTable, henter, hread]
    rfl
  | .choice names, _, _, _, hfits, hw, _ => by
    obtain ⟨name, rfl, rfl⟩ := hw
    obtain ⟨_, ⟨⟩, hin⟩ := hfits
    simp only [Schema.read, Value.draft, readChoice, Json.text?_ofString, readName]
    rw [if_pos (List.contains_iff_mem.mpr hin)]
  | .record name fields, _, _, room, hfits, hw, hroom => by
    obtain ⟨ds, entries, rfl, rfl, hnodup, hknown, hw⟩ := hw
    obtain ⟨_, ⟨⟩, hnames, hfits⟩ := hfits
    obtain ⟨inner, henter, hinner⟩ := Room.Holds.enter hroom
    obtain ⟨hnamed, hcollect⟩ := Fields.read_writes hn dialect fields hnames hfits hw hinner
    obtain ⟨after, hread, hfound, hother⟩ :=
      @readFields_ok numbers Datum (fields.readNamed dialect inner) entries [] hnodup
        (fun _ _ => rfl) fun e he =>
          hnamed e.1 e.2 (hknown e he) (lookup_of_mem hnodup he)
    have hcollect := hcollect after (fun key v d _ => hfound key v d) fun key _ => hother key
    simp only [Schema.read, Value.draft, Draft.asTable, henter, hread]
    show (fields.collect after).map Datum.record = _
    rw [hcollect]
    rfl

/-- **Fields are read from every table that writes their data.** -/
theorem Fields.read_writes (hn : NumbersRead numbers real) (dialect : Dialect) :
    ∀ (fields : Fields) {ds : List Datum} {entries : List (String × Value)} {room : Room},
      fields.names.Nodup → fields.Fits real ds → fields.Writes ds entries →
      room.Holds fields.depth →
      (∀ key v, key ∈ fields.names → entries.lookup key = some v →
        ∃ d, fields.readNamed dialect room key (v.draft numbers) = some (.ok d)) ∧
      ∀ after : List (String × Datum),
        (∀ key v d, key ∈ fields.names → entries.lookup key = some v →
          fields.readNamed dialect room key (v.draft numbers) = some (.ok d) →
          after.lookup key = some d) →
        (∀ key ∈ fields.names, entries.lookup key = none → after.lookup key = none) →
        fields.collect after = .ok ds
  | .nil, _, _, _, _, _, h, _ => by
    obtain rfl := h
    exact ⟨fun _ _ hin => absurd hin List.not_mem_nil, fun _ _ _ => rfl⟩
  | .cons name schema absence omitted rest, _, entries, room, hnodup, hfits, hw, hroom => by
    obtain ⟨d, ds, rfl, hsome, hnone, hrest⟩ := hw
    obtain ⟨_, _, ⟨⟩, hd, -, hfits⟩ := hfits
    obtain ⟨hname, hnodup⟩ := List.nodup_cons.mp hnodup
    obtain ⟨hnamed, hcollect⟩ := Fields.read_writes hn dialect rest hnodup hfits hrest
      (hroom.mono (Nat.le_max_right _ _))
    have hhead : ∀ v, entries.lookup name = some v →
        schema.read dialect room (v.draft numbers) = .ok d := fun v hv =>
      Schema.read_writes hn dialect schema hd (hsome v hv) (hroom.mono (Nat.le_max_left _ _))
    have hne : ∀ key ∈ rest.names, key ≠ name := fun key hkey heq => hname (heq ▸ hkey)
    constructor
    · intro key v hkey hv
      obtain rfl | hkey := List.mem_cons.mp hkey
      · exact ⟨d, by rw [Fields.readNamed, if_pos rfl, hhead v hv]⟩
      · rw [Fields.readNamed, if_neg (hne key hkey)]
        exact hnamed key v hkey hv
    · intro after hfound hother
      have hfirst : after.lookup name = some d ∨
          (after.lookup name = none ∧ absence.inTable? = some d) := by
        cases hv : entries.lookup name with
        | some v =>
          exact .inl (hfound name v d List.mem_cons_self hv
            (by rw [Fields.readNamed, if_pos rfl, hhead v hv]))
        | none => exact .inr ⟨hother name List.mem_cons_self hv, hnone hv⟩
      have hrest := hcollect after
        (fun key v d' hkey hv hread => hfound key v d' (List.mem_cons_of_mem _ hkey) hv
          (by rw [Fields.readNamed, if_neg (hne key hkey)]; exact hread))
        (fun key hkey => hother key (List.mem_cons_of_mem _ hkey))
      exact Fields.collect_cons hfirst hrest

end

end

/-! ## What the writer writes -/

section

variable {real : Float → Prop}

/-- Whether entries write the data of fields shows in what is found under their names. -/
theorem Fields.Writes.congr : ∀ (fields : Fields) {ds : List Datum}
    {entries entries' : List (String × Value)},
    (∀ key ∈ fields.names, entries'.lookup key = entries.lookup key) →
    fields.Writes ds entries → fields.Writes ds entries'
  | .nil, _, _, _, _, h => h
  | .cons name _ _ _ rest, _, _, _, hkeys, hw => by
    obtain ⟨d, ds, hds, hsome, hnone, hrest⟩ := hw
    have hname := hkeys name List.mem_cons_self
    refine ⟨d, ds, hds, fun v hv => hsome v (hname ▸ hv), fun hv => hnone (hname ▸ hv), ?_⟩
    exact Fields.Writes.congr rest (fun key hkey => hkeys key (List.mem_cons_of_mem _ hkey)) hrest

/-- **A field is written**, or it is nothing and left out. -/
theorem Fields.write_cons (rest : Fields) (name : String) (schema : Schema) (absence : Absence)
    (omitted : Bool) (d : Datum) (ds : List Datum) :
    (d = .absent ∧ omitted = true ∧
      (Fields.cons name schema absence omitted rest).write (d :: ds) = rest.write ds) ∨
    (Fields.cons name schema absence omitted rest).write (d :: ds)
      = (name, schema.write d) :: rest.write ds := by
  cases d with
  | absent =>
    cases omitted with
    | true => exact .inl ⟨rfl, rfl, rfl⟩
    | false =>
      have hnull : schema.write .absent = .null := by cases schema <;> rfl
      rw [hnull]
      exact .inr rfl
  | _ => exact .inr rfl

mutual

/-- **What is written of a datum is a document that writes it.** -/
theorem Schema.writes_write : ∀ (s : Schema) {d : Datum}, s.Fits real d → s.Writes d (s.write d)
  | .text, _, h => by
    obtain ⟨s, rfl⟩ := h
    exact ⟨s, rfl, rfl⟩
  | .path, _, h => by
    obtain ⟨s, rfl⟩ := h
    exact ⟨s, rfl, rfl⟩
  | .bytes, _, h => by
    obtain ⟨bs, rfl⟩ := h
    exact ⟨bs, rfl, rfl⟩
  | .flag, _, h => by
    obtain ⟨b, rfl⟩ := h
    exact ⟨b, rfl, rfl⟩
  | .natural w, _, h => by
    obtain ⟨n, rfl, -⟩ := h
    exact ⟨n, rfl, rfl⟩
  | .real, _, h => by
    obtain ⟨x, rfl, -⟩ := h
    exact ⟨x, rfl, rfl⟩
  | .anything, _, h => h.elim
  | .optional s, _, h => by
    obtain rfl | ⟨d, rfl, -, h⟩ := h
    · exact .inl ⟨rfl, rfl⟩
    · exact .inr ⟨d, rfl, Schema.writes_write s h⟩
  | .sequence s, _, h => by
    obtain ⟨ds, rfl, h⟩ := h
    refine ⟨ds, ds.map s.write, rfl, rfl, ?_⟩
    rw [List.forall₂_map_right_iff, List.forall₂_same]
    exact fun d hd => Schema.writes_write s (h d hd)
  | .dictionary s, _, h => by
    obtain ⟨entries, rfl, -, h⟩ := h
    refine ⟨entries, entries.map fun e => (e.1, s.write e.2), rfl, rfl, ?_⟩
    rw [List.forall₂_map_right_iff, List.forall₂_same]
    exact fun e he => ⟨rfl, Schema.writes_write s (h e he)⟩
  | .choice names, _, h => by
    obtain ⟨name, rfl, -⟩ := h
    exact ⟨name, rfl, rfl⟩
  | .record name fields, _, h => by
    obtain ⟨ds, rfl, hnodup, h⟩ := h
    obtain ⟨hw, hkeys⟩ := Fields.writes_write fields hnodup h
    refine ⟨ds, fields.write ds, rfl, rfl, hnodup.sublist hkeys, fun e he => ?_, hw⟩
    exact hkeys.subset (List.mem_map_of_mem he)

/-- **What is written of the data of fields writes them**, in the order of their
declaration. -/
theorem Fields.writes_write : ∀ (fields : Fields) {ds : List Datum}, fields.names.Nodup →
    fields.Fits real ds → fields.Writes ds (fields.write ds) ∧
      ((fields.write ds).map (·.1)).Sublist fields.names
  | .nil, _, _, h => ⟨h, List.Sublist.refl _⟩
  | .cons name schema absence omitted rest, _, hnodup, h => by
    obtain ⟨d, ds, rfl, hd, homitted, h⟩ := h
    obtain ⟨hname, hnodup⟩ := List.nodup_cons.mp hnodup
    obtain ⟨hw, hkeys⟩ := Fields.writes_write rest hnodup h
    obtain ⟨rfl, homit, heq⟩ | heq := rest.write_cons name schema absence omitted d ds
    · rw [heq]
      have hnone : (rest.write ds).lookup name = none := by
        refine List.lookup_eq_none_iff.mpr fun e he => bne_iff_ne.mpr ?_
        rintro rfl
        exact hname (hkeys.subset (List.mem_map_of_mem he))
      have hnothing : ∀ v, (rest.write ds).lookup name = some v → schema.Writes .absent v :=
        fun v hv => by cases hnone.symm.trans hv
      exact ⟨⟨.absent, ds, rfl, hnothing, fun _ => homitted homit, hw⟩, hkeys.cons name⟩
    · rw [heq]
      have hfound : ((name, schema.write d) :: rest.write ds).lookup name
          = some (schema.write d) := List.lookup_cons_self
      have hothers : ∀ key ∈ rest.names, ((name, schema.write d) :: rest.write ds).lookup key
          = (rest.write ds).lookup key := fun key hkey => by
        rw [lookup_cons_eq, if_neg fun heq : key = name => hname (heq ▸ hkey)]
      refine ⟨⟨d, ds, rfl, fun v hv => ?_, fun hv => ?_, Fields.Writes.congr rest hothers hw⟩,
        hkeys.cons_cons name⟩
      · rw [hfound] at hv
        exact Option.some.inj hv ▸ Schema.writes_write schema hd
      · rw [hfound] at hv
        cases hv

end

end

/-! ## Parts of codecs -/

theorem toText?_ofText? (s : Option String) : (Datum.ofText? s).toText? = some s := by
  cases s <;> rfl

theorem eq_ofText?_of_toText? {d : Datum} {s : Option String} (h : d.toText? = some s) :
    d = Datum.ofText? s := by
  unfold Datum.toText? at h
  split at h <;> cases h <;> rfl

/-- An optional text is a datum of its schema. -/
theorem fits_ofText? {real : Float → Prop} (s : Option String) :
    (Schema.optional .text).Fits real (Datum.ofText? s) := by
  cases s with
  | none => exact .inl rfl
  | some s => exact .inr ⟨_, rfl, rfl, s, rfl⟩

section

variable {real : Float → Prop} {name : String} {schema : Schema} {absence : Absence}
  {omitted : Bool} {fields rest : Fields} {d : Datum} {ds : List Datum}

/-- A record is a datum of its schema when its data are those of its fields, and no two of these
have the same name. -/
theorem Schema.Fits.record (hnames : fields.names.Nodup) (h : fields.Fits real ds) :
    (Schema.record name fields).Fits real (.record ds) :=
  ⟨ds, rfl, hnames, h⟩

/-- The data of a record are those of its fields. -/
theorem Fields.Fits.of_record (h : (Schema.record name fields).Fits real (.record ds)) :
    fields.Fits real ds := by
  obtain ⟨_, ⟨⟩, -, hfields⟩ := h
  exact hfields

/-- A list is a datum of its schema when what it is made of makes data of its items. -/
theorem Schema.Fits.sequence {α : Type} {f : α → Datum} {as : List α}
    (h : ∀ a ∈ as, schema.Fits real (f a)) :
    (Schema.sequence schema).Fits real (.sequence (as.map f)) :=
  ⟨_, rfl, List.forall_mem_map.mpr h⟩

/-- No data are those of no fields. -/
theorem Fields.Fits.nil : Fields.nil.Fits real [] := rfl

/-- **A field that is always written** has a datum of its shape, whatever it is when left out. -/
theorem Fields.Fits.cons (hd : schema.Fits real d) (hrest : rest.Fits real ds) :
    (Fields.cons name schema absence false rest).Fits real (d :: ds) :=
  ⟨d, ds, rfl, hd, nofun, hrest⟩

theorem Fields.Fits.head (h : (Fields.cons name schema absence omitted rest).Fits real (d :: ds)) :
    schema.Fits real d := by
  obtain ⟨_, _, ⟨⟩, hd, -⟩ := h
  exact hd

theorem Fields.Fits.tail (h : (Fields.cons name schema absence omitted rest).Fits real (d :: ds)) :
    rest.Fits real ds := by
  obtain ⟨_, _, ⟨⟩, -, -, hrest⟩ := h
  exact hrest

/-- A field that is left out when there is nothing to write has a datum of its shape. -/
theorem Fields.Fits.sparing (hd : (Schema.optional schema).Fits real d)
    (hrest : rest.Fits real ds) : (Fields.sparing name schema rest).Fits real (d :: ds) :=
  ⟨d, ds, rfl, hd, fun _ => rfl, hrest⟩

end

/-- Values that are each made of their datum are made of their data. -/
theorem mapM_map_of_law {α β : Type} {f : α → β} {g : β → Option α}
    (h : ∀ a, g (f a) = some a) (as : List α) : (as.map f).mapM g = some as := by
  induction as with
  | nil => rfl
  | cons a as ih =>
    rw [List.map_cons, List.mapM_cons, h, ih]
    rfl

/-- Data are those of the values that are made of them when each datum is. -/
theorem eq_map_of_mapM {α β : Type} {f : α → β} {g : β → Option α}
    (h : ∀ b a, g b = some a → b = f a) {as : List α} :
    ∀ {bs : List β}, bs.mapM g = some as → bs = as.map f := by
  intro bs
  induction bs generalizing as with
  | nil => intro hbs; cases hbs; rfl
  | cons b bs ih =>
    intro hbs
    rw [List.mapM_cons] at hbs
    obtain ⟨a, ha, hbs⟩ := Option.bind_eq_some_iff.mp hbs
    obtain ⟨as, has, hbs⟩ := Option.bind_eq_some_iff.mp hbs
    cases hbs
    rw [List.map_cons, h b a ha, ih has]

end Courier.Document
