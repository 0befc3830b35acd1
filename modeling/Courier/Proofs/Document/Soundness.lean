import Courier.Proofs.Document.Reading
/-!
# What is read is a datum of the shape

Whatever draft is read by a shape, in whatever dialect, the result is a datum of the
shape (`Schema.fits_of_read`): its numbers are within their widths, its choices are
among the names, its tables are in the order of their keys. This takes a shape whose
fields, when left out, are data of their shapes as well (`Schema.Sound`).

The converse of reading what was written holds too. When a datum is read back from the
document that was written of it, every double in it is read as itself
(`Schema.kept_of_read_write`). So the doubles decide whether a datum comes back.
-/

namespace Courier.Document

/-- Any double. -/
abbrev AnyReal : Float → Prop := fun _ => True

mutual

/-- **A shape whose defaults are data of it.** -/
def Schema.Sound : Schema → Prop
  | .anything => False
  | .optional s => s.isOptional = false ∧ s.Sound
  | .sequence s => s.Sound
  | .dictionary s => s.Sound
  | .record _ fields => fields.names.Nodup ∧ fields.Sound
  | _ => True

/-- Fields that are data of their shapes when they are left out. -/
def Fields.Sound : Fields → Prop
  | .nil => True
  | .cons _ schema absence omitted rest => schema.Sound ∧
      (∀ d, absence.inTable? = some d → schema.Fits AnyReal d) ∧
      (omitted = true → absence.inTable? = some .absent) ∧ rest.Sound

end

section

variable {name : String} {schema : Schema} {fields rest : Fields} {d : Datum}

theorem Schema.Sound.record (hnames : fields.names.Nodup) (h : fields.Sound) :
    (Schema.record name fields).Sound :=
  ⟨hnames, h⟩

theorem Fields.Sound.nil : Fields.nil.Sound := trivial

/-- A field that must be there has no default. -/
theorem Fields.Sound.required (hschema : schema.Sound) (hrest : rest.Sound) :
    (Fields.required name schema rest).Sound :=
  ⟨hschema, nofun, nofun, hrest⟩

/-- **A field with a default that is a datum of its shape.** -/
theorem Fields.Sound.defaulting (hschema : schema.Sound) (hd : schema.Fits AnyReal d)
    (hrest : rest.Sound) : (Fields.defaulting name schema d rest).Sound :=
  ⟨hschema, fun _ hdefault => Option.some.inj hdefault ▸ hd, nofun, hrest⟩

/-- An optional field is nothing when it is left out. -/
theorem Fields.Sound.optional (hopt : schema.isOptional = false) (hschema : schema.Sound)
    (hrest : rest.Sound) : (Fields.optional name schema rest).Sound :=
  ⟨⟨hopt, hschema⟩, fun _ hdefault => .inl (Option.some.inj hdefault).symm, nofun, hrest⟩

end

/-! ## The parts of what is read -/

section

variable {α : Type} {item : Draft → Except Fault α} {dialect : Dialect} {room : Room}

/-- Items that are read as a list are read one by one. -/
theorem forall₂_of_readItems {as : List α} {drafts : List Draft} {closed : Bool}
    (h : readItems item drafts closed = .ok as) :
    List.Forall₂ (fun a d => item d = .ok a) as drafts := by
  obtain ⟨read, hread, hclosed⟩ := bind_eq_ok h
  obtain rfl : read = as := eq_of_whenClosed hclosed
  clear h hclosed
  induction drafts generalizing read with
  | nil => cases hread; exact .nil
  | cons d drafts ih =>
    rw [List.mapM_cons] at hread
    obtain ⟨a, ha, hread⟩ := bind_eq_ok hread
    obtain ⟨as, has, hread⟩ := bind_eq_ok hread
    cases hread
    exact .cons ha (ih as has)

/-- **Entries of any name are read into a table in the order of their keys**, and each of
them is one that was read. -/
theorem sorted_of_readEntries {P : α → Prop} (hP : ∀ d a, item d = .ok a → P a) :
    ∀ (entries : List (Draft × Draft)) (read out : List (String × α)),
      (read.map (·.1)).Pairwise (· < ·) → (∀ e ∈ read, P e.2) →
      readEntries item read entries = .ok out →
      (out.map (·.1)).Pairwise (· < ·) ∧ ∀ e ∈ out, P e.2 := by
  intro entries
  induction entries with
  | nil =>
    intro read out hsorted hread h
    cases h
    exact ⟨hsorted, hread⟩
  | cons entry entries ih =>
    obtain ⟨key, d⟩ := entry
    intro read out hsorted hread h
    cases key with
    | text q =>
      rw [readEntries] at h
      split at h
      · cases h
      · next key _ =>
        obtain ⟨a, ha, h⟩ := bind_eq_ok h
        refine ih _ out (pairwise_insertSorted a hsorted) (fun e he => ?_) h
        obtain rfl | he := mem_insertSorted he
        · exact hP d a ha
        · exact hread e he
    | _ => cases h

/-- **The fields that are read** were read from drafts. -/
theorem lookup_of_readFields {field : String → Draft → Option (Except Fault α)} :
    ∀ (entries : List (Draft × Draft)) (read after : List (String × α)),
      (∀ key a, read.lookup key = some a → ∃ d, field key d = some (.ok a)) →
      readFields field read entries = .ok after →
      ∀ key a, after.lookup key = some a → ∃ d, field key d = some (.ok a) := by
  intro entries
  induction entries with
  | nil =>
    intro read after hread h
    cases h
    exact hread
  | cons entry entries ih =>
    obtain ⟨key, d⟩ := entry
    intro read after hread h
    cases key with
    | text q =>
      rw [readFields] at h
      split at h
      · cases h
      · next key _ =>
        split at h
        · cases h
        · split at h
          · split at h
            · exact ih read after hread h
            · cases h
          · cases h
          · next a ha =>
            refine ih ((key, a) :: read) after (fun key' b hb => ?_) h
            rw [lookup_cons_eq] at hb
            split at hb
            · next heq =>
              obtain rfl := Option.some.inj hb
              exact ⟨d, heq ▸ ha⟩
            · exact hread key' b hb
    | _ => cases h

/-- **A choice that is read is one of the names.** -/
theorem mem_of_readChoice {names : List String} {draft : Draft} {d : Datum}
    (h : readChoice dialect names draft = .ok d) : ∃ name, d = .choice name ∧ name ∈ names := by
  have hname : ∀ {s : String} {d : Datum}, readName names s = .ok d →
      ∃ name, d = .choice name ∧ name ∈ names := by
    intro s d h
    unfold readName at h
    split at h
    · next hin =>
      cases h
      exact ⟨s, rfl, List.contains_iff_mem.mp hin⟩
    · cases h
  -- beside the name of a choice that is a table there is nothing that would change it
  have htable : ∀ {key beside : Draft} {closed : Bool} {d : Datum},
      (do
        let name ← readText "variant identifier" key
        let choice ← readName names name
        readUnit dialect beside
        whenClosed closed choice) = .ok d → ∃ name, d = .choice name ∧ name ∈ names := by
    intro key beside closed d h
    obtain ⟨s, -, h⟩ := bind_eq_ok h
    obtain ⟨choice, hchoice, h⟩ := bind_eq_ok h
    obtain ⟨-, -, h⟩ := bind_eq_ok h
    unfold whenClosed at h
    split at h
    · exact Except.ok.inj h ▸ hname hchoice
    · cases h
  unfold readChoice at h
  split at h
  · split at h
    · exact hname h
    · cases h
  · split at h
    · cases h
    · obtain ⟨_, _, h⟩ := bind_eq_ok h
      cases h
    · cases h
  · dsimp only at h
    split at h
    · exact htable h
    · split at h
      · exact htable h
      · cases h
    · split at h
      · exact htable h
      · cases h
  · split at h <;> cases h

/-- **A field of a record is what was read for it**, or what it is when left out. -/
theorem Fields.of_collect_cons {after : List (String × Datum)} {name : String} {schema : Schema}
    {absence : Absence} {omitted : Bool} {rest : Fields} {out : List Datum}
    (h : (Fields.cons name schema absence omitted rest).collect after = .ok out) :
    ∃ d ds, out = d :: ds ∧ rest.collect after = .ok ds ∧
      (after.lookup name = some d ∨ (after.lookup name = none ∧ absence.inTable? = some d)) := by
  have hfield : ∃ d, (do let ds ← rest.collect after; .ok (d :: ds)) = Except.ok out ∧
      (after.lookup name = some d ∨ (after.lookup name = none ∧ absence.inTable? = some d)) := by
    unfold Fields.collect at h
    cases hlookup : after.lookup name with
    | some d =>
      rw [hlookup] at h
      exact ⟨d, h, .inl rfl⟩
    | none =>
      rw [hlookup] at h
      cases absence with
      | refused => cases h
      | inTable d => exact ⟨d, h, .inr ⟨rfl, rfl⟩⟩
      | anywhere d => exact ⟨d, h, .inr ⟨rfl, rfl⟩⟩
  obtain ⟨d, h, hd⟩ := hfield
  obtain ⟨ds, hds, h⟩ := bind_eq_ok h
  cases h
  exact ⟨d, ds, rfl, hds, hd⟩

/-- **A field of a record that is read from a list** is the next item, or what the field is
everywhere when it is left out. -/
theorem Fields.of_readInOrder_cons {name : String} {schema : Schema} {absence : Absence}
    {omitted : Bool} {rest : Fields} {wanted : String} {total : Nat} {items : List Draft}
    {closed : Bool} {index : Nat} {out : List Datum}
    (h : (Fields.cons name schema absence omitted rest).readInOrder dialect room wanted total
      items closed index = .ok out) :
    ∃ d ds, out = d :: ds ∧
      rest.readInOrder dialect room wanted total items.tail closed (index + 1) = .ok ds ∧
      ((∃ item, schema.read dialect room item = .ok d) ∨ absence.inTable? = some d) := by
  cases items with
  | cons item items =>
    obtain ⟨d, hd, h⟩ := bind_eq_ok h
    obtain ⟨ds, hds, h⟩ := bind_eq_ok h
    cases h
    exact ⟨d, ds, rfl, hds, .inl ⟨item, hd⟩⟩
  | nil =>
    obtain ⟨-, -, h⟩ := bind_eq_ok h
    cases absence with
    | anywhere d =>
      obtain ⟨ds, hds, h⟩ := bind_eq_ok h
      cases h
      exact ⟨d, ds, rfl, hds, .inr rfl⟩
    | _ => cases h

end

/-! ## What is read, shape by shape -/

section

variable {dialect : Dialect} {room : Room} {draft : Draft} {d : Datum} {s : Schema}

/-- **Where nothing is allowed, nothing is read**, or something by the shape. -/
theorem Schema.optional_of_read (h : (Schema.optional s).read dialect room draft = .ok d) :
    (draft = .null ∧ d = .absent) ∨
      ∃ d', d = .present d' ∧ s.read dialect room draft = .ok d' := by
  by_cases hnull : draft = .null
  · subst hnull
    exact .inl ⟨rfl, (Except.ok.inj h).symm⟩
  · rw [read_optional hnull] at h
    obtain ⟨d', hd, rfl⟩ := map_eq_ok h
    exact .inr ⟨d', rfl, hd⟩

/-- **A list that is read** has items that are, each in the room within it. -/
theorem Schema.sequence_of_read (h : (Schema.sequence s).read dialect room draft = .ok d) :
    ∃ items closed inner ds, draft = .list items closed ∧ room.enter = some inner ∧
      d = .sequence ds ∧ List.Forall₂ (fun d item => s.read dialect inner item = .ok d) ds items := by
  cases draft with
  | list items closed =>
    rw [Schema.read] at h
    split at h
    · cases h
    · next inner henter =>
      obtain ⟨ds, hds, rfl⟩ := map_eq_ok h
      exact ⟨items, closed, inner, ds, rfl, henter, rfl, forall₂_of_readItems hds⟩
  | _ => cases h

/-- **A table with keys of any name that is read** has entries that are. -/
theorem Schema.dictionary_of_read (h : (Schema.dictionary s).read dialect room draft = .ok d) :
    ∃ entries closed inner out, draft.asTable = .table entries closed ∧
      room.enter = some inner ∧ d = .dictionary out ∧
      readEntries (s.read dialect inner) [] entries = .ok out := by
  rw [Schema.read] at h
  split at h
  · next entries closed htable =>
    split at h
    · cases h
    · next inner henter =>
      obtain ⟨out, hout, h⟩ := bind_eq_ok h
      obtain rfl := eq_of_whenClosed h
      exact ⟨entries, closed, inner, out, htable, henter, rfl, hout⟩
  · cases h

/-- **A record that is read** has fields that are found under their names in a table, or in
their order in a list. -/
theorem Schema.record_of_read {name : String} {fields : Fields}
    (h : (Schema.record name fields).read dialect room draft = .ok d) :
    ∃ inner ds, room.enter = some inner ∧ d = .record ds ∧
      ((∃ entries closed after, draft.asTable = .table entries closed ∧
          readFields (fields.readNamed dialect inner) [] entries = .ok after ∧
          fields.collect after = .ok ds) ∨
        ∃ items closed, draft.asTable = .list items closed ∧
          fields.readInOrder dialect inner (recordSize name fields.length) items.length items
            closed 0 = .ok ds) := by
  rw [Schema.read] at h
  split at h
  · next entries closed htable =>
    split at h
    · cases h
    · next inner henter =>
      obtain ⟨after, hafter, h⟩ := bind_eq_ok h
      obtain ⟨-, -, h⟩ := bind_eq_ok h
      obtain ⟨ds, hds, rfl⟩ := map_eq_ok h
      exact ⟨inner, ds, henter, rfl, .inl ⟨entries, closed, after, htable, hafter, hds⟩⟩
  · next items closed hlist =>
    split at h
    · cases h
    · next inner henter =>
      obtain ⟨ds, hds, rfl⟩ := map_eq_ok h
      exact ⟨inner, ds, henter, rfl, .inr ⟨items, closed, hlist, hds⟩⟩
  · cases h

end

/-! ## What is read from some draft -/

section

variable {dialect : Dialect} {s : Schema} {d : Datum}

/-- **What is read by a shape**, from some draft. -/
def Schema.Reads (dialect : Dialect) (s : Schema) (d : Datum) : Prop :=
  ∃ room draft, s.read dialect room draft = .ok d

/-- **Fields each of which was read by its shape**, or is what it is when left out. -/
def Fields.Each (dialect : Dialect) : Fields → List Datum → Prop
  | .nil, ds => ds = []
  | .cons _ s absence _ rest, ds => ∃ d ds', ds = d :: ds' ∧
      (s.Reads dialect d ∨ absence.inTable? = some d) ∧ rest.Each dialect ds'

/-- Fields that are collected from what was read for them. -/
theorem Fields.each_of_collect (room : Room) : ∀ (fields : Fields)
    {after : List (String × Datum)} {ds : List Datum}, fields.names.Nodup →
    (∀ key ∈ fields.names, ∀ d, after.lookup key = some d →
      ∃ draft, fields.readNamed dialect room key draft = some (.ok d)) →
    fields.collect after = .ok ds → fields.Each dialect ds
  | .nil, _, _, _, _, h => by
    cases h
    rfl
  | .cons name schema absence omitted rest, after, _, hnodup, hread, h => by
    obtain ⟨hname, hnodup⟩ := List.nodup_cons.mp hnodup
    obtain ⟨d, ds, rfl, hds, hd⟩ := Fields.of_collect_cons h
    refine ⟨d, ds, rfl, hd.imp (fun hd => ?_) And.right, ?_⟩
    · obtain ⟨draft, hdraft⟩ := hread name List.mem_cons_self d hd
      rw [Fields.readNamed, if_pos rfl] at hdraft
      exact ⟨room, draft, Option.some.inj hdraft⟩
    · refine Fields.each_of_collect room rest hnodup (fun key hkey d hd => ?_) hds
      obtain ⟨draft, hdraft⟩ := hread key (List.mem_cons_of_mem _ hkey) d hd
      rw [Fields.readNamed, if_neg fun heq : key = name => hname (heq ▸ hkey)] at hdraft
      exact ⟨draft, hdraft⟩

/-- Fields that are read from a list. -/
theorem Fields.each_of_readInOrder : ∀ (fields : Fields) {room : Room} {wanted : String}
    {total : Nat} {items : List Draft} {closed : Bool} {index : Nat} {ds : List Datum},
    fields.readInOrder dialect room wanted total items closed index = .ok ds →
    fields.Each dialect ds
  | .nil, _, _, _, _, _, _, _, h => by
    obtain ⟨-, -, h⟩ := bind_eq_ok h
    cases h
    rfl
  | .cons _ _ _ _ rest, room, _, _, _, _, _, _, h => by
    obtain ⟨d, ds, rfl, hds, hd⟩ := Fields.of_readInOrder_cons h
    exact ⟨d, ds, rfl, hd.imp_left fun ⟨item, hitem⟩ => ⟨room, item, hitem⟩,
      Fields.each_of_readInOrder rest hds⟩

/-- **A record that is read has all its fields.** -/
theorem Schema.each_of_reads {name : String} {fields : Fields}
    (hnodup : fields.names.Nodup) (h : (Schema.record name fields).Reads dialect d) :
    ∃ ds, d = .record ds ∧ fields.Each dialect ds := by
  obtain ⟨_, _, h⟩ := h
  obtain ⟨inner, ds, -, rfl, hread⟩ := Schema.record_of_read h
  obtain ⟨entries, _, after, -, hafter, hds⟩ | ⟨_, _, -, hds⟩ := hread
  · have hread := lookup_of_readFields entries [] after nofun hafter
    exact ⟨ds, rfl, Fields.each_of_collect inner fields hnodup
      (fun key _ d hd => hread key d hd) hds⟩
  · exact ⟨ds, rfl, Fields.each_of_readInOrder fields hds⟩

/-- A list that is read has items that are. -/
theorem Schema.sequence_of_reads (h : (Schema.sequence s).Reads dialect d) :
    ∃ ds, d = .sequence ds ∧ ∀ d ∈ ds, s.Reads dialect d := by
  obtain ⟨_, _, h⟩ := h
  obtain ⟨items, _, inner, ds, -, -, rfl, hall⟩ := Schema.sequence_of_read h
  have hitems := hall.imp fun d item hd =>
    And.intro (show s.Reads dialect d from ⟨inner, item, hd⟩) hd
  exact ⟨ds, rfl, ((List.forall₂_and_left ds items).mp hitems).1⟩

/-- A table with keys of any name that is read is in the order of its keys, and has entries
that are read. -/
theorem Schema.dictionary_of_reads (h : (Schema.dictionary s).Reads dialect d) :
    ∃ entries, d = .dictionary entries ∧ (entries.map (·.1)).Pairwise (· < ·) ∧
      ∀ e ∈ entries, s.Reads dialect e.2 := by
  obtain ⟨_, _, h⟩ := h
  obtain ⟨entries, _, inner, out, -, -, rfl, hout⟩ := Schema.dictionary_of_read h
  have hall := sorted_of_readEntries
    (fun draft d hd => show s.Reads dialect d from ⟨inner, draft, hd⟩) entries [] out
    List.Pairwise.nil (fun _ he => absurd he List.not_mem_nil) hout
  exact ⟨out, rfl, hall⟩

/-- Where nothing is allowed, nothing is read, or something by the shape. -/
theorem Schema.optional_of_reads (h : (Schema.optional s).Reads dialect d) :
    d = .absent ∨ ∃ d', d = .present d' ∧ s.Reads dialect d' := by
  obtain ⟨room, draft, h⟩ := h
  obtain ⟨-, rfl⟩ | ⟨d', rfl, hd⟩ := Schema.optional_of_read h
  · exact .inl rfl
  · exact .inr ⟨d', rfl, room, draft, hd⟩

end

/-! ## The whole -/

section

variable {dialect : Dialect}

mutual

/-- **What is read by a shape is a datum of it**, in every dialect and from every draft. -/
theorem Schema.fits_of_read : ∀ (s : Schema) {room : Room} {draft : Draft} {d : Datum}, s.Sound →
    s.read dialect room draft = .ok d → s.Fits AnyReal d
  | .text, _, _, _, _, h => by
    obtain ⟨s, -, rfl⟩ := map_eq_ok h
    exact ⟨s, rfl⟩
  | .path, _, _, _, _, h => by
    obtain ⟨s, -, rfl⟩ := map_eq_ok h
    exact ⟨s, rfl⟩
  | .bytes, _, _, _, _, h => by
    obtain ⟨bs, -, rfl⟩ := map_eq_ok h
    exact ⟨bs, rfl⟩
  | .flag, _, _, _, _, h => by
    obtain ⟨b, -, rfl⟩ := map_eq_ok h
    exact ⟨b, rfl⟩
  | .natural w, _, _, _, _, h => by
    obtain ⟨n, hn, rfl⟩ := map_eq_ok h
    refine ⟨n, rfl, ?_⟩
    unfold readNatural at hn
    split at hn
    · split at hn
      · next hlt => exact Except.ok.inj hn ▸ hlt.2
      · cases hn
    · cases hn
  | .real, _, _, _, _, h => by
    obtain ⟨x, -, rfl⟩ := map_eq_ok h
    exact ⟨x, rfl, trivial⟩
  | .anything, _, _, _, hs, _ => hs.elim
  | .optional s, room, draft, _, hs, h => by
    obtain rfl | ⟨d, rfl, _, _, hd⟩ := Schema.optional_of_reads ⟨room, draft, h⟩
    · exact .inl rfl
    · exact .inr ⟨d, rfl, hs.1, Schema.fits_of_read s hs.2 hd⟩
  | .sequence s, room, draft, _, hs, h => by
    obtain ⟨ds, rfl, hall⟩ := Schema.sequence_of_reads ⟨room, draft, h⟩
    refine ⟨ds, rfl, fun d hd => ?_⟩
    obtain ⟨_, _, hd⟩ := hall d hd
    exact Schema.fits_of_read s hs hd
  | .dictionary s, room, draft, _, hs, h => by
    obtain ⟨entries, rfl, hsorted, hall⟩ := Schema.dictionary_of_reads ⟨room, draft, h⟩
    refine ⟨entries, rfl, hsorted, fun e he => ?_⟩
    obtain ⟨_, _, he⟩ := hall e he
    exact Schema.fits_of_read s hs he
  | .choice names, _, _, _, _, h => mem_of_readChoice h
  | .record name fields, room, draft, _, hs, h => by
    obtain ⟨ds, rfl, heach⟩ := Schema.each_of_reads hs.1 ⟨room, draft, h⟩
    exact ⟨ds, rfl, hs.1, Fields.fits_of_each fields hs.2 heach⟩

/-- Fields that were read, or left out, are data of their shapes. -/
theorem Fields.fits_of_each : ∀ (fields : Fields) {ds : List Datum}, fields.Sound →
    fields.Each dialect ds → fields.Fits AnyReal ds
  | .nil, _, _, h => h
  | .cons name schema absence omitted rest, _, hs, h => by
    obtain ⟨hschema, habsence, homitted, hrest⟩ := hs
    obtain ⟨d, ds, rfl, hd, heach⟩ := h
    refine ⟨d, ds, rfl, ?_, homitted, Fields.fits_of_each rest hrest heach⟩
    obtain ⟨_, _, hd⟩ | hd := hd
    · exact Schema.fits_of_read schema hschema hd
    · exact habsence d hd

end

end

/-! ## What is read of what was written -/

section

variable {numbers : Number → Draft} {real : Float → Prop} {dialect : Dialect}

/-- A double that is read as itself. -/
def Kept (numbers : Number → Draft) (x : Float) : Prop :=
  readReal (numbers (.real x)) = .ok x

/-- A shape that has nothing allows nothing. -/
theorem Schema.fits_absent {s : Schema} {real' : Float → Prop} (h : s.Fits real .absent) :
    s.Fits real' .absent := by
  cases s with
  | optional s => exact .inl rfl
  | anything => exact h.elim
  | _ =>
    obtain ⟨_, ⟨⟩, _⟩ := h

/-- Every field has its reading. -/
theorem Fields.exists_readNamed {room : Room} {key : String} {draft : Draft} :
    ∀ {fields : Fields}, key ∈ fields.names →
      ∃ result, fields.readNamed dialect room key draft = some result
  | .cons name schema _ _ rest, h => by
    unfold Fields.readNamed
    split
    · exact ⟨_, rfl⟩
    · next hne => exact exists_readNamed (List.mem_of_ne_of_mem hne h)

/-- **Entries that are read as the fields of a record** are each read, when they are entries
of fields. -/
theorem ok_of_readFields {α : Type} {field : String → Draft → Option (Except Fault α)} :
    ∀ (entries : List (String × Value)) (read after : List (String × α)),
      (∀ e ∈ entries, ∃ result, field e.1 (e.2.draft numbers) = some result) →
      readFields field read (draftEntries numbers entries) = .ok after →
      ∀ e ∈ entries, ∃ a, field e.1 (e.2.draft numbers) = some (.ok a) := by
  intro entries
  induction entries with
  | nil => exact fun _ _ _ _ e he => absurd he List.not_mem_nil
  | cons entry entries ih =>
    obtain ⟨key, v⟩ := entry
    intro read after hfield h
    obtain ⟨result, hresult⟩ := hfield (key, v) List.mem_cons_self
    have hresult : field key (v.draft numbers) = some result := hresult
    simp only [draftEntries, readFields, Json.text?_ofString, hresult] at h
    split at h
    · cases h
    · cases result with
      | error fault => cases h
      | ok a =>
        intro e he
        obtain rfl | he := List.mem_cons.mp he
        · exact ⟨a, hresult⟩
        · exact ih _ after (fun e he => hfield e (List.mem_cons_of_mem _ he)) h e he

/-- Entries that are read as a table are read one by one. -/
theorem forall₂_of_readEntries {α : Type} {item : Draft → Except Fault α} :
    ∀ (entries : List (String × Value)) (read out : List (String × α)),
      readEntries item read (draftEntries numbers entries) = .ok out →
      ∃ as : List (String × α), as.map (·.1) = entries.map (·.1) ∧
        List.Forall₂ (fun a e => e.1 = a.1 ∧ item (e.2.draft numbers) = .ok a.2) as entries := by
  intro entries
  induction entries with
  | nil => exact fun _ _ _ => ⟨[], rfl, .nil⟩
  | cons entry entries ih =>
    obtain ⟨key, v⟩ := entry
    intro read out h
    simp only [draftEntries, readEntries, Json.text?_ofString] at h
    obtain ⟨a, ha, h⟩ := bind_eq_ok h
    obtain ⟨as, hkeys, has⟩ := ih _ out h
    exact ⟨(key, a) :: as, congrArg (key :: ·) hkeys, .cons ⟨rfl, ha⟩ has⟩

mutual

/-- **A datum that is read back from what was written of it** has only doubles that are read
as themselves. -/
theorem Schema.kept_of_read_write : ∀ (s : Schema) {d : Datum} {room : Room}, s.Fits real d →
    s.read dialect room ((s.write d).draft numbers) = .ok d → s.Fits (Kept numbers) d
  | .text, _, _, hfits, _ => hfits
  | .path, _, _, hfits, _ => hfits
  | .bytes, _, _, hfits, _ => hfits
  | .flag, _, _, hfits, _ => hfits
  | .natural _, _, _, hfits, _ => hfits
  | .choice _, _, _, hfits, _ => hfits
  | .anything, _, _, hfits, _ => hfits.elim
  | .real, _, _, hfits, h => by
    obtain ⟨x, rfl, -⟩ := hfits
    obtain ⟨y, hy, heq⟩ := map_eq_ok (g := Datum.real) h
    cases heq
    exact ⟨x, rfl, hy⟩
  | .optional s, _, _, hfits, h => by
    obtain rfl | ⟨d, rfl, hs, hfits⟩ := hfits
    · exact .inl rfl
    · obtain ⟨-, heq⟩ | ⟨d', heq, hd⟩ := Schema.optional_of_read h <;> cases heq
      exact .inr ⟨d, rfl, hs, Schema.kept_of_read_write s hfits hd⟩
  | .sequence s, _, _, hfits, h => by
    obtain ⟨ds, rfl, hfits⟩ := hfits
    obtain ⟨items, _, _, _, hdraft, -, heq, hitems⟩ := Schema.sequence_of_read h
    cases heq
    obtain ⟨rfl, -⟩ := Draft.list.inj hdraft
    rw [draftItems_eq, List.map_map, List.forall₂_map_right_iff, List.forall₂_same] at hitems
    exact ⟨ds, rfl, fun d hd => Schema.kept_of_read_write s (hfits d hd) (hitems d hd)⟩
  | .dictionary s, _, _, hfits, h => by
    obtain ⟨entries, rfl, hsorted, hfits⟩ := hfits
    obtain ⟨drafts, _, _, _, hdraft, -, heq, hout⟩ := Schema.dictionary_of_read h
    cases heq
    obtain ⟨rfl, -⟩ := Draft.table.inj hdraft
    -- the entries that are read are those that were written, for their keys are in order
    obtain ⟨as, hkeys, has⟩ := forall₂_of_readEntries _ _ _ hout
    rw [List.map_map] at hkeys
    have hread := readEntries_ok has [] (hkeys ▸ hsorted)
    obtain rfl : entries = as := Except.ok.inj (hout.symm.trans hread)
    rw [List.forall₂_map_right_iff, List.forall₂_same] at has
    exact ⟨entries, rfl, hsorted,
      fun e he => Schema.kept_of_read_write s (hfits e he) (has e he).2⟩
  | .record name fields, _, _, hfits, h => by
    obtain ⟨ds, rfl, hnodup, hfits⟩ := hfits
    obtain ⟨-, hkeys⟩ := Fields.writes_write fields hnodup hfits
    obtain ⟨inner, _, -, heq, hread⟩ := Schema.record_of_read h
    cases heq
    -- what was written is a table
    obtain ⟨_, _, after, hdraft, hafter, hds⟩ | ⟨_, _, hdraft, -⟩ := hread <;> cases hdraft
    have hknown := ok_of_readFields _ _ _ (fun e he =>
      Fields.exists_readNamed (hkeys.subset (List.mem_map_of_mem he))) hafter
    obtain ⟨after', hread, hfound, -⟩ := readFields_ok _ [] (hnodup.sublist hkeys)
      (fun _ _ => rfl) hknown
    obtain rfl : after = after' := Except.ok.inj (hafter.symm.trans hread)
    have hnamed : ∀ key ∈ fields.names, ∀ v, (fields.write ds).lookup key = some v →
        ∃ d, fields.readNamed dialect inner key (v.draft numbers) = some (.ok d) ∧
          after.lookup key = some d := by
      intro key _ v hv
      obtain ⟨a, ha⟩ := hknown (key, v) (mem_of_lookup hv)
      exact ⟨a, ha, hfound key v a hv ha⟩
    exact ⟨ds, rfl, hnodup, Fields.kept_of_collect_write fields hnodup hfits hnamed hds⟩

/-- The fields of a record that is read back from what was written of it. -/
theorem Fields.kept_of_collect_write : ∀ (fields : Fields) {ds : List Datum} {room : Room}
    {after : List (String × Datum)}, fields.names.Nodup → fields.Fits real ds →
    (∀ key ∈ fields.names, ∀ v, (fields.write ds).lookup key = some v →
      ∃ d, fields.readNamed dialect room key (v.draft numbers) = some (.ok d) ∧
        after.lookup key = some d) →
    fields.collect after = .ok ds → fields.Fits (Kept numbers) ds
  | .nil, _, _, _, _, hfits, _, _ => hfits
  | .cons name schema absence omitted rest, _, room, after, hnodup, hfits, hread, h => by
    obtain ⟨d, ds, rfl, hd, homitted, hfits⟩ := hfits
    obtain ⟨hname, hnodup⟩ := List.nodup_cons.mp hnodup
    obtain ⟨_, _, heq, hds, hcollected⟩ := Fields.of_collect_cons h
    cases heq
    refine ⟨d, ds, rfl, ?_, homitted, ?_⟩
    · obtain ⟨rfl, -, -⟩ | heq := rest.write_cons name schema absence omitted d ds
      · exact Schema.fits_absent hd
      · obtain ⟨a, ha, hfound⟩ := hread name List.mem_cons_self (schema.write d)
          (heq ▸ List.lookup_cons_self)
        rw [Fields.readNamed, if_pos rfl] at ha
        obtain hcollected | ⟨hnone, -⟩ := hcollected
        · obtain rfl := Option.some.inj (hcollected.symm.trans hfound)
          exact Schema.kept_of_read_write schema hd (Option.some.inj ha)
        · cases hnone.symm.trans hfound
    · have hread : ∀ key ∈ rest.names, ∀ v, (rest.write ds).lookup key = some v →
          ∃ d, rest.readNamed dialect room key (v.draft numbers) = some (.ok d) ∧
            after.lookup key = some d := by
        intro key hkey v hv
        have hne : key ≠ name := fun heq => hname (heq ▸ hkey)
        have hlookup : ((Fields.cons name schema absence omitted rest).write (d :: ds)).lookup key
            = some v := by
          obtain ⟨-, -, heq⟩ | heq := rest.write_cons name schema absence omitted d ds
          · rw [heq, hv]
          · rw [heq, lookup_cons_eq, if_neg hne, hv]
        obtain ⟨a, ha, hfound⟩ := hread key (List.mem_cons_of_mem _ hkey) v hlookup
        rw [Fields.readNamed, if_neg hne] at ha
        exact ⟨a, ha, hfound⟩
      exact Fields.kept_of_collect_write rest hnodup hfits hread hds

end

end

end Courier.Document
