import Courier.Proofs.Document.Sameness
import Courier.Proofs.Json.Double
import Courier.Proofs.Json.Numerals
/-!
# A document that was read is read again

What a text is read as has numbers that the text has, and nests no deeper than there is
room for (`fits_of_parse`). Sorting its tables changes neither. So when the numbers are
read as themselves from what is written of them, the document that was read can be
written and is read again as itself (`parse_write`): the reader never puts more into a
document than a text of it has room for.
-/

namespace Courier.Document

/-- **A draft whose numbers are among certain ones**, and each of them has a value. Dates and
numbers of more than 64 bits are not in it, and of its tables the keys do not count. -/
inductive Draft.Among (P : Number → Prop) : Draft → Prop
  /-- Nothing. -/
  | null : Among P .null
  /-- A flag. -/
  | flag (b : Bool) : Among P (.flag b)
  /-- A number. -/
  | number {n : Option Number} (h : ∃ k, n = some k ∧ P k) : Among P (.number n)
  /-- A text. -/
  | text (q : Quoted) : Among P (.text q)
  /-- A list. -/
  | list {items : List Draft} (closed : Bool) (h : ∀ d ∈ items, Among P d) :
      Among P (.list items closed)
  /-- A table. -/
  | table {entries : List (Draft × Draft)} (closed : Bool) (h : ∀ e ∈ entries, Among P e.2) :
      Among P (.table entries closed)
  /-- A fault. -/
  | fault : Among P .fault

/-- **A document that there is room for**, with its numbers among certain ones: so many lists
and tables may stand within each other in it. -/
inductive Value.Fits (P : Number → Prop) : Nat → Value → Prop
  /-- Nothing. -/
  | null (room : Nat) : Fits P room .null
  /-- A flag. -/
  | flag (room : Nat) (b : Bool) : Fits P room (.flag b)
  /-- A number. -/
  | number (room : Nat) {n : Number} (h : P n) : Fits P room (.number n)
  /-- A text. -/
  | text (room : Nat) (s : String) : Fits P room (.text s)
  /-- A list. -/
  | list {room : Nat} {items : List Value} (h : ∀ v ∈ items, Fits P room v) :
      Fits P (room + 1) (.list items)
  /-- A table. -/
  | table {room : Nat} {entries : List (String × Value)} (h : ∀ e ∈ entries, Fits P room e.2) :
      Fits P (room + 1) (.table entries)

section

variable {P : Number → Prop} {room : Nat}

/-- Each item of a list that is read was one of its drafts. -/
theorem exists_of_toValues {room : Room} {items : List Draft} {vs : List Value}
    (h : toValues room items = .ok vs) : ∀ v ∈ vs, ∃ d ∈ items, d.toValue room = .ok v := by
  induction items generalizing vs with
  | nil =>
    cases h
    exact fun v hv => absurd hv List.not_mem_nil
  | cons d rest ih =>
    obtain ⟨w, hw, h⟩ := bind_eq_ok h
    obtain ⟨ws, hws, h⟩ := bind_eq_ok h
    cases h
    intro v hv
    obtain rfl | hv := List.mem_cons.mp hv
    · exact ⟨d, List.mem_cons_self, hw⟩
    · obtain ⟨d', hd', hv'⟩ := ih hws v hv
      exact ⟨d', List.mem_cons_of_mem d hd', hv'⟩

/-- Each document of a table that is read was one of its drafts. -/
theorem exists_of_toEntries {room : Room} {entries : List (Draft × Draft)}
    {vs : List (String × Value)} (h : toEntries room entries = .ok vs) :
    ∀ e ∈ vs, ∃ d ∈ entries, d.2.toValue room = .ok e.2 := by
  induction entries generalizing vs with
  | nil =>
    cases h
    exact fun e he => absurd he List.not_mem_nil
  | cons entry rest ih =>
    obtain ⟨key, d⟩ := entry
    cases key with
    | text q =>
      rw [toEntries] at h
      split at h
      · cases h
      · obtain ⟨w, hw, h⟩ := bind_eq_ok h
        obtain ⟨ws, hws, h⟩ := bind_eq_ok h
        cases h
        intro e he
        obtain rfl | he := List.mem_cons.mp he
        · exact ⟨(.text q, d), List.mem_cons_self, hw⟩
        · obtain ⟨d', hd', hv'⟩ := ih hws e he
          exact ⟨d', List.mem_cons_of_mem _ hd', hv'⟩
    | _ => cases h

/-- **What a draft is read as** has its numbers, and there is room for it. -/
theorem Draft.Among.fits {d : Draft} (hd : d.Among P) : ∀ {room : Nat} {v : Value},
    d.toValue (some room) = .ok v → v.Fits P room := by
  induction hd with
  | null =>
    rintro room _ ⟨⟩
    exact .null room
  | flag b =>
    rintro room _ ⟨⟩
    exact .flag room b
  | number hn =>
    obtain ⟨k, rfl, hk⟩ := hn
    rintro room _ ⟨⟩
    exact .number room hk
  | text q =>
    intro room v h
    rw [Draft.toValue] at h
    split at h
    · cases h
      exact .text room _
    · cases h
  | list closed _ ih =>
    intro room v h
    cases room with
    | zero => cases h
    | succ room =>
      obtain ⟨vs, hvs, h⟩ := bind_eq_ok (show (toValues (some room) _ >>= _) = Except.ok v from h)
      obtain rfl := eq_of_whenClosed h
      refine .list fun w hw => ?_
      obtain ⟨d, hd, hw⟩ := exists_of_toValues hvs w hw
      exact ih d hd hw
  | table closed _ ih =>
    intro room v h
    cases room with
    | zero => cases h
    | succ room =>
      obtain ⟨vs, hvs, h⟩ := bind_eq_ok (show (toEntries (some room) _ >>= _) = Except.ok v from h)
      obtain rfl := eq_of_whenClosed h
      refine .table fun e he => ?_
      obtain ⟨d, hd, hv⟩ := exists_of_toEntries hvs e he
      exact ih d hd hv
  | fault =>
    intro room v h
    cases h

/-- **Sorting a document** leaves its numbers as they are, and it needs no more room. -/
theorem Value.Fits.sorted {v : Value} (h : v.Fits P room) : v.sorted.Fits P room := by
  induction h with
  | null room => exact .null room
  | flag room b => exact .flag room b
  | number room hn => exact .number room hn
  | text room s => exact .text room s
  | list _ ih =>
    rw [Value.sorted, sortedItems_eq]
    refine .list fun v hv => ?_
    obtain ⟨w, hw, rfl⟩ := List.mem_map.mp hv
    exact ih w hw
  | table _ ih =>
    rw [Value.sorted, sortedEntries_eq]
    refine .table fun e he => ?_
    obtain ⟨e', he', rfl⟩ := List.mem_map.mp (mem_of_mem_sortEntries he)
    exact ih e' he'

/-- Items are read from their drafts when each of them is. -/
theorem toValues_draftItems {numbers : Number → Draft} {room : Room} {items : List Value}
    (h : ∀ v ∈ items, (v.draft numbers).toValue room = .ok v) :
    toValues room (draftItems numbers items) = .ok items := by
  induction items with
  | nil => rfl
  | cons v rest ih =>
    obtain ⟨hv, hrest⟩ := List.forall_mem_cons.mp h
    rw [draftItems, toValues, hv, ih hrest]
    rfl

/-- Entries are read from their drafts when each of their documents is. -/
theorem toEntries_draftEntries {numbers : Number → Draft} {room : Room}
    {entries : List (String × Value)}
    (h : ∀ e ∈ entries, (e.2.draft numbers).toValue room = .ok e.2) :
    toEntries room (draftEntries numbers entries) = .ok entries := by
  induction entries with
  | nil => rfl
  | cons e rest ih =>
    obtain ⟨key, v⟩ := e
    obtain ⟨hv, hrest⟩ := List.forall_mem_cons.mp h
    rw [draftEntries, toEntries, Json.text?_ofString]
    dsimp only
    rw [hv, ih hrest]
    rfl

/-- **A document that there is room for is read from its draft**, when its numbers are. -/
theorem Value.Fits.toValue_draft {numbers : Number → Draft} {v : Value}
    (hnumbers : ∀ n, P n → numbers n = .number (some n)) (h : v.Fits P room) :
    (v.draft numbers).toValue (some room) = .ok v := by
  induction h with
  | null => rfl
  | flag => rfl
  | number room hn =>
    rw [Value.draft, hnumbers _ hn]
    rfl
  | text room s =>
    rw [Value.draft, Draft.toValue, Json.text?_ofString]
  | @list room items _ ih =>
    show (toValues (some room) (draftItems numbers items) >>= _) = _
    rw [toValues_draftItems ih]
    rfl
  | @table room entries _ ih =>
    show (toEntries (some room) (draftEntries numbers entries) >>= _) = _
    rw [toEntries_draftEntries ih]
    rfl

end

end Courier.Document

namespace Courier.Json

open Courier.Document

/-! ## What is put together -/

section

variable {P : Number → Prop}

/-- An open list or table with its numbers among certain ones. -/
def Frame.Among (P : Number → Prop) : Frame → Prop
  | .list items => ∀ d ∈ items, d.Among P
  | .table entries _ => ∀ e ∈ entries, e.2.Among P

namespace Builder

/-- **A machine with its numbers among certain ones.** -/
structure Among (P : Number → Prop) (b : Builder) : Prop where
  /-- In what is open. -/
  frames : ∀ f ∈ b.frames, f.Among P
  /-- In the document, once it is whole. -/
  whole : b.whole.Among P

theorem among_reverse {items : List Draft} (h : ∀ d ∈ items, d.Among P) (closed : Bool) :
    (Draft.list items.reverse closed).Among P :=
  .list closed fun d hd => h d (List.mem_reverse.mp hd)

theorem among_reverse_entries {entries : List (Draft × Draft)} (h : ∀ e ∈ entries, e.2.Among P)
    (closed : Bool) : (Draft.table entries.reverse closed).Among P :=
  .table closed fun e he => h e (List.mem_reverse.mp he)

variable {b : Builder}

/-- A document put where it belongs. -/
theorem Among.put (hb : b.Among P) {d : Draft} (hd : d.Among P) : (b.put d).Among P := by
  obtain ⟨frames, expect, whole⟩ := b
  cases frames with
  | nil => exact ⟨fun f hf => absurd hf List.not_mem_nil, hd⟩
  | cons frame frames =>
    obtain ⟨hframe, hframes⟩ := List.forall_mem_cons.mp hb.frames
    cases frame with
    | list items =>
      exact ⟨List.forall_mem_cons.mpr ⟨List.forall_mem_cons.mpr ⟨hd, hframe⟩, hframes⟩, .fault⟩
    | table entries key =>
      exact ⟨List.forall_mem_cons.mpr ⟨List.forall_mem_cons.mpr ⟨hd, hframe⟩, hframes⟩, .fault⟩

/-- The end of the innermost list or table. -/
theorem Among.close (hb : b.Among P) : b.close.Among P := by
  obtain ⟨frames, expect, whole⟩ := b
  cases frames with
  | nil => exact hb
  | cons frame frames =>
    obtain ⟨hframe, hframes⟩ := List.forall_mem_cons.mp hb.frames
    have houter : (⟨frames, .value, .fault⟩ : Builder).Among P := ⟨hframes, .fault⟩
    cases frame with
    | list items => exact houter.put (among_reverse hframe true)
    | table entries key => exact houter.put (among_reverse_entries hframe true)

/-- The document that a token is by itself. -/
theorem among_leaf {t : Token} (ht : t.Among P) {d : Draft} (h : leaf? t = some d) :
    d.Among P := by
  cases t with
  | null => cases h; exact .null
  | flag b => cases h; exact .flag b
  | number n => cases h; exact .number ht
  | text q => cases h; exact .text q
  | _ => cases h

/-- A token where a document may stand. -/
theorem Among.value (hb : b.Among P) {t : Token} (ht : t.Among P) {b' : Builder}
    (h : b.value t = some b') : b'.Among P := by
  have hleaf : (leaf? t).map b.put = some b' → b'.Among P := fun h => by
    obtain ⟨d, hd, rfl⟩ := Option.map_eq_some_iff.mp h
    exact hb.put (among_leaf ht hd)
  have hopen : ∀ f : Frame, f.Among P → ∀ expect,
      (⟨f :: b.frames, expect, .fault⟩ : Builder).Among P := fun _ hf _ =>
    ⟨List.forall_mem_cons.mpr ⟨hf, hb.frames⟩, .fault⟩
  cases t with
  | openList =>
    cases h
    exact hopen (.list []) (fun d hd => absurd hd List.not_mem_nil) .firstItem
  | openTable =>
    cases h
    exact hopen (.table [] .fault) (fun e he => absurd he List.not_mem_nil) .firstKey
  | _ => exact hleaf h

/-- A token where a key may stand. -/
theorem Among.key (hb : b.Among P) {t : Token} {b' : Builder} (h : b.key t = some b') :
    b'.Among P := by
  obtain ⟨frames, expect, whole⟩ := b
  unfold Builder.key at h
  split at h
  · next hframes =>
    cases h
    obtain ⟨hframe, hframes⟩ := List.forall_mem_cons.mp (hframes ▸ hb.frames)
    exact ⟨List.forall_mem_cons.mpr ⟨hframe, hframes⟩, .fault⟩
  · cases h

/-- **One more token.** -/
theorem Among.step (hb : b.Among P) {t : Token} (ht : t.Among P) {b' : Builder}
    (h : b.step t = some b') : b'.Among P := by
  have hexpect : ∀ expect, ({ b with expect := expect } : Builder).Among P := fun _ =>
    ⟨hb.frames, hb.whole⟩
  unfold Builder.step at h
  split at h
  · exact hb.value ht h
  · cases h; exact hb.close
  · exact hb.value ht h
  · cases h; exact hexpect _
  · cases h; exact hb.close
  · cases h; exact hb.close
  · exact hb.key h
  · exact hb.key h
  · cases h; exact hexpect _
  · cases h; exact hexpect _
  · cases h; exact hb.close
  · cases h

/-- What stays open when nothing more can be read. -/
theorem among_breakOff {frames : List Frame} (hframes : ∀ f ∈ frames, f.Among P) :
    ∀ {d : Draft}, d.Among P → (breakOff frames d).Among P := by
  induction frames with
  | nil => exact fun hd => hd
  | cons frame frames ih =>
    obtain ⟨hframe, hrest⟩ := List.forall_mem_cons.mp hframes
    intro d hd
    cases frame with
    | list items => exact ih hrest (among_reverse (List.forall_mem_cons.mpr ⟨hd, hframe⟩) false)
    | table entries key =>
      exact ih hrest (among_reverse_entries (List.forall_mem_cons.mpr ⟨hd, hframe⟩) false)

/-- The draft when nothing more can be read. -/
theorem Among.broken (hb : b.Among P) : b.broken.Among P := by
  unfold Builder.broken
  split
  · exact among_breakOff hb.frames .fault
  · exact among_breakOff hb.frames .fault
  · exact hb.whole
  · obtain ⟨frames, expect, whole⟩ := b
    cases frames with
    | nil => exact .fault
    | cons frame frames =>
      obtain ⟨hframe, hframes⟩ := List.forall_mem_cons.mp hb.frames
      cases frame with
      | list items => exact among_breakOff hframes (among_reverse hframe false)
      | table entries key => exact among_breakOff hframes (among_reverse_entries hframe false)

/-- The draft when a key is no text: nothing is read behind it. -/
theorem Among.strayKey (hb : b.Among P) (t : Token) : (b.strayKey t).Among P := by
  have hstray : ∀ {entries key frames}, b.frames = .table entries key :: frames → ∀ d : Draft,
      (breakOff frames (.table ((d, .fault) :: entries).reverse false)).Among P := by
    intro entries key frames heq d
    obtain ⟨hframe, hframes⟩ := List.forall_mem_cons.mp (heq ▸ hb.frames)
    exact among_breakOff hframes
      (among_reverse_entries (List.forall_mem_cons.mpr ⟨.fault, hframe⟩) false)
  unfold Builder.strayKey
  split
  · next heq => exact hstray heq _
  · next heq => exact hstray heq _
  · next heq _ _ =>
    split
    · exact hstray heq _
    · exact hb.broken
  · exact hb.broken

end Builder

/-- **What is put together** has the numbers of its tokens. -/
theorem among_build {ts : List Token} (hts : ∀ t ∈ ts, t.Among P) : ∀ {b : Builder}, b.Among P →
    (build b ts).draft.Among P := by
  induction ts with
  | nil => exact fun hb => hb.broken
  | cons t rest ih =>
    obtain ⟨ht, hrest⟩ := List.forall_mem_cons.mp hts
    intro b hb
    rw [build]
    cases hstep : b.step t with
    | some b' => exact ih hrest (hb.step ht hstep)
    | none =>
      dsimp only
      split
      · exact hb.strayKey t
      · exact hb.broken

/-- **What a text is read as** has numbers that the text has, and nests as deep as there is room
for at most. -/
theorem fits_of_parse {s : String} (hs : ∀ t ∈ tokens s.toList, t.Among P) {v : Value}
    (h : parse s = .ok v) : v.Fits P 127 := by
  have hdraft : (read s).draft.Among P :=
    among_build hs ⟨fun f hf => absurd hf List.not_mem_nil, .fault⟩
  obtain ⟨w, hw, hclosed⟩ := bind_eq_ok h
  obtain rfl : w = v := eq_of_whenClosed hclosed
  obtain ⟨datum, hdatum, hw⟩ := bind_eq_ok hw
  obtain ⟨v, hv, rfl⟩ := map_eq_ok hdatum
  cases hw
  exact hdraft.fits hv

end

/-! ## What is written again -/

/-- **A whole number of 64 bits is read as itself**, and so is the zero with a minus sign. -/
theorem numberDraft_of_whole {n : Number} (h : Whole n) :
    numberDraft n = .number (some n) := by
  cases h with
  | integer low high =>
    have hword : (Text.word64 : Int) = 0xFFFFFFFFFFFFFFFF := rfl
    unfold numberDraft
    rw [reread_integer (by omega) (by omega)]
  | negativeZero =>
    have hbits : (Decimal.negate true 0.0).toBits.toNat = 0x8000000000000000 := by decide +kernel
    have hmagnitude : Decimal.magnitude (Decimal.negate true 0.0) = .finite 0 (-1074) := by
      unfold Decimal.magnitude
      rw [hbits]
      rfl
    exact numberDraft_of_short hmagnitude (by decide)

/-- **A document that was read is read again** from what is written of it. -/
theorem parse_write {v : Value} (h : v.Fits Whole 127) : parse (write v) = .ok v := by
  have hdraft := h.toValue_draft fun _ => numberDraft_of_whole
  refine (decode_of_read (read_write v)).trans ?_
  have hread : anything.schema.read .json Dialect.json.room (v.draft numberDraft)
      = .ok (.anything v) := congrArg (Except.map Datum.anything) hdraft
  unfold Codec.ofDraft
  rw [hread]
  rfl

end Courier.Json
