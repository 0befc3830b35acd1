import Courier.Proofs.Delivery.Coherence
import Courier.Proofs.Json.Compact
import Courier.Proofs.Results
import Courier.Proofs.Source.Records
/-!
# Which events of a source have the same identity

A line may name its event, by a text or by a number; the event of any other line is
called after the number of the line. A name of that kind is no numeral, whatever the
number (`fallbackId_ne_number`), and shows which line it comes from (`fallbackId_inj`).
So two lines have events of the same identity only when both give the same name, or
when one of them gives the text that the other one is called by. A source where neither
happens has records of different events only, and a ledger can be opened for each of
them (`Source.ids_apart`).
-/

namespace Courier

namespace Source

open Courier.Delivery (Ledger)
open Courier.Document

/-! ## Names -/

theorem fallbackId_inj {m n : Nat} (h : fallbackId m = fallbackId n) : m = n :=
  Text.toString_nat_inj ((String.append_right_inj "line-").mp h)

/-- **A name after a line is no numeral**: it has a letter that no number is written with. -/
theorem fallbackId_ne_number (n : Nat) (x : Number) :
    fallbackId n ≠ String.ofList (Json.number x) := by
  intro h
  have hmem : 'i' ∈ (fallbackId n).toList := by
    show 'i' ∈ ("line-" ++ toString n).toList
    rw [String.toList_append]
    exact List.mem_append_left _ (by decide)
  rw [h, String.toList_ofList] at hmem
  exact absurd (Json.inNumber_number x 'i' hmem) (by decide)

/-- What a document says in a field is a text of its own, or a number as it is written. -/
theorem fieldText_eq_some_iff {document : Option Value} {field : Option String} {t : String} :
    fieldText document field = some t ↔ ∃ d f, document = some d ∧ field = some f ∧
      (d.get? f = some (.text t) ∨
        ∃ x, d.get? f = some (.number x) ∧ t = String.ofList (Json.number x)) := by
  unfold fieldText
  cases document with
  | none => simp
  | some d =>
    cases field with
    | none => simp
    | some f =>
      -- what matters is only what the field holds
      have hboth : (∃ d' f', some d = some d' ∧ some f = some f' ∧
          (d'.get? f' = some (.text t) ∨
            ∃ x, d'.get? f' = some (.number x) ∧ t = String.ofList (Json.number x)))
          ↔ d.get? f = some (.text t) ∨
            ∃ x, d.get? f = some (.number x) ∧ t = String.ofList (Json.number x) := by
        simp
      rw [hboth]
      simp only [Option.bind_eq_bind, Option.bind_some]
      generalize d.get? f = found
      cases found with
      | none => simp
      | some v => cases v <;> simp [eq_comm]

/-! ## The names that lines give -/

section

variable (s : Source) (bytes : List UInt8)

/-- **What a line says in the field that names its event.** -/
def ValueAt (n : Nat) (v : Value) : Prop :=
  0 < n ∧ ∃ line text document field, (linesOf bytes)[n - 1]? = some line ∧
    Text.Utf8.decode (dropReturn line) = .ok text ∧
    Json.parse (String.ofList text) = .ok document ∧ s.idField = some field ∧
    document.get? field = some v

/-- **The name that a line gives its event**: a text, or a number as it is written. -/
inductive NameAt (n : Nat) : String → Prop
  /-- A text. -/
  | text {t : String} (h : s.ValueAt bytes n (.text t)) : NameAt n t
  /-- A number. -/
  | number {x : Number} (h : s.ValueAt bytes n (.number x)) :
    NameAt n (String.ofList (Json.number x))

end

variable {s : Source} {bytes : List UInt8} {n : Nat} {e : Event}

/-- A line that has an event gives it the name that its document says in the field. -/
theorem nameAt_iff {line : List UInt8} {text : List Char} (hn : 0 < n)
    (hline : (linesOf bytes)[n - 1]? = some line)
    (htext : Text.Utf8.decode (dropReturn line) = .ok text) (t : String) :
    s.NameAt bytes n t
      ↔ fieldText (Json.parse (String.ofList text)).toOption s.idField = some t := by
  have hvalue : ∀ v, s.ValueAt bytes n v ↔ ∃ d f,
      (Json.parse (String.ofList text)).toOption = some d ∧ s.idField = some f ∧
        d.get? f = some v := by
    intro v
    constructor
    · rintro ⟨-, line', text', d, f, hline', htext', hparse, hfield, hget⟩
      obtain rfl := Option.some.inj (hline.symm.trans hline')
      obtain rfl := Except.ok.inj (htext.symm.trans htext')
      exact ⟨d, f, by rw [hparse]; rfl, hfield, hget⟩
    · rintro ⟨d, f, hparse, hfield, hget⟩
      exact ⟨hn, line, text, d, f, hline, htext, ok_of_toOption hparse, hfield, hget⟩
  rw [fieldText_eq_some_iff]
  constructor
  · rintro (h | @⟨x, h⟩)
    · obtain ⟨d, f, hd, hf, hget⟩ := (hvalue _).mp h
      exact ⟨d, f, hd, hf, .inl hget⟩
    · obtain ⟨d, f, hd, hf, hget⟩ := (hvalue _).mp h
      exact ⟨d, f, hd, hf, .inr ⟨x, hget, rfl⟩⟩
  · rintro ⟨d, f, hd, hf, hget | ⟨x, hget, rfl⟩⟩
    · exact .text ((hvalue _).mpr ⟨d, f, hd, hf, hget⟩)
    · exact .number ((hvalue _).mpr ⟨d, f, hd, hf, hget⟩)

/-- **The identity of an event** is the name that its line gives, or else the one after the
line. -/
theorem id_of_eventAt (h : s.eventAt bytes n = some e) :
    (∀ t, s.NameAt bytes n t ↔ t = e.id.text) ∨
      (∀ t, ¬ s.NameAt bytes n t) ∧ e.id.text = fallbackId n := by
  obtain ⟨hlt, line, text, hline, htext, -, rfl⟩ := eventAt_eq_some_iff.mp h
  have hname := nameAt_iff (s := s) (Nat.zero_lt_of_lt hlt) hline
    (Text.Utf8.decode_eq_ok_iff.mpr htext)
  show (∀ t, _ ↔ t = (fieldText _ _).getD _) ∨ _ ∧ (fieldText _ _).getD _ = _
  cases hfield : fieldText (Json.parse (String.ofList text)).toOption s.idField with
  | none =>
    refine .inr ⟨fun t ht => ?_, rfl⟩
    rw [hname, hfield] at ht
    cases ht
  | some t =>
    refine .inl fun t' => ?_
    rw [hname, hfield]
    exact ⟨fun h => (Option.some.inj h).symm, fun h => congrArg some h.symm⟩

/-- A line that gives its event the name after another line says it as a text. -/
theorem valueAt_fallbackId {m n : Nat} (h : s.NameAt bytes m (fallbackId n)) :
    s.ValueAt bytes m (.text (fallbackId n)) := by
  generalize hname : fallbackId n = t at h
  cases h with
  | text h => exact h
  | number h => exact absurd hname (fallbackId_ne_number n _)

/-- **When the events of two lines have the same identity.** -/
theorem id_eq_iff {m n : Nat} {d e : Event} (hne : m ≠ n) (hm : s.eventAt bytes m = some d)
    (hn : s.eventAt bytes n = some e) :
    d.id = e.id ↔ (∃ t, s.NameAt bytes m t ∧ s.NameAt bytes n t) ∨
      (s.ValueAt bytes m (.text (fallbackId n)) ∧ ∀ t, ¬ s.NameAt bytes n t) ∨
      s.ValueAt bytes n (.text (fallbackId m)) ∧ ∀ t, ¬ s.NameAt bytes m t := by
  have hid : d.id = e.id ↔ d.id.text = e.id.text :=
    ⟨congrArg EventId.text, congrArg EventId.mk⟩
  rw [hid]
  obtain hmname | ⟨hmnone, hmid⟩ := id_of_eventAt hm <;>
    obtain hnname | ⟨hnnone, hnid⟩ := id_of_eventAt hn
  · -- both lines give a name
    constructor
    · exact fun h => .inl ⟨_, (hmname _).mpr rfl, (hnname _).mpr h⟩
    · rintro (⟨t, ht, ht'⟩ | ⟨-, hnone⟩ | ⟨-, hnone⟩)
      · exact ((hmname t).mp ht).symm.trans ((hnname t).mp ht')
      · exact absurd ((hnname _).mpr rfl) (hnone _)
      · exact absurd ((hmname _).mpr rfl) (hnone _)
  · rw [hnid]
    constructor
    · exact fun h => .inr (.inl ⟨valueAt_fallbackId ((hmname _).mpr h.symm), hnnone⟩)
    · rintro (⟨t, -, ht⟩ | ⟨hvalue, -⟩ | ⟨-, hnone⟩)
      · exact absurd ht (hnnone t)
      · exact ((hmname _).mp (.text hvalue)).symm
      · exact absurd ((hmname _).mpr rfl) (hnone _)
  · rw [hmid]
    constructor
    · exact fun h => .inr (.inr ⟨valueAt_fallbackId ((hnname _).mpr h), hmnone⟩)
    · rintro (⟨t, ht, -⟩ | ⟨-, hnone⟩ | ⟨hvalue, -⟩)
      · exact absurd ht (hmnone t)
      · exact absurd ((hnname _).mpr rfl) (hnone _)
      · exact (hnname _).mp (.text hvalue)
  · -- neither does, and the lines are not the same
    rw [hmid, hnid]
    constructor
    · exact fun h => absurd (fallbackId_inj h) hne
    · rintro (⟨t, ht, -⟩ | ⟨hvalue, -⟩ | ⟨hvalue, -⟩)
      · exact absurd ht (hmnone t)
      · exact absurd (.text hvalue) (hmnone _)
      · exact absurd (.text hvalue) (hnnone _)

/-! ## Records -/

/-- **A source whose events all have different identities** has records that a ledger can be
opened for. -/
theorem start_of_apart (hb : 1 ≤ s.batchSize)
    (h : ∀ m n d e, m ≠ n → s.eventAt bytes m = some d → s.eventAt bytes n = some e →
      d.id ≠ e.id) (sink : String) {record : Record} (hrecord : record ∈ s.records bytes) :
    ∃ l, Ledger.start sink record.events = .ok l := by
  obtain ⟨ps, hcut, hrecords⟩ := s.records_cut bytes hb
  rw [hrecords] at hrecord
  obtain ⟨p, hp, rfl⟩ := List.mem_map.mp hrecord
  have hsorted : p.events.Pairwise fun x y => x.1 < y.1 := by
    have hall := numbered_pairwise s bytes
    rw [← hcut.flatMap_events] at hall
    exact (List.pairwise_flatMap.mp hall).1 p hp
  have hat : ∀ x ∈ p.events, s.eventAt bytes x.1 = some x.2 := fun x hx =>
    (mem_numberedIn.mp (hcut.mem_of_mem hp hx)).2.2
  refine ⟨_, Ledger.start_of_nodup sink ?_⟩
  show ((p.events.map (·.2)).map (·.id)).Nodup
  rw [List.map_map, List.Nodup, List.pairwise_map]
  exact hsorted.imp_of_mem fun {x y} hx hy hlt =>
    h x.1 y.1 x.2 y.2 (Nat.ne_of_lt hlt) (hat x hx) (hat y hy)

/-- **Events have the same identity only when their lines say so.** The events of two lines
have the same one exactly when both lines give the same name, or when one of them gives
as a text the name after the other, which gives none. Names after lines are different
for different lines, and none of them is a numeral. So when no two lines give the same
name, and none gives one that begins like those after lines, a ledger can be opened for
every record. -/
theorem ids_apart (settings : SourceSettings) (resumeAfter : Nat) (bytes : List UInt8) :
    let s := ofSettings settings resumeAfter
    (∀ m n d e, m ≠ n → s.eventAt bytes m = some d → s.eventAt bytes n = some e →
      (d.id = e.id ↔ (∃ t, s.NameAt bytes m t ∧ s.NameAt bytes n t) ∨
        (s.ValueAt bytes m (.text (fallbackId n)) ∧ ∀ t, ¬ s.NameAt bytes n t) ∨
        s.ValueAt bytes n (.text (fallbackId m)) ∧ ∀ t, ¬ s.NameAt bytes m t)) ∧
      (∀ m n, fallbackId m = fallbackId n → m = n) ∧
      (∀ n x, fallbackId n ≠ String.ofList (Json.number x)) ∧
      ((∀ m n t, m ≠ n → s.NameAt bytes m t → ¬ s.NameAt bytes n t) →
        (∀ n t, s.NameAt bytes n t → ¬ "line-".toList <+: t.toList) →
        ∀ sink, ∀ record ∈ s.records bytes,
          ∃ l, Ledger.start sink record.events = .ok l) := by
  intro s
  refine ⟨fun m n d e hne hm hn => id_eq_iff hne hm hn, fun m n => fallbackId_inj,
    fallbackId_ne_number, fun hdifferent hplain sink record hrecord => ?_⟩
  have hreserved : ∀ n, "line-".toList <+: (fallbackId n).toList := fun n =>
    ⟨(toString n).toList, String.toList_append.symm⟩
  refine start_of_apart (Nat.le_max_left 1 _) (fun m n d e hne hm hn hid => ?_) sink hrecord
  obtain ⟨t, ht, ht'⟩ | ⟨hvalue, -⟩ | ⟨hvalue, -⟩ := (id_eq_iff hne hm hn).mp hid
  · exact hdifferent m n t hne ht ht'
  · exact hplain m _ (.text hvalue) (hreserved n)
  · exact hplain n _ (.text hvalue) (hreserved m)

/-- The first of two lines gives its event a number as its name, and the second one, which is
no document, gives none: its event is called after the line. -/
theorem ids_apart_numeral :
    let s := ofSettings ⟨"lines", 2, some "id", none⟩ 0
    let bytes : List UInt8 := [123, 34, 105, 100, 34, 58, 50, 125, 10, 120]
    (∀ n t, s.NameAt bytes n t → n = 1 ∧ t = "2") ∧
      (∃ d e, s.eventAt bytes 1 = some d ∧ s.eventAt bytes 2 = some e ∧ d.id ≠ e.id) ∧
      ∀ record ∈ s.records bytes, ∃ l, Ledger.start "audit" record.events = .ok l := by
  intro s bytes
  have hnames : ∀ n t, s.NameAt bytes n t → n = 1 ∧ t = "2" := by
    intro n t h
    obtain ⟨v, hpos, line, -, -, -, hline, -⟩ : ∃ v, s.ValueAt bytes n v := by
      cases h with
      | text h => exact ⟨_, h⟩
      | number h => exact ⟨_, h⟩
    have hlt : n - 1 < 2 := (List.getElem?_eq_some_iff.mp hline).1
    obtain rfl | rfl : n = 1 ∨ n = 2 := by omega
    · have hfield : fieldText (Json.parse (String.ofList "\x7b\"id\":2\x7d".toList)).toOption
          s.idField = some "2" := rfl
      have hname := (nameAt_iff (s := s) hpos rfl rfl t).mp h
      exact ⟨rfl, Option.some.inj (hname.symm.trans hfield)⟩
    · have hfield : fieldText (Json.parse (String.ofList ['x'])).toOption s.idField = none := rfl
      have hname := (nameAt_iff (s := s) hpos rfl rfl t).mp h
      cases hfield.symm.trans hname
  have hapart := ids_apart ⟨"lines", 2, some "id", none⟩ 0 bytes
  refine ⟨hnames, ⟨_, _, rfl, rfl, fun hid => ?_⟩, ?_⟩
  · obtain ⟨t, -, ht⟩ | ⟨hvalue, -⟩ | ⟨hvalue, -⟩ :=
      (hapart.1 1 2 _ _ (by decide) rfl rfl).mp hid
    · exact absurd (hnames 2 t ht).1 (by decide)
    · exact absurd (hnames 1 _ (.text hvalue)).2 (by decide)
    · exact absurd (hnames 2 _ (.text hvalue)).1 (by decide)
  · refine hapart.2.2.2 (fun m n t hne hm hn => hne ?_) (fun n t h => ?_) "audit"
    · rw [(hnames m t hm).1, (hnames n t hn).1]
    · rw [(hnames n t h).2]
      decide

end Source

end Courier
