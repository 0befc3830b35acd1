import Courier.Proofs.Json.Compact
import Courier.Proofs.Sink.BulkAlignment
import Courier.Proofs.Text.Utf8
/-!
# The lines of a bulk request

A bulk request is lines, two for each event in it, and the search engine counts
them: one line feed too many in an identity, in the name of an index or in a
document would hand every later document to the action of another event. No
line holds one. What names the event is a compact document, a document of
several lines is made compact, and any other document is the text of its event
as it is (`lineFeed_notMem_bulkAction`, `FramedAs.lineFeed_notMem`). So the
text of a request is cut at its line feeds into the lines it was made of, each
action is read as the index and the identity that it was made of, and what is
left out of the request is what no line can hold (`encode_frames`).
-/

namespace Courier.Sink

open Courier.Document
open Courier.Json

/-! ## The line of an action -/

/-- An action is one line, whatever the index is named and the event is called. -/
theorem lineFeed_notMem_bulkAction (index : String) (id : EventId) :
    '\n' ∉ bulkAction index id :=
  lineFeed_notMem_compact _

/-- **The tokens of an action**, whatever its texts say. -/
theorem tokens_bulkAction (index : String) (id : EventId) :
    tokens (bulkAction index id)
      = [.openTable, .text (.ofString "index"), .colon, .openTable, .text (.ofString "_id"),
        .colon, .text (.ofString id.text), .comma, .text (.ofString "_index"), .colon,
        .text (.ofString index), .closeTable, .closeTable] := by
  have htext : bulkAction index id
      = '\x7b' :: (quote "index" ++ (':' :: '\x7b' :: (quote "_id" ++ (':' :: (quote id.text
        ++ (',' :: (quote "_index" ++ (':' :: (quote index ++ ['\x7d', '\x7d']))))))))) := by
    simp only [bulkAction, compact, compactEntries, List.append_assoc, List.cons_append]
    rfl
  have hopen : ∀ rest, tokensFrom .between ('\x7b' :: rest)
      = .openTable :: tokensFrom .between rest := fun _ => rfl
  have hcolon : ∀ rest, tokensFrom .between (':' :: rest)
      = .colon :: tokensFrom .between rest := fun _ => rfl
  have hcomma : ∀ rest, tokensFrom .between (',' :: rest)
      = .comma :: tokensFrom .between rest := fun _ => rfl
  unfold tokens
  rw [htext, hopen, tokensFrom_quote, hcolon, hopen, tokensFrom_quote, hcolon, tokensFrom_quote,
    hcomma, tokensFrom_quote, hcolon, tokensFrom_quote]
  rfl

/-- **An action is read as the index and the identity it was made of.** -/
theorem parse_bulkAction (index : String) (id : EventId) :
    Json.parse (String.ofList (bulkAction index id))
      = .ok (.table [("index", .table [("_id", .text id.text), ("_index", .text index)])]) := by
  have hread : Json.read (String.ofList (bulkAction index id))
      = ⟨.table [(.text (.ofString "index"),
          .table [(.text (.ofString "_id"), .text (.ofString id.text)),
            (.text (.ofString "_index"), .text (.ofString index))] true)] true, false⟩ := by
    show build .start (tokens (String.ofList (bulkAction index id)).toList) = _
    rw [String.toList_ofList, tokens_bulkAction]
    rfl
  unfold Json.parse Json.decode
  rw [hread]
  simp only [Codec.ofDraft, anything, Schema.read, Draft.toValue, toEntries, text?_ofString]
  rfl

/-! ## The line of a document -/

/-- **What a payload is sent as**: its text without the blank space at its end when
that is one line, and the compact document it writes when it is several. -/
def FramedAs (payload : List UInt8) (line : List Char) : Prop :=
  ∃ text, payload = Text.Utf8.encode text ∧
    if '\n' ∈ Text.trimEnd text then
      ∃ v, Json.parse (String.ofList (Text.trimEnd text)) = .ok v ∧ line = compact v.sorted
    else line = Text.trimEnd text

/-- **A payload that cannot be put on a line**: it is not UTF-8, or it is several
lines and they are not one document. -/
def Unframed (payload : List UInt8) : Prop :=
  (∀ text, payload ≠ Text.Utf8.encode text) ∨
    ∃ text, payload = Text.Utf8.encode text ∧ '\n' ∈ Text.trimEnd text ∧
      ∀ v, Json.parse (String.ofList (Text.trimEnd text)) ≠ .ok v

variable {payload : List UInt8} {line : List Char}

/-- **What a payload is sent as is one line.** -/
theorem FramedAs.lineFeed_notMem (h : FramedAs payload line) : '\n' ∉ line := by
  obtain ⟨text, -, h⟩ := h
  split at h
  · obtain ⟨v, -, rfl⟩ := h
    exact lineFeed_notMem_compact v.sorted
  · next hline => exact h ▸ hline

/-- A text of one line is put there, without the blank space at its end. -/
theorem bulkDocument_of_line {text : List Char} (h : payload = Text.Utf8.encode text)
    (hline : '\n' ∉ Text.trimEnd text) : bulkDocument payload = .ok (Text.trimEnd text) := by
  have hcontains : (Text.trimEnd text).contains '\n' = false :=
    Bool.eq_false_iff.mpr fun hc => hline (List.contains_iff_mem.mp hc)
  unfold bulkDocument
  rw [Text.Utf8.decode_eq_ok_iff.mpr h]
  dsimp only
  rw [hcontains]
  exact if_pos rfl

/-- **A text of several lines is put on one** when it writes a document. -/
theorem bulkDocument_of_lines {text : List Char} (h : payload = Text.Utf8.encode text)
    (hline : '\n' ∈ Text.trimEnd text) :
    bulkDocument payload = .ok line
      ↔ ∃ v, Json.parse (String.ofList (Text.trimEnd text)) = .ok v ∧ line = compact v.sorted := by
  unfold bulkDocument
  rw [Text.Utf8.decode_eq_ok_iff.mpr h]
  dsimp only
  rw [List.contains_iff_mem.mpr hline, if_neg (by decide)]
  cases Json.parse (String.ofList (Text.trimEnd text)) with
  | ok v =>
    constructor
    · exact fun h => ⟨v, rfl, (Except.ok.inj h).symm⟩
    · rintro ⟨_, hv, rfl⟩
      rw [Except.ok.inj hv]
  | error fault => exact ⟨nofun, fun ⟨_, hv, _⟩ => nomatch hv⟩

/-- **A payload is put on a line as what it is sent as.** -/
theorem bulkDocument_eq_ok_iff : bulkDocument payload = .ok line ↔ FramedAs payload line := by
  constructor
  · intro h
    cases hdecode : Text.Utf8.decode payload with
    | error fault =>
      unfold bulkDocument at h
      rw [hdecode] at h
      exact nomatch h
    | ok text =>
      have htext := Text.Utf8.decode_eq_ok_iff.mp hdecode
      refine ⟨text, htext, ?_⟩
      split
      · next hline => exact (bulkDocument_of_lines htext hline).mp h
      · next hline =>
        rw [bulkDocument_of_line htext hline] at h
        exact (Except.ok.inj h).symm
  · rintro ⟨text, htext, h⟩
    split at h
    · next hline => exact (bulkDocument_of_lines htext hline).mpr h
    · next hline => rw [bulkDocument_of_line htext hline, h]

/-- **A payload is refused exactly when it cannot be put on a line.** -/
theorem forall_not_framedAs_iff : (∀ line, ¬ FramedAs payload line) ↔ Unframed payload := by
  constructor
  · intro h
    by_cases hutf : ∃ text, payload = Text.Utf8.encode text
    · obtain ⟨text, htext⟩ := hutf
      have hline : '\n' ∈ Text.trimEnd text := by
        by_contra hline
        exact h _ ⟨text, htext, by rw [if_neg hline]⟩
      refine .inr ⟨text, htext, hline, fun v hparse => ?_⟩
      exact h _ ⟨text, htext, by rw [if_pos hline]; exact ⟨v, hparse, rfl⟩⟩
    · exact .inl fun text htext => hutf ⟨text, htext⟩
  · rintro (h | ⟨text, htext, hline, h⟩) line ⟨text', htext', hframed⟩
    · exact h text' htext'
    · -- bytes are the bytes of one text only
      obtain rfl : text = text' := Except.ok.inj
        ((Text.Utf8.decode_eq_ok_iff.mpr htext).symm.trans (Text.Utf8.decode_eq_ok_iff.mpr htext'))
      rw [if_pos hline] at hframed
      obtain ⟨v, hparse, -⟩ := hframed
      exact h v hparse

namespace BulkBody

/-- An event is in the request exactly when its payload can be put on a line. -/
theorem encodes_eq_true_iff {e : Event} : encodes e = true ↔ ¬ Unframed e.payload := by
  rw [← forall_not_framedAs_iff, not_forall_not]
  unfold encodes
  cases hd : bulkDocument e.payload with
  | ok line => exact iff_of_true rfl ⟨line, bulkDocument_eq_ok_iff.mp hd⟩
  | error reason =>
    refine iff_of_false Bool.false_ne_true ?_
    rintro ⟨line, h⟩
    rw [← bulkDocument_eq_ok_iff, hd] at h
    exact nomatch h

instance (payload : List UInt8) : Decidable (Unframed payload) :=
  decidable_of_iff (encodes ⟨⟨""⟩, payload, none⟩ = false)
    (by rw [← Bool.not_eq_true, encodes_eq_true_iff, not_not])

/-- The lines of an event: none when it is left out. -/
def linesOf (index : String) (e : Event) : List (List Char) :=
  match bulkDocument e.payload with
  | .ok document => [bulkAction index e.id, document]
  | .error _ => []

/-- An event that is left out has no lines. -/
theorem linesOf_of_not_encodes (index : String) {e : Event} (h : ¬ encodes e = true) :
    linesOf index e = [] := by
  unfold encodes at h
  unfold linesOf
  cases hd : bulkDocument e.payload with
  | ok document =>
    rw [hd] at h
    exact absurd rfl h
  | error reason => rfl

/-- **An event in the request has two lines**, its action and what it is sent as. -/
theorem linesOf_of_encodes (index : String) {e : Event} (h : encodes e = true) :
    ∃ document, FramedAs e.payload document ∧
      linesOf index e = [bulkAction index e.id, document] := by
  unfold encodes at h
  unfold linesOf
  cases hd : bulkDocument e.payload with
  | ok document => exact ⟨document, bulkDocument_eq_ok_iff.mp hd, rfl⟩
  | error reason =>
    rw [hd] at h
    exact Bool.noConfusion h

/-- The lines of the events of a batch come one after another. -/
theorem lines_foldl_add (index : String) (batch : List Event) : ∀ b : BulkBody,
    (batch.foldl (add index) b).lines = b.lines ++ batch.flatMap (linesOf index) := by
  induction batch with
  | nil => exact fun b => (List.append_nil _).symm
  | cons e batch ih =>
    intro b
    have hadd : (add index b e).lines = b.lines ++ linesOf index e := by
      unfold add linesOf
      cases bulkDocument e.payload with
      | ok document => rfl
      | error reason => exact (List.append_nil _).symm
    rw [List.foldl_cons, ih, hadd, List.flatMap_cons, List.append_assoc]

/-- **The lines of a request** are those of the events in it. -/
theorem lines_encode (index : String) (batch : List Event) :
    (encode index batch).lines = (batch.filter encodes).flatMap (linesOf index) := by
  have hlines : (encode index batch).lines = batch.flatMap (linesOf index) :=
    lines_foldl_add index batch ⟨[], [], []⟩
  rw [hlines]
  induction batch with
  | nil => rfl
  | cons e batch ih =>
    by_cases he : encodes e = true
    · rw [List.filter_cons_of_pos he, List.flatMap_cons, List.flatMap_cons,
        ih (lines_foldl_add index batch ⟨[], [], []⟩)]
    · rw [List.filter_cons_of_neg he, List.flatMap_cons, linesOf_of_not_encodes index he,
        List.nil_append, ih (lines_foldl_add index batch ⟨[], [], []⟩)]

/-- **The lines of one event after another**: two for each of them, and those of the
one at a position stand at twice that position. -/
theorem flatMap_linesOf (index : String) (events : List Event) :
    (∀ e ∈ events, encodes e = true) →
      (events.flatMap (linesOf index)).length = 2 * events.length ∧
      ∀ (k : Nat) (e : Event), events[k]? = some e →
        (events.flatMap (linesOf index))[2 * k]? = some (bulkAction index e.id) ∧
        ∃ document, FramedAs e.payload document ∧
          (events.flatMap (linesOf index))[2 * k + 1]? = some document := by
  induction events with
  | nil => exact fun _ => ⟨rfl, fun k e he => nomatch (List.getElem?_nil.symm.trans he)⟩
  | cons e events ih =>
    intro h
    obtain ⟨hlength, hlines⟩ := ih fun e' he' => h e' (List.mem_cons_of_mem e he')
    obtain ⟨document, hframed, htwo⟩ := linesOf_of_encodes index (h e List.mem_cons_self)
    have hcons : (e :: events).flatMap (linesOf index)
        = bulkAction index e.id :: document :: events.flatMap (linesOf index) := by
      rw [List.flatMap_cons, htwo]
      rfl
    rw [hcons]
    refine ⟨?_, fun k e' he' => ?_⟩
    · rw [List.length_cons, List.length_cons, hlength, List.length_cons, Nat.mul_succ]
    · cases k with
      | zero =>
        obtain rfl : e = e' := Option.some.inj he'
        exact ⟨rfl, document, hframed, rfl⟩
      | succ k => exact hlines k e' he'

/-- No line of a request holds a line feed. -/
theorem lineFeed_notMem_lines {index : String} {batch : List Event} {line : List Char}
    (h : line ∈ (encode index batch).lines) : '\n' ∉ line := by
  rw [lines_encode, List.mem_flatMap] at h
  obtain ⟨e, he, hline⟩ := h
  obtain ⟨document, hframed, htwo⟩ := linesOf_of_encodes index (List.mem_filter.mp he).2
  rw [htwo, List.mem_cons, List.mem_singleton] at hline
  obtain rfl | rfl := hline
  · exact lineFeed_notMem_bulkAction index e.id
  · exact hframed.lineFeed_notMem

end BulkBody

/-- **Lines that each end in a line feed are cut there again**, and behind the last
one nothing is left. -/
theorem splitOn_lines {lines : List (List Char)} (h : ∀ line ∈ lines, '\n' ∉ line) :
    (lines.flatMap (· ++ ['\n'])).splitOn '\n' = lines ++ [[]] := by
  induction lines with
  | nil => rfl
  | cons line lines ih =>
    have hline := List.splitOn_eq_singleton (h line List.mem_cons_self)
    rw [List.flatMap_cons, List.append_assoc, List.singleton_append,
      List.splitOn_append_cons_self, hline, ih fun l hl => h l (List.mem_cons_of_mem line hl)]
    rfl

namespace BulkBody

/-- **The events that are refused**, in the order of the batch, each with its own
identity and the code four hundred. -/
theorem rejected_encode_map (index : String) (batch : List Event) :
    (encode index batch).rejected.map (fun x => (x.id, x.status))
      = (batch.filter fun e => !encodes e).map fun e => (some e.id, 400) := by
  rw [rejected_encode]
  induction batch with
  | nil => rfl
  | cons e batch ih =>
    cases hd : bulkDocument e.payload with
    | ok document =>
      have he : encodes e = true := by unfold encodes; rw [hd]
      rw [List.filter_cons_of_neg (by rw [he]; exact Bool.false_ne_true),
        List.filterMap_cons_none (refusal?_of_encodes he), ih]
    | error reason =>
      rw [List.filter_cons_of_pos (by rw [encodes_of_error hd]; rfl),
        List.filterMap_cons_some (refusal?_of_error hd), List.map_cons, List.map_cons, ih]

/-- **The framing of a bulk request loses nothing.** Its text is lines that each end
in a line feed, and cut at its line feeds it is those lines again, two for each
event in it. The first line of an event is read as the index and the identity of
the event, the second one is what its payload is sent as, and there is no line
feed in either. The events in the request are those of the batch that can be put on
a line, in the order of the batch; the others are refused in that order, each
under its own identity and with the code four hundred. -/
theorem encode_frames (index : String) (batch : List Event) :
    ∃ lines : List (List Char),
      (encode index batch).text = lines.flatMap (· ++ ['\n']) ∧
      (encode index batch).text.splitOn '\n' = lines ++ [[]] ∧
      lines.length = 2 * (encode index batch).included.length ∧
      (∀ (k : Nat) (e : Event), (batch.filter fun e => ¬ Unframed e.payload)[k]? = some e →
        (encode index batch).included[k]? = some e.id ∧
        (∃ action, lines[2 * k]? = some action ∧ '\n' ∉ action ∧
          Json.parse (String.ofList action)
            = .ok (.table [("index", .table [("_id", .text e.id.text), ("_index", .text index)])])) ∧
        ∃ document, lines[2 * k + 1]? = some document ∧ '\n' ∉ document ∧
          FramedAs e.payload document) ∧
      (encode index batch).included
        = (batch.filter fun e => ¬ Unframed e.payload).map (·.id) ∧
      (encode index batch).rejected.map (fun x => (x.id, x.status))
        = (batch.filter fun e => Unframed e.payload).map fun e => (some e.id, 400) := by
  have hfilter : (batch.filter fun e => ¬ Unframed e.payload) = batch.filter encodes :=
    List.filter_congr fun e _ => by
      rw [← Bool.coe_iff_coe, decide_eq_true_iff, encodes_eq_true_iff]
  have hrefused : (batch.filter fun e => Unframed e.payload) = batch.filter fun e => !encodes e :=
    List.filter_congr fun e _ => by
      rw [← Bool.coe_iff_coe, decide_eq_true_iff, Bool.not_eq_true', ← Bool.not_eq_true,
        encodes_eq_true_iff, not_not]
  have hencodes : ∀ e ∈ batch.filter encodes, encodes e = true := fun e he =>
    (List.mem_filter.mp he).2
  obtain ⟨hlength, hlines⟩ := flatMap_linesOf index _ hencodes
  rw [hfilter, hrefused]
  refine ⟨(encode index batch).lines, rfl, splitOn_lines fun _ => lineFeed_notMem_lines, ?_,
    fun k e he => ?_, included_encode index batch, rejected_encode_map index batch⟩
  · rw [lines_encode, hlength, included_encode, List.length_map]
  · obtain ⟨haction, document, hframed, hdocument⟩ := hlines k e he
    rw [← lines_encode] at haction hdocument
    refine ⟨?_, ⟨_, haction, lineFeed_notMem_bulkAction index e.id, parse_bulkAction index e.id⟩,
      document, hdocument, hframed.lineFeed_notMem, hframed⟩
    rw [included_encode, List.getElem?_map, he]
    rfl

end BulkBody

end Courier.Sink
