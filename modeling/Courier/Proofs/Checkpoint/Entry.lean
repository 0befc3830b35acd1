import Courier.Checkpoint.File
import Courier.Proofs.Json.Quote
import Courier.Proofs.Text.Utf8
/-!
# An entry is read as it was written

The bytes of an entry are read as the entry, whatever its position says; only
the moment has to be a timestamp. So a position that was stored is the position
that is looked up, or none can be.
-/

namespace Courier.Checkpoint.Entry

open Courier.Document
open Courier.Json

/-- **The tokens of an entry**, whatever its texts say. -/
theorem tokens_writePretty (e : Entry) :
    tokens (writePretty (codec.toValue e)).toList
      = [.openTable, .text (.ofString "position"), .colon, .text (.ofString e.position), .comma,
        .text (.ofString "committed_at"), .colon, .text (.ofString e.moment), .closeTable] := by
  have htext : (writePretty (codec.toValue e)).toList
      = '\x7b' :: '\n' :: ' ' :: ' ' :: (quote "position" ++ (':' :: ' ' :: (quote e.position
        ++ (',' :: '\n' :: ' ' :: ' ' :: (quote "committed_at" ++ (':' :: ' ' ::
        (quote e.moment ++ ['\n', '\x7d']))))))) := by
    show (String.ofList (pretty 0 (.table [("position", .text e.position),
      ("committed_at", .text e.moment)]))).toList = _
    rw [String.toList_ofList]
    simp only [pretty, prettyEntries, compact, newline, List.append_assoc, List.cons_append]
    rfl
  have hopen : ∀ rest, tokensFrom .between ('\x7b' :: '\n' :: ' ' :: ' ' :: rest)
      = .openTable :: tokensFrom .between rest := fun _ => rfl
  have hcolon : ∀ rest, tokensFrom .between (':' :: ' ' :: rest)
      = .colon :: tokensFrom .between rest := fun _ => rfl
  have hcomma : ∀ rest, tokensFrom .between (',' :: '\n' :: ' ' :: ' ' :: rest)
      = .comma :: tokensFrom .between rest := fun _ => rfl
  unfold tokens
  rw [htext, hopen, tokensFrom_quote, hcolon, tokensFrom_quote, hcomma, tokensFrom_quote, hcolon,
    tokensFrom_quote]
  rfl

/-- **The draft of an entry** holds its two texts. -/
theorem read_writePretty (e : Entry) :
    read (writePretty (codec.toValue e))
      = ⟨.table [(.text (.ofString "position"), .text (.ofString e.position)),
          (.text (.ofString "committed_at"), .text (.ofString e.moment))] true, false⟩ := by
  show build .start (tokens _) = _
  rw [tokens_writePretty]
  rfl

/-- **The bytes of an entry are read as the entry**, if its moment is a
timestamp. -/
theorem decode_encode (e : Entry) :
    decode (encode e)
      = if Text.Timestamp.valid e.moment.toList then .ok e else .error .unfit := by
  have hfields : codec.schema.read .json Dialect.json.room
      (.table [(.text (.ofString "position"), .text (.ofString e.position)),
        (.text (.ofString "committed_at"), .text (.ofString e.moment))] true)
      = .ok (.record [.text e.position, .text e.moment]) := by
    simp only [codec, Fields.required, Schema.read, Draft.asTable, Dialect.room, Room.enter,
      readFields, Fields.readNamed, readText, text?_ofString, Fields.collect, whenClosed]
    rfl
  unfold decode encode
  rw [Text.Utf8.decode_encode]
  show Json.decode codec (String.ofList (writePretty (codec.toValue e)).toList) = _
  rw [String.ofList_toList]
  unfold Json.decode
  rw [read_writePretty]
  show (codec.ofDraft .json _ >>= fun a => whenClosed true a) = _
  unfold Codec.ofDraft
  rw [hfields]
  have hof : codec.ofDatum? (.record [.text e.position, .text e.moment])
      = if Text.Timestamp.valid e.moment.toList then some e else none := rfl
  by_cases h : Text.Timestamp.valid e.moment.toList = true
  · rw [if_pos h] at hof ⊢
    simp only [bind, Except.bind, hof]
    rfl
  · rw [if_neg h] at hof ⊢
    simp only [bind, Except.bind, hof]

end Courier.Checkpoint.Entry
