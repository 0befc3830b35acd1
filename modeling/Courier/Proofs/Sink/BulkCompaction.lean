import Courier.Proofs.Json.Reread
import Courier.Proofs.Sink.BulkFraming
/-!
# A document of several lines is the same on one

A document that spans several lines is read, sorted and written without blank space.
Nothing of it is lost that way, as long as its numbers are whole numbers of 64 bits:
what is written is one line, it is read as the same document, and it is a payload that
is sent as it is (`bulkDocument_compacts`).
-/

namespace Courier

namespace Text

/-- A digit is visible. -/
theorem isBlank_of_isDigit {c : Char} (h : c.isDigit) : isBlank c = false := by
  have hzero : '0'.toNat = 48 := rfl
  have hnine : '9'.toNat = 57 := rfl
  rw [Char.isDigit_iff_toNat, hzero, hnine] at h
  unfold isBlank blankRanges
  simp only [List.any_cons, List.any_nil, Bool.or_eq_false_iff, Bool.and_eq_false_iff,
    decide_eq_false_iff_not, and_true]
  omega

/-- A text that ends in a visible character is not cut short. -/
theorem trimEnd_append {c : Char} (h : isBlank c = false) (cs : List Char) :
    trimEnd (cs ++ [c]) = cs ++ [c] := by
  unfold trimEnd
  rw [List.reverse_append, List.reverse_singleton, List.singleton_append,
    List.dropWhile_cons_of_neg (by rw [h]; exact Bool.false_ne_true), List.reverse_cons,
    List.reverse_reverse]

end Text

namespace Json

open Courier.Document

/-- A number that a plain numeral is read as is written with a digit at its end. -/
theorem exists_number_eq {n : Number} (h : Whole n) :
    ∃ cs c, number n = cs ++ [c] ∧ c.isDigit := by
  cases h with
  | @integer n low high =>
    have hne : Nat.toDigits 10 n.natAbs ≠ [] := Nat.toDigits_ne_nil
    have hdigits : number (.integer n) = signed (n < 0) (Nat.toDigits 10 n.natAbs) :=
      Text.toList_toString_int n
    refine ⟨signed (n < 0) (Nat.toDigits 10 n.natAbs).dropLast, _, ?_,
      Text.isDigit_of_mem (List.getLast_mem hne)⟩
    rw [hdigits, signed_append, List.dropLast_append_getLast]
  | negativeZero =>
    have hzero : number (.real (Decimal.negate true 0.0)) = "-0.0".toList := by decide +kernel
    exact ⟨"-0.".toList, '0', hzero, by decide⟩

/-- **A compact document ends visibly.** -/
theorem trimEnd_compact {v : Value} {room : Nat} (h : v.Fits Whole room) :
    Text.trimEnd (compact v) = compact v := by
  cases h with
  | null => decide
  | flag _ b => cases b <;> decide
  | number _ hn =>
    obtain ⟨cs, c, heq, hc⟩ := exists_number_eq hn
    rw [compact, heq]
    exact Text.trimEnd_append (Text.isBlank_of_isDigit hc) cs
  | text _ s => exact Text.trimEnd_append (by decide) ('"' :: s.toList.flatMap quoteChar)
  | @list _ items _ => exact Text.trimEnd_append (by decide) ('[' :: compactItems items)
  | @table _ entries _ => exact Text.trimEnd_append (by decide) ('\x7b' :: compactEntries entries)

end Json

namespace Sink

open Courier.Document

/-- **Compaction keeps the document.** A payload that spans several lines without the blank
space at its end, and is a document there whose numerals are plain, is put on a line. The
line has no line feed in it, it is read as the same document, and as a payload it is put on
the same line again. -/
theorem bulkDocument_compacts {payload : List UInt8} {text : List Char} {v : Value}
    (hutf : Text.Utf8.decode payload = .ok text) (hlines : '\n' ∈ Text.trimEnd text)
    (hparse : Json.parse (String.ofList (Text.trimEnd text)) = .ok v)
    (hplain : ∀ numeral ∈ Json.numerals (Text.trimEnd text), Json.isPlain numeral) :
    ∃ line w, bulkDocument payload = .ok line ∧ '\n' ∉ line ∧
      Json.parse (String.ofList line) = .ok w ∧ v.Same w ∧
      bulkDocument (Text.Utf8.encode line) = .ok line := by
  have htokens : ∀ t ∈ Json.tokens (String.ofList (Text.trimEnd text)).toList,
      t.Among Json.Whole := by
    rw [String.toList_ofList]
    exact Json.among_tokens hplain
  have hfits : v.sorted.Fits Json.Whole 127 := (Json.fits_of_parse htokens hparse).sorted
  have hline : '\n' ∉ Json.compact v.sorted := Json.lineFeed_notMem_compact v.sorted
  have htrim : Text.trimEnd (Json.compact v.sorted) = Json.compact v.sorted :=
    Json.trimEnd_compact hfits
  refine ⟨Json.compact v.sorted, v.sorted, ?_, hline, Json.parse_write hfits, v.same_sorted, ?_⟩
  · exact (bulkDocument_of_lines (Text.Utf8.decode_eq_ok_iff.mp hutf) hlines).mpr ⟨v, hparse, rfl⟩
  · have hagain : bulkDocument (Text.Utf8.encode (Json.compact v.sorted))
        = .ok (Text.trimEnd (Json.compact v.sorted)) := bulkDocument_of_line rfl (by rwa [htrim])
    rwa [htrim] at hagain

/-- A document of several lines, with a zero that has a minus sign, a repeated key, and a pair
of surrogates. -/
def spread : List Char :=
  "\x7b\n  \"b\": [true, -7],\n  \"a\": \"x\\n\\ud83d\\ude00\",\n".toList ++
    "  \"b\": [1, -0, \x7b\"k\": null\x7d]\n\x7d\n".toList

/-- What it is read as. -/
def spreadValue : Value :=
  .table [("b", .list [.flag true, .number (.integer (-7))]), ("a", .text "x\n😀"),
    ("b", .list [.number (.integer 1), .number (.real (Decimal.negate true 0.0)),
      .table [("k", .null)]])]

set_option maxRecDepth 20000 in
/-- The document is read up to its end. -/
theorem parse_spread : Json.parse (String.ofList (Text.trimEnd spread)) = .ok spreadValue := by
  have hread : Json.read (String.ofList (Text.trimEnd spread))
      = ⟨.table [(.text (.ofString "b"), .list [.flag true, .number (some (.integer (-7)))] true),
          (.text (.ofString "a"), .text ⟨[.char 'x', .char '\n', .char '😀'], false⟩),
          (.text (.ofString "b"), .list [.number (some (.integer 1)),
            .number (Json.NumberDraft.start true).value,
            .table [(.text (.ofString "k"), .null)] true] true)] true, false⟩ := rfl
  unfold Json.parse
  rw [Json.decode_of_read hread, Json.NumberDraft.value_negativeZero]
  simp only [Codec.ofDraft, Json.anything, Schema.read, Draft.toValue, toEntries, toValues,
    Json.text?_ofString, Room.enter, Dialect.room]
  rfl

/-- It is put on a line, and is the same there. -/
theorem bulkDocument_compacts_spread :
    ∃ line w, bulkDocument (Text.Utf8.encode spread) = .ok line ∧ '\n' ∉ line ∧
      Json.parse (String.ofList line) = .ok w ∧ spreadValue.Same w ∧
      bulkDocument (Text.Utf8.encode line) = .ok line :=
  bulkDocument_compacts (Text.Utf8.decode_encode spread) (by decide) parse_spread (by decide)

end Sink

end Courier
