import Courier.Json.Reader
import Courier.Proofs.Document.Reading
import Courier.Proofs.Json.Number
import Courier.Proofs.Json.Quote
/-!
# A document that is written is read as it was

The text of a document, with blank space or without, is taken apart into the tokens of
the document (`tokensFrom_compact`, `tokensFrom_pretty`), and these are put together
into its draft (`build_tokensOf`). So the reader finds the whole document and nothing
behind it; only its numbers are what their own characters say.
-/

namespace Courier.Json

open Courier.Document

/-! ## From texts to tokens -/

mutual

/-- **The tokens of a document.** -/
def tokensOf : Value → List Token
  | .null => [.null]
  | .flag b => [.flag b]
  | .number n => [reread n]
  | .text s => [.text (.ofString s)]
  | .list items => .openList :: (tokensOfItems items ++ [.closeList])
  | .table entries => .openTable :: (tokensOfEntries entries ++ [.closeTable])

/-- The tokens of the items of a list. -/
def tokensOfItems : List Value → List Token
  | [] => []
  | [v] => tokensOf v
  | v :: rest => tokensOf v ++ .comma :: tokensOfItems rest

/-- The tokens of the entries of a table. -/
def tokensOfEntries : List (String × Value) → List Token
  | [] => []
  | [(k, v)] => .text (.ofString k) :: .colon :: tokensOf v
  | (k, v) :: rest =>
    .text (.ofString k) :: .colon :: (tokensOf v ++ .comma :: tokensOfEntries rest)

end

theorem tokensOfItems_cons (v w : Value) (rest : List Value) :
    tokensOfItems (v :: w :: rest) = tokensOf v ++ .comma :: tokensOfItems (w :: rest) :=
  rfl

theorem tokensOfEntries_cons (k : String) (v : Value) (e : String × Value)
    (rest : List (String × Value)) :
    tokensOfEntries ((k, v) :: e :: rest) = .text (.ofString k) :: .colon ::
      (tokensOf v ++ .comma :: tokensOfEntries (e :: rest)) :=
  rfl

mutual

/-- **A document without blank space is taken apart into its tokens.** -/
theorem tokensFrom_compact : ∀ (v : Value) {rest : List Char}, Stops rest →
    tokensFrom .between (compact v ++ rest) = tokensOf v ++ tokensFrom .between rest
  | .null, _, _ => rfl
  | .flag true, _, _ => rfl
  | .flag false, _, _ => rfl
  | .number n, _, h => tokensFrom_number n h
  | .text s, rest, _ => tokensFrom_quote s rest
  | .list items, rest, _ => by
    show tokensFrom .between ('[' :: ((compactItems items ++ [']']) ++ rest)) = _
    rw [List.append_assoc]
    show .openList :: tokensFrom .between (compactItems items ++ (']' :: rest)) = _
    rw [tokensFrom_compactItems items (stops_closeList rest), tokensOf, List.cons_append,
      List.append_assoc]
    rfl
  | .table entries, rest, _ => by
    show tokensFrom .between ('\x7b' :: ((compactEntries entries ++ ['\x7d']) ++ rest)) = _
    rw [List.append_assoc]
    show .openTable :: tokensFrom .between (compactEntries entries ++ ('\x7d' :: rest)) = _
    rw [tokensFrom_compactEntries entries (stops_closeTable rest), tokensOf, List.cons_append,
      List.append_assoc]
    rfl

/-- So are the items of a list. -/
theorem tokensFrom_compactItems : ∀ (items : List Value) {rest : List Char}, Stops rest →
    tokensFrom .between (compactItems items ++ rest)
      = tokensOfItems items ++ tokensFrom .between rest
  | [], _, _ => rfl
  | [v], _, h => tokensFrom_compact v h
  | v :: w :: items, rest, h => by
    show tokensFrom .between ((compact v ++ (',' :: compactItems (w :: items))) ++ rest) = _
    rw [List.append_assoc, List.cons_append, tokensFrom_compact v (stops_comma _)]
    show tokensOf v ++ .comma :: tokensFrom .between (compactItems (w :: items) ++ rest) = _
    rw [tokensFrom_compactItems (w :: items) h, tokensOfItems_cons, List.append_assoc]
    rfl

/-- So are the entries of a table. -/
theorem tokensFrom_compactEntries : ∀ (entries : List (String × Value)) {rest : List Char},
    Stops rest → tokensFrom .between (compactEntries entries ++ rest)
      = tokensOfEntries entries ++ tokensFrom .between rest
  | [], _, _ => rfl
  | [(k, v)], rest, h => by
    show tokensFrom .between ((quote k ++ ':' :: compact v) ++ rest) = _
    rw [List.append_assoc, tokensFrom_quote]
    show _ :: .colon :: tokensFrom .between (compact v ++ rest) = _
    rw [tokensFrom_compact v h]
    rfl
  | (k, v) :: w :: entries, rest, h => by
    show tokensFrom .between
      (((quote k ++ ':' :: compact v) ++ (',' :: compactEntries (w :: entries))) ++ rest) = _
    rw [List.append_assoc, List.append_assoc, tokensFrom_quote]
    show _ :: .colon :: tokensFrom .between
      (compact v ++ (',' :: (compactEntries (w :: entries) ++ rest))) = _
    rw [tokensFrom_compact v (stops_comma _)]
    show _ :: .colon :: (tokensOf v ++ .comma :: tokensFrom .between
      (compactEntries (w :: entries) ++ rest)) = _
    rw [tokensFrom_compactEntries (w :: entries) h, tokensOfEntries_cons, List.cons_append,
      List.cons_append, List.append_assoc]
    rfl

end

/-- A new line is blank. -/
theorem tokensFrom_newline (level : Nat) (rest : List Char) :
    tokensFrom .between (newline level ++ rest) = tokensFrom .between rest := by
  have hspaces : ∀ k, tokensFrom .between (List.replicate k ' ' ++ rest)
      = tokensFrom .between rest := by
    intro k
    induction k with
    | zero => rfl
    | succ k ih => exact ih
  exact hspaces (2 * level)

theorem stops_newline (level : Nat) (rest : List Char) : Stops (newline level ++ rest) :=
  Or.inr (Or.inr (Or.inr rfl))

mutual

/-- **An indented document is taken apart into the same tokens.** -/
theorem tokensFrom_pretty : ∀ (v : Value) (level : Nat) {rest : List Char}, Stops rest →
    tokensFrom .between (pretty level v ++ rest) = tokensOf v ++ tokensFrom .between rest
  | .null, _, _, h => tokensFrom_compact .null h
  | .flag b, _, _, h => tokensFrom_compact (.flag b) h
  | .number n, _, _, h => tokensFrom_compact (.number n) h
  | .text s, _, _, h => tokensFrom_compact (.text s) h
  | .list [], _, _, _ => rfl
  | .list (v :: items), level, rest, _ => by
    show tokensFrom .between ('[' :: (((prettyItems (level + 1) (v :: items) ++ newline level)
      ++ [']']) ++ rest)) = _
    rw [List.append_assoc, List.append_assoc]
    show .openList :: tokensFrom .between
      (prettyItems (level + 1) (v :: items) ++ (newline level ++ (']' :: rest))) = _
    rw [tokensFrom_prettyItems (v :: items) (level + 1) (stops_newline level _),
      tokensFrom_newline, tokensOf, List.cons_append, List.append_assoc]
    rfl
  | .table [], _, _, _ => rfl
  | .table (e :: entries), level, rest, _ => by
    show tokensFrom .between ('\x7b' :: (((prettyEntries (level + 1) (e :: entries)
      ++ newline level) ++ ['\x7d']) ++ rest)) = _
    rw [List.append_assoc, List.append_assoc]
    show .openTable :: tokensFrom .between
      (prettyEntries (level + 1) (e :: entries) ++ (newline level ++ ('\x7d' :: rest))) = _
    rw [tokensFrom_prettyEntries (e :: entries) (level + 1) (stops_newline level _),
      tokensFrom_newline, tokensOf, List.cons_append, List.append_assoc]
    rfl

/-- So are the items of a list. -/
theorem tokensFrom_prettyItems : ∀ (items : List Value) (level : Nat) {rest : List Char},
    Stops rest → tokensFrom .between (prettyItems level items ++ rest)
      = tokensOfItems items ++ tokensFrom .between rest
  | [], _, _, _ => rfl
  | [v], level, rest, h => by
    show tokensFrom .between ((newline level ++ pretty level v) ++ rest) = _
    rw [List.append_assoc, tokensFrom_newline]
    exact tokensFrom_pretty v level h
  | v :: w :: items, level, rest, h => by
    show tokensFrom .between
      (((newline level ++ pretty level v) ++ (',' :: prettyItems level (w :: items))) ++ rest) = _
    rw [List.append_assoc, List.append_assoc, tokensFrom_newline, List.cons_append,
      tokensFrom_pretty v level (stops_comma _)]
    show tokensOf v ++ .comma :: tokensFrom .between (prettyItems level (w :: items) ++ rest) = _
    rw [tokensFrom_prettyItems (w :: items) level h, tokensOfItems_cons, List.append_assoc]
    rfl

/-- So are the entries of a table. -/
theorem tokensFrom_prettyEntries : ∀ (entries : List (String × Value)) (level : Nat)
    {rest : List Char}, Stops rest → tokensFrom .between (prettyEntries level entries ++ rest)
      = tokensOfEntries entries ++ tokensFrom .between rest
  | [], _, _, _ => rfl
  | [(k, v)], level, rest, h => by
    show tokensFrom .between (((newline level ++ quote k) ++ ':' :: ' ' :: pretty level v) ++ rest)
      = _
    rw [List.append_assoc, List.append_assoc, tokensFrom_newline, tokensFrom_quote]
    show _ :: .colon :: tokensFrom .between (pretty level v ++ rest) = _
    rw [tokensFrom_pretty v level h]
    rfl
  | (k, v) :: w :: entries, level, rest, h => by
    show tokensFrom .between ((((newline level ++ quote k) ++ ':' :: ' ' :: pretty level v)
      ++ (',' :: prettyEntries level (w :: entries))) ++ rest) = _
    rw [List.append_assoc, List.append_assoc, List.append_assoc, tokensFrom_newline,
      tokensFrom_quote]
    show _ :: .colon :: tokensFrom .between
      (pretty level v ++ (',' :: (prettyEntries level (w :: entries) ++ rest))) = _
    rw [tokensFrom_pretty v level (stops_comma _)]
    show _ :: .colon :: (tokensOf v ++ .comma :: tokensFrom .between
      (prettyEntries level (w :: entries) ++ rest)) = _
    rw [tokensFrom_prettyEntries (w :: entries) level h, tokensOfEntries_cons, List.cons_append,
      List.cons_append, List.append_assoc]
    rfl

end

/-! ## From tokens to drafts -/

/-- **What a number is read as**, as a draft. -/
def numberDraft (n : Number) : Draft :=
  match reread n with
  | .number value => .number value
  | _ => .null

/-- A number is a document by itself. -/
theorem leaf?_reread (n : Number) : Builder.leaf? (reread n) = some (numberDraft n) := by
  unfold numberDraft
  cases n with
  | integer n => rfl
  | real x =>
    unfold reread
    dsimp only
    split <;> rfl

namespace Builder

/-- Whether a document may come next. -/
def TakesValue (b : Builder) : Prop :=
  b.expect = .value ∨ b.expect = .firstItem

/-- Where a document may come, any token but the end of a list is taken for one. -/
theorem step_value {b : Builder} (h : b.TakesValue) {t : Token} (ht : t ≠ .closeList) :
    b.step t = b.value t := by
  obtain ⟨frames, expect, whole⟩ := b
  obtain rfl | rfl : expect = .value ∨ expect = .firstItem := h
  · rfl
  · cases t <;> first | rfl | exact absurd rfl ht

/-- A document that is one token is put where it belongs. -/
theorem build_leaf {b : Builder} (h : b.TakesValue) {t : Token} {d : Draft}
    (ht : leaf? t = some d) (rest : List Token) : build b (t :: rest) = build (b.put d) rest := by
  have hstep : b.step t = some (b.put d) := by
    rw [step_value h (by rintro rfl; cases ht)]
    cases t <;> first | (cases ht; rfl) | cases ht
  rw [build, hstep]

/-- Where a document belongs depends on what is open only. -/
theorem put_frames (b : Builder) (d : Draft) :
    (⟨b.frames, .value, .fault⟩ : Builder).put d = b.put d := by
  obtain ⟨frames, expect, whole⟩ := b
  cases frames with
  | nil => rfl
  | cons frame frames => cases frame <;> rfl

end Builder

mutual

/-- **The tokens of a document are put together into its draft**, which is put where it
belongs. -/
theorem build_tokensOf : ∀ (v : Value) {b : Builder} (rest : List Token), b.TakesValue →
    build b (tokensOf v ++ rest) = build (b.put (v.draft numberDraft)) rest
  | .null, _, rest, h => Builder.build_leaf h rfl rest
  | .flag _, _, rest, h => Builder.build_leaf h rfl rest
  | .number n, _, rest, h => Builder.build_leaf h (leaf?_reread n) rest
  | .text _, _, rest, h => Builder.build_leaf h rfl rest
  | .list items, b, rest, h => by
    have hopen : build b (.openList :: (tokensOfItems items ++ [.closeList] ++ rest))
        = build ⟨.list [] :: b.frames, .firstItem, .fault⟩
            (tokensOfItems items ++ [.closeList] ++ rest) := by
      rw [build, Builder.step_value h (fun heq => Token.noConfusion heq)]
      rfl
    rw [tokensOf, List.cons_append, hopen, ← Builder.put_frames, Value.draft]
    cases items with
    | nil => rfl
    | cons v items =>
      rw [List.append_assoc, build_tokensOfItems (v :: items) (List.cons_ne_nil v items) [] _ _
        (.inr rfl)]
      show build ((⟨b.frames, .value, .fault⟩ : Builder).put
        (.list ((draftItems numberDraft (v :: items)).reverse ++ []).reverse true)) rest = _
      rw [List.append_nil, List.reverse_reverse]
  | .table entries, b, rest, h => by
    have hopen : build b (.openTable :: (tokensOfEntries entries ++ [.closeTable] ++ rest))
        = build ⟨.table [] .fault :: b.frames, .firstKey, .fault⟩
            (tokensOfEntries entries ++ [.closeTable] ++ rest) := by
      rw [build, Builder.step_value h (fun heq => Token.noConfusion heq)]
      rfl
    rw [tokensOf, List.cons_append, hopen, ← Builder.put_frames, Value.draft]
    cases entries with
    | nil => rfl
    | cons e entries =>
      rw [List.append_assoc, build_tokensOfEntries (e :: entries) (List.cons_ne_nil e entries) []
        _ _ (.inl rfl)]
      show build ((⟨b.frames, .value, .fault⟩ : Builder).put
        (.table ((draftEntries numberDraft (e :: entries)).reverse ++ []).reverse true)) rest = _
      rw [List.append_nil, List.reverse_reverse]

/-- The items of a list are put into it. -/
theorem build_tokensOfItems : ∀ (items : List Value), items ≠ [] → ∀ (read : List Draft)
    (frames : List Frame) {expect : Expect} (rest : List Token),
    (expect = .value ∨ expect = .firstItem) →
    build ⟨.list read :: frames, expect, .fault⟩ (tokensOfItems items ++ rest)
      = build ⟨.list ((draftItems numberDraft items).reverse ++ read) :: frames, .afterItem, .fault⟩
          rest
  | [], hne, _, _, _, _, _ => absurd rfl hne
  | [v], _, read, frames, expect, rest, h => build_tokensOf v rest h
  | v :: w :: items, _, read, frames, expect, rest, h => by
    rw [tokensOfItems_cons, List.append_assoc,
      build_tokensOf v _ (show Builder.TakesValue ⟨_, expect, _⟩ from h)]
    show build ⟨.list (v.draft numberDraft :: read) :: frames, .value, .fault⟩
      (tokensOfItems (w :: items) ++ rest) = _
    have hdrafts : draftItems numberDraft (v :: w :: items)
        = v.draft numberDraft :: draftItems numberDraft (w :: items) := rfl
    rw [build_tokensOfItems (w :: items) (List.cons_ne_nil w items) _ frames rest (.inl rfl),
      hdrafts, List.reverse_cons, List.append_assoc]
    rfl

/-- The entries of a table are put into it. -/
theorem build_tokensOfEntries : ∀ (entries : List (String × Value)), entries ≠ [] →
    ∀ (read : List (Draft × Draft)) (frames : List Frame) {expect : Expect} (rest : List Token),
    (expect = .firstKey ∨ expect = .key) →
    build ⟨.table read .fault :: frames, expect, .fault⟩ (tokensOfEntries entries ++ rest)
      = build ⟨.table ((draftEntries numberDraft entries).reverse ++ read) .fault :: frames,
          .afterEntry, .fault⟩ rest
  | [], hne, _, _, _, _, _ => absurd rfl hne
  | [(k, v)], _, read, frames, expect, rest, h => by
    have hkey : build ⟨.table read .fault :: frames, expect, .fault⟩
        (tokensOfEntries [(k, v)] ++ rest)
        = build ⟨.table read (.text (.ofString k)) :: frames, .value, .fault⟩
            (tokensOf v ++ rest) := by
      obtain rfl | rfl := h <;> rfl
    rw [hkey]
    exact build_tokensOf v rest (.inl rfl)
  | (k, v) :: w :: entries, _, read, frames, expect, rest, h => by
    have hkey : build ⟨.table read .fault :: frames, expect, .fault⟩
        (tokensOfEntries ((k, v) :: w :: entries) ++ rest)
        = build ⟨.table read (.text (.ofString k)) :: frames, .value, .fault⟩
            ((tokensOf v ++ .comma :: tokensOfEntries (w :: entries)) ++ rest) := by
      obtain rfl | rfl := h <;> rfl
    rw [hkey, List.append_assoc, build_tokensOf v _ (.inl rfl)]
    show build ⟨.table ((.text (.ofString k), v.draft numberDraft) :: read) .fault :: frames, .key,
      .fault⟩ (tokensOfEntries (w :: entries) ++ rest) = _
    have hdrafts : draftEntries numberDraft ((k, v) :: w :: entries)
        = (.text (.ofString k), v.draft numberDraft) :: draftEntries numberDraft (w :: entries) :=
      rfl
    rw [build_tokensOfEntries (w :: entries) (List.cons_ne_nil w entries) _ frames rest (.inr rfl),
      hdrafts, List.reverse_cons, List.append_assoc]
    rfl

end

/-- The tokens of a document alone. -/
theorem build_start (v : Value) : build .start (tokensOf v) = ⟨v.draft numberDraft, false⟩ := by
  have hbuild := build_tokensOf v [] (show Builder.start.TakesValue from .inl rfl)
  rw [List.append_nil] at hbuild
  exact hbuild

/-- **A document without blank space is read as it was written**, up to what its numbers are
read as. -/
theorem read_write (v : Value) : read (write v) = ⟨v.draft numberDraft, false⟩ := by
  have htokens := tokensFrom_compact v (show Stops [] from trivial)
  rw [List.append_nil] at htokens
  unfold read write tokens
  rw [String.toList_ofList, htokens, ← build_start v]
  exact congrArg (build .start) (List.append_nil _)

/-- **So is an indented document.** -/
theorem read_writePretty (v : Value) : read (writePretty v) = ⟨v.draft numberDraft, false⟩ := by
  have htokens := tokensFrom_pretty v 0 (show Stops [] from trivial)
  rw [List.append_nil] at htokens
  unfold read writePretty tokens
  rw [String.toList_ofList, htokens, ← build_start v]
  exact congrArg (build .start) (List.append_nil _)

end Courier.Json
