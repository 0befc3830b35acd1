import Courier.Proofs.Json.Quote
/-!
# A compact document is one line

A document that is written compactly has no line feed in it, whatever it holds.
A line feed within a text or a key is escaped (`lineFeed_notMem_quote`), a number
is digits and a few other characters, whole or not (`inNumber_number`), and what is
written around them holds none. So a document can stand on a line of its own
among other lines.
-/

namespace Courier.Decimal

/-- **A character that numbers are written with**: a digit, or what stands beside digits, or a
letter of what is written when there are none. -/
def InNumber (c : Char) : Prop :=
  c.isDigit ∨ c ∈ ['.', '-', '+', 'e', 'n', 'u', 'l']

instance (c : Char) : Decidable (InNumber c) :=
  inferInstanceAs (Decidable (_ ∨ _))

theorem inNumber_digits (n : Nat) : ∀ c ∈ digits n, InNumber c := fun _ h =>
  .inl (Nat.isDigit_of_mem_toDigits (by decide) (by decide) h)

variable {ds : List Char}

/-- A number without an exponent has zeroes and a point beside its digits. -/
theorem inNumber_plainDigits (pointed : Bool) (h : ∀ c ∈ ds, InNumber c) (e : Int) :
    ∀ c ∈ plainDigits pointed ds e, InNumber c := by
  have hzeroes : ∀ n, ∀ c ∈ List.replicate n '0', InNumber c := fun n c hin =>
    List.eq_of_mem_replicate hin ▸ (by decide : InNumber '0')
  unfold plainDigits
  split
  · refine List.forall_mem_append.mpr ⟨List.forall_mem_append.mpr ⟨h, hzeroes _⟩, ?_⟩
    cases pointed with
    | true => exact List.forall_mem_cons.mpr ⟨by decide, hzeroes 1⟩
    | false => exact List.forall_mem_nil _
  · dsimp only
    split
    · exact List.forall_mem_append.mpr ⟨fun c hin => h c (List.mem_of_mem_take hin),
        List.forall_mem_cons.mpr ⟨by decide, fun c hin => h c (List.mem_of_mem_drop hin)⟩⟩
    · exact List.forall_mem_cons.mpr ⟨by decide, List.forall_mem_cons.mpr ⟨by decide,
        List.forall_mem_append.mpr ⟨hzeroes _, h⟩⟩⟩

/-- A number with an exponent has a letter and a sign before that. -/
theorem inNumber_exponentDigits (h : ∀ c ∈ ds, InNumber c) (lead : Int) :
    ∀ c ∈ exponentDigits ds lead, InNumber c := by
  have hsign : ∀ c ∈ 'e' :: (if lead < 0 then '-' else '+') :: digits lead.natAbs,
      InNumber c := by
    refine List.forall_mem_cons.mpr ⟨by decide, List.forall_mem_cons.mpr ⟨?_, inNumber_digits _⟩⟩
    split <;> decide
  unfold exponentDigits
  refine List.forall_mem_append.mpr ⟨?_, hsign⟩
  split
  · obtain ⟨hfirst, hrest⟩ := List.forall_mem_cons.mp h
    exact List.forall_mem_cons.mpr ⟨hfirst, List.forall_mem_cons.mpr ⟨by decide, hrest⟩⟩
  · exact h

/-- **A decimal is written with such characters**, in any style. -/
theorem inNumber_point (style : Style) (p : Point) : ∀ c ∈ style.point p, InNumber c := by
  have hds := inNumber_digits p.coefficient
  have hplain := inNumber_plainDigits style.pointed hds p.exponent
  have hexponent := inNumber_exponentDigits hds
    (p.exponent + (digits p.coefficient).length - 1)
  unfold Style.point
  dsimp only
  split <;> split <;> assumption

end Courier.Decimal

namespace Courier.Json

open Courier.Decimal (InNumber)
open Courier.Document

/-- **A number is written with such characters**, whole or not. -/
theorem inNumber_number (n : Number) : ∀ c ∈ number n, InNumber c := by
  cases n with
  | integer n =>
    cases n with
    | ofNat n =>
      show ∀ c ∈ (Nat.repr n).toList, InNumber c
      rw [Nat.toList_repr]
      exact Decimal.inNumber_digits n
    | negSucc n =>
      show ∀ c ∈ ("-" ++ Nat.repr (n + 1)).toList, InNumber c
      rw [String.toList_append, Nat.toList_repr]
      exact List.forall_mem_cons.mpr ⟨by decide, Decimal.inNumber_digits (n + 1)⟩
  | real x =>
    have hsign : ∀ c ∈ (if Decimal.isNegative x then "-" else "").toList, InNumber c := by
      split
      · exact List.forall_mem_cons.mpr ⟨by decide, List.forall_mem_nil _⟩
      · exact List.forall_mem_nil _
    have hall : "null".toList.all (fun c => decide (InNumber c)) = true := by decide
    have hnull : ∀ c ∈ "null".toList, InNumber c := fun c hc =>
      of_decide_eq_true (List.all_eq_true.mp hall c hc)
    show ∀ c ∈ (Decimal.jsonStyle.write x).toList, InNumber c
    unfold Decimal.Style.write
    dsimp only
    cases Decimal.magnitude x with
    | nan => exact hnull
    | infinite => exact hnull
    | finite m q =>
      show ∀ c ∈ (_ ++ String.ofList _).toList, InNumber c
      rw [String.toList_append, String.toList_ofList]
      exact List.forall_mem_append.mpr ⟨hsign, Decimal.inNumber_point _ _⟩

/-- **A number is written without a line feed.** -/
theorem lineFeed_notMem_number (n : Number) : '\n' ∉ number n := fun h =>
  absurd (inNumber_number n '\n' h) (by decide)

theorem lineFeed_notMem_unitDigits : ∀ n, n < 0x20 → '\n' ∉ unitDigits n := by
  decide

/-- **A character within quotes is written without a line feed**, the line feed as well. -/
theorem lineFeed_notMem_quoteChar (c : Char) : '\n' ∉ quoteChar c := by
  unfold quoteChar
  split
  iterate 7 · decide
  · next hne _ _ _ _ =>
    split
    · next hc =>
      exact List.not_mem_cons_of_ne_of_not_mem (by decide)
        (List.not_mem_cons_of_ne_of_not_mem (by decide) (lineFeed_notMem_unitDigits _ hc))
    · exact fun hin => hne (List.mem_singleton.mp hin).symm

/-- **A text between quotes is written without a line feed.** -/
theorem lineFeed_notMem_quote (s : String) : '\n' ∉ quote s := by
  have hchars : '\n' ∉ s.toList.flatMap quoteChar := by
    rw [List.mem_flatMap]
    rintro ⟨c, -, hin⟩
    exact lineFeed_notMem_quoteChar c hin
  exact List.not_mem_cons_of_ne_of_not_mem (by decide)
    (List.not_mem_append hchars (by decide))

theorem lineFeed_notMem_entry (key : String) {cs : List Char} (h : '\n' ∉ cs) :
    '\n' ∉ quote key ++ ':' :: cs :=
  List.not_mem_append (lineFeed_notMem_quote key)
    (List.not_mem_cons_of_ne_of_not_mem (by decide) h)

mutual

/-- **A compact document is one line.** -/
theorem lineFeed_notMem_compact : ∀ v : Value, '\n' ∉ compact v
  | .null => by decide
  | .flag true => by decide
  | .flag false => by decide
  | .number n => lineFeed_notMem_number n
  | .text s => lineFeed_notMem_quote s
  | .list items =>
    List.not_mem_cons_of_ne_of_not_mem (by decide)
      (List.not_mem_append (lineFeed_notMem_compactItems items) (by decide))
  | .table entries =>
    List.not_mem_cons_of_ne_of_not_mem (by decide)
      (List.not_mem_append (lineFeed_notMem_compactEntries entries) (by decide))

/-- So are the items of a list. -/
theorem lineFeed_notMem_compactItems : ∀ items : List Value, '\n' ∉ compactItems items
  | [] => List.not_mem_nil
  | [v] => lineFeed_notMem_compact v
  | v :: w :: rest =>
    List.not_mem_append (lineFeed_notMem_compact v)
      (List.not_mem_cons_of_ne_of_not_mem (by decide) (lineFeed_notMem_compactItems (w :: rest)))

/-- So are the entries of a table. -/
theorem lineFeed_notMem_compactEntries :
    ∀ entries : List (String × Value), '\n' ∉ compactEntries entries
  | [] => List.not_mem_nil
  | [(k, v)] => lineFeed_notMem_entry k (lineFeed_notMem_compact v)
  | (k, v) :: w :: rest => by
    have hrest : '\n' ∉ ',' :: compactEntries (w :: rest) :=
      List.not_mem_cons_of_ne_of_not_mem (by decide) (lineFeed_notMem_compactEntries (w :: rest))
    exact List.not_mem_append (lineFeed_notMem_entry k (lineFeed_notMem_compact v)) hrest

end

end Courier.Json
