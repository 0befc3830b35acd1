import Courier.Json.Printer
import Courier.Json.Token
/-!
# A text between quotes is one token

What is written between quotes is read as the text itself, character by
character: an escape is read as the character it stands for, and any other
character as itself. None of them is a quote to the machine, and none is a
control character, so the text ends where it was ended and is one without
fault.
-/

namespace Courier.Json

open Courier.Document
open Courier.Text (hexValue?)

theorem hexValue?_digitChar : ∀ d, d < 16 → hexValue? (Nat.digitChar d) = some d := by
  decide

theorem unitDigits_of_control : ∀ n, n < 0x20 →
    unitDigits n = ['0', '0', Nat.digitChar (n / 16), Nat.digitChar (n % 16)] := by
  decide

variable (pieces : List Piece) (uncontrolled : Bool)

/-- **The four digits of a control character are read as it.** -/
theorem tokensFrom_unitDigits {n : Nat} (h : n < 0x20) (rest : List Char) :
    tokensFrom (.text (.unit 0 0) pieces uncontrolled) (unitDigits n ++ rest)
      = tokensFrom (.text .plain (.char (Char.ofNat n) :: pieces) uncontrolled) rest := by
  have hvalue : ((0 * 16 + 0) * 16 + n / 16) * 16 + n % 16 = n := by omega
  have hadd : addUnit n pieces = .char (Char.ofNat n) :: pieces := by
    unfold addUnit
    rw [if_neg (by simp; omega), if_neg (by simp; omega)]
  rw [unitDigits_of_control n h]
  simp only [List.cons_append, List.nil_append, tokensFrom, Lexer.step, Lexer.textStep,
    show hexValue? '0' = some 0 from rfl, hexValue?_digitChar (n / 16) (by omega),
    hexValue?_digitChar (n % 16) (by omega)]
  show tokensFrom (.text .plain (addUnit (((0 * 16 + 0) * 16 + n / 16) * 16 + n % 16) pieces)
    uncontrolled) rest = _
  rw [hvalue, hadd]

/-- **A character that is written within quotes is read as it.** -/
theorem tokensFrom_quoteChar (c : Char) (rest : List Char) :
    tokensFrom (.text .plain pieces uncontrolled) (quoteChar c ++ rest)
      = tokensFrom (.text .plain (.char c :: pieces) uncontrolled) rest := by
  unfold quoteChar
  -- seven characters have an escape of two characters each
  split
  · rfl
  · rfl
  · rfl
  · rfl
  · rfl
  · rfl
  · rfl
  · next hquote hbackslash _ _ _ _ _ =>
    by_cases hc : c.toNat < 0x20
    · rw [if_pos hc]
      show tokensFrom (.text (.unit 0 0) pieces uncontrolled) (unitDigits c.toNat ++ rest) = _
      rw [tokensFrom_unitDigits pieces uncontrolled hc, Char.ofNat_toNat]
    · rw [if_neg hc]
      show ((Lexer.textStep .plain pieces uncontrolled c).1
        ++ tokensFrom (Lexer.textStep .plain pieces uncontrolled c).2 rest) = _
      unfold Lexer.textStep
      simp only [if_neg (show ¬ c = '"' from hquote), if_neg (show ¬ c = '\\' from hbackslash),
        decide_eq_false hc, Bool.or_false]
      rfl

/-- **Characters that are written within quotes are read one after another.** -/
theorem tokensFrom_quoteChars (s : List Char) (rest : List Char) : ∀ pieces : List Piece,
    tokensFrom (.text .plain pieces uncontrolled) (s.flatMap quoteChar ++ rest)
      = tokensFrom (.text .plain ((s.map Piece.char).reverse ++ pieces) uncontrolled) rest := by
  induction s with
  | nil =>
    intro pieces
    rfl
  | cons c s ih =>
    intro pieces
    rw [List.flatMap_cons, List.append_assoc, tokensFrom_quoteChar, ih, List.map_cons,
      List.reverse_cons, List.append_assoc]
    rfl

/-- **A text between quotes is one token**, and the machine is between tokens after
it. -/
theorem tokensFrom_quote (s : String) (rest : List Char) :
    tokensFrom .between (quote s ++ rest) = .text (.ofString s) :: tokensFrom .between rest := by
  show tokensFrom (.text .plain [] false) ((s.toList.flatMap quoteChar ++ ['"']) ++ rest) = _
  rw [List.append_assoc, tokensFrom_quoteChars]
  show Token.text ⟨((s.toList.map Piece.char).reverse ++ []).reverse, false⟩ :: _ = _
  rw [List.append_nil, List.reverse_reverse]
  rfl

/-- The text that is written is the text that is read. -/
theorem text?_ofString (s : String) : (Quoted.ofString s).text? = some s := by
  have hchars : ∀ cs : List Char, Quoted.chars? (cs.map Piece.char) = some cs := by
    intro cs
    induction cs with
    | nil => rfl
    | cons c cs ih =>
      show (Quoted.chars? (cs.map Piece.char)).map (c :: ·) = _
      rw [ih]
      rfl
  show (Quoted.chars? (s.toList.map Piece.char)).map String.ofList = some s
  rw [hchars]
  exact congrArg some (String.ofList_toList)

end Courier.Json
