import Courier.Text.Numeral
/-!
# What is written as a numeral is read as its number

The digits of a natural number are read from the left, and each of them makes
ten times the number so far and its own value. The digits of a number up to
any place write the number without the digits behind it, which is not above
the number itself; so reading stops early only when the number itself is too
large. Nothing but digits, perhaps after a plus sign, is read as a number
(`readNumeral_eq_ok_iff`).
-/

namespace Courier.Text

/-- The value of the digit of a number below ten. -/
theorem digit?_digitChar {d : Nat} (h : d < 10) : digit? (Nat.digitChar d) = some d := by
  unfold digit?
  rw [if_pos (by rw [Nat.isDigit_digitChar]; exact decide_eq_true h)]
  exact congrArg some (Nat.toNat_digitChar_sub_48_of_lt_ten h)

/-- **Digits one after another**: what is read first is the number that the rest
goes on from. -/
theorem readDigits_append (limit : Nat) (ys : List Char) (xs : List Char) : ∀ n : Nat,
    readDigits limit n (xs ++ ys)
      = (readDigits limit n xs).bind fun m => readDigits limit m ys := by
  induction xs with
  | nil =>
    intro n
    rfl
  | cons c xs ih =>
    intro n
    rw [List.cons_append, readDigits, readDigits]
    cases digit? c with
    | none => rfl
    | some d =>
      show (if limit < n * 10 + d then _ else readDigits limit (n * 10 + d) (xs ++ ys)) = _
      by_cases h : limit < n * 10 + d
      · rw [if_pos h]
        show _ = (if limit < n * 10 + d then _ else _ : Except NumeralFault Nat).bind _
        rw [if_pos h]
        rfl
      · rw [if_neg h, ih]
        show _ = (if limit < n * 10 + d then _ else _ : Except NumeralFault Nat).bind _
        rw [if_neg h]

/-- **A digit before others** that are read. -/
theorem readDigits_cons_ok {limit n m : Nat} {c : Char} {cs : List Char}
    (h : readDigits limit n (c :: cs) = .ok m) :
    ∃ d, digit? c = some d ∧ n * 10 + d ≤ limit ∧ readDigits limit (n * 10 + d) cs = .ok m := by
  rw [readDigits] at h
  cases hc : digit? c with
  | none =>
    rw [hc] at h
    cases h
  | some d =>
    rw [hc] at h
    dsimp only at h
    split at h
    · cases h
    · next hfits => exact ⟨d, rfl, Nat.not_lt.mp hfits, h⟩

/-- **Digits are read as the number that they write**, behind others, unless it is too large. -/
theorem readDigits_ofDigitChars {limit : Nat} {cs : List Char} (h : ∀ c ∈ cs, c.isDigit) :
    ∀ {n : Nat}, Nat.ofDigitChars 10 cs n ≤ limit →
      readDigits limit n cs = .ok (Nat.ofDigitChars 10 cs n) := by
  induction cs with
  | nil => exact fun _ => rfl
  | cons c cs ih =>
    intro n hle
    have hc : digit? c = some (c.toNat - '0'.toNat) := if_pos (h c List.mem_cons_self)
    rw [Nat.ofDigitChars_cons, Nat.mul_comm 10 n] at hle ⊢
    have hfits : n * 10 + (c.toNat - '0'.toNat) ≤ limit := by
      rw [Nat.ofDigitChars_eq_ofDigitChars_zero] at hle
      have hmul := Nat.le_mul_of_pos_left (n * 10 + (c.toNat - '0'.toNat))
        (Nat.pow_pos (n := cs.length) (show 0 < 10 by decide))
      omega
    rw [readDigits, hc]
    dsimp only
    rw [if_neg (Nat.not_lt.mpr hfits)]
    exact ih (fun c hc => h c (List.mem_cons_of_mem _ hc)) hle

/-- **A text that writes a natural number** up to a limit: digits, perhaps after a plus
sign. -/
def Writes (limit : Nat) (s : List Char) (n : Nat) : Prop :=
  ∃ digits, (s = digits ∨ s = '+' :: digits) ∧ digits ≠ [] ∧ (∀ c ∈ digits, c.isDigit = true) ∧
    Nat.ofDigitChars 10 digits 0 = n ∧ n ≤ limit

/-- What is read behind a number not above the limit are digits, and they write what they
are read as. -/
theorem of_readDigits {limit : Nat} {cs : List Char} : ∀ {n m : Nat}, n ≤ limit →
    readDigits limit n cs = .ok m →
      (∀ c ∈ cs, c.isDigit = true) ∧ Nat.ofDigitChars 10 cs n = m ∧ m ≤ limit := by
  induction cs with
  | nil =>
    intro n m hn h
    obtain rfl := Except.ok.inj h
    exact ⟨fun c hc => absurd hc List.not_mem_nil, rfl, hn⟩
  | cons c cs ih =>
    intro n m _ h
    obtain ⟨d, hd, hfits, h⟩ := readDigits_cons_ok h
    obtain ⟨hall, hvalue, hle⟩ := ih hfits h
    unfold digit? at hd
    split at hd
    · next hc =>
      refine ⟨List.forall_mem_cons.mpr ⟨hc, hall⟩, ?_, hle⟩
      rw [Nat.ofDigitChars_cons, Nat.mul_comm 10 n, Option.some.inj hd, hvalue]
    · cases hd

/-- **A text is read as a number exactly when it writes it.** -/
theorem readNumeral_eq_ok_iff {limit : Nat} {s : List Char} {n : Nat} :
    readNumeral limit s = .ok n ↔ Writes limit s n := by
  constructor
  · intro h
    unfold readNumeral at h
    split at h
    · cases h
    · cases h
    · next rest hrest =>
      obtain ⟨hall, hvalue, hle⟩ := of_readDigits (Nat.zero_le _) h
      exact ⟨rest, .inr rfl, fun hnil => hrest (hnil ▸ rfl), hall, hvalue, hle⟩
    · next hne _ _ =>
      obtain ⟨hall, hvalue, hle⟩ := of_readDigits (Nat.zero_le _) h
      exact ⟨s, .inl rfl, fun hnil => hne hnil, hall, hvalue, hle⟩
  · rintro ⟨digits, hs, hne, hall, rfl, hle⟩
    rw [← readDigits_ofDigitChars hall hle]
    obtain ⟨c, rest, rfl⟩ := List.exists_cons_of_ne_nil hne
    have hplus : c ≠ '+' := by
      rintro rfl
      exact absurd (hall '+' List.mem_cons_self) (by decide)
    obtain rfl | rfl := hs
    · unfold readNumeral
      split
      · next heq => cases heq
      · next heq => exact absurd (List.cons.inj heq).1 hplus
      · next heq => exact absurd (List.cons.inj heq).1 hplus
      · rfl
    · rfl

/-- **The digits of a number are read as it**, unless it is too large. -/
theorem readDigits_toDigits (limit n : Nat) :
    readDigits limit 0 (Nat.toDigits 10 n) = if n ≤ limit then .ok n else .error .tooLarge := by
  induction n using Nat.strongRecOn with
  | ind n ih =>
    have last : ∀ m d, d < 10 → readDigits limit m [Nat.digitChar d]
        = if m * 10 + d ≤ limit then .ok (m * 10 + d) else .error .tooLarge := by
      intro m d hd
      rw [readDigits, digit?_digitChar hd]
      show (if limit < m * 10 + d then _ else _) = _
      by_cases h : limit < m * 10 + d
      · rw [if_pos h, if_neg (Nat.not_le.mpr h)]
      · rw [if_neg h, if_pos (Nat.not_lt.mp h)]
        rfl
    by_cases h : n < 10
    · rw [Nat.toDigits_of_lt_base h, last 0 n h, Nat.zero_mul, Nat.zero_add]
    · -- the digits before the last one are those of a tenth of the number
      have hten : n / 10 * 10 + n % 10 = n := by omega
      rw [Nat.toDigits_of_base_le (by decide) (Nat.not_lt.mp h), readDigits_append,
        ih (n / 10) (by omega)]
      by_cases hle : n / 10 ≤ limit
      · rw [if_pos hle]
        show readDigits limit (n / 10) _ = _
        rw [last (n / 10) (n % 10) (Nat.mod_lt n (by decide)), hten]
      · rw [if_neg hle, if_neg (by omega)]
        rfl

/-- **The numeral of a number is read as it**, unless it is too large. -/
theorem readNumeral_toString (limit n : Nat) :
    readNumeral limit (toString n).toList
      = if n ≤ limit then .ok n else .error .tooLarge := by
  have hd : (toString n).toList = Nat.toDigits 10 n := Nat.toList_repr
  have hdigit : ∀ c ∈ Nat.toDigits 10 n, c.isDigit = true := fun c hc =>
    Nat.isDigit_of_mem_toDigits (by decide) (by decide) hc
  rw [hd, ← readDigits_toDigits]
  cases hs : Nat.toDigits 10 n with
  | nil => exact absurd hs Nat.toDigits_ne_nil
  | cons c rest =>
    have hc : c ≠ '+' := fun h => by
      have := hdigit c (hs ▸ List.mem_cons_self)
      rw [h] at this
      exact absurd this (by decide)
    unfold readNumeral
    split
    · next h => cases h
    · next h => exact absurd (List.cons.inj h).1 hc
    · next h => exact absurd (List.cons.inj h).1 hc
    · rfl

/-- **Numbers of the same numeral are the same.** -/
theorem toString_nat_inj {n m : Nat} (h : toString n = toString m) : n = m := by
  have hn := readNumeral_toString (max n m) n
  rw [h, readNumeral_toString, if_pos (Nat.le_max_right n m), if_pos (Nat.le_max_left n m)] at hn
  exact (Except.ok.inj hn).symm

/-- **The first digit of a number** is no zero, unless the number is zero. -/
theorem exists_lead {n : Nat} (h : 0 < n) :
    ∃ d cs, 0 < d ∧ d < 10 ∧ Nat.toDigits 10 n = Nat.digitChar d :: cs := by
  induction n using Nat.strongRecOn with
  | ind n ih =>
    by_cases hn : n < 10
    · exact ⟨n, [], h, hn, Nat.toDigits_of_lt_base hn⟩
    · obtain ⟨d, cs, hd, hd', hcs⟩ := ih (n / 10) (by omega) (by omega)
      refine ⟨d, cs ++ [Nat.digitChar (n % 10)], hd, hd', ?_⟩
      rw [Nat.toDigits_of_base_le (by decide) (Nat.not_lt.mp hn), hcs]
      rfl

/-- **Digits without leading zeroes.** -/
def Lead (cs : List Char) : Prop :=
  cs = ['0'] ∨ ∃ d rest, 0 < d ∧ d < 10 ∧ cs = Nat.digitChar d :: rest

/-- A number has no leading zeroes. -/
theorem lead_toDigits (n : Nat) : Lead (Nat.toDigits 10 n) := by
  obtain rfl | hpos := Nat.eq_zero_or_pos n
  · exact .inl rfl
  · exact .inr (exists_lead hpos)

/-- Digits without leading zeroes begin with a digit. -/
theorem Lead.exists_cons {cs : List Char} (hlead : Lead cs) (h : ∀ c ∈ cs, c.isDigit) :
    ∃ c rest, cs = c :: rest ∧ c.isDigit ∧ ∀ d ∈ rest, d.isDigit := by
  have hcons : ∃ c rest, cs = c :: rest := by
    obtain rfl | ⟨_, _, -, -, rfl⟩ := hlead <;> exact ⟨_, _, rfl⟩
  obtain ⟨c, rest, rfl⟩ := hcons
  exact ⟨c, rest, rfl, h c List.mem_cons_self, fun d hd => h d (List.mem_cons_of_mem _ hd)⟩

theorem isDigit_of_mem {n : Nat} {c : Char} (h : c ∈ Nat.toDigits 10 n) : c.isDigit :=
  Nat.isDigit_of_mem_toDigits (by decide) (by decide) h

/-- The numeral of a whole number has a sign when the number is negative. -/
theorem toList_toString_int (n : Int) : (toString n).toList
    = if decide (n < 0) then '-' :: Nat.toDigits 10 n.natAbs else Nat.toDigits 10 n.natAbs := by
  cases n with
  | ofNat n => exact Nat.toList_repr
  | negSucc n =>
    rw [decide_eq_true (Int.negSucc_lt_zero n), if_pos rfl]
    show ("-" ++ Nat.repr (n + 1)).toList = _
    rw [String.toList_append, Nat.toList_repr]
    rfl

end Courier.Text
