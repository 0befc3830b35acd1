import Mathlib.Algebra.Group.Nat.Defs
import Courier.Url.Address
import Courier.Proofs.Text.Numeral
import Courier.Proofs.Url.Domain
/-!
# A network address that is written is read as itself

An address of four bytes is written as four numerals in base ten, which are read in the
same base since none of them begins with a zero but zero itself (`parseV4_renderV4`). An
address of eight words is written with its longest run of zero words left out. The gap is
where the first pair of colons is, since no word is written as nothing, and the words on
either side of it leave just as many to be filled in with zeroes (`parseV6_renderV6`).
-/

namespace Courier.Url

open Courier.Text (hexValue? lead_toDigits isDigit_of_mem)

/-! ## Numerals -/

theorem hexValue?_digitChar {d : Nat} (h : d < 16) : hexValue? (Nat.digitChar d) = some d := by
  have all : ∀ d : Fin 16, hexValue? (Nat.digitChar d) = some d.val := by decide
  exact all ⟨d, h⟩

/-- A number with one more digit behind it. -/
def numeralStep (base n : Nat) (c : Char) : Option Nat :=
  match hexValue? c with
  | some d => if d < base then some (n * base + d) else none
  | none => none

theorem numeralIn?_eq (base : Nat) (s : List Char) :
    numeralIn? base s = s.foldlM (numeralStep base) 0 := rfl

/-- One digit behind a numeral. -/
theorem numeralIn?_append_digit {base d n : Nat} {s : List Char} (hbase : base ≤ 16)
    (hd : d < base) (h : numeralIn? base s = some n) :
    numeralIn? base (s ++ [Nat.digitChar d]) = some (n * base + d) := by
  have hstep : numeralStep base n (Nat.digitChar d) = some (n * base + d) := by
    unfold numeralStep
    rw [hexValue?_digitChar (Nat.lt_of_lt_of_le hd hbase)]
    exact if_pos hd
  rw [numeralIn?_eq] at h ⊢
  rw [List.foldlM_append, h]
  show (List.foldlM (numeralStep base) n [Nat.digitChar d] : Option Nat) = _
  rw [List.foldlM_cons, hstep]
  rfl

/-- **A numeral is read as its number**, in any base up to sixteen. -/
theorem numeralIn?_toDigits {base : Nat} (h1 : 1 < base) (h16 : base ≤ 16) (n : Nat) :
    numeralIn? base (Nat.toDigits base n) = some n := by
  induction n using Nat.strongRecOn with
  | ind n ih =>
    by_cases hn : n < base
    · have hnil : numeralIn? base [] = some 0 := rfl
      rw [Nat.toDigits_of_lt_base hn]
      exact (numeralIn?_append_digit h16 hn hnil).trans (by rw [Nat.zero_mul, Nat.zero_add])
    · have hle := Nat.not_lt.mp hn
      have hlt : n / base < n := Nat.div_lt_self (by omega) h1
      rw [Nat.toDigits_of_base_le h1 hle,
        numeralIn?_append_digit h16 (Nat.mod_lt n (by omega)) (ih (n / base) hlt),
        Nat.div_add_mod']

/-- A digit keeps a number below the next power. -/
theorem lt_of_numeralStep {base n m k : Nat} {c : Char} (h : numeralStep base n c = some m)
    (hn : n < k) : m < k * base := by
  unfold numeralStep at h
  split at h
  · next d _ =>
    split at h
    · next hd =>
      obtain rfl := Option.some.inj h
      calc n * base + d < n * base + base := Nat.add_lt_add_left hd _
        _ = (n + 1) * base := (Nat.succ_mul n base).symm
        _ ≤ k * base := Nat.mul_le_mul_right base hn
    · cases h
  · cases h

/-- **A numeral is less than the power of its length.** -/
theorem lt_pow_of_numeralIn? {base n : Nat} {s : List Char} (h : numeralIn? base s = some n) :
    n < base ^ s.length := by
  have hfold : ∀ (s : List Char) {m k : Nat}, m < k →
      s.foldlM (numeralStep base) m = some n → n < k * base ^ s.length := by
    intro s
    induction s with
    | nil =>
      intro m k hm h
      obtain rfl := Option.some.inj h
      rwa [List.length_nil, Nat.pow_zero, Nat.mul_one]
    | cons c s ih =>
      intro m k hm h
      rw [List.foldlM_cons] at h
      obtain ⟨m', hstep, h⟩ := Option.bind_eq_some_iff.mp h
      have := ih (lt_of_numeralStep hstep hm) h
      rwa [List.length_cons, Nat.pow_succ', ← Nat.mul_assoc]
  have := hfold s Nat.one_pos h
  rwa [Nat.one_mul] at this

/-! ## Four bytes -/

/-- **A numeral in base ten is a part of an address**, in that base. -/
theorem addressPart?_toDigits (n : Nat) : addressPart? (Nat.toDigits 10 n) = some n := by
  have hread := numeralIn?_toDigits (show 1 < 10 by decide) (by decide) n
  obtain h0 | ⟨d, rest, hpos, hd, hcons⟩ := lead_toDigits n
  · rw [h0] at hread ⊢
    exact hread
  · have hne : ∀ d : Fin 10, 0 < d.val → Nat.digitChar d.val ≠ '0' := by decide
    have hc := hne ⟨d, hd⟩ hpos
    rw [hcons] at hread ⊢
    unfold addressPart?
    split
    · next h => cases h
    · next h => exact absurd (List.cons.inj h).1 hc
    · next h => exact absurd (List.cons.inj h).1 hc
    · next h => exact absurd (List.cons.inj h).1 hc
    · exact hread

/-- A decimal digit is settled, and it is no dot. -/
theorem isSettled_of_isDigit {c : Char} (h : c.isDigit = true) : IsSettled c ∧ c ≠ '.' := by
  have hascii : c.toNat < 0x80 := by
    have hle : c.val ≤ 57 := by
      have := h
      simp only [Char.isDigit, Bool.and_eq_true, decide_eq_true_eq] at this
      exact this.2
    exact Nat.lt_of_le_of_lt (UInt32.le_iff_toNat_le.mp hle) (by decide)
  have all := forall_ascii (P := fun c => c.isDigit = true →
    c.toLower = c ∧ isForbiddenInDomain c = false ∧ c ≠ '.') (by decide) hascii h
  exact ⟨⟨hascii, all.1, all.2.1⟩, all.2.2⟩

/-- A numeral is a settled label. -/
theorem isSettledLabel_toDigits (n : Nat) : IsSettledLabel (Nat.toDigits 10 n) where
  settled _ hc := (isSettled_of_isDigit (isDigit_of_mem hc)).1
  dotless hdot := (isSettled_of_isDigit (isDigit_of_mem hdot)).2 rfl
  ascii := by
    have hmark : ¬ encodedMark.isPrefixOf (Nat.toDigits 10 n) = true := by
      intro h
      obtain ⟨rest, hrest⟩ := List.isPrefixOf_iff_prefix.mp h
      have hx : 'x' ∈ Nat.toDigits 10 n := hrest ▸ List.mem_cons_self
      exact absurd (isDigit_of_mem hx) (by decide)
    have hascii : (Nat.toDigits 10 n).all (·.toNat < 0x80) = true :=
      List.all_eq_true.mpr fun c hc =>
        decide_eq_true (isSettled_of_isDigit (isDigit_of_mem hc)).1.ascii
    unfold labelToAscii
    rw [if_neg hmark, if_pos hascii]

/-- The bytes of an address of four. -/
def bytesOf (n : Nat) : List Nat :=
  [n / 0x1000000 % 256, n / 0x10000 % 256, n / 0x100 % 256, n % 256]

/-- An address of four bytes is written as their numerals. -/
theorem renderV4_eq (n : Nat) :
    renderV4 n = List.intercalate ['.'] ((bytesOf n).map (Nat.toDigits 10)) := by
  have hnumeral : ∀ b : Nat, (toString b).toList = Nat.toDigits 10 b := fun b => Nat.toList_repr
  unfold renderV4 bytesOf
  simp only [hnumeral]

/-- The parts of an address that is written are these numerals. -/
theorem addressParts_renderV4 (n : Nat) :
    addressParts (renderV4 n) = (bytesOf n).map (Nat.toDigits 10) := by
  have hparts : partsBetween '.' (renderV4 n) = (bytesOf n).map (Nat.toDigits 10) := by
    rw [renderV4_eq]
    refine partsBetween_intercalate _ (by simp [bytesOf]) fun part hpart => ?_
    obtain ⟨b, -, rfl⟩ := List.mem_map.mp hpart
    exact (isSettledLabel_toDigits b).dotless
  have hlast : ¬ ((bytesOf n).map (Nat.toDigits 10)).getLast? = some [] := by
    intro h
    exact Nat.toDigits_ne_nil (Option.some.inj h)
  unfold addressParts
  rw [hparts]
  exact if_neg hlast

/-- **An address of four bytes ends in a number.** -/
theorem endsInNumber_renderV4 (n : Nat) : endsInNumber (renderV4 n) = true := by
  have hne : (Nat.toDigits 10 (n % 256)).isEmpty = false :=
    Bool.eq_false_iff.mpr fun h => Nat.toDigits_ne_nil (List.isEmpty_iff.mp h)
  have hall : (Nat.toDigits 10 (n % 256)).all Char.isDigit = true :=
    List.all_eq_true.mpr fun c hc => isDigit_of_mem hc
  unfold endsInNumber
  rw [addressParts_renderV4]
  show (!(Nat.toDigits 10 (n % 256)).isEmpty &&
    ((Nat.toDigits 10 (n % 256)).all Char.isDigit || _)) = true
  rw [hne, hall]
  rfl

/-- **An address of four bytes is read as itself.** -/
theorem parseV4_renderV4 {n : Nat} (h : n < 256 ^ 4) : parseV4 (renderV4 n) = some n := by
  have hnumbers : ((bytesOf n).map (Nat.toDigits 10)).mapM addressPart? = some (bytesOf n) := by
    unfold bytesOf
    simp only [List.map_cons, List.map_nil, List.mapM_cons, List.mapM_nil, addressPart?_toDigits]
    rfl
  have hbytes : ([n / 0x100 % 256, n / 0x10000 % 256, n / 0x1000000 % 256].any (255 < ·)
      || decide (Nat.pow 256 1 ≤ n % 256)) = false := by
    have hle : ∀ m : Nat, ¬ 255 < m % 256 := fun m => by omega
    simp only [List.any_cons, List.any_nil, hle, decide_false, Bool.or_false, Bool.false_or]
    exact decide_eq_false (by show ¬ 256 ≤ n % 256; omega)
  unfold parseV4
  rw [addressParts_renderV4]
  dsimp only
  rw [if_neg (show ¬ 4 < ((bytesOf n).map (Nat.toDigits 10)).length by simp [bytesOf]), hnumbers]
  show (if ([n / 0x100 % 256, n / 0x10000 % 256, n / 0x1000000 % 256].any (255 < ·)
      || decide (Nat.pow 256 1 ≤ n % 256)) = true then none
    else some ((((0 * 256 + n / 0x1000000 % 256) * 256 + n / 0x10000 % 256) * 256
      + n / 0x100 % 256) * Nat.pow 256 1 + n % 256)) = some n
  rw [hbytes, if_neg Bool.false_ne_true]
  refine congrArg some ?_
  show _ * 256 + _ = n
  have : 256 ^ 4 = 4294967296 := rfl
  omega

/-- It is a domain name as it is written, of settled characters. -/
theorem domainToAscii_renderV4 (n : Nat) :
    (∀ c ∈ renderV4 n, IsSettled c) ∧
      domainToAscii (percentDecode (renderV4 n)) = some (renderV4 n) := by
  rw [renderV4_eq]
  refine domainToAscii_of_labels (by simp [bytesOf]) fun label hlabel => ?_
  obtain ⟨b, -, rfl⟩ := List.mem_map.mp hlabel
  exact isSettledLabel_toDigits b

/-- Bytes put together are less than the power of their number. -/
theorem foldl_bytes_lt {bytes : List Nat} (h : ∀ b ∈ bytes, b ≤ 255) : ∀ {m k : Nat}, m < k →
    bytes.foldl (fun n b => n * 256 + b) m < k * 256 ^ bytes.length := by
  induction bytes with
  | nil =>
    intro m k hm
    rwa [List.length_nil, Nat.pow_zero, Nat.mul_one]
  | cons b bytes ih =>
    intro m k hm
    obtain ⟨hb, hbytes⟩ := List.forall_mem_cons.mp h
    have := ih hbytes (show m * 256 + b < k * 256 by omega)
    rwa [List.length_cons, Nat.pow_succ', ← Nat.mul_assoc]

/-- **What is read as an address of four bytes has no more than these.** -/
theorem lt_of_parseV4 {host : List Char} {n : Nat} (h : parseV4 host = some n) : n < 256 ^ 4 := by
  unfold parseV4 at h
  dsimp only at h
  split at h
  · cases h
  · next hcount =>
    split at h
    · cases h
    · next numbers hnumbers =>
      split at h
      · cases h
      · next last before hreverse =>
        split at h
        · cases h
        · next hfits =>
          have hlength : before.length + 1 ≤ 4 := by
            have := congrArg List.length hreverse
            rw [List.length_reverse, List.length_cons, (of_mapM hnumbers).1] at this
            omega
          simp only [Bool.or_eq_true, decide_eq_true_eq, not_or, Nat.not_le] at hfits
          have hbefore : ∀ b ∈ before.reverse, b ≤ 255 := fun b hb => by
            refine Nat.not_lt.mp fun hlt => hfits.1 ?_
            exact List.any_eq_true.mpr ⟨b, List.mem_reverse.mp hb, decide_eq_true hlt⟩
          have hfold := foldl_bytes_lt hbefore Nat.one_pos
          rw [List.length_reverse, Nat.one_mul] at hfold
          have hpow : 256 ^ before.length * 256 ^ (4 - before.length) = 256 ^ 4 := by
            rw [← Nat.pow_add, Nat.add_sub_cancel' (by omega)]
          obtain rfl := Option.some.inj h
          calc _ < _ * 256 ^ (4 - before.length) + 256 ^ (4 - before.length) :=
                Nat.add_lt_add_left hfits.2 _
            _ = (_ + 1) * 256 ^ (4 - before.length) := (Nat.succ_mul _ _).symm
            _ ≤ 256 ^ before.length * 256 ^ (4 - before.length) :=
                Nat.mul_le_mul_right _ hfold
            _ = 256 ^ 4 := hpow

/-! ## Eight words -/

/-- A digit in base sixteen is one of sixteen characters. -/
theorem exists_of_mem_toDigits {n : Nat} {c : Char} (h : c ∈ Nat.toDigits 16 n) :
    ∃ d < 16, c = Nat.digitChar d := by
  induction n using Nat.strongRecOn with
  | ind n ih =>
    by_cases hn : n < 16
    · rw [Nat.toDigits_of_lt_base hn] at h
      exact ⟨n, hn, List.mem_singleton.mp h⟩
    · rw [Nat.toDigits_of_base_le (by decide) (Nat.not_lt.mp hn)] at h
      obtain h | h := List.mem_append.mp h
      · exact ih (n / 16) (by omega) h
      · exact ⟨n % 16, Nat.mod_lt n (by decide), List.mem_singleton.mp h⟩

/-- It is visible, and it is no mark of punctuation within an address. -/
theorem of_mem_toDigits {n : Nat} {c : Char} (h : c ∈ Nat.toDigits 16 n) :
    0x20 < c.toNat ∧ c.toNat < 0x7F ∧ c.isAlphanum = true := by
  obtain ⟨d, hd, rfl⟩ := exists_of_mem_toDigits h
  have all : ∀ d : Fin 16, 0x20 < (Nat.digitChar d.val).toNat ∧
      (Nat.digitChar d.val).toNat < 0x7F ∧ (Nat.digitChar d.val).isAlphanum = true := by decide
  exact all ⟨d, hd⟩

theorem notMem_toDigits {n : Nat} {c : Char} (hc : c.isAlphanum = false) :
    c ∉ Nat.toDigits 16 n := fun h =>
  Bool.false_ne_true (hc.symm.trans (of_mem_toDigits h).2.2)

/-- **A word is read as itself.** -/
theorem word?_toDigits {w : Nat} (h : w < 65536) : word? (Nat.toDigits 16 w) = some w := by
  have hlength : (Nat.toDigits 16 w).length ≤ 4 :=
    (Nat.length_toDigits_le_iff (by decide) (by decide)).mpr h
  have hempty : (Nat.toDigits 16 w).isEmpty = false :=
    Bool.eq_false_iff.mpr fun h => Nat.toDigits_ne_nil (List.isEmpty_iff.mp h)
  unfold word?
  rw [hempty, Bool.false_or, decide_eq_false (Nat.not_lt.mpr hlength), if_neg Bool.false_ne_true]
  exact numeralIn?_toDigits (by decide) (by decide) w

/-- What is read as a word is one. -/
theorem lt_of_word? {s : List Char} {w : Nat} (h : word? s = some w) : w < 65536 := by
  unfold word? at h
  split at h
  · cases h
  · next hshort =>
    simp only [Bool.or_eq_true, decide_eq_true_eq, not_or, Nat.not_lt] at hshort
    calc w < 16 ^ s.length := lt_pow_of_numeralIn? h
      _ ≤ 16 ^ 4 := Nat.pow_le_pow_right (by decide) hshort.2
      _ = 65536 := rfl

/-- What is read as bytes with dots between them is bytes. -/
theorem lt_of_dottedBytes? {s : List Char} {bytes : List Nat} (h : dottedBytes? s = some bytes) :
    ∀ b ∈ bytes, b < 256 := by
  unfold dottedBytes? at h
  dsimp only at h
  split at h
  · cases h
  · intro b hb
    obtain ⟨part, -, hpart⟩ := (of_mapM h).2 b hb
    split at hpart
    · cases hpart
    · split at hpart
      · split at hpart
        · next hlt => exact Option.some.inj hpart ▸ hlt
        · cases hpart
      · cases hpart

/-- What is read as words is words. -/
theorem lt_of_words? {bytesAllowed : Bool} {parts : List (List Char)} : ∀ {ws : List Nat},
    words? bytesAllowed parts = some ws → ∀ w ∈ ws, w < 65536 := by
  induction parts using words?.induct bytesAllowed with
  | case1 =>
    intro ws h
    cases h
    exact fun w hw => absurd hw List.not_mem_nil
  | case2 part hdot a b c d hbytes =>
    intro ws h
    rw [words?, if_pos hdot, hbytes] at h
    cases h
    have hlt := lt_of_dottedBytes? hbytes
    simp only [List.forall_mem_cons] at hlt ⊢
    refine ⟨by omega, by omega, fun w hw => absurd hw List.not_mem_nil⟩
  | case3 part hdot hbytes =>
    intro ws h
    rw [words?, if_pos hdot] at h
    split at h
    · next heq => exact absurd heq (hbytes _ _ _ _)
    · cases h
  | case4 part hdot =>
    intro ws h
    rw [words?, if_neg hdot] at h
    obtain ⟨w, hw, rfl⟩ := Option.map_eq_some_iff.mp h
    exact fun w' hw' => List.mem_singleton.mp hw' ▸ lt_of_word? hw
  | case5 part rest hne ih =>
    intro ws h
    rw [words?] at h
    · obtain ⟨w, hw, h⟩ := Option.bind_eq_some_iff.mp h
      obtain ⟨ws, hws, h⟩ := Option.bind_eq_some_iff.mp h
      cases h
      exact List.forall_mem_cons.mpr ⟨lt_of_word? hw, ih hws⟩
    · exact hne

/-- What is read as the words of a text is words. -/
theorem lt_of_wordsOf? {bytesAllowed : Bool} {s : List Char} {ws : List Nat}
    (h : wordsOf? bytesAllowed s = some ws) : ∀ w ∈ ws, w < 65536 := by
  unfold wordsOf? at h
  split at h
  · cases h
    exact fun w hw => absurd hw List.not_mem_nil
  · exact lt_of_words? h

/-- **What is read as an address of eight words is one.** -/
theorem of_parseV6 {s : List Char} {ws : List Nat} (h : parseV6 s = some ws) :
    ws.length = 8 ∧ ∀ w ∈ ws, w < 65536 := by
  unfold parseV6 at h
  split at h
  · split at h
    · next hws =>
      split at h
      · next hlength =>
        obtain rfl := Option.some.inj h
        exact ⟨hlength, lt_of_wordsOf? hws⟩
      · cases h
    · cases h
  · obtain ⟨front, hfront, h⟩ := Option.bind_eq_some_iff.mp h
    obtain ⟨back, hback, h⟩ := Option.bind_eq_some_iff.mp h
    split at h
    · next hlength =>
      obtain rfl := Option.some.inj h
      refine ⟨?_, fun w hw => ?_⟩
      · rw [List.length_append, List.length_append, List.length_replicate]
        omega
      · obtain hw | hw := List.mem_append.mp hw
        · obtain hw | hw := List.mem_append.mp hw
          · exact lt_of_wordsOf? hfront w hw
          · rw [List.eq_of_mem_replicate hw]
            decide
        · exact lt_of_wordsOf? hback w hw
    · cases h

/-! ### Words on either side of the gap -/

/-- Words are read as themselves. -/
theorem words?_map_toDigits (bytesAllowed : Bool) {ws : List Nat} (h : ∀ w ∈ ws, w < 65536) :
    words? bytesAllowed (ws.map (Nat.toDigits 16)) = some ws := by
  induction ws with
  | nil => rfl
  | cons w ws ih =>
    obtain ⟨hw, hws⟩ := List.forall_mem_cons.mp h
    cases ws with
    | nil =>
      have hdot : (Nat.toDigits 16 w).contains '.' = false :=
        Bool.eq_false_iff.mpr fun h => notMem_toDigits (by decide) (List.contains_iff_mem.mp h)
      rw [List.map_cons, List.map_nil, words?, hdot, Bool.and_false, if_neg Bool.false_ne_true,
        word?_toDigits hw]
      rfl
    | cons next ws =>
      rw [List.map_cons, List.map_cons, words?, word?_toDigits hw, ← List.map_cons, ih hws]
      · rfl
      · exact fun h => List.cons_ne_nil _ _ h

/-- **Words with colons between them are read as themselves**, none of them included. -/
theorem wordsOf?_joinWords (bytesAllowed : Bool) {ws : List Nat} (h : ∀ w ∈ ws, w < 65536) :
    wordsOf? bytesAllowed (joinWords ws) = some ws := by
  cases ws with
  | nil => rfl
  | cons w ws =>
    have hparts : partsBetween ':' (joinWords (w :: ws)) = (w :: ws).map (Nat.toDigits 16) := by
      refine partsBetween_intercalate _ (List.cons_ne_nil _ _) fun part hpart => ?_
      obtain ⟨w, -, rfl⟩ := List.mem_map.mp hpart
      exact notMem_toDigits (by decide)
    have hne : ¬ (joinWords (w :: ws)).isEmpty = true := by
      intro h
      rw [List.isEmpty_iff.mp h] at hparts
      have hnil : Nat.toDigits 16 w = [] := (List.cons.inj hparts).1.symm
      exact Nat.toDigits_ne_nil hnil
    unfold wordsOf?
    rw [if_neg hne, hparts]
    exact words?_map_toDigits bytesAllowed h

/-- A text without colons is passed on the way to the gap. -/
theorem splitAtGap_append {s : List Char} (h : ':' ∉ s) (rest : List Char) :
    splitAtGap (s ++ rest) = (splitAtGap rest).map fun p => (s ++ p.1, p.2) := by
  induction s with
  | nil => exact Option.map_id'.symm
  | cons c s ih =>
    have hc : c ≠ ':' := fun heq => h (heq ▸ List.mem_cons_self)
    rw [List.cons_append, splitAtGap, ih fun hmem => h (List.mem_cons_of_mem c hmem),
      Option.map_map]
    · rfl
    · exact fun _ heq _ => hc heq

theorem splitAtGap_colon {c : Char} (hc : c ≠ ':') (rest : List Char) :
    splitAtGap (':' :: c :: rest)
      = (splitAtGap (c :: rest)).map fun p => (':' :: p.1, p.2) := by
  rw [splitAtGap]
  exact fun _ _ heq => hc (List.cons.inj heq).1

/-- Two words and more, written. -/
theorem joinWords_cons_cons (w next : Nat) (ws : List Nat) :
    joinWords (w :: next :: ws) = Nat.toDigits 16 w ++ ':' :: joinWords (next :: ws) := by
  show List.intercalate [':'] (_ :: _ :: _) = _
  rw [List.intercalate_cons_cons, List.append_assoc]
  rfl

/-- Words do not begin with a colon. -/
theorem joinWords_eq_cons (w : Nat) (ws : List Nat) :
    ∃ c rest, joinWords (w :: ws) = c :: rest ∧ c ≠ ':' := by
  obtain ⟨c, rest, hcons⟩ := List.exists_cons_of_ne_nil (Nat.toDigits_ne_nil (n := w) (b := 16))
  have hc : c ≠ ':' := by
    rintro rfl
    exact notMem_toDigits (n := w) (c := ':') (by decide) (hcons ▸ List.mem_cons_self)
  cases ws with
  | nil => exact ⟨c, rest, hcons ▸ List.intercalate_singleton, hc⟩
  | cons next ws =>
    exact ⟨c, rest ++ ':' :: joinWords (next :: ws), by rw [joinWords_cons_cons, hcons]; rfl, hc⟩

/-- **There is no gap within words**: none of them is written as nothing. -/
theorem splitAtGap_joinWords (ws : List Nat) (rest : List Char) :
    splitAtGap (joinWords ws ++ rest)
      = (splitAtGap rest).map fun p => (joinWords ws ++ p.1, p.2) := by
  induction ws with
  | nil => exact Option.map_id'.symm
  | cons w ws ih =>
    have hw : ':' ∉ Nat.toDigits 16 w := notMem_toDigits (by decide)
    cases ws with
    | nil =>
      have hjoin : joinWords [w] = Nat.toDigits 16 w := List.intercalate_singleton
      rw [hjoin]
      exact splitAtGap_append hw rest
    | cons next ws =>
      obtain ⟨c, behind, hcons, hc⟩ := joinWords_eq_cons next ws
      rw [joinWords_cons_cons, List.append_assoc, splitAtGap_append hw, List.cons_append]
      rw [hcons] at ih ⊢
      rw [List.cons_append, splitAtGap_colon hc, ← List.cons_append, ih, Option.map_map,
        Option.map_map]
      refine congrArg (fun f => Option.map f (splitAtGap rest)) (funext fun p => ?_)
      show (Nat.toDigits 16 w ++ ':' :: (c :: behind ++ p.1), p.2) = _
      rw [List.append_assoc]
      rfl

/-! ### The gap -/

/-- **The longest run of zero words** is a run of zero words. -/
theorem le_longestRun (words : List Nat) :
    (longestRun words).2 ≤ ((words.drop (longestRun words).1).takeWhile (· = 0)).length := by
  have hfold : ∀ (places : List Nat) (best : Nat × Nat),
      best.2 ≤ ((words.drop best.1).takeWhile (· = 0)).length →
      (places.foldl (fun best i =>
          let n := ((words.drop i).takeWhile (· = 0)).length
          if best.2 < n then (i, n) else best) best).2
        ≤ ((words.drop (places.foldl (fun best i =>
          let n := ((words.drop i).takeWhile (· = 0)).length
          if best.2 < n then (i, n) else best) best).1).takeWhile (· = 0)).length := by
    intro places
    induction places with
    | nil => exact fun best h => h
    | cons i places ih =>
      intro best h
      refine ih _ ?_
      dsimp only
      split
      · exact Nat.le_refl _
      · exact h
  exact hfold _ _ (Nat.zero_le _)

/-- The words before a run of zeroes, the run, and the words behind it. -/
theorem eq_of_run {words : List Nat} {start n : Nat}
    (h : n ≤ ((words.drop start).takeWhile (· = 0)).length) :
    words = words.take start ++ List.replicate n 0 ++ words.drop (start + n) := by
  have hrun : (words.drop start).take n = List.replicate n 0 := by
    have hzeroes : ((words.drop start).takeWhile (· = 0)).take n = (words.drop start).take n := by
      obtain ⟨rest, hrest⟩ := List.takeWhile_prefix (p := (· = 0)) (l := words.drop start)
      have htake : ((words.drop start).takeWhile (· = 0) ++ rest).take n = _ :=
        List.take_append_of_le_length h
      rw [← htake, hrest]
    refine List.eq_replicate_iff.mpr ⟨?_, fun w hw => ?_⟩
    · rw [← hzeroes, List.length_take, Nat.min_eq_left h]
    · rw [← hzeroes] at hw
      have hzero := List.mem_takeWhile_imp (p := (· = 0)) (List.mem_of_mem_take hw)
      exact of_decide_eq_true hzero
  calc words = words.take start ++ words.drop start := (List.take_append_drop start words).symm
    _ = words.take start ++ ((words.drop start).take n ++ (words.drop start).drop n) :=
        congrArg (words.take start ++ ·) (List.take_append_drop n (words.drop start)).symm
    _ = _ := by rw [hrun, List.drop_drop, List.append_assoc]

/-- **An address of eight words is read as itself.** -/
theorem parseV6_renderV6 {words : List Nat} (hlength : words.length = 8)
    (hwords : ∀ w ∈ words, w < 65536) : parseV6 (renderV6 words) = some words := by
  have hle := le_longestRun words
  unfold renderV6
  generalize longestRun words = run at hle ⊢
  obtain ⟨start, n⟩ := run
  dsimp only at hle ⊢
  split
  · -- no run is left out
    have hgap : splitAtGap (joinWords words) = none := by
      have := splitAtGap_joinWords words []
      rwa [List.append_nil] at this
    unfold parseV6
    rw [hgap]
    dsimp only
    rw [wordsOf?_joinWords true hwords]
    exact if_pos hlength
  · next hrun =>
    have heq := eq_of_run hle
    have hgap : splitAtGap (joinWords (words.take start) ++ ':' :: ':' ::
        joinWords (words.drop (start + n)))
        = some (joinWords (words.take start), joinWords (words.drop (start + n))) := by
      rw [splitAtGap_joinWords]
      show some (joinWords (words.take start) ++ [], _) = _
      rw [List.append_nil]
    have hfront : wordsOf? false (joinWords (words.take start)) = some (words.take start) :=
      wordsOf?_joinWords false fun w hw => hwords w (List.mem_of_mem_take hw)
    have hback : wordsOf? true (joinWords (words.drop (start + n)))
        = some (words.drop (start + n)) :=
      wordsOf?_joinWords true fun w hw => hwords w (List.mem_of_mem_drop hw)
    have hsum : (words.take start).length + n + (words.drop (start + n)).length = 8 := by
      have := congrArg List.length heq
      rw [List.length_append, List.length_append, List.length_replicate, hlength] at this
      exact this.symm
    unfold parseV6
    rw [hgap]
    dsimp only
    rw [hfront, hback]
    show (if (words.take start).length + (words.drop (start + n)).length < 8 then
      some (words.take start ++ List.replicate (8 - (words.take start).length
        - (words.drop (start + n)).length) 0 ++ words.drop (start + n)) else none) = _
    rw [if_pos (by omega), show 8 - (words.take start).length
      - (words.drop (start + n)).length = n by omega, ← heq]

/-- The characters of an address of eight words are visible, and none of them is a
bracket. -/
theorem of_mem_renderV6 {words : List Nat} {c : Char} (h : c ∈ renderV6 words) :
    c = ':' ∨ ∃ d < 16, c = Nat.digitChar d := by
  have hjoin : ∀ {ws : List Nat}, c ∈ joinWords ws → c = ':' ∨ ∃ d < 16, c = Nat.digitChar d := by
    intro ws hc
    obtain hc | ⟨part, hpart, hc⟩ := mem_intercalate hc
    · exact .inl hc
    · obtain ⟨w, -, rfl⟩ := List.mem_map.mp hpart
      exact .inr (exists_of_mem_toDigits hc)
  unfold renderV6 at h
  obtain ⟨start, n⟩ := longestRun words
  dsimp only at h
  split at h
  · exact hjoin h
  · obtain h | h := List.mem_append.mp h
    · exact hjoin h
    · obtain h | h := List.mem_cons.mp h
      · exact .inl h
      · obtain h | h := List.mem_cons.mp h
        · exact .inl h
        · exact hjoin h

end Courier.Url
