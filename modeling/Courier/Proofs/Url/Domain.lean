import Courier.Url.Domain
import Courier.Proofs.Text.Utf8
import Courier.Proofs.Url.Punycode
/-!
# A domain name in ASCII stays as it is

A domain name that has been written in ASCII is read as itself
(`domainToAscii_percentDecode`). Its characters are settled: they are in ASCII and in lower
case, no domain name forbids them, and so they are written as themselves. Its labels are
settled too: one without the mark is in ASCII, and one with the mark is read and written
again as it is, either because it was checked before or because it was written in Punycode
just now and can be read back.
-/

namespace Courier.Url

open Courier.Text

/-! ## Characters -/

/-- **A character that is settled**: in ASCII, in lower case, and one that a domain name may
hold. -/
structure IsSettled (c : Char) : Prop where
  /-- It is in ASCII. -/
  ascii : c.toNat < 0x80
  /-- It is in lower case. -/
  lower : c.toLower = c
  /-- A domain name may hold it. -/
  allowed : isForbiddenInDomain c = false

/-- A settled character is written as itself. -/
theorem IsSettled.domainChar {c : Char} (h : IsSettled c) : domainChar c = [c] := by
  have hascii := h.ascii
  have hlower : lowerChar c = c := (if_pos hascii).trans h.lower
  unfold Url.domainChar
  simp only [Bool.or_eq_true, Bool.and_eq_true, decide_eq_true_eq]
  rw [if_neg (by omega), if_neg (by omega), if_neg (by omega), hlower]

theorem isSettled_dot : IsSettled '.' :=
  ⟨by decide, by decide, by decide⟩

/-- Every entry for letters in upper case leads past ASCII and to code points of
characters. -/
theorem upperRanges_bounds : ∀ e ∈ upperRanges, 0x80 ≤ e.2.2.2 ∧ e.2.1 + e.2.2.2 < 0xD800 := by
  decide

/-- A character past ASCII stays there in lower case. -/
theorem lowerChar_of_not_ascii {c : Char} (h : ¬ c.toNat < 0x80) : ¬ (lowerChar c).toNat < 0x80 := by
  unfold lowerChar
  rw [if_neg h]
  split
  · next first last step lower heq =>
    have hmem := List.mem_of_find?_eq_some heq
    have hb := upperRanges_bounds _ hmem
    have hfound := List.find?_some heq
    simp only [Bool.and_eq_true, decide_eq_true_eq] at hfound hb
    have hval : (Char.ofNat (c.toNat - first + lower)).toNat = c.toNat - first + lower :=
      Utf8.val_ofNat (.inl (by omega))
    omega
  · exact h

theorem forall_ascii {P : Char → Prop} (h : ∀ n : Fin 0x80, P (Char.ofNat n)) {c : Char}
    (hc : c.toNat < 0x80) : P c := by
  have := h ⟨c.toNat, hc⟩
  rwa [Char.ofNat_toNat] at this

theorem forall_mem_of_all {P : Char → Prop} [DecidablePred P] {s : List Char}
    (h : s.all (fun c => decide (P c)) = true) : ∀ c ∈ s, P c :=
  fun c hc => of_decide_eq_true (List.all_eq_true.mp h c hc)

theorem toLower_toLower {c : Char} (h : c.toNat < 0x80) : c.toLower.toLower = c.toLower :=
  forall_ascii (P := fun c => c.toLower.toLower = c.toLower) (by decide) h

/-- **What a character is written as in ASCII is in lower case.** -/
theorem toLower_of_mem_domainChar {c x : Char} (h : x ∈ domainChar c) (hx : x.toNat < 0x80) :
    x.toLower = x := by
  unfold domainChar at h
  dsimp only at h
  split at h
  · rw [List.mem_singleton.mp h]
    exact isSettled_dot.lower
  · split at h
    · next hwide =>
      rw [List.mem_singleton.mp h]
      simp only [Bool.and_eq_true, decide_eq_true_eq] at hwide
      have hval : (Char.ofNat (c.toNat - 0xFEE0)).toNat = c.toNat - 0xFEE0 :=
        Utf8.val_ofNat (.inl (by omega))
      exact toLower_toLower (by omega)
    · split at h
      · exact absurd h List.not_mem_nil
      · have hlower := List.mem_singleton.mp h
        by_cases hc : c.toNat < 0x80
        · rw [hlower, lowerChar, if_pos hc]
          exact toLower_toLower hc
        · exact absurd (hlower ▸ hx) (lowerChar_of_not_ascii hc)

/-- A digit of Punycode is settled. -/
theorem Punycode.IsDigit.isSettled {c : Char} (h : Punycode.IsDigit c) : IsSettled c := by
  obtain ⟨d, hd, rfl⟩ := h
  have all : ∀ d : Fin 36, (Punycode.digit d).toNat < 0x80 ∧
      (Punycode.digit d).toLower = Punycode.digit d ∧
      isForbiddenInDomain (Punycode.digit d) = false := by decide
  obtain ⟨ha, hl, hf⟩ := all ⟨d, hd⟩
  exact ⟨ha, hl, hf⟩

/-- The characters of the mark are settled. -/
theorem isSettled_of_mem_encodedMark {c : Char} (h : c ∈ encodedMark) : IsSettled c := by
  have all : ∀ c ∈ encodedMark, c.toNat < 0x80 ∧ c.toLower = c ∧ isForbiddenInDomain c = false :=
    forall_mem_of_all (by decide)
  obtain ⟨ha, hl, hf⟩ := all c h
  exact ⟨ha, hl, hf⟩

/-! ## Parts of a text -/

section

variable {separator : Char}

/-- There is at least one part. -/
theorem partsBetween_ne_nil (s : List Char) : partsBetween separator s ≠ [] := by
  cases s with
  | nil => exact List.cons_ne_nil _ _
  | cons c rest =>
    rw [partsBetween]
    split
    · exact List.cons_ne_nil _ _
    · split <;> exact List.cons_ne_nil _ _

/-- A part has characters of the text, without the separator. -/
theorem of_mem_partsBetween {s part : List Char} {x : Char} (h : part ∈ partsBetween separator s)
    (hx : x ∈ part) : x ∈ s ∧ x ≠ separator := by
  induction s generalizing part with
  | nil =>
    obtain rfl := List.mem_singleton.mp h
    exact absurd hx List.not_mem_nil
  | cons c rest ih =>
    rw [partsBetween] at h
    split at h
    · next hnil => exact absurd hnil (partsBetween_ne_nil rest)
    · next first parts heq =>
      rw [heq] at ih
      split at h
      · obtain rfl | h := List.mem_cons.mp h
        · exact absurd hx List.not_mem_nil
        · obtain ⟨hmem, hne⟩ := ih h hx
          exact ⟨List.mem_cons_of_mem c hmem, hne⟩
      · next hc =>
        obtain rfl | h := List.mem_cons.mp h
        · obtain rfl | hx := List.mem_cons.mp hx
          · exact ⟨List.mem_cons_self, hc⟩
          · obtain ⟨hmem, hne⟩ := ih List.mem_cons_self hx
            exact ⟨List.mem_cons_of_mem c hmem, hne⟩
        · obtain ⟨hmem, hne⟩ := ih (List.mem_cons_of_mem _ h) hx
          exact ⟨List.mem_cons_of_mem c hmem, hne⟩

/-- A text without the separator is one part. -/
theorem partsBetween_of_notMem {s : List Char} (h : separator ∉ s) :
    partsBetween separator s = [s] := by
  induction s with
  | nil => rfl
  | cons c rest ih =>
    rw [partsBetween, ih fun hmem => h (List.mem_cons_of_mem c hmem)]
    exact if_neg fun heq : c = separator => h (heq ▸ List.mem_cons_self)

/-- A part, the separator, and the parts of what follows. -/
theorem partsBetween_append {part : List Char} (h : separator ∉ part) (rest : List Char) :
    partsBetween separator (part ++ separator :: rest) = part :: partsBetween separator rest := by
  induction part with
  | nil =>
    rw [List.nil_append, partsBetween]
    split
    · next hnil => exact absurd hnil (partsBetween_ne_nil rest)
    · next first parts heq => rw [if_pos rfl, heq]
  | cons c part ih =>
    rw [List.cons_append, partsBetween, ih fun hmem => h (List.mem_cons_of_mem c hmem)]
    exact if_neg fun heq : c = separator => h (heq ▸ List.mem_cons_self)

/-- **Parts that are put together can be taken apart.** -/
theorem partsBetween_intercalate (parts : List (List Char)) (hne : parts ≠ [])
    (h : ∀ part ∈ parts, separator ∉ part) :
    partsBetween separator (List.intercalate [separator] parts) = parts := by
  induction parts with
  | nil => exact absurd rfl hne
  | cons part rest ih =>
    cases rest with
    | nil =>
      rw [List.intercalate_singleton]
      exact partsBetween_of_notMem (h part List.mem_cons_self)
    | cons next rest =>
      rw [List.intercalate_cons_cons, List.append_assoc, List.singleton_append,
        partsBetween_append (h part List.mem_cons_self),
        ih (List.cons_ne_nil _ _) fun p hp => h p (List.mem_cons_of_mem part hp)]

/-- A character of parts that are put together is one of theirs, or the separator. -/
theorem mem_intercalate {parts : List (List Char)} {x : Char}
    (h : x ∈ List.intercalate [separator] parts) : x = separator ∨ ∃ part ∈ parts, x ∈ part := by
  induction parts with
  | nil => exact absurd h List.not_mem_nil
  | cons part rest ih =>
    cases rest with
    | nil =>
      rw [List.intercalate_singleton] at h
      exact .inr ⟨part, List.mem_cons_self, h⟩
    | cons next rest =>
      rw [List.intercalate_cons_cons, List.append_assoc] at h
      obtain h | h := List.mem_append.mp h
      · exact .inr ⟨part, List.mem_cons_self, h⟩
      · obtain rfl | h := List.mem_cons.mp h
        · exact .inl rfl
        · obtain rfl | ⟨p, hp, hx⟩ := ih h
          · exact .inl rfl
          · exact .inr ⟨p, List.mem_cons_of_mem part hp, hx⟩

end

/-! ## Labels -/

/-- **A label that is settled.** -/
structure IsSettledLabel (label : List Char) : Prop where
  /-- Its characters are. -/
  settled : ∀ c ∈ label, IsSettled c
  /-- It has no dot. -/
  dotless : '.' ∉ label
  /-- It is a label in ASCII. -/
  ascii : labelToAscii label = some label

/-- A digit of Punycode is no dot. -/
theorem Punycode.IsDigit.ne_dot {c : Char} (h : Punycode.IsDigit c) : c ≠ '.' := by
  obtain ⟨d, hd, rfl⟩ := h
  have all : ∀ d : Fin 36, Punycode.digit d ≠ '.' := by decide
  exact all ⟨d, hd⟩

/-- Every character that is written in Punycode is one of the label, a hyphen or a digit. -/
theorem of_mem_encode {label : List Char} {c : Char} (h : c ∈ Punycode.encode label) :
    (c ∈ label ∧ c.toNat < 0x80) ∨ c = '-' ∨ Punycode.IsDigit c := by
  rw [Punycode.encode_eq] at h
  obtain h | h := List.mem_append.mp h
  · obtain h | h := List.mem_append.mp h
    · obtain ⟨hmem, hascii⟩ := List.mem_filter.mp h
      exact .inl ⟨hmem, of_decide_eq_true hascii⟩
    · split at h
      · exact absurd h List.not_mem_nil
      · exact .inr (.inl (List.mem_singleton.mp h))
  · exact .inr (.inr (Punycode.isDigit_of_mem_numbersOf h))

/-- What is written in Punycode is in ASCII. -/
theorem ascii_of_mem_encode {label : List Char} {c : Char} (h : c ∈ Punycode.encode label) :
    c.toNat < 0x80 := by
  obtain ⟨-, hc⟩ | rfl | hd := of_mem_encode h
  · exact hc
  · decide
  · exact hd.isSettled.ascii

theorem mark_append_drop {label : List Char} (h : encodedMark.isPrefixOf label = true) :
    encodedMark ++ label.drop 4 = label := by
  obtain ⟨rest, rfl⟩ := List.isPrefixOf_iff_prefix.mp h
  exact congrArg (encodedMark ++ ·) (List.drop_left' rfl)

/-- A label with the mark is in ASCII when what it encodes is written as it. -/
theorem ascii_of_mem_marked {label text : List Char} (hmark : encodedMark.isPrefixOf label = true)
    (htext : Punycode.encode text = label.drop 4) {c : Char} (hc : c ∈ label) :
    c.toNat < 0x80 := by
  rw [← mark_append_drop hmark, ← htext] at hc
  obtain hc | hc := List.mem_append.mp hc
  · exact (isSettled_of_mem_encodedMark hc).ascii
  · exact ascii_of_mem_encode hc

section

variable {part : List Char} (hallowed : ∀ c ∈ part, isForbiddenInDomain c = false)
  (hlower : ∀ c ∈ part, c.toNat < 0x80 → c.toLower = c) (hdot : '.' ∉ part)

include hallowed

/-- A label that is not in ASCII is left as it is once it is written in Punycode, behind the
mark. -/
theorem labelToAscii_encoded (hascii : ¬part.all (·.toNat < 0x80) = true) :
    labelToAscii (encodedMark ++ Punycode.encode part)
      = some (encodedMark ++ Punycode.encode part) := by
  have hmark : encodedMark.isPrefixOf (encodedMark ++ Punycode.encode part) = true :=
    List.isPrefixOf_iff_prefix.mpr (List.prefix_append _ _)
  have hdrop : (encodedMark ++ Punycode.encode part).drop 4 = Punycode.encode part :=
    List.drop_left' rfl
  have hforeign : part.any (0x80 ≤ ·.toNat) = true := by
    obtain ⟨c, hc, hc'⟩ := List.all_eq_false.mp (Bool.eq_false_iff.mpr hascii)
    refine List.any_eq_true.mpr ⟨c, hc, ?_⟩
    simpa using hc'
  have hclean : part.any isForbiddenInDomain = false :=
    List.any_eq_false.mpr fun c hc => by rw [hallowed c hc]; exact Bool.false_ne_true
  unfold labelToAscii
  rw [if_pos hmark, hdrop, Punycode.decode_encode]
  dsimp only
  rw [hforeign, hclean, decide_eq_true rfl]
  rfl

include hlower hdot

/-- It is settled then. -/
theorem isSettledLabel_encoded (hascii : ¬part.all (·.toNat < 0x80) = true) :
    IsSettledLabel (encodedMark ++ Punycode.encode part) := by
  refine ⟨fun c hc => ?_, fun hmem => ?_, labelToAscii_encoded hallowed hascii⟩
  · obtain hc | hc := List.mem_append.mp hc
    · exact isSettled_of_mem_encodedMark hc
    · obtain ⟨hmem, hc⟩ | rfl | hd := of_mem_encode hc
      · exact ⟨hc, hlower c hmem hc, hallowed c hmem⟩
      · exact isSettled_of_mem_encodedMark (by decide)
      · exact hd.isSettled
  · obtain hmem | hmem := List.mem_append.mp hmem
    · exact absurd hmem (by decide)
    · obtain ⟨hmem, -⟩ | h | hd := of_mem_encode hmem
      · exact hdot hmem
      · exact absurd h (by decide)
      · exact hd.ne_dot rfl

/-- **A label is settled once it is in ASCII**, when its characters were put in lower case
before and none of them is forbidden. -/
theorem isSettledLabel_of_labelToAscii {label : List Char} (h : labelToAscii part = some label) :
    IsSettledLabel label := by
  have hin := h
  have hsettled : (∀ c ∈ part, c.toNat < 0x80) → labelToAscii part = some part →
      IsSettledLabel part := fun hascii hin =>
    ⟨fun c hc => ⟨hascii c hc, hlower c hc (hascii c hc), hallowed c hc⟩, hdot, hin⟩
  unfold labelToAscii at h
  split at h
  · next hmark =>
    split at h
    · next text hdecode =>
      split at h
      · next hcheck =>
        obtain rfl := Option.some.inj h
        simp only [Bool.and_eq_true, decide_eq_true_eq] at hcheck
        exact hsettled (fun c hc => ascii_of_mem_marked hmark hcheck.2 hc) hin
      · cases h
    · cases h
  · split at h
    · next hascii =>
      obtain rfl := Option.some.inj h
      exact hsettled (fun c hc => of_decide_eq_true (List.all_eq_true.mp hascii c hc)) hin
    · next hascii =>
      obtain rfl := Option.some.inj h
      exact isSettledLabel_encoded hallowed hlower hdot hascii

end

/-! ## Names -/

/-- A settled character is one byte. -/
theorem IsSettled.utf8EncodeChar {c : Char} (h : IsSettled c) :
    String.utf8EncodeChar c = [UInt8.ofNat c.toNat] := by
  have hb := Utf8.toNat_byte (n := c.toNat) (by have := h.ascii; omega)
  have hone := Utf8.encodeChar_one (b := UInt8.ofNat c.toNat) (by rw [hb]; exact h.ascii)
  rwa [hb, Char.ofNat_toNat] at hone

theorem IsSettled.ne_percent {c : Char} (h : IsSettled c) : c ≠ '%' := by
  rintro rfl
  exact absurd h.allowed (by decide)

/-- **The bytes of a settled text** are read as it, and nothing in them counts as encoded. -/
theorem decodeLossy_percentDecode {name : List Char} (h : ∀ c ∈ name, IsSettled c) :
    Utf8.decodeLossy (percentDecode name) = name := by
  show Utf8.decodeLossyFrom none (percentDecode name) = name
  induction name with
  | nil => rfl
  | cons c name ih =>
    obtain ⟨hc, hname⟩ := List.forall_mem_cons.mp h
    have hascii := hc.ascii
    rw [percentDecode, hc.utf8EncodeChar, List.singleton_append, Utf8.decodeLossyFrom,
      Utf8.lead_whole hascii]
    · dsimp only
      rw [ih hname, Char.ofNat_toNat]
    · exact fun _ _ _ heq _ => hc.ne_percent heq

/-- What is made of the things of a list one by one is as many things, each made of one of
them. -/
theorem of_mapM {α β : Type} {f : α → Option β} {as : List α} : ∀ {bs : List β},
    as.mapM f = some bs → bs.length = as.length ∧ ∀ b ∈ bs, ∃ a ∈ as, f a = some b := by
  induction as with
  | nil =>
    intro bs h
    cases h
    exact ⟨rfl, fun b hb => absurd hb List.not_mem_nil⟩
  | cons a as ih =>
    intro bs h
    rw [List.mapM_cons] at h
    obtain ⟨b, hb, h⟩ := Option.bind_eq_some_iff.mp h
    obtain ⟨bs, hbs, h⟩ := Option.bind_eq_some_iff.mp h
    cases h
    obtain ⟨hlength, hmade⟩ := ih hbs
    refine ⟨congrArg Nat.succ hlength, fun b' hb' => ?_⟩
    obtain rfl | hb' := List.mem_cons.mp hb'
    · exact ⟨a, List.mem_cons_self, hb⟩
    · obtain ⟨a', ha', hmade⟩ := hmade b' hb'
      exact ⟨a', List.mem_cons_of_mem a ha', hmade⟩

/-- Things that are made of themselves. -/
theorem mapM_self {α : Type} {f : α → Option α} {as : List α} (h : ∀ a ∈ as, f a = some a) :
    as.mapM f = some as := by
  induction as with
  | nil => rfl
  | cons a as ih =>
    obtain ⟨ha, has⟩ := List.forall_mem_cons.mp h
    rw [List.mapM_cons, ha, ih has]
    rfl

/-- **A domain name in ASCII is made of settled labels.** -/
theorem exists_labels {bytes : List UInt8} {name : List Char}
    (h : domainToAscii bytes = some name) :
    ∃ labels, labels ≠ [] ∧ (∀ label ∈ labels, IsSettledLabel label) ∧
      name = List.intercalate ['.'] labels := by
  unfold domainToAscii at h
  dsimp only at h
  split at h
  · cases h
  · next hforbidden =>
    split at h
    · next labels hlabels =>
      obtain ⟨hlength, hmade⟩ := of_mapM hlabels
      refine ⟨labels, fun hnil => ?_, fun label hlabel => ?_, (Option.some.inj h).symm⟩
      · rw [hnil, List.length_nil] at hlength
        exact partsBetween_ne_nil _ (List.length_eq_zero_iff.mp hlength.symm)
      · obtain ⟨part, hpart, hmade⟩ := hmade label hlabel
        refine isSettledLabel_of_labelToAscii (fun c hc => ?_) (fun c hc hascii => ?_)
          (fun hdot => (of_mem_partsBetween hpart hdot).2 rfl) hmade
        · refine Bool.eq_false_iff.mpr fun hf => hforbidden ?_
          exact List.any_eq_true.mpr ⟨c, (of_mem_partsBetween hpart hc).1, hf⟩
        · obtain ⟨x, -, hx⟩ := List.mem_flatMap.mp (of_mem_partsBetween hpart hc).1
          exact toLower_of_mem_domainChar hx hascii
    · cases h

/-- **A name of settled labels is read as itself**, and its characters are settled. -/
theorem domainToAscii_of_labels {labels : List (List Char)} (hne : labels ≠ [])
    (hlabels : ∀ label ∈ labels, IsSettledLabel label) :
    (∀ c ∈ List.intercalate ['.'] labels, IsSettled c) ∧
      domainToAscii (percentDecode (List.intercalate ['.'] labels))
        = some (List.intercalate ['.'] labels) := by
  have hsettled : ∀ c ∈ List.intercalate ['.'] labels, IsSettled c := by
    intro c hc
    obtain rfl | ⟨label, hlabel, hc⟩ := mem_intercalate hc
    · exact isSettled_dot
    · exact (hlabels label hlabel).settled c hc
  have hmapped : (List.intercalate ['.'] labels).flatMap domainChar
      = List.intercalate ['.'] labels := by
    generalize List.intercalate ['.'] labels = name at hsettled
    induction name with
    | nil => rfl
    | cons c name ih =>
      obtain ⟨hc, hname⟩ := List.forall_mem_cons.mp hsettled
      rw [List.flatMap_cons, hc.domainChar, ih hname, List.singleton_append]
  have hallowed : ¬ (List.intercalate ['.'] labels).any isForbiddenInDomain = true := by
    intro hany
    obtain ⟨c, hc, hf⟩ := List.any_eq_true.mp hany
    exact Bool.false_ne_true ((hsettled c hc).allowed.symm.trans hf)
  refine ⟨hsettled, ?_⟩
  unfold domainToAscii
  dsimp only
  rw [decodeLossy_percentDecode hsettled, hmapped, if_neg hallowed,
    partsBetween_intercalate labels hne fun label hlabel => (hlabels label hlabel).dotless,
    mapM_self fun label hlabel => (hlabels label hlabel).ascii]

/-- **A domain name in ASCII is read as itself**, and its characters are settled. -/
theorem domainToAscii_percentDecode {bytes : List UInt8} {name : List Char}
    (h : domainToAscii bytes = some name) :
    (∀ c ∈ name, IsSettled c) ∧ domainToAscii (percentDecode name) = some name := by
  obtain ⟨labels, hne, hlabels, rfl⟩ := exists_labels h
  exact domainToAscii_of_labels hne hlabels

end Courier.Url
