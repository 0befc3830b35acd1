import Courier.Url.Percent
import Courier.Proofs.Url.Domain
/-!
# What is percent-encoded stays as it is

A text with some of its characters encoded holds none of these characters any more, and
nothing past ASCII: a percent sign and digits stand in their place, and neither is encoded
anywhere (`left_of_mem_percentEncode`). So a text that was encoded is encoded as itself
(`percentEncode_of_left`), and in every part of a URL it is made of visible characters
(`Encodes.visible`).
-/

namespace Courier.Url

/-- **A visible character**: in ASCII, neither a control character nor a blank. -/
def IsVisible (c : Char) : Prop :=
  0x20 < c.toNat ∧ c.toNat < 0x7F

instance (c : Char) : Decidable (IsVisible c) :=
  inferInstanceAs (Decidable (_ ∧ _))

/-- **A set of characters that are encoded in some part of a URL**: it has all the ASCII
characters that are not visible, and nothing that an encoded character is written with. -/
structure Encodes (encoded : Char → Bool) : Prop where
  /-- A character in ASCII that is left as it is is visible. -/
  visible : ∀ c, c.toNat < 0x80 → encoded c = false → IsVisible c
  /-- The percent sign is left as it is. -/
  percent : encoded '%' = false
  /-- So are the digits behind it. -/
  digit : ∀ d < 16, encoded (hexUpper d) = false

section

variable {encoded : Char → Bool} {s : List Char} {c : Char}

/-- Every character of an encoded text is one of the text that is left as it is, or is part
of an encoded one. -/
theorem of_mem_percentEncode (h : c ∈ percentEncode encoded s) :
    (c ∈ s ∧ c.toNat < 0x80 ∧ encoded c = false) ∨ c = '%' ∨ ∃ d < 16, c = hexUpper d := by
  obtain ⟨x, hx, hc⟩ := List.mem_flatMap.mp h
  split at hc
  · next hleft =>
    obtain rfl := List.mem_singleton.mp hc
    rw [Bool.and_eq_true, decide_eq_true_eq, Bool.not_eq_true'] at hleft
    exact .inl ⟨hx, hleft⟩
  · obtain ⟨b, -, hc⟩ := List.mem_flatMap.mp hc
    have hb := b.toNat_lt
    obtain rfl | hc := List.mem_cons.mp hc
    · exact .inr (.inl rfl)
    · obtain rfl | hc := List.mem_cons.mp hc
      · exact .inr (.inr ⟨_, by omega, rfl⟩)
      · exact .inr (.inr ⟨_, by omega, List.mem_singleton.mp hc⟩)

theorem toNat_hexUpper_lt {d : Nat} (h : d < 16) : (hexUpper d).toNat < 0x80 := by
  have all : ∀ d : Fin 16, (hexUpper d.val).toNat < 0x80 := by decide
  exact all ⟨d, h⟩

/-- **No character of an encoded text has to be encoded.** -/
theorem left_of_mem_percentEncode (he : Encodes encoded) (h : c ∈ percentEncode encoded s) :
    c.toNat < 0x80 ∧ encoded c = false := by
  obtain ⟨-, hc⟩ | rfl | ⟨d, hd, rfl⟩ := of_mem_percentEncode h
  · exact hc
  · exact ⟨by decide, he.percent⟩
  · exact ⟨toNat_hexUpper_lt hd, he.digit d hd⟩

/-- A text none of whose characters is encoded is encoded as itself. -/
theorem percentEncode_of_left (h : ∀ c ∈ s, c.toNat < 0x80 ∧ encoded c = false) :
    percentEncode encoded s = s := by
  induction s with
  | nil => rfl
  | cons c s ih =>
    obtain ⟨⟨hascii, hleft⟩, hs⟩ := List.forall_mem_cons.mp h
    show (if _ then _ else _) ++ percentEncode encoded s = _
    rw [ih hs, if_pos (by rw [hleft, decide_eq_true hascii]; rfl), List.singleton_append]

/-- Something is encoded as something. -/
theorem percentEncode_ne_nil (h : s ≠ []) : percentEncode encoded s ≠ [] := by
  obtain ⟨c, rest, rfl⟩ := List.exists_cons_of_ne_nil h
  intro hnil
  have hfirst := List.flatMap_eq_nil_iff.mp hnil c List.mem_cons_self
  split at hfirst
  · exact List.cons_ne_nil _ _ hfirst
  · obtain ⟨b, bytes, hbytes⟩ := List.exists_cons_of_ne_nil (String.utf8EncodeChar_ne_nil (c := c))
    have hnone := List.flatMap_eq_nil_iff.mp hfirst b (hbytes ▸ List.mem_cons_self)
    exact List.cons_ne_nil _ _ hnone

end

/-! ## The parts of a URL -/

theorem encodes_of_forall {encoded : Char → Bool}
    (hvisible : ∀ n : Fin 0x80, encoded (Char.ofNat n) = false → IsVisible (Char.ofNat n))
    (hpercent : encoded '%' = false) (hdigit : ∀ d : Fin 16, encoded (hexUpper d) = false) :
    Encodes encoded where
  visible _ hascii := forall_ascii (P := fun c => encoded c = false → IsVisible c) hvisible hascii
  percent := hpercent
  digit d hd := hdigit ⟨d, hd⟩

theorem encodes_inFragment : Encodes inFragment :=
  encodes_of_forall (by decide) rfl (by decide)

theorem encodes_inQuery : Encodes (inQuery true) :=
  encodes_of_forall (by decide) rfl (by decide)

theorem encodes_inPath : Encodes inPath :=
  encodes_of_forall (by decide) rfl (by decide)

theorem encodes_inUserinfo : Encodes inUserinfo :=
  encodes_of_forall (by decide) rfl (by decide)

end Courier.Url
