import Mathlib.Data.List.TakeWhile
import Courier.Url.Punycode
/-!
# A label in Punycode can be read back

A label is written by going through it once for each of its code points past ASCII,
from the least on, and counting what is passed. It is read by putting in one
character after another, each at the place that its number leads to. While the
code point `p` is put in, with the part `front` of the label passed in this round and
the part `behind` yet to come, the reader has those characters of `front` that are not
past `p` and those of `behind` that are before it. `Abreast` says this, and that the
number under way is what is missing to the place where the reader goes on: after the
characters of `front` that it has. Each character passed keeps the two abreast
(`Abreast.writeAt`), and so do a round (`Abreast.foldl_writeAt`) and all rounds
(`Between.writePoints`).
-/

namespace Courier.Url

/-! ## Behind the last occurrence of a character -/

/-- A text without a character stands behind its last occurrence as a whole. -/
theorem behindLast_of_notMem {separator : Char} {s : List Char} (h : separator ∉ s) :
    (s.reverse.takeWhile (· ≠ separator)).reverse = s := by
  have hall : s.reverse.takeWhile (· ≠ separator) = s.reverse :=
    List.takeWhile_eq_self_iff.mpr fun c hc =>
      decide_eq_true fun heq => h (heq ▸ List.mem_reverse.mp hc)
  rw [hall, List.reverse_reverse]

/-- What stands behind the last occurrence of a character. -/
theorem behindLast_append {separator : Char} {behind : List Char} (h : separator ∉ behind)
    (front : List Char) :
    ((front ++ separator :: behind).reverse.takeWhile (· ≠ separator)).reverse = behind := by
  have hall : ∀ c ∈ behind.reverse, decide (c ≠ separator) = true :=
    fun c hc => decide_eq_true fun heq => h (heq ▸ List.mem_reverse.mp hc)
  rw [List.reverse_append, List.reverse_cons, List.append_assoc,
    List.takeWhile_append_of_pos hall, List.singleton_append, List.takeWhile_cons_of_neg (by simp),
    List.append_nil, List.reverse_reverse]

namespace Punycode

/-! ## One number -/

theorem digitValue?_digit {d : Nat} (h : d < 36) : digitValue? (digit d) = some d := by
  have all : ∀ d : Fin 36, digitValue? (digit d) = some d.val := by decide
  exact all ⟨d, h⟩

/-- The digit at a place that is not the last one of its number. -/
theorem leading_lt (place bias n : Nat) :
    threshold place bias + (n - threshold place bias) % (36 - threshold place bias) < 36 := by
  have ht := threshold_bounds place bias
  have hm := Nat.mod_lt (n - threshold place bias) (show 36 - threshold place bias > 0 by omega)
  omega

/-- **A number that was written can be read back**, from any place on. -/
theorem readNumber_writeNumber (bias place n : Nat) (rest : List Char) :
    ∀ weight value : Nat, readNumber bias place weight value (writeNumber bias place n ++ rest)
      = some (value + n * weight, rest) := by
  induction place, n using writeNumber.induct bias with
  | case1 place n t h =>
    intro weight value
    have ht := (threshold_bounds place bias).2
    have h36 : n < 36 := by omega
    rw [writeNumber, if_pos h, List.singleton_append, readNumber, digitValue?_digit h36]
    exact if_pos h
  | case2 place n t h ih =>
    intro weight value
    rw [writeNumber, if_neg h, List.cons_append, readNumber,
      digitValue?_digit (leading_lt place bias n)]
    refine (if_neg (Nat.not_lt.mpr (Nat.le_add_right _ _))).trans ?_
    rw [ih]
    have hsum : t + (n - t) % (36 - t) + (n - t) / (36 - t) * (36 - t) = n := by
      have := Nat.mod_add_div' (n - t) (36 - t)
      omega
    refine congrArg (fun v => some (v, rest)) ?_
    calc value + (t + (n - t) % (36 - t)) * weight + (n - t) / (36 - t) * (weight * (36 - t))
        = value + (t + (n - t) % (36 - t) + (n - t) / (36 - t) * (36 - t)) * weight := by
          rw [Nat.add_mul (t + _), Nat.mul_comm weight, Nat.mul_assoc, Nat.add_assoc]
      _ = value + n * weight := by rw [hsum]

/-- Every character of a number is a digit. -/
theorem mem_writeNumber (bias place n : Nat) {c : Char} (h : c ∈ writeNumber bias place n) :
    ∃ d < 36, c = digit d := by
  induction place, n using writeNumber.induct bias with
  | case1 place n t ht =>
    rw [writeNumber, if_pos ht] at h
    have hb := (threshold_bounds place bias).2
    exact ⟨n, by omega, List.mem_singleton.mp h⟩
  | case2 place n t ht ih =>
    rw [writeNumber, if_neg ht] at h
    obtain rfl | h := List.mem_cons.mp h
    · exact ⟨_, leading_lt place bias n, rfl⟩
    · exact ih h

/-! ## Reading on -/

/-- **A label being read**: the characters so far, the code point and the place that the
last number led to, and the bias. -/
structure Reader where
  /-- The characters so far. -/
  done : List Char
  /-- The code point. -/
  point : Nat
  /-- The place behind the last character put in. -/
  place : Nat
  /-- The bias. -/
  bias : Nat

/-- What a reader makes of the rest of a text. -/
def Reader.read (r : Reader) (s : List Char) : Option (List Char) :=
  readPoints r.done r.point r.place r.bias s

/-- **A text leads from one reader to another**: whatever follows it is read by the other
one. -/
def Reader.Leads (r r' : Reader) (s : List Char) : Prop :=
  ∀ rest, r.read (s ++ rest) = r'.read rest

theorem Reader.Leads.refl (r : Reader) : r.Leads r [] :=
  fun _ => rfl

theorem Reader.Leads.trans {r r' r'' : Reader} {s s' : List Char} (h : r.Leads r' s)
    (h' : r'.Leads r'' s') : r.Leads r'' (s ++ s') := by
  intro rest
  rw [List.append_assoc, h, h']

/-- The reader after a character has been put in at a place. -/
def Reader.put (r : Reader) (n place : Nat) (c : Char) : Reader where
  done := r.done.take place ++ c :: r.done.drop place
  point := c.toNat
  place := place + 1
  bias := adapt n (r.done.length + 1) (r.done.all (·.toNat < 0x80))

/-- A code point of a character is one that may be put in. -/
theorem isScalar_toNat (c : Char) :
    (decide (c.toNat < 0x110000) && !(decide (0xD800 ≤ c.toNat) && decide (c.toNat < 0xE000)))
      = true := by
  have hvalid : c.toNat < 0xD800 ∨ 0xDFFF < c.toNat ∧ c.toNat < 0x110000 := c.valid
  simp only [Bool.and_eq_true, Bool.not_eq_true', Bool.and_eq_false_iff, decide_eq_true_eq,
    decide_eq_false_iff_not]
  omega

/-- A text that begins with a number is read on from the character that it puts in. -/
theorem readPoints_of_readNumber {done s rest : List Char} {point place bias n : Nat}
    (hread : readNumber bias 36 1 0 s = some (n, rest)) {c : Char}
    (hc : c.toNat = point + (place + n) / (done.length + 1)) :
    readPoints done point place bias s
      = readPoints (done.take ((place + n) % (done.length + 1)) ++
            c :: done.drop ((place + n) % (done.length + 1)))
          c.toNat ((place + n) % (done.length + 1) + 1)
          (adapt n (done.length + 1) (done.all (·.toNat < 0x80))) rest := by
  have hs : ¬ s.isEmpty = true := by
    intro h
    rw [List.isEmpty_iff.mp h] at hread
    cases hread
  rw [readPoints, if_neg hs]
  split
  · next hnone => rw [hread] at hnone; cases hnone
  · next m rest' hsome =>
    obtain ⟨rfl, rfl⟩ := Prod.mk.inj (Option.some.inj (hread.symm.trans hsome))
    dsimp only
    rw [← hc, if_pos (isScalar_toNat c), Char.ofNat_toNat]

/-- **A number puts in the character that it leads to.** -/
theorem Reader.leads_put (r : Reader) {n place : Nat} {c : Char} (hplace : place ≤ r.done.length)
    (hpoint : r.point ≤ c.toNat)
    (h : r.place + n = (c.toNat - r.point) * (r.done.length + 1) + place) :
    r.Leads (r.put n place c) (writeNumber r.bias 36 n) := by
  intro rest
  have hdiv : (r.place + n) / (r.done.length + 1) = c.toNat - r.point := by
    rw [h, Nat.mul_comm, Nat.mul_add_div (Nat.succ_pos _),
      Nat.div_eq_of_lt (Nat.lt_succ_of_le hplace), Nat.add_zero]
  have hmod : (r.place + n) % (r.done.length + 1) = place := by
    rw [h, Nat.mul_comm, Nat.mul_add_mod, Nat.mod_eq_of_lt (Nat.lt_succ_of_le hplace)]
  have hread : readNumber r.bias 36 1 0 (writeNumber r.bias 36 n ++ rest) = some (n, rest) := by
    rw [readNumber_writeNumber, Nat.zero_add, Nat.mul_one]
  refine (readPoints_of_readNumber hread (c := c) (by omega)).trans ?_
  rw [hmod]
  rfl

/-! ## Writer and reader abreast -/

/-- Whether a character is in ASCII. -/
abbrev isBasic (c : Char) : Bool := c.toNat < 0x80

/-- **Writer and reader in the round of a code point**, with the part `front` of the label
passed and the part `behind` to come. -/
structure Abreast (p : Nat) (front behind : List Char) (w : Writing) (r : Reader) : Prop where
  /-- The reader has the characters that are put in already. -/
  done : r.done = front.filter (·.toNat ≤ p) ++ behind.filter (·.toNat < p)
  /-- The writer has counted them. -/
  count : w.count = r.done.length
  /-- The bias is the same. -/
  bias : w.bias = r.bias
  /-- The reader is not past the code point. -/
  point : r.point ≤ p
  /-- The number under way leads to the place behind the characters of the front. -/
  gap : r.place + w.gap
    = (p - r.point) * (r.done.length + 1) + (front.filter (·.toNat ≤ p)).length

/-- **Writer and reader between two rounds**, with all characters before a code point put
in. -/
structure Between (label : List Char) (p : Nat) (w : Writing) (r : Reader) : Prop where
  /-- The reader has these characters. -/
  done : r.done = label.filter (·.toNat < p)
  /-- The writer has counted them. -/
  count : w.count = r.done.length
  /-- The bias is the same. -/
  bias : w.bias = r.bias
  /-- The reader is not past the code point. -/
  point : r.point ≤ p
  /-- The number under way leads to the front of the label. -/
  gap : r.place + w.gap = (p - r.point) * (r.done.length + 1)

section

variable {label front behind : List Char} {p : Nat} {c : Char} {w : Writing} {r : Reader}

/-- **It is the first number exactly when nothing but ASCII is there.** -/
theorem Abreast.first (h : Abreast p front behind w r) (hp : 0x80 ≤ p) :
    decide (w.count = ((front ++ behind).filter isBasic).length) = r.done.all isBasic := by
  have hbasic : r.done.filter isBasic = (front ++ behind).filter isBasic := by
    rw [h.done, List.filter_append, List.filter_append, List.filter_filter, List.filter_filter]
    refine congr (congrArg _ (List.filter_congr fun c _ => ?_)) (List.filter_congr fun c _ => ?_)
    all_goals
      rw [Bool.eq_iff_iff, Bool.and_eq_true]
      simp only [isBasic, decide_eq_true_eq]
      omega
  rw [h.count, ← hbasic, Bool.eq_iff_iff, decide_eq_true_eq, List.all_eq_true]
  rw [eq_comm, List.length_filter_eq_length_iff]

/-- A character before the code point is passed. -/
theorem Abreast.pass (h : Abreast p front (c :: behind) w r) (hc : c.toNat < p) :
    Abreast p (front ++ [c]) behind { w with gap := w.gap + 1 } r where
  done := by
    rw [h.done, List.filter_append, List.filter_cons_of_pos (by simpa using hc),
      List.filter_cons_of_pos (by simpa using Nat.le_of_lt hc), List.filter_nil,
      List.append_assoc, List.singleton_append]
  count := h.count
  bias := h.bias
  point := h.point
  gap := by
    have hgap := h.gap
    rw [List.filter_append, List.filter_cons_of_pos (by simpa using Nat.le_of_lt hc),
      List.filter_nil, List.length_append, List.length_singleton]
    show r.place + (w.gap + 1) = _
    omega

/-- A character past the code point is left for another round. -/
theorem Abreast.leave (h : Abreast p front (c :: behind) w r) (hc : p < c.toNat) :
    Abreast p (front ++ [c]) behind w r where
  done := by
    rw [h.done, List.filter_append, List.filter_cons_of_neg (by simpa using Nat.le_of_lt hc),
      List.filter_cons_of_neg (by simpa using hc), List.filter_nil, List.append_nil]
  count := h.count
  bias := h.bias
  point := h.point
  gap := by
    rw [h.gap, List.filter_append, List.filter_cons_of_neg (by simpa using hc), List.filter_nil,
      List.append_nil]

/-- **A character of the code point is put in** where the number under way leads. -/
theorem Abreast.put (h : Abreast p front (c :: behind) w r) (hc : c.toNat = p)
    {text : List Char} :
    Abreast p (front ++ [c]) behind
      ⟨text, 0, adapt w.gap (w.count + 1) (r.done.all (·.toNat < 0x80)), w.count + 1⟩
      (r.put w.gap (front.filter (·.toNat ≤ p)).length c) where
  done := by
    have hdone := h.done
    rw [List.filter_cons_of_neg (by simp [hc])] at hdone
    show r.done.take _ ++ c :: r.done.drop _ = _
    rw [hdone, List.take_left, List.drop_left, List.filter_append,
      List.filter_cons_of_pos (by simp [hc]), List.filter_nil, List.append_assoc,
      List.singleton_append]
  count := by
    have hle : (front.filter (·.toNat ≤ p)).length ≤ r.done.length := by
      rw [h.done, List.length_append]
      exact Nat.le_add_right _ _
    show w.count + 1 = (r.done.take _ ++ c :: r.done.drop _).length
    rw [h.count, List.length_append, List.length_cons, List.length_take, List.length_drop,
      Nat.min_eq_left hle]
    omega
  bias := by
    show adapt w.gap (w.count + 1) _ = adapt w.gap (r.done.length + 1) _
    rw [h.count]
  point := Nat.le_of_eq hc
  gap := by
    show _ + 1 + 0 = (p - c.toNat) * _ + _
    rw [hc, Nat.sub_self, Nat.zero_mul, List.filter_append, List.filter_cons_of_pos (by simp [hc]),
      List.filter_nil, List.length_append, List.length_singleton]
    omega

/-- **A character keeps the two abreast**, whichever it is. -/
theorem Abreast.writeAt (h : Abreast p front (c :: behind) w r) (hp : 0x80 ≤ p) :
    ∃ s r', (writeAt ((front ++ c :: behind).filter isBasic).length p w c).text = w.text ++ s ∧
      r.Leads r' s ∧
      Abreast p (front ++ [c]) behind
        (Punycode.writeAt ((front ++ c :: behind).filter isBasic).length p w c) r' := by
  obtain hlt | heq | hgt := Nat.lt_trichotomy c.toNat p
  · refine ⟨[], r, ?_, .refl r, ?_⟩ <;> rw [Punycode.writeAt, if_pos hlt]
    · exact (List.append_nil w.text).symm
    · exact h.pass hlt
  · have hle : (front.filter (·.toNat ≤ p)).length ≤ r.done.length := by
      rw [h.done, List.length_append]
      exact Nat.le_add_right _ _
    refine ⟨writeNumber w.bias 36 w.gap, r.put w.gap (front.filter (·.toNat ≤ p)).length c,
      ?_, ?_, ?_⟩
    · rw [Punycode.writeAt, if_neg (Nat.not_lt.mpr (Nat.le_of_eq heq.symm)), if_pos heq]
    · rw [h.bias]
      exact r.leads_put hle (heq ▸ h.point) (heq ▸ h.gap)
    · rw [Punycode.writeAt, if_neg (Nat.not_lt.mpr (Nat.le_of_eq heq.symm)), if_pos heq,
        h.first hp]
      exact h.put heq
  · refine ⟨[], r, ?_, .refl r, ?_⟩ <;>
      rw [Punycode.writeAt, if_neg (Nat.not_lt.mpr (Nat.le_of_lt hgt)), if_neg (Nat.ne_of_gt hgt)]
    · exact (List.append_nil w.text).symm
    · exact h.leave hgt

/-- **A round keeps the two abreast.** -/
theorem Abreast.foldl_writeAt (hp : 0x80 ≤ p) (h : Abreast p front behind w r)
    (hlabel : front ++ behind = label) :
    ∃ s r', (behind.foldl (Punycode.writeAt (label.filter isBasic).length p) w).text
          = w.text ++ s ∧
      r.Leads r' s ∧
      Abreast p label [] (behind.foldl (Punycode.writeAt (label.filter isBasic).length p) w) r' := by
  induction behind generalizing front w r with
  | nil =>
    rw [List.append_nil] at hlabel
    exact ⟨[], r, (List.append_nil w.text).symm, .refl r, hlabel ▸ h⟩
  | cons c behind ih =>
    obtain ⟨s, r', htext, hleads, h'⟩ := h.writeAt hp
    rw [hlabel] at htext h'
    obtain ⟨s', r'', htext', hleads', h''⟩ :=
      ih h' (by rw [List.append_assoc, List.singleton_append, hlabel])
    refine ⟨s ++ s', r'', ?_, hleads.trans hleads', h''⟩
    rw [List.foldl_cons, htext', htext, List.append_assoc]

/-- A round begins with the whole label to come, and none of it between the code points. -/
theorem Between.abreast {next : Nat} (h : Between label next w r) (hle : next ≤ p)
    (hnone : ∀ c ∈ label, next ≤ c.toNat → p ≤ c.toNat) :
    Abreast p [] label { w with gap := w.gap + (p - next) * (w.count + 1) } r where
  done := by
    rw [h.done]
    refine List.filter_congr fun c hc => ?_
    have := hnone c hc
    rw [Bool.eq_iff_iff, decide_eq_true_eq, decide_eq_true_eq]
    omega
  count := h.count
  bias := h.bias
  point := Nat.le_trans h.point hle
  gap := by
    have hgap := h.gap
    have hpoint := h.point
    have hcount := h.count
    show r.place + (w.gap + (p - next) * (w.count + 1)) = (p - r.point) * (r.done.length + 1) + 0
    rw [Nat.add_zero, ← Nat.add_assoc, hgap, hcount, ← Nat.add_mul]
    exact congrArg (· * (r.done.length + 1)) (by omega)

/-- It ends with the whole label passed. -/
theorem Abreast.between (h : Abreast p label [] w r) :
    Between label (p + 1) { w with gap := w.gap + 1 } r where
  done := by
    rw [h.done, List.filter_nil, List.append_nil]
    exact List.filter_congr fun c _ => by simp only [Nat.lt_succ_iff]
  count := h.count
  bias := h.bias
  point := Nat.le_succ_of_le h.point
  gap := by
    have hgap := h.gap
    have hdone : (label.filter (·.toNat ≤ p)).length = r.done.length := by
      rw [h.done, List.filter_nil, List.append_nil]
    have hsub : p + 1 - r.point = (p - r.point) + 1 := Nat.succ_sub h.point
    show r.place + (w.gap + 1) = _
    rw [← Nat.add_assoc, hgap, hdone, hsub, Nat.succ_mul]
    rfl

/-- **All rounds put in the whole label.** The code points to come are those of the label
that are not before the next one. -/
theorem Between.writePoints (points : List Nat) : ∀ {next : Nat} {w : Writing} {r : Reader},
    Between label next w r → 0x80 ≤ next → points.Pairwise (· < ·) →
    (∀ p ∈ points, next ≤ p) → (∀ c ∈ label, next ≤ c.toNat → c.toNat ∈ points) →
    ∃ s r', (writePoints label (label.filter isBasic).length next points w).text = w.text ++ s ∧
      r.Leads r' s ∧ r'.done = label := by
  induction points with
  | nil =>
    intro next w r h _ _ _ hall
    refine ⟨[], r, (List.append_nil w.text).symm, .refl r, h.done.trans ?_⟩
    refine List.filter_eq_self.mpr fun c hc => decide_eq_true ?_
    exact Nat.lt_of_not_le fun hle => List.not_mem_nil (hall c hc hle)
  | cons p points ih =>
    intro next w r h hnext hsorted hge hall
    obtain ⟨hlt, hsorted⟩ := List.pairwise_cons.mp hsorted
    have hp := hge p List.mem_cons_self
    have hround : Abreast p [] label { w with gap := w.gap + (p - next) * (w.count + 1) } r := by
      refine h.abreast hp fun c hc hle => ?_
      obtain heq | hmem := List.mem_cons.mp (hall c hc hle)
      · exact Nat.le_of_eq heq.symm
      · exact Nat.le_of_lt (hlt _ hmem)
    obtain ⟨s, r', htext, hleads, h'⟩ :=
      hround.foldl_writeAt (Nat.le_trans hnext hp) (List.nil_append label)
    obtain ⟨s', r'', htext', hleads', hdone⟩ := ih h'.between (by omega) hsorted hlt
      fun c hc hle => ((List.mem_cons.mp (hall c hc (by omega))).resolve_left (by omega))
    refine ⟨s ++ s', r'', ?_, hleads.trans hleads', hdone⟩
    show (Punycode.writePoints label _ (p + 1) points _).text = _
    rw [htext']
    exact (congrArg (· ++ s') htext).trans (List.append_assoc w.text s s')

end

/-! ## The code points of a label -/

/-- Putting in a code point adds it and nothing else. -/
theorem mem_insertPoint {p q : Nat} {points : List Nat} :
    q ∈ insertPoint p points ↔ q = p ∨ q ∈ points := by
  induction points with
  | nil => simp [insertPoint]
  | cons x points ih =>
    rw [insertPoint]
    split
    · simp
    · split
      · next heq => simp [heq]
      · rw [List.mem_cons, ih, List.mem_cons]
        exact or_left_comm

/-- It keeps code points in their order. -/
theorem pairwise_insertPoint {p : Nat} {points : List Nat} (h : points.Pairwise (· < ·)) :
    (insertPoint p points).Pairwise (· < ·) := by
  induction points with
  | nil => exact List.pairwise_singleton _ p
  | cons x points ih =>
    obtain ⟨hx, hpoints⟩ := List.pairwise_cons.mp h
    rw [insertPoint]
    split
    · next hlt =>
      refine List.pairwise_cons.mpr ⟨fun q hq => ?_, h⟩
      obtain rfl | hq := List.mem_cons.mp hq
      · exact hlt
      · exact Nat.lt_trans hlt (hx q hq)
    · split
      · exact h
      · next hge hne =>
        refine List.pairwise_cons.mpr ⟨fun q hq => ?_, ih hpoints⟩
        obtain rfl | hq := mem_insertPoint.mp hq
        · omega
        · exact hx q hq

/-- The code points past ASCII, in their order. -/
def pointsOf (label : List Char) : List Nat :=
  (label.filter (0x80 ≤ ·.toNat)).foldr (fun c => insertPoint c.toNat) []

/-- They are those of the characters past ASCII. -/
theorem mem_pointsOf {label : List Char} {p : Nat} :
    p ∈ pointsOf label ↔ ∃ c ∈ label, 0x80 ≤ c.toNat ∧ p = c.toNat := by
  have hfold : ∀ cs : List Char,
      p ∈ cs.foldr (fun c => insertPoint c.toNat) [] ↔ ∃ c ∈ cs, p = c.toNat := by
    intro cs
    induction cs with
    | nil => simp
    | cons c cs ih => rw [List.foldr_cons, mem_insertPoint, ih]; simp
  rw [pointsOf, hfold]
  simp [and_assoc]

/-- They stand in their order. -/
theorem pairwise_pointsOf (label : List Char) : (pointsOf label).Pairwise (· < ·) := by
  unfold pointsOf
  induction label.filter (0x80 ≤ ·.toNat) with
  | nil => exact List.Pairwise.nil
  | cons c cs ih => exact pairwise_insertPoint ih

/-! ## A whole label -/

/-- What is written of a label behind its ASCII characters. -/
def numbersOf (label : List Char) : List Char :=
  (writePoints label (label.filter isBasic).length 0x80 (pointsOf label)
    ⟨[], 0, 72, (label.filter isBasic).length⟩).text

/-- A label is written as its ASCII characters, with a hyphen behind them if there are any,
and its numbers. -/
theorem encode_eq (label : List Char) :
    encode label = label.filter isBasic ++
      (if (label.filter isBasic).isEmpty then [] else ['-']) ++ numbersOf label := rfl

/-- **The numbers of a label put the others in among its ASCII characters.** -/
theorem readPoints_numbersOf (label : List Char) :
    readPoints (label.filter isBasic) 0x80 0 72 (numbersOf label) = some label := by
  have hstart : Between label 0x80 ⟨[], 0, 72, (label.filter isBasic).length⟩
      ⟨label.filter isBasic, 0x80, 0, 72⟩ :=
    ⟨rfl, rfl, rfl, Nat.le_refl _, (Nat.zero_mul _).symm⟩
  obtain ⟨s, r, htext, hleads, hdone⟩ := hstart.writePoints (pointsOf label) (Nat.le_refl _)
    (pairwise_pointsOf label)
    (fun p hp => by obtain ⟨c, -, hc, rfl⟩ := mem_pointsOf.mp hp; exact hc)
    (fun c hc hle => mem_pointsOf.mpr ⟨c, hc, hle, rfl⟩)
  have hnumbers : numbersOf label = s ++ [] := by
    rw [List.append_nil]
    exact htext.trans (List.nil_append s)
  rw [hnumbers]
  refine (hleads []).trans ?_
  show readPoints r.done r.point r.place r.bias [] = some label
  rw [readPoints, if_pos List.isEmpty_nil, hdone]

/-- A digit of a number. -/
def IsDigit (c : Char) : Prop :=
  ∃ d < 36, c = digit d

/-- Nothing but digits is written of one character. -/
theorem isDigit_writeAt {basic point : Nat} {w : Writing} (h : ∀ x ∈ w.text, IsDigit x) (c : Char) :
    ∀ x ∈ (writeAt basic point w c).text, IsDigit x := by
  unfold writeAt
  split
  · exact h
  · split
    · intro x hx
      obtain hx | hx := List.mem_append.mp hx
      · exact h x hx
      · exact mem_writeNumber _ _ _ hx
    · exact h

/-- Nothing but digits is written of the characters of a label. -/
theorem isDigit_foldl_writeAt {basic point : Nat} (label : List Char) : ∀ {w : Writing},
    (∀ x ∈ w.text, IsDigit x) → ∀ x ∈ (label.foldl (writeAt basic point) w).text, IsDigit x := by
  induction label with
  | nil => exact fun h => h
  | cons c label ih => exact fun h => ih (isDigit_writeAt h c)

/-- Nothing but digits is written of the code points of a label. -/
theorem isDigit_writePoints {label : List Char} {basic : Nat} (points : List Nat) :
    ∀ {next : Nat} {w : Writing}, (∀ x ∈ w.text, IsDigit x) →
      ∀ x ∈ (writePoints label basic next points w).text, IsDigit x := by
  induction points with
  | nil => exact fun h => h
  | cons p points ih => exact fun h => ih (isDigit_foldl_writeAt label h)

/-- **The numbers of a label are digits.** -/
theorem isDigit_of_mem_numbersOf {label : List Char} {c : Char} (h : c ∈ numbersOf label) :
    IsDigit c :=
  isDigit_writePoints (pointsOf label) (fun _ hx => absurd hx List.not_mem_nil) c h

/-- A digit is no hyphen. -/
theorem IsDigit.ne_hyphen {c : Char} (h : IsDigit c) : c ≠ '-' := by
  obtain ⟨d, hd, rfl⟩ := h
  have all : ∀ d : Fin 36, digit d ≠ '-' := by decide
  exact all ⟨d, hd⟩

/-- **A label that was written in Punycode can be read back**, whatever its characters. -/
theorem decode_encode (label : List Char) : decode (encode label) = some label := by
  have hdigits : '-' ∉ numbersOf label := fun h => (isDigit_of_mem_numbersOf h).ne_hyphen rfl
  have hread := readPoints_numbersOf label
  rw [encode_eq]
  generalize label.filter isBasic = basic at hread ⊢
  generalize numbersOf label = numbers at hread hdigits ⊢
  unfold decode
  dsimp only
  cases basic with
  | nil =>
    rw [show [] ++ (if ([] : List Char).isEmpty = true then [] else ['-']) ++ numbers = numbers
      from rfl, behindLast_of_notMem hdigits, if_pos rfl]
    exact hread
  | cons c basic =>
    have htext : c :: basic ++ (if (c :: basic).isEmpty = true then [] else ['-']) ++ numbers
        = (c :: basic) ++ '-' :: numbers := by
      rw [if_neg (by simp), List.append_assoc, List.singleton_append]
    have hlength : (c :: basic ++ '-' :: numbers).length
        = (c :: basic).length + 1 + numbers.length := by
      rw [List.length_append, List.length_cons (a := '-')]
      omega
    rw [htext, behindLast_append hdigits, if_neg (by omega), hlength,
      show (c :: basic).length + 1 + numbers.length - numbers.length - 1 = (c :: basic).length by
        omega, List.take_left]
    exact hread

end Punycode

end Courier.Url
