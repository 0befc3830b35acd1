import Mathlib.Data.List.Nodup
import Courier.Proofs.Source.Lines
import Courier.Proofs.Text.Numeral
import Courier.Proofs.Text.Utf8
/-!
# The records of a source

Reading a file to its end gives all events of its lines, with nothing left out and
nothing twice, in records that are full but for the last. A full record ends with
the line of its last event; the last one, if it is not full, ends with the file.

Which events there are and how they are cut up are two questions. `Source.numbered`
has the events with the numbers of their lines, and `Cut` says how numbered events
are cut into portions, and nothing about files. There is only one way to cut them
(`Cut.unique`), and what comes after a portion is cut as if there had been nothing
before it (`Cut.resume`). So reading again from the position of a record gives the
records behind it, since the events are those of the lines behind it.
-/

namespace Courier

/-! ## Lines -/

/-- A file without lines is empty. -/
theorem linesOf_eq_nil_iff {bytes : List UInt8} : linesOf bytes = [] ↔ bytes = [] := by
  cases bytes with
  | nil => exact ⟨fun _ => rfl, fun _ => rfl⟩
  | cons b rest =>
    refine ⟨fun h => ?_, fun h => nomatch h⟩
    unfold linesOf at h
    split at h
    · cases h
    · split at h <;> cases h

/-- A file has as many lines as bytes at most. -/
theorem length_linesOf_le (bytes : List UInt8) : (linesOf bytes).length ≤ bytes.length := by
  induction bytes with
  | nil => exact Nat.le_refl 0
  | cons b rest ih =>
    unfold linesOf
    by_cases hb : b = lineFeed
    · rw [if_pos hb]
      exact Nat.succ_le_succ ih
    · rw [if_neg hb]
      cases hlines : linesOf rest with
      | nil => exact Nat.succ_le_succ (Nat.zero_le _)
      | cons line lines =>
        rw [hlines] at ih
        exact Nat.le_succ_of_le ih

/-- A byte before others is in front of the first of their lines, or a line end before
it. -/
theorem flatMap_linesOf_cons (b : UInt8) {rest : List UInt8} (h : rest ≠ []) :
    (linesOf (b :: rest)).flatMap (· ++ [lineFeed])
      = b :: (linesOf rest).flatMap (· ++ [lineFeed]) := by
  rw [linesOf]
  by_cases hb : b = lineFeed
  · rw [if_pos hb, hb]
    rfl
  · rw [if_neg hb]
    cases hlines : linesOf rest with
    | nil => exact absurd (linesOf_eq_nil_iff.mp hlines) h
    | cons line lines => rfl

/-- **Lines with their ends are the file**, but for the last end if the file lacks
it. -/
theorem flatMap_linesOf (bytes : List UInt8) :
    (linesOf bytes).flatMap (· ++ [lineFeed])
      = if bytes.getLast?.all (· = lineFeed) then bytes else bytes ++ [lineFeed] := by
  induction bytes with
  | nil => rfl
  | cons b rest ih =>
    cases rest with
    | nil =>
      by_cases hb : b = lineFeed
      · rw [hb]
        rfl
      · simp [linesOf, hb]
    | cons b' rest =>
      rw [flatMap_linesOf_cons b (List.cons_ne_nil _ _), ih, List.getLast?_cons_cons]
      split <;> rfl

namespace Source

/-! ## Numbered events -/

section Numbered

variable (s : Source) (bytes : List UInt8)

/-- The events of the lines after one and up to another, with the numbers of their
lines. -/
def numberedIn (a b : Nat) : List (Nat × Event) :=
  (List.range' (a + 1) (b - a)).filterMap fun n => (s.eventAt bytes n).map (n, ·)

/-- **The events of a file**, with the numbers of their lines. -/
def numbered : List (Nat × Event) :=
  s.numberedIn bytes 0 (linesOf bytes).length

variable {s bytes}

/-- **A line before others** has its event before theirs, if it has one. -/
theorem numberedIn_cons {a b : Nat} (h : a < b) :
    s.numberedIn bytes a b
      = ((s.eventAt bytes (a + 1)).map (a + 1, ·)).toList ++ s.numberedIn bytes (a + 1) b := by
  unfold numberedIn
  rw [show b - a = b - (a + 1) + 1 by omega, List.range'_succ]
  cases he : s.eventAt bytes (a + 1) with
  | none =>
    rw [List.filterMap_cons_none (by rw [he]; rfl)]
    rfl
  | some e =>
    rw [List.filterMap_cons_some (by rw [he]; rfl)]
    rfl

/-- Numbered events are those of lines. -/
theorem mem_numberedIn {a b n : Nat} {e : Event} :
    (n, e) ∈ s.numberedIn bytes a b ↔ a < n ∧ n ≤ b ∧ s.eventAt bytes n = some e := by
  unfold numberedIn
  simp only [List.mem_filterMap, List.mem_range'_1, Option.map_eq_some_iff, Prod.mk.injEq]
  constructor
  · rintro ⟨m, hm, e', he, rfl, rfl⟩
    exact ⟨by omega, by omega, he⟩
  · rintro ⟨ha, hb, he⟩
    exact ⟨n, by omega, e, he, rfl, rfl⟩

/-- **They are in the order of their lines**, and no line has two. -/
theorem numberedIn_pairwise (a b : Nat) :
    (s.numberedIn bytes a b).Pairwise fun x y => x.1 < y.1 := by
  unfold numberedIn
  rw [List.pairwise_filterMap]
  refine List.Pairwise.imp ?_ (List.pairwise_lt_range' 1)
  intro n m hnm x hx y hy
  obtain ⟨e, -, rfl⟩ := Option.map_eq_some_iff.mp hx
  obtain ⟨e', -, rfl⟩ := Option.map_eq_some_iff.mp hy
  exact hnm

theorem numbered_pairwise (s : Source) (bytes : List UInt8) :
    (s.numbered bytes).Pairwise fun x y => x.1 < y.1 :=
  numberedIn_pairwise 0 _

/-- **The event of a line that has one**, by its number in the file. -/
theorem eventAt_eq_some_iff {n : Nat} {e : Event} :
    s.eventAt bytes n = some e ↔ s.resumeAfter < n ∧
      ∃ line text, (linesOf bytes)[n - 1]? = some line ∧
        dropReturn line = Text.Utf8.encode text ∧ Text.allBlank text = false ∧
        e = s.event n text := by
  cases n with
  | zero =>
    constructor
    · exact fun h => nomatch h
    · exact fun h => absurd h.1 (Nat.not_lt_zero _)
  | succ n =>
    show (linesOf bytes)[n]?.bind _ = _ ↔ _
    simp only [Option.bind_eq_some_iff, event?_eq_some_iff, Text.Utf8.decode_eq_ok_iff,
      Nat.add_sub_cancel]
    constructor
    · rintro ⟨line, hline, hlt, text, htext, hblank, rfl⟩
      exact ⟨hlt, line, text, hline, htext, hblank, rfl⟩
    · rintro ⟨hlt, line, text, hline, htext, hblank, rfl⟩
      exact ⟨line, hline, hlt, text, htext, hblank, rfl⟩

/-- **Reading that resumes later** finds the events of the lines after that. -/
theorem numbered_resume {n : Nat} (h : s.resumeAfter ≤ n) :
    ({ s with resumeAfter := n } : Source).numbered bytes
      = (s.numbered bytes).filter fun x => n < x.1 := by
  have hat : ∀ m, ({ s with resumeAfter := n } : Source).eventAt bytes m
      = if n < m then s.eventAt bytes m else none := by
    intro m
    ext e
    by_cases hm : n < m
    · rw [if_pos hm, eventAt_eq_some_iff, eventAt_eq_some_iff]
      have hm' : s.resumeAfter < m := Nat.lt_of_le_of_lt h hm
      exact ⟨fun ⟨_, h⟩ => ⟨hm', h⟩, fun ⟨_, h⟩ => ⟨hm, h⟩⟩
    · rw [if_neg hm, eventAt_eq_some_iff]
      exact ⟨fun h => absurd h.1 hm, fun h => nomatch h⟩
  unfold numbered numberedIn
  rw [List.filter_filterMap]
  refine List.filterMap_congr fun m _ => ?_
  rw [hat]
  by_cases hm : n < m
  · rw [if_pos hm]
    cases s.eventAt bytes m <;> simp [Option.filter, hm]
  · rw [if_neg hm]
    cases s.eventAt bytes m <;> simp [Option.filter, hm]

end Numbered

end Source

/-! ## Portions -/

/-- **Numbered events that make a record**, and the line up to which the source has
been read then. -/
structure Portion where
  /-- The number of the line. -/
  upTo : Nat
  /-- The events. -/
  events : List (Nat × Event)
deriving DecidableEq, Repr

/-- The record of a portion. -/
def Portion.record (p : Portion) : Record :=
  ⟨toString p.upTo, p.events.map (·.2)⟩

/-- **Numbered events cut into portions** of a size. A portion of that size ends with
the line of its last event. What is left over is a portion that ends with the last
line. -/
inductive Cut (size total : Nat) : List (Nat × Event) → List Portion → Prop
  /-- Nothing is left over. -/
  | nil : Cut size total [] []
  /-- Not enough is left over for a portion of the size. -/
  | last {xs : List (Nat × Event)} (hne : xs ≠ []) (hlt : xs.length < size) :
    Cut size total xs [⟨total, xs⟩]
  /-- There is a portion of the size before the others. -/
  | full {xs rest : List (Nat × Event)} {x : Nat × Event} {ps : List Portion}
    (hlen : (xs ++ [x]).length = size) (h : Cut size total rest ps) :
    Cut size total (xs ++ [x] ++ rest) (⟨x.1, xs ++ [x]⟩ :: ps)

namespace Cut

variable {size total : Nat} {xs : List (Nat × Event)} {ps : List Portion}

/-- **Portions hold all events**, in their order. -/
theorem flatMap_events (h : Cut size total xs ps) : ps.flatMap (·.events) = xs := by
  induction h with
  | nil => rfl
  | last => exact List.append_nil _
  | full _ _ ih => rw [List.flatMap_cons, ih]

/-- **No portion is empty or larger than the size.** -/
theorem length_events (h : Cut size total xs ps) :
    ∀ p ∈ ps, 1 ≤ p.events.length ∧ p.events.length ≤ size := by
  induction h with
  | nil => exact fun _ h => nomatch h
  | last hne hlt =>
    intro p hp
    obtain rfl := List.mem_singleton.mp hp
    exact ⟨List.length_pos_iff.mpr hne, Nat.le_of_lt hlt⟩
  | full hlen _ ih =>
    intro p hp
    obtain rfl | hp := List.mem_cons.mp hp
    · exact ⟨by simp, Nat.le_of_eq hlen⟩
    · exact ih p hp

/-- **Every portion but the last has the size.** -/
theorem length_dropLast (h : Cut size total xs ps) :
    ∀ p ∈ ps.dropLast, p.events.length = size := by
  induction h with
  | nil => exact fun _ h => nomatch h
  | last => exact fun _ h => nomatch h
  | @full xs rest x ps hlen _ ih =>
    intro p hp
    cases ps with
    | nil => cases hp
    | cons q ps =>
      obtain rfl | hp := List.mem_cons.mp hp
      · exact hlen
      · exact ih p hp

/-- **There is one way to cut events.** -/
theorem unique (h : Cut size total xs ps) :
    ∀ {ps'}, Cut size total xs ps' → ps = ps' := by
  induction h with
  | nil =>
    intro ps' h'
    generalize hxs : ([] : List (Nat × Event)) = xs at h'
    cases h' with
    | nil => rfl
    | last hne => exact absurd hxs.symm hne
    | full hlen => simp at hxs
  | @last xs hne hlt =>
    intro ps' h'
    cases h' with
    | nil => exact absurd rfl hne
    | last => rfl
    | @full xs rest x ps hlen =>
      rw [List.length_append] at hlt
      omega
  | @full xs rest x ps hlen h ih =>
    intro ps' h'
    -- the first portion of either has the size, so it has the same events in both
    generalize hxs : xs ++ [x] ++ rest = ys at h'
    cases h' with
    | nil => simp at hxs
    | last hne hlt =>
      rw [← hxs, List.length_append] at hlt
      omega
    | @full xs' rest' x' ps' hlen' h' =>
      obtain ⟨hfull, rfl⟩ := List.append_inj hxs (hlen.trans hlen'.symm)
      obtain ⟨rfl, hx⟩ := List.append_inj' hfull rfl
      cases hx
      rw [ih h']

section Sorted

variable (h : Cut size total xs ps) (hsorted : xs.Pairwise fun x y => x.1 < y.1)
variable (hle : ∀ x ∈ xs, x.1 ≤ total)

include h in
theorem mem_of_mem {p : Portion} (hp : p ∈ ps) {x : Nat × Event} (hx : x ∈ p.events) : x ∈ xs := by
  rw [← h.flatMap_events]
  exact List.mem_flatMap.mpr ⟨p, hp, hx⟩

include h hsorted hle in
/-- **A portion ends at the line of its last event or behind it.** -/
theorem le_upTo : ∀ p ∈ ps, ∀ x ∈ p.events, x.1 ≤ p.upTo := by
  induction h with
  | nil => exact fun _ h => nomatch h
  | last =>
    intro p hp
    obtain rfl := List.mem_singleton.mp hp
    exact hle
  | @full xs rest x ps _ _ ih =>
    obtain ⟨hfull, hrest, -⟩ := List.pairwise_append.mp hsorted
    intro p hp y hy
    obtain rfl | hp := List.mem_cons.mp hp
    · obtain hy | hy := List.mem_append.mp hy
      · exact Nat.le_of_lt ((List.pairwise_append.mp hfull).2.2 y hy x List.mem_cons_self)
      · exact Nat.le_of_eq (congrArg Prod.fst (List.mem_singleton.mp hy))
    · exact ih hrest (fun z hz => hle z (List.mem_append_right _ hz)) p hp y hy

include h hle in
/-- It does not end behind the last line. -/
theorem upTo_le : ∀ p ∈ ps, p.upTo ≤ total := by
  induction h with
  | nil => exact fun _ h => nomatch h
  | last =>
    intro p hp
    obtain rfl := List.mem_singleton.mp hp
    exact Nat.le_refl total
  | @full xs rest x ps _ _ ih =>
    intro p hp
    obtain rfl | hp := List.mem_cons.mp hp
    · exact hle x (List.mem_append_left _ (List.mem_append_right _ List.mem_cons_self))
    · exact ih (fun y hy => hle y (List.mem_append_right _ hy)) p hp

include h hsorted hle in
/-- **It ends before the events of the portions behind it**, and so before those
portions do. -/
theorem upTo_pairwise : ps.Pairwise fun p q => p.upTo < q.upTo ∧ ∀ x ∈ q.events, p.upTo < x.1 := by
  induction h with
  | nil => exact .nil
  | last => exact List.pairwise_singleton _ _
  | @full xs rest x ps _ h ih =>
    obtain ⟨-, hrest, hbefore⟩ := List.pairwise_append.mp hsorted
    have hle' : ∀ y ∈ rest, y.1 ≤ total := fun y hy => hle y (List.mem_append_right _ hy)
    refine .cons (fun q hq => ?_) (ih hrest hle')
    have hlt : ∀ y ∈ q.events, x.1 < y.1 := fun y hy =>
      hbefore x (List.mem_append_right _ List.mem_cons_self) y (h.mem_of_mem hq hy)
    obtain ⟨y, hy⟩ := List.exists_mem_of_length_pos (h.length_events q hq).1
    exact ⟨Nat.lt_of_lt_of_le (hlt y hy) (h.le_upTo hrest hle' q hq y hy), hlt⟩

include h hsorted hle in
/-- **What comes after a portion is cut as if there had been nothing before it.** -/
theorem resume {k : Nat} {p : Portion} (hk : ps[k]? = some p) :
    Cut size total (xs.filter fun x => p.upTo < x.1) (ps.drop (k + 1)) := by
  induction h generalizing k with
  | nil => cases hk
  | @last xs _ _ =>
    cases k with
    | succ k => cases hk
    | zero =>
      cases hk
      have hnone : (xs.filter fun x => decide (total < x.1)) = [] :=
        List.filter_eq_nil_iff.mpr fun x hx => by simpa using hle x hx
      rw [hnone]
      exact .nil
  | @full xs rest x ps hlen h ih =>
    have hfull : Cut size total (xs ++ [x] ++ rest) (⟨x.1, xs ++ [x]⟩ :: ps) := .full hlen h
    obtain ⟨-, hrest, hbefore⟩ := List.pairwise_append.mp hsorted
    -- the events up to the end of a portion are not behind it, nor behind a later one
    have hlast : ∀ y ∈ xs ++ [x], y.1 ≤ x.1 :=
      hfull.le_upTo hsorted hle _ List.mem_cons_self
    have hgone : ∀ n, x.1 ≤ n → (xs ++ [x] ++ rest).filter (fun y => decide (n < y.1))
        = rest.filter fun y => decide (n < y.1) := by
      intro n hn
      rw [List.filter_append, List.filter_eq_nil_iff.mpr fun y hy => by
        simpa using Nat.le_trans (hlast y hy) hn]
      rfl
    cases k with
    | zero =>
      cases hk
      rw [hgone _ (Nat.le_refl _), List.filter_eq_self.mpr fun y hy => by
        simpa using hbefore x (List.mem_append_right _ List.mem_cons_self) y hy]
      exact h
    | succ k =>
      have hmem : p ∈ ps := List.mem_of_getElem? hk
      have hlt := (List.pairwise_cons.mp (hfull.upTo_pairwise hsorted hle)).1 p hmem
      rw [hgone _ (Nat.le_of_lt hlt.1)]
      exact ih hrest (fun y hy => hle y (List.mem_append_right _ hy)) hk

end Sorted

end Cut

/-! ## Reading to the end -/

namespace Reader

variable {r : Reader}

/-- A reader that is about to read a line reads it. -/
theorem finish_reading (h : r.phase = .reading) : r.finish = r.readLine.finish := by
  rw [finish]
  split
  · next h' => cases h.symm.trans h'
  · rfl
  · next h' => cases h.symm.trans h'

/-- A reader that offers a record hands it over. -/
theorem finish_offering {record : Record} {last : Bool} (h : r.phase = .offering record last) :
    r.finish.2 = record :: (r.step .taken).finish.2 := by
  rw [finish]
  split
  · next h' => cases h.symm.trans h'
  · next h' => cases h.symm.trans h'
  · next h' =>
    cases h.symm.trans h'
    rfl

/-- A reader that is done hands over nothing more. -/
theorem finish_done (h : r.phase = .done) : r.finish.2 = [] := by
  rw [finish]
  split
  · rfl
  · next h' => cases h.symm.trans h'
  · next h' => cases h.symm.trans h'

/-- A reader of a line without an event goes on to the next one. -/
theorem readLine_none {line : List UInt8} {rest : List (List UInt8)} (hr : r.rest = line :: rest)
    (he : r.source.event? (r.line + 1) line = none) (hlt : r.batch.length < r.source.batchSize) :
    r.readLine = { r with rest := rest, line := r.line + 1 } := by
  unfold readLine
  rw [hr]
  dsimp only
  rw [he, show r.batch ++ (none : Option Event).toList = r.batch from List.append_nil _, if_neg]
  exact fun h => Nat.not_le.mpr hlt h.1

/-- **A reader of a line with an event gathers it**, and offers what it has gathered
when that is enough for a record. -/
theorem readLine_some {line : List UInt8} {rest : List (List UInt8)} {e : Event}
    (hr : r.rest = line :: rest) (he : r.source.event? (r.line + 1) line = some e) :
    r.readLine
      = let r' := { r with rest := rest, line := r.line + 1, batch := r.batch ++ [e] }
        if r.source.batchSize ≤ r.batch.length + 1 then r'.offer false else r' := by
  unfold readLine
  rw [hr]
  dsimp only
  rw [he]
  simp

/-- **A reader at the end of its file** offers what it has gathered, if there is anything. -/
theorem finish_end {bytes : List UInt8} {r : Reader} {gathered : List (Nat × Event)}
    (hp : r.phase = .reading) (hr : r.rest = []) (hend : r.line = (linesOf bytes).length)
    (hbatch : r.batch = gathered.map (·.2)) (hlt : gathered.length < r.source.batchSize) :
    ∃ ps, Cut r.source.batchSize (linesOf bytes).length
        (gathered ++ r.source.numberedIn bytes r.line (linesOf bytes).length) ps ∧
      r.finish.2 = ps.map Portion.record := by
  have hnone : r.source.numberedIn bytes r.line (linesOf bytes).length = [] := by
    unfold Source.numberedIn
    rw [hend, Nat.sub_self]
    rfl
  rw [hnone, List.append_nil, finish_reading hp]
  unfold readLine
  rw [hr]
  dsimp only
  cases gathered with
  | nil =>
    rw [hbatch]
    exact ⟨[], .nil, finish_done rfl⟩
  | cons x gathered =>
    rw [hbatch, if_neg (by simp)]
    refine ⟨[⟨(linesOf bytes).length, x :: gathered⟩], .last (List.cons_ne_nil _ _) hlt, ?_⟩
    rw [finish_offering (r := r.offer true) rfl, finish_done rfl]
    show [r.record] = [_]
    unfold record Portion.record
    rw [hbatch, hend]

/-- **A reader cuts what it has gathered and what it has still to read.** -/
theorem finish_cut {bytes : List UInt8} (rest : List (List UInt8)) :
    ∀ (r : Reader) (gathered : List (Nat × Event)), r.phase = .reading → r.rest = rest →
      rest = (linesOf bytes).drop r.line → r.line ≤ (linesOf bytes).length →
      r.batch = gathered.map (·.2) → gathered.length < r.source.batchSize →
      ∃ ps, Cut r.source.batchSize (linesOf bytes).length
          (gathered ++ r.source.numberedIn bytes r.line (linesOf bytes).length) ps ∧
        r.finish.2 = ps.map Portion.record := by
  -- on the lines still to be read, since every line changes the reader; what it has
  -- gathered is never enough for a record, as it is offered when it is
  induction rest with
  | nil =>
    intro r gathered hp hr hdrop hle hbatch hlt
    exact finish_end hp hr (Nat.le_antisymm hle (List.drop_eq_nil_iff.mp hdrop.symm)) hbatch hlt
  | cons line rest ih =>
    intro r gathered hp hr hdrop hle hbatch hlt
    obtain ⟨hline, hrest⟩ : (linesOf bytes)[r.line]? = some line ∧
        rest = (linesOf bytes).drop (r.line + 1) := by
      rw [← List.head?_drop, ← List.tail_drop, ← hdrop]
      exact ⟨rfl, rfl⟩
    have hle' : r.line + 1 ≤ (linesOf bytes).length := (List.getElem?_eq_some_iff.mp hline).1
    have hat : r.source.eventAt bytes (r.line + 1) = r.source.event? (r.line + 1) line := by
      show (linesOf bytes)[r.line]?.bind _ = _
      rw [hline]
      rfl
    have hlen : r.batch.length = gathered.length := by rw [hbatch, List.length_map]
    rw [Source.numberedIn_cons hle', hat, finish_reading hp]
    cases he : r.source.event? (r.line + 1) line with
    | none =>
      rw [readLine_none hr he (by rw [hlen]; exact hlt)]
      exact ih { r with rest := rest, line := r.line + 1 } gathered hp rfl hrest hle' hbatch hlt
    | some e =>
      have hbatch' : r.batch ++ [e] = (gathered ++ [(r.line + 1, e)]).map (·.2) := by
        rw [hbatch, List.map_append]
        rfl
      rw [readLine_some hr he, hlen]
      show ∃ ps, Cut _ _ (gathered ++ ([(r.line + 1, e)] ++ _)) ps ∧ _
      rw [← List.append_assoc]
      dsimp only
      by_cases hfull : r.source.batchSize ≤ gathered.length + 1
      · obtain ⟨ps, hcut, hps⟩ := ih ((offer { r with
          rest := rest, line := r.line + 1, batch := r.batch ++ [e] } false).step .taken) []
          rfl rfl hrest hle' rfl (Nat.lt_of_le_of_lt (Nat.zero_le _) hlt)
        refine ⟨⟨r.line + 1, gathered ++ [(r.line + 1, e)]⟩ :: ps, .full ?_ hcut, ?_⟩
        · rw [List.length_append]
          exact Nat.le_antisymm hlt hfull
        · rw [if_pos hfull, finish_offering rfl, hps]
          show (⟨toString (r.line + 1), r.batch ++ [e]⟩ : Record) :: _ = _
          rw [hbatch']
          rfl
      · rw [if_neg hfull]
        refine ih { r with rest := rest, line := r.line + 1, batch := r.batch ++ [e] }
          (gathered ++ [(r.line + 1, e)]) hp rfl hrest hle' hbatch' ?_
        rw [List.length_append]
        exact Nat.not_le.mp hfull

end Reader

/-! ## All records of a source -/

namespace Source

/-- **Portions that a source is read in.** -/
structure Portioned (s : Source) (bytes : List UInt8) (portions : List Portion) : Prop where
  /-- Their records are those of the source. -/
  records_eq : s.records bytes = portions.map Portion.record
  /-- They hold the events of the file, in its order. -/
  events_eq : portions.flatMap (·.events) = s.numbered bytes
  /-- None of them is empty or larger than a record. -/
  length_events : ∀ p ∈ portions, 1 ≤ p.events.length ∧ p.events.length ≤ s.batchSize
  /-- All but the last are full. -/
  length_dropLast : ∀ p ∈ portions.dropLast, p.events.length = s.batchSize
  /-- Each ends behind the line that reading resumes after, at a line of the file. -/
  upTo_bounds : ∀ p ∈ portions, s.resumeAfter < p.upTo ∧ p.upTo ≤ (linesOf bytes).length
  /-- It ends at the line of its last event or behind it. -/
  le_upTo : ∀ p ∈ portions, ∀ x ∈ p.events, x.1 ≤ p.upTo
  /-- And it ends before the next one does, and before the events of that. -/
  upTo_pairwise : portions.Pairwise fun p q => p.upTo < q.upTo ∧ ∀ x ∈ q.events, p.upTo < x.1

/-- **Reading a file to its end cuts its events.** -/
theorem records_cut (s : Source) (bytes : List UInt8) (hb : 1 ≤ s.batchSize) :
    ∃ ps, Cut s.batchSize (linesOf bytes).length (s.numbered bytes) ps ∧
      s.records bytes = ps.map Portion.record :=
  Reader.finish_cut (linesOf bytes) (Reader.start s bytes) [] rfl rfl rfl (Nat.zero_le _) rfl hb

variable {s : Source} {bytes : List UInt8}

theorem le_length_of_mem_numbered {x : Nat × Event} (h : x ∈ s.numbered bytes) :
    x.1 ≤ (linesOf bytes).length :=
  (mem_numberedIn.mp h).2.1

/-- A portion of the events of a file ends behind the line that reading resumes after. -/
theorem resumeAfter_lt_upTo {ps : List Portion}
    (hcut : Cut s.batchSize (linesOf bytes).length (s.numbered bytes) ps) {p : Portion}
    (hp : p ∈ ps) : s.resumeAfter < p.upTo := by
  obtain ⟨x, hx⟩ := List.exists_mem_of_length_pos (hcut.length_events p hp).1
  have hat := (mem_numberedIn.mp (hcut.mem_of_mem hp hx)).2.2
  have hle := hcut.le_upTo (numbered_pairwise s bytes) (fun _ => le_length_of_mem_numbered) p hp
    x hx
  exact Nat.lt_of_lt_of_le (resumeAfter_lt_of_eventAt hat) hle

/-- **A source is read in the portions that its events are cut into.** -/
theorem portioned_of_cut {ps : List Portion}
    (hcut : Cut s.batchSize (linesOf bytes).length (s.numbered bytes) ps)
    (hrecords : s.records bytes = ps.map Portion.record) : s.Portioned bytes ps := by
  have hsorted := numbered_pairwise s bytes
  have hle : ∀ x ∈ s.numbered bytes, x.1 ≤ (linesOf bytes).length := fun x =>
    le_length_of_mem_numbered
  refine ⟨hrecords, hcut.flatMap_events, hcut.length_events, hcut.length_dropLast, ?_,
    hcut.le_upTo hsorted hle, hcut.upTo_pairwise hsorted hle⟩
  exact fun p hp => ⟨resumeAfter_lt_upTo hcut hp, hcut.upTo_le hle p hp⟩

/-- **The records of a source are its events in portions, and reading again goes on
where a record ends.** The events are those of the lines after the one that reading
resumes after that are texts and not blank, each with its line as payload. The
position of a record is the number of a line, and a source that is read again from
there on gives the records behind it, and nothing else. -/
theorem records_portioned (s : Source) (bytes : List UInt8) (hb : 1 ≤ s.batchSize) :
    (s.numbered bytes).Pairwise (fun x y => x.1 < y.1) ∧
      (∀ n e, (n, e) ∈ s.numbered bytes ↔ s.resumeAfter < n ∧
        ∃ line text, (linesOf bytes)[n - 1]? = some line ∧
          dropReturn line = Text.Utf8.encode text ∧ Text.allBlank text = false ∧
          e = s.event n text ∧ e.payload = dropReturn line) ∧
      (∃ portions, s.Portioned bytes portions) ∧
      ∀ k record n, (s.records bytes)[k]? = some record → record.position = toString n →
        ({ s with resumeAfter := n } : Source).records bytes
          = (s.records bytes).drop (k + 1) := by
  obtain ⟨ps, hcut, hrecords⟩ := records_cut s bytes hb
  have hsorted := numbered_pairwise s bytes
  have hportioned := portioned_of_cut hcut hrecords
  refine ⟨hsorted, ?_, ⟨ps, hportioned⟩, ?_⟩
  · intro n e
    unfold numbered
    rw [mem_numberedIn, eventAt_eq_some_iff]
    constructor
    · rintro ⟨-, -, hr, line, text, hline, htext, hblank, rfl⟩
      exact ⟨hr, line, text, hline, htext, hblank, rfl, htext.symm⟩
    · rintro ⟨hr, line, text, hline, htext, hblank, he, -⟩
      have hlt := (List.getElem?_eq_some_iff.mp hline).1
      exact ⟨by omega, by omega, hr, line, text, hline, htext, hblank, he⟩
  · intro k record n hk hn
    rw [hrecords, List.getElem?_map, Option.map_eq_some_iff] at hk
    obtain ⟨p, hk, rfl⟩ := hk
    obtain rfl := Text.toString_nat_inj hn
    -- both readings cut the same events, and there is one way to do so
    have hrest := hcut.resume hsorted (fun x => le_length_of_mem_numbered) hk
    rw [← numbered_resume (Nat.le_of_lt (hportioned.upTo_bounds p (List.mem_of_getElem? hk)).1)]
      at hrest
    obtain ⟨ps', hcut', hrecords'⟩ := records_cut { s with resumeAfter := p.upTo } bytes hb
    rw [hrecords', hrecords, hcut'.unique hrest, List.map_drop]

/-- The first and the last of four lines have events: the second is blank, and the
third is no text. They make two records, and reading again from the first gives the
second one. -/
theorem records_portioned_lines :
    let s : Source := ⟨1, none, none, 0⟩
    let bytes : List UInt8 := [97, 13, 10, 10, 255, 10, 98]
    let behind : Record := ⟨"4", [s.event 4 ['b']]⟩
    1 ≤ s.batchSize ∧ s.records bytes = [⟨"1", [s.event 1 ['a']]⟩, behind] ∧
      ({ s with resumeAfter := 1 } : Source).records bytes = [behind] := by
  intro s bytes behind
  have hnumbered : s.numbered bytes = [(1, s.event 1 ['a']), (4, s.event 4 ['b'])] := by
    rfl
  obtain ⟨ps, hcut, hrecords⟩ := records_cut s bytes (by decide)
  have hps : ps = [⟨1, [(1, s.event 1 ['a'])]⟩, ⟨4, [(4, s.event 4 ['b'])]⟩] := by
    rw [hnumbered] at hcut
    refine hcut.unique ?_
    exact @Cut.full 1 4 [] _ (1, _) _ rfl (@Cut.full 1 4 [] [] (4, _) _ rfl .nil)
  have hall : s.records bytes = [⟨"1", [s.event 1 ['a']]⟩, behind] := by
    rw [hrecords, hps]
    have hone : toString 1 = "1" := by decide
    have hfour : toString 4 = "4" := by decide
    simp [Portion.record, behind, hone, hfour]
  have hrest := (records_portioned s bytes (by decide)).2.2.2 0 ⟨"1", [s.event 1 ['a']]⟩ 1
    (by rw [hall]; rfl) rfl
  exact ⟨by decide, hall, by rw [hrest, hall]; rfl⟩

end Source

end Courier
