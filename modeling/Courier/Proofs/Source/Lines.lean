import Courier.Source.Reader
/-!
# Which lines a record is made of

A reader hands over the events of a file in pieces, each piece the events of
the lines after the last one and up to the line that its position names. At
every moment a reader has gathered the events of the lines after those it has
offered and up to where it stands (`Reader.At`), and records that have been
offered one after another cover the lines between them without a gap
(`Spans`).
-/

namespace Courier

namespace Source

variable (s : Source) (bytes : List UInt8)

/-- **The event of the line of a number**, counted from one. -/
def eventAt : Nat → Option Event
  | 0 => none
  | n + 1 => (linesOf bytes)[n]?.bind (s.event? (n + 1))

/-- **The events of the lines after one and up to another.** -/
def eventsIn (a b : Nat) : List Event :=
  (List.range' (a + 1) (b - a)).filterMap (s.eventAt bytes)

/-- No lines have no events. -/
@[simp] theorem eventsIn_self (a : Nat) : s.eventsIn bytes a a = [] := by
  unfold eventsIn
  rw [Nat.sub_self]
  rfl

/-- **One more line** has its event, if it has one. -/
theorem eventsIn_succ {a b : Nat} (h : a ≤ b) :
    s.eventsIn bytes a (b + 1) = s.eventsIn bytes a b ++ (s.eventAt bytes (b + 1)).toList := by
  obtain ⟨d, rfl⟩ : ∃ d, b = a + d := ⟨b - a, by omega⟩
  unfold eventsIn
  rw [Nat.add_assoc, Nat.add_sub_cancel_left, Nat.add_sub_cancel_left, List.range'_concat,
    List.filterMap_append]
  have hline : a + 1 + 1 * d = a + (d + 1) := by omega
  rw [hline]
  refine congrArg (_ ++ ·) ?_
  cases he : s.eventAt bytes (a + (d + 1)) with
  | none => exact List.filterMap_cons_none he
  | some e => exact List.filterMap_cons_some he

variable {s bytes}

/-- **The events of lines** are each the event of one of them. -/
theorem mem_eventsIn {a b : Nat} {e : Event} :
    e ∈ s.eventsIn bytes a b ↔ ∃ n, a < n ∧ n ≤ b ∧ s.eventAt bytes n = some e := by
  unfold eventsIn
  rw [List.mem_filterMap]
  refine exists_congr fun n => ?_
  rw [List.mem_range'_1]
  refine ⟨fun h => ⟨by omega, by omega, h.2⟩, fun h => ⟨by omega, h.2.2⟩⟩

/-- **A line has an event** when it stands after the one that reading resumes after, is
a text, and is not blank; and the event is that of its number and its text. -/
theorem event?_eq_some_iff {n : Nat} {line : List UInt8} {e : Event} :
    s.event? n line = some e ↔ s.resumeAfter < n ∧
      ∃ text, Text.Utf8.decode (dropReturn line) = .ok text ∧ Text.allBlank text = false ∧
        s.event n text = e := by
  unfold event?
  by_cases hr : n ≤ s.resumeAfter
  · rw [if_pos hr]
    exact ⟨(fun h => nomatch h), fun h => absurd hr (Nat.not_le.mpr h.1)⟩
  · rw [if_neg hr]
    cases hd : Text.Utf8.decode (dropReturn line) with
    | error f => simp
    | ok text =>
      dsimp only
      cases hb : Text.allBlank text with
      | true => simp [hb]
      | false => simp [hb, Nat.not_le.mp hr]

/-- **A line that has an event** stands after the one that reading resumes after. -/
theorem resumeAfter_lt_of_eventAt {n : Nat} {e : Event} (h : s.eventAt bytes n = some e) :
    s.resumeAfter < n := by
  match n, h with
  | n + 1, h =>
    obtain ⟨line, -, he⟩ := Option.bind_eq_some_iff.mp h
    exact (event?_eq_some_iff.mp he).1

/-- **A line that holds an event**: it is a text and is not blank. -/
def HoldsEvent (bytes : List UInt8) (n : Nat) : Prop :=
  ∃ m line text, n = m + 1 ∧ (linesOf bytes)[m]? = some line ∧
    Text.Utf8.decode (dropReturn line) = .ok text ∧ Text.allBlank text = false

/-- **A line has an event** when it holds one and stands after the line that reading
resumes after, whatever the fields that name events. -/
theorem exists_eventAt_iff {n : Nat} :
    (∃ e, s.eventAt bytes n = some e) ↔ s.resumeAfter < n ∧ HoldsEvent bytes n := by
  constructor
  · rintro ⟨e, h⟩
    match n, h with
    | n + 1, h =>
      obtain ⟨line, hline, he⟩ := Option.bind_eq_some_iff.mp h
      obtain ⟨hlt, text, htext, hblank, -⟩ := event?_eq_some_iff.mp he
      exact ⟨hlt, n, line, text, rfl, hline, htext, hblank⟩
  · rintro ⟨hlt, m, line, text, rfl, hline, htext, hblank⟩
    exact ⟨s.event (m + 1) text, Option.bind_eq_some_iff.mpr
      ⟨line, hline, event?_eq_some_iff.mpr ⟨hlt, text, htext, hblank, rfl⟩⟩⟩

/-- **A record that covers the lines after one and up to another.** -/
structure Covers (s : Source) (bytes : List UInt8) (a b : Nat) (r : Record) : Prop where
  /-- It does not go back. -/
  le : a ≤ b
  /-- Its position is the number of the last line. -/
  position_eq : r.position = toString b
  /-- Its events are those of the lines. -/
  events_eq : r.events = s.eventsIn bytes a b
  /-- There are some. -/
  events_ne : r.events ≠ []

/-- **Records one after another** that cover the lines after one and up to
another. -/
inductive Spans (s : Source) (bytes : List UInt8) : Nat → List Record → Nat → Prop
  /-- No records cover no lines. -/
  | nil (a : Nat) : Spans s bytes a [] a
  /-- A record covers its lines, and the others those after them. -/
  | cons {a b c : Nat} {r : Record} {rs : List Record} (hr : Covers s bytes a b r)
      (h : Spans s bytes b rs c) : Spans s bytes a (r :: rs) c

/-- One more record behind the others. -/
theorem Spans.concat {a b c : Nat} {rs : List Record} {r : Record} (h : Spans s bytes a rs b)
    (hr : Covers s bytes b c r) : Spans s bytes a (rs ++ [r]) c := by
  induction h with
  | nil a => exact .cons hr (.nil c)
  | cons hr' _ ih => exact .cons hr' (ih hr)

end Source

namespace Reader

/-- **A reader of a file that has offered the events of the lines up to one.** -/
structure At (s : Source) (bytes : List UInt8) (a : Nat) (r : Reader) : Prop where
  /-- It reads from the source. -/
  source_eq : r.source = s
  /-- It does not stand before the lines it has offered. -/
  le_line : a ≤ r.line
  /-- What it has still to read are the lines after the one it stands at. -/
  rest_eq : r.phase ≠ .done → r.rest = (linesOf bytes).drop r.line
  /-- While it reads, it has gathered the events up to there. -/
  gathered : r.phase = .reading → r.batch = s.eventsIn bytes a r.line
  /-- While it offers a record, it has put them into it. -/
  offered : ∀ record last, r.phase = .offering record last →
    Source.Covers s bytes a r.line record ∧ r.batch = []

variable {s : Source} {bytes : List UInt8} {a : Nat} {r : Reader}

/-- A reader at the beginning has offered nothing. -/
theorem at_start (s : Source) (bytes : List UInt8) : (start s bytes).At s bytes 0 where
  source_eq := rfl
  le_line := Nat.le_refl 0
  rest_eq _ := rfl
  gathered _ := (s.eventsIn_self bytes 0).symm
  offered _ _ h := nomatch h

/-- A reader that is done has nothing more to say. -/
theorem at_done (hs : r.source = s) (hle : a ≤ r.line) (hp : r.phase = .done) :
    r.At s bytes a where
  source_eq := hs
  le_line := hle
  rest_eq h := absurd hp h
  gathered h := nomatch hp.symm.trans h
  offered _ _ h := nomatch hp.symm.trans h

/-- **Reading a line keeps a reader where it is**: the event of the line is gathered,
and then it may be offered with those before it. -/
theorem At.readLine (h : r.At s bytes a) (hp : r.phase = .reading) :
    r.readLine.At s bytes a := by
  have hrest := h.rest_eq (by rw [hp]; exact Phase.noConfusion)
  have hbatch := h.gathered hp
  unfold Reader.readLine
  cases hr : r.rest with
  | nil =>
    dsimp only
    split
    · exact at_done h.source_eq h.le_line rfl
    · next hne =>
      refine ⟨h.source_eq, h.le_line, fun _ => hrest, (fun h' => nomatch h'), ?_⟩
      rintro record last ⟨⟩
      exact ⟨⟨h.le_line, rfl, hbatch, fun h' => hne (List.isEmpty_iff.mpr h')⟩, rfl⟩
  | cons line rest =>
    rw [hr] at hrest
    have hline : (linesOf bytes)[r.line]? = some line := by
      rw [← List.head?_drop, ← hrest]
      rfl
    have hrest' : rest = (linesOf bytes).drop (r.line + 1) := by
      rw [← List.tail_drop, ← hrest]
      rfl
    -- with the event of the line, if it has one, the lines up to it are gathered
    have hgathered : r.batch ++ (r.source.event? (r.line + 1) line).toList
        = s.eventsIn bytes a (r.line + 1) := by
      have heventAt : s.eventAt bytes (r.line + 1) = s.event? (r.line + 1) line := by
        show (linesOf bytes)[r.line]?.bind _ = _
        rw [hline]
        rfl
      rw [s.eventsIn_succ bytes h.le_line, heventAt, hbatch, h.source_eq]
    have hle : a ≤ r.line + 1 := Nat.le_succ_of_le h.le_line
    dsimp only
    split
    · next hfull =>
      refine ⟨h.source_eq, hle, fun _ => hrest', (fun h' => nomatch h'), ?_⟩
      rintro record last ⟨⟩
      refine ⟨⟨hle, rfl, hgathered, fun h' => ?_⟩, rfl⟩
      have hsome := hfull.2
      rw [show r.batch ++ (r.source.event? (r.line + 1) line).toList = [] from h'] at hsome
      exact Bool.noConfusion hsome
    · refine ⟨h.source_eq, hle, fun _ => hrest', fun _ => hgathered, fun record last h' => ?_⟩
      exact nomatch hp.symm.trans h'

/-- **A reader that goes on stays where it is**: it has offered no more than
before. -/
theorem At.go (h : r.At s bytes a) : (r.step .go).At s bytes a := by
  unfold step
  cases hp : r.phase with
  | reading => exact h.readLine hp
  | offering record last => exact h
  | done => exact h

/-- **A reader that is stopped** is done. -/
theorem At.stopped (h : r.At s bytes a) {signal : Signal}
    (hs : signal = .shutdown ∨ signal = .refused) : (r.step signal).At s bytes a := by
  obtain rfl | rfl := hs
  · unfold step
    cases hp : r.phase with
    | reading => exact at_done h.source_eq h.le_line rfl
    | offering record last => exact at_done h.source_eq h.le_line rfl
    | done => exact h
  · unfold step
    cases hp : r.phase with
    | reading => exact h
    | offering record last => exact at_done h.source_eq h.le_line rfl
    | done => exact h

/-- **Once its record is taken, a reader has offered the lines up to where it
stands.** -/
theorem At.taken (h : r.At s bytes a) {record : Record} {last : Bool}
    (hp : r.phase = .offering record last) :
    Source.Covers s bytes a r.line record ∧ (r.step .taken).At s bytes r.line := by
  obtain ⟨hcovers, hbatch⟩ := h.offered record last hp
  refine ⟨hcovers, ?_⟩
  unfold step
  rw [hp]
  cases last with
  | true => exact at_done h.source_eq (Nat.le_refl _) rfl
  | false =>
    refine ⟨h.source_eq, Nat.le_refl _, fun _ => h.rest_eq (by rw [hp]; exact Phase.noConfusion),
      fun _ => ?_, fun _ _ h' => nomatch h'⟩
    show r.batch = s.eventsIn bytes r.line r.line
    rw [hbatch, Source.eventsIn_self]

end Reader

end Courier
