import Courier.Proofs.Pipeline.Feed
/-!
# Where records end

The position of a record is the number of the line at which the record is offered. A
full record is offered at the line of its last event. One that is not full is offered
when no line is left, and then the last line of the file gives it its position, whether
or not that line has an event (`Cut.upTo_eq`). So a position is the number of the line
of the last event, unless lines without events end the file behind a record that is
not full (`Feed.position_eq_iff`).

An interrupted reading hands over the first records of the whole one, so this holds of
it too.
-/

namespace Courier

open Courier.Pipeline (eventCount)

/-! ## Portions -/

namespace Cut

variable {size total : Nat} {xs : List (Nat × Event)} {ps : List Portion}

/-- **A portion of the size ends with the line of its last event**, and any other with the
last line. -/
theorem upTo_eq (h : Cut size total xs ps) : ∀ p ∈ ps, ∃ x, p.events.getLast? = some x ∧
    p.upTo = if p.events.length = size then x.1 else total := by
  induction h with
  | nil => exact fun _ h => nomatch h
  | @last xs hne hlt =>
    intro p hp
    obtain rfl := List.mem_singleton.mp hp
    exact ⟨xs.getLast hne, List.getLast?_eq_some_getLast hne, (if_neg (Nat.ne_of_lt hlt)).symm⟩
  | @full xs rest x ps hlen _ ih =>
    intro p hp
    obtain rfl | hp := List.mem_cons.mp hp
    · exact ⟨x, List.getLast?_concat, (if_pos hlen).symm⟩
    · exact ih p hp

/-- **The portions up to one hold the first events**, and the last of these is the last of
the portion. -/
theorem getLast?_take (h : Cut size total xs ps) {k : Nat} {p : Portion} (hk : ps[k]? = some p) :
    (xs.take (eventCount ((ps.map Portion.record).take (k + 1)))).getLast?
      = p.events.getLast? := by
  have hne : p.events ≠ [] :=
    List.length_pos_iff.mp (h.length_events p (List.mem_of_getElem? hk)).1
  have htake : ps.take (k + 1) = ps.take k ++ [p] := by
    rw [List.take_add_one, hk]
    rfl
  have hevents : xs = (ps.take (k + 1)).flatMap (·.events)
      ++ (ps.drop (k + 1)).flatMap (·.events) := by
    rw [← List.flatMap_append, List.take_append_drop, h.flatMap_events]
  rw [← List.map_take, Portion.eventCount_map_record, hevents, List.take_left, htake,
    List.flatMap_append, List.flatMap_singleton, List.getLast?_append_of_ne_nil _ hne]

end Cut

/-! ## Records -/

namespace Feed

/-- **The position of a record is the number of the line of its last event** exactly when
the record is full or that line is the last one of the file. However the reading is
interrupted: the events of the records up to this one are the first of the file, and
with the last of them the record ends. A record that is not full has the number of the
last line as its position. -/
theorem position_eq_iff (settings : SourceSettings) (resumeAfter : Nat) (bytes : List UInt8)
    (capacity : Nat) (moves : List Move) {k : Nat} {record : Record}
    (hk : ((start (.ofSettings settings resumeAfter) bytes capacity).entered moves)[k]?
      = some record) :
    let s := Source.ofSettings settings resumeAfter
    let handed := ((start s bytes capacity).entered moves).take (k + 1)
    ∃ n e, ((s.numbered bytes).take (eventCount handed)).getLast? = some (n, e) ∧
      s.eventAt bytes n = some e ∧ record.events.getLast? = some e ∧
      (record.position = toString n ↔
        record.events.length = s.batchSize ∨ n = (linesOf bytes).length) ∧
      (record.events.length < s.batchSize →
        record.position = toString (linesOf bytes).length) := by
  intro s handed
  have hb : 1 ≤ s.batchSize := Nat.le_max_left 1 _
  obtain ⟨ps, hcut, hrecords⟩ := s.records_cut bytes hb
  -- what an interrupted reading has handed over is the beginning of the whole one
  obtain ⟨rest, hrest⟩ : (start s bytes capacity).entered moves <+: ps.map Portion.record := by
    rw [← hrecords]
    exact (List.prefix_append _ _).trans ((honest_start s bytes capacity).after moves).ahead
  have hlt : k < ((start s bytes capacity).entered moves).length :=
    (List.getElem?_eq_some_iff.mp hk).1
  have hhanded : handed = (ps.map Portion.record).take (k + 1) := by
    rw [← hrest, List.take_append_of_le_length hlt]
  have hrecord : (ps.map Portion.record)[k]? = some record := by
    rw [← hrest, List.getElem?_append_left hlt]
    exact hk
  rw [List.getElem?_map, Option.map_eq_some_iff] at hrecord
  obtain ⟨p, hp, rfl⟩ := hrecord
  obtain ⟨⟨n, e⟩, hlast, hupTo⟩ := hcut.upTo_eq p (List.mem_of_getElem? hp)
  have hat : s.eventAt bytes n = some e :=
    (Source.mem_numberedIn.mp (hcut.mem_of_mem (List.mem_of_getElem? hp)
      (List.mem_of_getLast? hlast))).2.2
  have hlength : p.record.events.length = p.events.length := List.length_map ..
  have hposition : p.record.position = toString n ↔ p.upTo = n :=
    ⟨Text.toString_nat_inj, fun h => congrArg toString h⟩
  refine ⟨n, e, ?_, hat, ?_, ?_, fun hfew => ?_⟩
  · rw [hhanded, hcut.getLast?_take hp, hlast]
  · show (p.events.map (·.2)).getLast? = some e
    rw [List.getLast?_map, hlast]
    rfl
  · rw [hposition, hupTo, hlength]
    split
    · next hfull => exact ⟨fun _ => .inl hfull, fun _ => rfl⟩
    · next hnot => exact ⟨fun h => .inr h.symm, fun h => (h.resolve_left hnot).symm⟩
  · rw [hlength] at hfew
    show toString p.upTo = _
    rw [hupTo, if_neg (Nat.ne_of_lt hfew)]

/-- Two events fill a record. There is a line without an event between them, and the position
of the record is the number of the third line, which the second of them came from. -/
theorem position_eq_iff_between :
    let s := Source.ofSettings ⟨"lines", 2, none, none⟩ 0
    let moves : List Move := [.reader, .reader, .reader, .reader]
    let record : Record := ⟨"3", [s.event 1 ['a'], s.event 3 ['b']]⟩
    ((start s [97, 10, 10, 98] 1).entered moves)[0]? = some record ∧
      ∃ n e, s.eventAt [97, 10, 10, 98] n = some e ∧ record.events.getLast? = some e ∧
        record.position = toString n := by
  intro s moves record
  have hentered : ((start s [97, 10, 10, 98] 1).entered moves)[0]? = some record := by
    have hthree : toString 3 = "3" := by decide
    show some (⟨toString 3, _⟩ : Record) = _
    rw [hthree]
    rfl
  obtain ⟨n, e, -, hat, hlast, hposition, -⟩ := position_eq_iff ⟨"lines", 2, none, none⟩ 0
    [97, 10, 10, 98] 1 moves hentered
  exact ⟨hentered, n, e, hat, hlast, hposition.mpr (.inl rfl)⟩

/-- **The position of a record can be the number of a line without an event**: the only event
of a file comes from its first line, an empty line ends the file, and the position of the
record is the number of that one. -/
theorem position_behind_last_event :
    let s := Source.ofSettings ⟨"lines", 2, none, none⟩ 0
    let moves : List Move := [.reader, .reader, .reader, .reader]
    ∃ record n e, (start s [97, 10, 10] 1).entered moves = [record] ∧
      s.numbered [97, 10, 10] = [(n, e)] ∧ record.events = [e] ∧
      record.position ≠ toString n := by
  intro s moves
  have hpositions : toString 2 ≠ toString 1 := by decide
  exact ⟨⟨toString 2, [s.event 1 ['a']]⟩, 1, s.event 1 ['a'], rfl, rfl, rfl, hpositions⟩

end Feed

end Courier
