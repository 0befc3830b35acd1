import Mathlib.Tactic.ByContra
import Mathlib.Data.List.Perm.Basic
import Mathlib.Tactic.Choose
import Courier.Fanout
import Courier.Proofs.Results
/-!
# The order in which deliveries end

The deliveries of a record to several sinks end in some order. Each report
goes into the place of its sink, so that the places say which deliveries have
ended and not in which order (`Fanout.arriveAll_holding`). What the order says
is which of the deliveries that fail has ended first (`Fanout.outcome?_of_failed`).

Reports that are collected as they come, and sorted by the indices of their sinks,
are those in the places (`Fanout.outcome?_eq_gather`).
-/

namespace Courier.Fanout

/-- **What comes of a record** when some of its deliveries have ended: nothing yet while
others are waited for. -/
def outcome? (sinks : List String) (ended : List (Nat × Except Failure Report)) :
    Option (Except Failure (List (String × Report))) :=
  match (start sinks).arriveAll ended with
  | .error f => some (.error f)
  | .ok fanout => fanout.reports?.map .ok

/-! ## Places -/

/-- **All places are filled** when each has a report. -/
theorem filled?_eq_some_iff {slots : List (String × Option Report)} :
    ∀ {reports : List (String × Report)},
      filled? slots = some reports ↔ slots = reports.map fun x => (x.1, some x.2) := by
  induction slots with
  | nil =>
    intro reports
    cases reports with
    | nil => exact ⟨fun _ => rfl, fun _ => rfl⟩
    | cons x reports => exact ⟨(nomatch ·), (nomatch ·)⟩
  | cons slot slots ih =>
    obtain ⟨sink, place⟩ := slot
    intro reports
    cases place with
    | none => cases reports <;> exact ⟨(nomatch ·), (nomatch ·)⟩
    | some report =>
      show (filled? slots).map ((sink, report) :: ·) = some reports ↔ _
      rw [Option.map_eq_some_iff]
      constructor
      · rintro ⟨rest, hrest, rfl⟩
        rw [ih.mp hrest]
        rfl
      · intro h
        cases reports with
        | nil => exact nomatch h
        | cons x reports =>
          obtain ⟨hslot, hrest⟩ := List.cons.inj h
          obtain ⟨rfl, hreport⟩ := Prod.mk.inj hslot
          obtain rfl := Option.some.inj hreport
          exact ⟨reports, ih.mpr hrest, rfl⟩

section

variable (sinks : List String) (results : Nat → Except Failure Report)

/-- **The reports of the deliveries that have ended**, each in the place of its sink. -/
def holding (ended : List Nat) : Fanout :=
  ⟨sinks.mapIdx fun i sink => (sink, if i ∈ ended then (results i).toOption else none)⟩

theorem getElem?_holding (ended : List Nat) (i : Nat) :
    (holding sinks results ended).slots[i]?
      = sinks[i]?.map fun sink => (sink, if i ∈ ended then (results i).toOption else none) :=
  List.getElem?_mapIdx

/-- At the start no delivery has ended. -/
theorem start_eq_holding : start sinks = holding sinks results [] := by
  refine congrArg Fanout.mk (List.ext_getElem? fun i => ?_)
  rw [List.getElem?_map, List.getElem?_mapIdx]
  rfl

variable {sinks results}

/-- **A report goes into its place.** -/
theorem arrive_holding {i : Nat} {report : Report} (h : results i = .ok report)
    (ended : List Nat) :
    (holding sinks results ended).arrive i (results i)
      = .ok (holding sinks results (ended ++ [i])) := by
  rw [h]
  refine congrArg (fun slots => Except.ok (Fanout.mk slots)) (List.ext_getElem? fun j => ?_)
  rw [List.getElem?_modify, getElem?_holding, List.getElem?_mapIdx]
  cases sinks[j]? with
  | none => rfl
  | some sink =>
    by_cases hij : i = j
    · subst hij
      simp [h, Except.toOption]
    · simp [hij, Ne.symm hij]

/-- **Deliveries that end well fill their places**, in whatever order they end. -/
theorem arriveAll_holding {order : List Nat} (h : ∀ i ∈ order, ∃ report, results i = .ok report)
    (rest : List (Nat × Except Failure Report)) : ∀ ended : List Nat,
    (holding sinks results ended).arriveAll (order.map (fun i => (i, results i)) ++ rest)
      = (holding sinks results (ended ++ order)).arriveAll rest := by
  induction order with
  | nil =>
    intro ended
    rw [List.append_nil]
    rfl
  | cons i order ih =>
    intro ended
    obtain ⟨report, hreport⟩ := h i List.mem_cons_self
    rw [List.map_cons, List.cons_append, arriveAll, arrive_holding hreport]
    show (holding sinks results (ended ++ [i])).arriveAll _ = _
    rw [ih fun j hj => h j (List.mem_cons_of_mem i hj), List.append_assoc]
    rfl

/-- **The reports are there** when all deliveries have ended well. -/
theorem reports?_holding {ended : List Nat} (hended : ∀ i < sinks.length, i ∈ ended)
    {report : Nat → Report} (hresults : ∀ i < sinks.length, results i = .ok (report i)) :
    (holding sinks results ended).reports?
      = some (sinks.mapIdx fun i sink => (sink, report i)) := by
  refine filled?_eq_some_iff.mpr (List.ext_getElem? fun i => ?_)
  rw [getElem?_holding, List.getElem?_map, List.getElem?_mapIdx]
  cases hi : sinks[i]? with
  | none => rfl
  | some sink =>
    have hlt : i < sinks.length := (List.getElem?_eq_some_iff.mp hi).1
    simp [hended i hlt, hresults i hlt, Except.toOption]

/-- There are reports when all deliveries have ended, and none with a failure. -/
theorem exists_reports_holding {ended : List Nat} (hended : ∀ i < sinks.length, i ∈ ended)
    (hok : ∀ i ∈ ended, ∃ report, results i = .ok report) :
    ∃ reports, (holding sinks results ended).reports? = some reports := by
  choose! report hreport using hok
  exact ⟨_, reports?_holding hended fun i hi => hreport i (hended i hi)⟩

/-- They are not while one is waited for. -/
theorem reports?_holding_of_notMem {ended : List Nat} {i : Nat} (hi : i < sinks.length)
    (h : i ∉ ended) : (holding sinks results ended).reports? = none := by
  refine Option.eq_none_iff_forall_ne_some.mpr fun reports hreports => ?_
  have hslot := getElem?_holding sinks results ended i
  rw [filled?_eq_some_iff.mp hreports, List.getElem?_map, List.getElem?_eq_getElem hi,
    Option.map_some, if_neg h] at hslot
  obtain ⟨x, -, hx⟩ := Option.map_eq_some_iff.mp hslot
  exact nomatch (Prod.mk.inj hx).2

/-! ## What comes of a record -/

variable (results) in
/-- **Deliveries end in an order**, each with its result. -/
def ending (order : List Nat) : List (Nat × Except Failure Report) :=
  order.map fun i => (i, results i)

/-- Deliveries that have ended well are in their places when others end. -/
theorem outcome?_append {before : List Nat}
    (h : ∀ j ∈ before, ∃ report, results j = .ok report)
    (rest : List (Nat × Except Failure Report)) :
    outcome? sinks (ending results before ++ rest)
      = match (holding sinks results before).arriveAll rest with
        | .error f => some (.error f)
        | .ok fanout => fanout.reports?.map .ok := by
  unfold outcome? ending
  rw [start_eq_holding sinks results, arriveAll_holding h, List.nil_append]

theorem outcome?_ending {before : List Nat}
    (h : ∀ j ∈ before, ∃ report, results j = .ok report) :
    outcome? sinks (ending results before)
      = (holding sinks results before).reports?.map Except.ok := by
  rw [← List.append_nil (ending results before), outcome?_append h]
  rfl

/-- **The first delivery that fails makes the failure of the whole**, and what comes after
it counts for nothing. -/
theorem outcome?_of_failed {before : List Nat}
    (h : ∀ j ∈ before, ∃ report, results j = .ok report) {i : Nat} {f : Failure}
    (hi : results i = .error f) (later : List Nat) :
    outcome? sinks (ending results (before ++ i :: later)) = some (.error f) := by
  have hsplit : ending results (before ++ i :: later)
      = ending results before ++ (i, results i) :: ending results later := List.map_append
  rw [hsplit, outcome?_append h, arriveAll, hi]
  rfl

/-- **Nothing comes of a record** while a delivery is waited for and none has failed. -/
theorem outcome?_of_notMem {before : List Nat}
    (h : ∀ j ∈ before, ∃ report, results j = .ok report) {i : Nat} (hi : i < sinks.length)
    (hnot : i ∉ before) : outcome? sinks (ending results before) = none := by
  rw [outcome?_ending h, reports?_holding_of_notMem hi hnot]
  rfl

/-- **An order either has a delivery that fails**, and then a first one, or none. -/
theorem exists_first_failed (results : Nat → Except Failure Report) (order : List Nat) :
    (∀ i ∈ order, ∃ report, results i = .ok report) ∨
      ∃ before i later f, order = before ++ i :: later ∧
        (∀ j ∈ before, ∃ report, results j = .ok report) ∧ results i = .error f := by
  induction order with
  | nil => exact .inl fun _ h => nomatch h
  | cons i order ih =>
    cases hi : results i with
    | error f => exact .inr ⟨[], i, order, f, rfl, (fun _ h => nomatch h), hi⟩
    | ok report =>
      have hhead : ∀ j, j = i → ∃ report, results j = .ok report := fun j hj => ⟨report, hj ▸ hi⟩
      obtain hall | ⟨before, k, later, f, rfl, hbefore, hk⟩ := ih
      · exact .inl fun j hj => (List.mem_cons.mp hj).elim (hhead j) (hall j)
      · exact .inr ⟨i :: before, k, later, f, rfl,
          fun j hj => (List.mem_cons.mp hj).elim (hhead j) (hbefore j), hk⟩

section Perm

variable {order : List Nat}

theorem mem_order_iff (horder : order.Perm (List.range sinks.length)) (i : Nat) :
    i ∈ order ↔ i < sinks.length :=
  horder.mem_iff.trans List.mem_range

/-- **The reports of deliveries that all end well**, in the order of the configuration. -/
theorem outcome?_of_delivered (horder : order.Perm (List.range sinks.length))
    {report : Nat → Report} (hreport : ∀ i < sinks.length, results i = .ok (report i)) :
    outcome? sinks (ending results order)
      = some (.ok (sinks.mapIdx fun i sink => (sink, report i))) := by
  have hall : ∀ j ∈ order, ∃ report, results j = .ok report :=
    fun j hj => ⟨report j, hreport j ((mem_order_iff horder j).mp hj)⟩
  rw [outcome?_ending hall,
    reports?_holding (fun i hi => (mem_order_iff horder i).mpr hi) hreport]
  rfl

/-- **The failure of deliveries that do not all end well** is the one of the first. -/
theorem outcome?_of_not_delivered (horder : order.Perm (List.range sinks.length))
    (hnot : ¬(∀ i < sinks.length, ∃ report, results i = .ok report)) :
    ∃ before i later f, order = before ++ i :: later ∧
      (∀ j ∈ before, ∃ report, results j = .ok report) ∧ results i = .error f ∧
      outcome? sinks (ending results (before ++ [i])) = some (.error f) ∧
      outcome? sinks (ending results order) = some (.error f) := by
  obtain hall | ⟨before, i, later, f, rfl, hbefore, hi⟩ := exists_first_failed results order
  · exact absurd (fun i hi => hall i ((mem_order_iff horder i).mpr hi)) hnot
  · exact ⟨before, i, later, f, rfl, hbefore, hi, outcome?_of_failed hbefore hi [],
      outcome?_of_failed hbefore hi later⟩

/-- A delivery is waited for as long as some end later. -/
theorem exists_waiting {before later : List Nat}
    (horder : (before ++ later).Perm (List.range sinks.length)) (hlater : later ≠ []) :
    ∃ i < sinks.length, i ∉ before := by
  obtain ⟨i, hi⟩ := List.exists_mem_of_ne_nil later hlater
  have hnodup : (before ++ later).Nodup := horder.nodup_iff.mpr List.nodup_range
  exact ⟨i, (mem_order_iff horder i).mp (List.mem_append_right before hi),
    fun hi' => (List.nodup_append.mp hnodup).2.2 i hi' i hi rfl⟩

end Perm

/-! ## Reports collected as they come -/

section Gather

variable {ended : List (Nat × String × Except Failure Report)} {f : Failure}
  {reports : List (Nat × String × Report)}

/-- **All reports are collected** when each delivery has one. -/
theorem collect_eq_ok_iff :
    ∀ {reports : List (Nat × String × Report)},
      collect ended = .ok reports ↔ ended = reports.map fun x => (x.1, x.2.1, .ok x.2.2) := by
  induction ended with
  | nil =>
    intro reports
    cases reports with
    | nil => exact ⟨fun _ => rfl, fun _ => rfl⟩
    | cons x reports => exact ⟨(nomatch ·), (nomatch ·)⟩
  | cons delivery ended ih =>
    obtain ⟨index, sink, result⟩ := delivery
    intro reports
    cases result with
    | error f => cases reports <;> exact ⟨(nomatch ·), (nomatch ·)⟩
    | ok report =>
      constructor
      · intro h
        obtain ⟨rest, hrest, rfl⟩ := map_eq_ok h
        rw [ih.mp hrest]
        rfl
      · intro h
        cases reports with
        | nil => exact nomatch h
        | cons x reports =>
          obtain ⟨hhead, hrest⟩ := List.cons.inj h
          cases hhead
          show (collect ended).map _ = _
          rw [ih.mpr hrest]
          rfl

/-- **The first failure that is met** ends the whole, whatever was there before. -/
theorem arriveAll_of_collect (h : collect ended = .error f) :
    ∀ fanout : Fanout, fanout.arriveAll (ended.map fun d => (d.1, d.2.2)) = .error f := by
  induction ended with
  | nil => exact nomatch h
  | cons delivery ended ih =>
    obtain ⟨index, sink, result⟩ := delivery
    intro fanout
    cases result with
    | error g =>
      cases h
      rfl
    | ok report =>
      have hrest : (collect ended).map ((index, sink, report) :: ·) = .error f := h
      cases hc : collect ended with
      | error g =>
        rw [hc] at hrest
        cases hrest
        exact ih hc _
      | ok reports =>
        rw [hc] at hrest
        exact nomatch hrest

/-- What is made of the things of a list, by their positions, and then of what was made. -/
theorem map_mapIdx {α β γ : Type} (g : β → γ) (f : Nat → α → β) (xs : List α) :
    (xs.mapIdx f).map g = xs.mapIdx fun i x => g (f i x) := by
  refine List.ext_getElem? fun i => ?_
  rw [List.getElem?_map, List.getElem?_mapIdx, List.getElem?_mapIdx, Option.map_map]
  rfl

/-- **Reports that are sorted** by the indices of their sinks are in the order of the sinks,
in whatever order they came. -/
theorem mergeSort_eq_mapIdx {report : Nat → Report}
    (h : reports.Perm (sinks.mapIdx fun i sink => (i, sink, report i))) :
    (reports.mergeSort fun a b => a.1 ≤ b.1) = sinks.mapIdx fun i sink => (i, sink, report i) := by
  have htrans : ∀ a b c : Nat × String × Report, decide (a.1 ≤ b.1) = true →
      decide (b.1 ≤ c.1) = true → decide (a.1 ≤ c.1) = true := fun a b c hab hbc =>
    decide_eq_true (Nat.le_trans (of_decide_eq_true hab) (of_decide_eq_true hbc))
  have htotal : ∀ a b : Nat × String × Report,
      (decide (a.1 ≤ b.1) || decide (b.1 ≤ a.1)) = true := fun a b => by
    simpa using Nat.le_total a.1 b.1
  have hsorted := List.pairwise_mergeSort htrans htotal reports
  have hindices : (sinks.mapIdx fun i sink => (i, sink, report i)).Pairwise
      fun a b => decide (a.1 ≤ b.1) = true := by
    refine List.pairwise_iff_getElem.mpr fun i j hi hj hij => ?_
    rw [List.getElem_mapIdx, List.getElem_mapIdx]
    exact decide_eq_true (Nat.le_of_lt hij)
  have hperm := (List.mergeSort_perm reports fun a b => decide (a.1 ≤ b.1)).trans h
  refine hperm.eq_of_pairwise (fun a b ha hb hab hba => ?_) hsorted hindices
  -- an index has one report only
  obtain ⟨i, hi, rfl⟩ := List.mem_mapIdx.mp (hperm.subset ha)
  obtain ⟨j, hj, rfl⟩ := List.mem_mapIdx.mp hb
  obtain rfl : i = j := Nat.le_antisymm (of_decide_eq_true hab) (of_decide_eq_true hba)
  rfl

section Complete

variable {sinks : List String} {results : Nat → Except Failure Report}

/-- The indices of deliveries that have all ended. -/
theorem indices_perm (h : ended.Perm (sinks.mapIdx fun i sink => (i, sink, results i))) :
    (ended.map (·.1)).Perm (List.range sinks.length) := by
  have hindices : (sinks.mapIdx fun i sink => (i, sink, results i)).map (·.1)
      = List.range sinks.length := by
    rw [map_mapIdx]
    exact List.ext_getElem (by simp) fun i _ _ => by simp
  exact hindices ▸ h.map (·.1)

/-- When the reports have been collected, every delivery has ended with one. -/
theorem exists_report_of_collect
    (h : ended.Perm (sinks.mapIdx fun i sink => (i, sink, results i)))
    (hc : collect ended = .ok reports) :
    ∀ i < sinks.length, ∃ report, results i = .ok report := by
  intro i hi
  have hin : (i, sinks[i], results i) ∈ ended := h.mem_iff.mpr (List.mem_mapIdx.mpr ⟨i, hi, rfl⟩)
  rw [collect_eq_ok_iff.mp hc] at hin
  obtain ⟨x, -, hx⟩ := List.mem_map.mp hin
  exact ⟨x.2.2, (congrArg (·.2.2) hx).symm⟩

/-- The reports that have been collected are those of the sinks, in some order. -/
theorem perm_of_collect {report : Nat → Report}
    (h : ended.Perm (sinks.mapIdx fun i sink => (i, sink, results i)))
    (hc : collect ended = .ok reports)
    (hreport : ∀ i < sinks.length, results i = .ok (report i)) :
    reports.Perm (sinks.mapIdx fun i sink => (i, sink, report i)) := by
  have hended := collect_eq_ok_iff.mp hc
  have hcollected : (ended.map fun d => (d.1, d.2.1, report d.1)) = reports := by
    rw [hended, List.map_map]
    refine (List.map_congr_left fun x hx => ?_).trans (List.map_id reports)
    have hin : (x.1, x.2.1, Except.ok x.2.2) ∈ ended := hended ▸ List.mem_map.mpr ⟨x, hx, rfl⟩
    obtain ⟨i, hi, hx⟩ := List.mem_mapIdx.mp (h.subset hin)
    have hindex : i = x.1 := congrArg (·.1) hx
    have hresult : results i = .ok x.2.2 := congrArg (·.2.2) hx
    have hsame : report i = x.2.2 := Except.ok.inj ((hreport i hi).symm.trans hresult)
    show (x.1, x.2.1, report x.1) = x
    rw [← hindex, hsame, hindex]
  have hmapped := h.map fun d => (d.1, d.2.1, report d.1)
  rw [map_mapIdx, hcollected] at hmapped
  exact hmapped

/-- **Reports that are collected and sorted are the reports in the places**, and the first
failure is the same: when all deliveries of a record have ended, in whatever order. -/
theorem outcome?_eq_gather (h : ended.Perm (sinks.mapIdx fun i sink => (i, sink, results i))) :
    outcome? sinks (ended.map fun d => (d.1, d.2.2)) = some (gather ended) := by
  unfold gather
  cases hc : collect ended with
  | error f =>
    unfold outcome?
    rw [arriveAll_of_collect hc]
    rfl
  | ok reports =>
    have hending : (ended.map fun d => (d.1, d.2.2)) = ending results (ended.map (·.1)) := by
      unfold ending
      rw [List.map_map]
      refine List.map_congr_left fun d hd => ?_
      obtain ⟨i, -, rfl⟩ := List.mem_mapIdx.mp (h.subset hd)
      rfl
    have hall := exists_report_of_collect h hc
    choose! report hreport using hall
    rw [hending, outcome?_of_delivered (indices_perm h) hreport]
    show _ = some (Except.ok ((reports.mergeSort fun a b => decide (a.1 ≤ b.1)).map (·.2)))
    rw [mergeSort_eq_mapIdx (perm_of_collect h hc hreport), map_mapIdx]

end Complete

end Gather

/-- **What comes of a record whose deliveries end in an order.** -/
structure Settles (sinks : List String) (results : Nat → Except Failure Report)
    (order : List Nat) : Prop where
  /-- It is delivered just when every delivery ends well. -/
  delivered_iff : (∃ reports, outcome? sinks (ending results order) = some (.ok reports)) ↔
    ∀ i < sinks.length, ∃ report, results i = .ok report
  /-- Then there is one report for each sink, in the order of the configuration. -/
  reports_eq : ∀ report : Nat → Report, (∀ i < sinks.length, results i = .ok (report i)) →
    outcome? sinks (ending results order)
      = some (.ok (sinks.mapIdx fun i sink => (sink, report i)))
  /-- Otherwise the first delivery that ends with a failure makes the failure of the whole,
  at once. -/
  failed : ¬(∀ i < sinks.length, ∃ report, results i = .ok report) →
    ∃ before i later f, order = before ++ i :: later ∧
      (∀ j ∈ before, ∃ report, results j = .ok report) ∧ results i = .error f ∧
      outcome? sinks (ending results (before ++ [i])) = some (.error f) ∧
      outcome? sinks (ending results order) = some (.error f)
  /-- As long as none has, and others are waited for, nothing comes of it. -/
  waits : ∀ before later, order = before ++ later → later ≠ [] →
    (∀ j ∈ before, ∃ report, results j = .ok report) →
    outcome? sinks (ending results before) = none

/-- **Every order in which the deliveries of a record end** gives the same reports when all
end well, and otherwise the failure of the first that fails. -/
theorem settles_of_perm (sinks : List String) (results : Nat → Except Failure Report)
    {order : List Nat} (horder : order.Perm (List.range sinks.length)) :
    Settles sinks results order where
  delivered_iff := by
    constructor
    · rintro ⟨reports, hreports⟩
      by_contra hnot
      obtain ⟨-, -, -, f, -, -, -, -, hf⟩ := outcome?_of_not_delivered horder hnot
      exact nomatch Option.some.inj (hreports.symm.trans hf)
    · intro hall
      choose! report hreport using hall
      exact ⟨_, outcome?_of_delivered horder hreport⟩
  reports_eq := fun _ hreport => outcome?_of_delivered horder hreport
  failed := outcome?_of_not_delivered horder
  waits := by
    rintro before later rfl hlater hbefore
    obtain ⟨i, hi, hnot⟩ := exists_waiting horder hlater
    exact outcome?_of_notMem hbefore hi hnot

/-- Three sinks of which the first two fail, and the second does so first. -/
theorem settles_of_perm_failing :
    let results : Nat → Except Failure Report
      | 0 => .error (.cancelled "dispatch")
      | 1 => .error (.throttled "b" "slow down")
      | _ => .ok .empty
    [2, 1, 0].Perm (List.range ["a", "b", "c"].length) ∧
      Settles ["a", "b", "c"] results [2, 1, 0] ∧
      outcome? ["a", "b", "c"] (ending results [2, 1, 0])
        = some (.error (.throttled "b" "slow down")) :=
  ⟨by decide, settles_of_perm _ _ (by decide), rfl⟩

end

end Courier.Fanout
