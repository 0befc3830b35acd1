import Courier.Files.Path
/-!
# The last segment of a path

A path that something is put behind has this as its last segment, whatever the
path is, and its other segments are those of the path. So the path of a file
beside another ends in the name that was asked for.
-/

namespace Courier.Path

/-! ## Pieces between slashes -/

/-- The pieces of a text hold no slash. -/
theorem cut_no_slash (x : List Char) :
    '/' ∉ (cut x).1 ∧ ∀ piece ∈ (cut x).2, '/' ∉ piece := by
  induction x with
  | nil => exact ⟨List.not_mem_nil, fun _ h => absurd h List.not_mem_nil⟩
  | cons c x ih =>
    unfold cut
    by_cases hc : c = '/'
    · show '/' ∉ (if c = '/' then _ else _ : List Char × List (List Char)).1 ∧
        ∀ piece ∈ (if c = '/' then _ else _ : List Char × List (List Char)).2, '/' ∉ piece
      rw [if_pos hc]
      refine ⟨List.not_mem_nil, fun piece h => ?_⟩
      obtain rfl | h := List.mem_cons.mp h
      · exact ih.1
      · exact ih.2 piece h
    · show '/' ∉ (if c = '/' then _ else _ : List Char × List (List Char)).1 ∧
        ∀ piece ∈ (if c = '/' then _ else _ : List Char × List (List Char)).2, '/' ∉ piece
      rw [if_neg hc]
      refine ⟨fun h => ?_, ih.2⟩
      obtain h | h := List.mem_cons.mp h
      · exact hc h.symm
      · exact ih.1 h

/-- A text without a slash is one piece. -/
theorem cut_of_no_slash {y : List Char} (hy : '/' ∉ y) : cut y = (y, []) := by
  induction y with
  | nil => rfl
  | cons c y ih =>
    rw [cut, ih (fun h => hy (List.mem_cons_of_mem c h))]
    exact if_neg (fun h : c = '/' => hy (h ▸ List.mem_cons_self))

/-- **What follows the last slash is the last piece.** -/
theorem cut_append (x : List Char) {y : List Char} (hy : '/' ∉ y) :
    cut (x ++ '/' :: y) = ((cut x).1, (cut x).2 ++ [y]) := by
  induction x with
  | nil =>
    show cut ('/' :: y) = ([], [y])
    rw [cut, cut_of_no_slash hy]
    exact if_pos rfl
  | cons c x ih =>
    rw [List.cons_append, cut, ih, cut]
    by_cases hc : c = '/'
    · simp only [if_pos hc, List.cons_append]
    · simp only [if_neg hc]

/-- A text without pieces is empty. -/
theorem cut_eq_nil_iff {x : List Char} : cut x = ([], []) ↔ x = [] := by
  refine ⟨fun h => ?_, fun h => by rw [h]; rfl⟩
  cases x with
  | nil => rfl
  | cons c x =>
    rw [cut] at h
    by_cases hc : c = '/'
    · simp [hc] at h
    · simp [hc] at h

/-! ## Segments -/

/-- **The beginning and the segments of a path**, by its first piece. -/
theorem parts_eq (path : String) :
    parts path
      = if (cut path.toList).1 = [] then
          if (cut path.toList).2 = [] then (.here, []) else (.root, (cut path.toList).2)
        else if (cut path.toList).1 = ['.'] then (.dot, (cut path.toList).2)
        else (.here, (cut path.toList).1 :: (cut path.toList).2) := by
  unfold parts
  split <;> simp_all

/-- The segments of a path hold no slash. -/
theorem parts_no_slash (path : String) : ∀ segment ∈ (parts path).2, '/' ∉ segment := by
  obtain ⟨hfirst, hrest⟩ := cut_no_slash path.toList
  rw [parts_eq]
  split
  · split
    · exact fun _ h => absurd h List.not_mem_nil
    · exact hrest
  · split
    · exact hrest
    · intro segment hs
      obtain rfl | hs := List.mem_cons.mp hs
      · exact hfirst
      · exact hrest segment hs

/-- **What is put behind a path is its last segment**, and the others are those of
the path. -/
theorem parts_append {x y : List Char} (hx : x ≠ []) (hy : '/' ∉ y) :
    parts (String.ofList (x ++ '/' :: y))
      = ((parts (String.ofList x)).1, (parts (String.ofList x)).2 ++ [y]) := by
  have hsome : (cut x).2 ++ [y] ≠ [] := by simp
  rw [parts_eq, parts_eq, String.toList_ofList, String.toList_ofList, cut_append x hy]
  by_cases hfirst : (cut x).1 = []
  · have hpieces : (cut x).2 ≠ [] := fun h => hx (cut_eq_nil_iff.mp (Prod.ext hfirst h))
    rw [if_pos hfirst, if_neg hsome, if_pos hfirst, if_neg hpieces]
  by_cases hdot : (cut x).1 = ['.']
  · rw [if_neg hfirst, if_pos hdot, if_neg hfirst, if_pos hdot]
  · rw [if_neg hfirst, if_neg hdot, if_neg hfirst, if_neg hdot]
    rfl

/-- What is put behind the root is its only segment. -/
theorem parts_root {y : List Char} (hy : '/' ∉ y) :
    parts (String.ofList ('/' :: y)) = (.root, [y]) := by
  have hcut : cut ('/' :: y) = ([], [y]) := cut_append [] hy
  rw [parts_eq, String.toList_ofList, hcut]
  rfl

theorem parts_name {y : List Char} (hy : '/' ∉ y) (hne : y ≠ []) (hdot : y ≠ ['.']) :
    parts (String.ofList y) = (.here, [y]) := by
  rw [parts_eq, String.toList_ofList, cut_of_no_slash hy, if_neg hne, if_neg hdot]

/-- **A name put behind a path is its last segment.** -/
theorem getLast?_parts_push (x : List Char) {y : List Char} (hy : '/' ∉ y) (hne : y ≠ [])
    (hdot : y ≠ ['.']) : (parts (String.ofList (push x y))).2.getLast? = some y := by
  unfold push
  by_cases hx : x = []
  · rw [if_pos (by simp [hx]), hx, List.nil_append, parts_name hy hne hdot]
    rfl
  by_cases hs : x.getLast? = some '/'
  · rw [if_pos (by simp [hs])]
    obtain ⟨x, rfl⟩ := List.getLast?_eq_some_iff.mp hs
    rw [List.append_assoc]
    show (parts (String.ofList (x ++ '/' :: y))).2.getLast? = some y
    by_cases hx' : x = []
    · rw [hx', List.nil_append, parts_root hy]
      rfl
    · rw [parts_append hx' hy, List.getLast?_concat]
  · rw [if_neg (by simp [hx, hs]), parts_append hx hy, List.getLast?_concat]

end Courier.Path
