import Courier.Files.Basic
import Courier.Proofs.Files.Path
/-!
# Where paths lead

A path is followed through directories, so where it leads depends on which
places are directories and on nothing else. Writing a file, taking one away and
moving one leave the directories as they are: after each of them every path
leads to where it has led before. What is at the place of the file is what was
put there, and what is at any other place is what has been there.
-/

namespace Courier.Files

/-! ## What is at a place -/

/-- Other bindings do not matter. -/
theorem lookup_filter_ne (nodes : List (Place × Node)) {p q : Place} (h : q ≠ p) :
    (nodes.filter (·.1 ≠ p)).lookup q = nodes.lookup q := by
  induction nodes with
  | nil => rfl
  | cons x nodes ih =>
    obtain ⟨r, n⟩ := x
    by_cases hr : r = p
    · have hq : (q == r) = false := by
        rw [hr]
        exact beq_eq_false_iff_ne.mpr h
      rw [List.filter_cons_of_neg (by simp [hr]), ih, List.lookup_cons, hq]
    · rw [List.filter_cons_of_pos (by simp [hr]), List.lookup_cons, List.lookup_cons, ih]

/-- **What was put at a place is there.** The root stays what it is. -/
theorem node?_put_self (f : Files) {p : Place} (n : Node) (h : p ≠ []) :
    (f.put p n).node? p = some n := by
  show (if p = [] then _ else ((p, n) :: f.nodes.filter (·.1 ≠ p)).lookup p) = _
  rw [if_neg h, List.lookup_cons_self]

/-- **What is at other places stays there** when something is put at one. -/
theorem node?_put_of_ne (f : Files) {p q : Place} (n : Node) (h : q ≠ p) :
    (f.put p n).node? q = f.node? q := by
  show (if q = [] then _ else ((p, n) :: f.nodes.filter (·.1 ≠ p)).lookup q) = _
  have hq : (q == p) = false := beq_eq_false_iff_ne.mpr h
  rw [List.lookup_cons, hq]
  show (if q = [] then _ else (f.nodes.filter (·.1 ≠ p)).lookup q) = _
  rw [lookup_filter_ne f.nodes h]
  rfl

/-- What is at other places stays there when one is emptied. -/
theorem node?_erase_of_ne (f : Files) {p q : Place} (h : q ≠ p) :
    (f.erase p).node? q = f.node? q := by
  show (if q = [] then _ else (f.nodes.filter (·.1 ≠ p)).lookup q) = _
  rw [lookup_filter_ne f.nodes h]
  rfl

/-- The root is a directory. -/
theorem ne_root {f : Files} {p : Place} (h : f.node? p ≠ some .directory) : p ≠ [] := by
  intro hp
  rw [hp] at h
  exact h rfl

/-! ## Following a path -/

/-- **The step that a segment makes**, whatever there is. -/
def stepTo (p : Place) (segment : List Char) : Place :=
  if Path.isIdle segment then p
  else if Path.isBack segment then p.tail
  else String.ofList segment :: p

/-- **A segment that can be followed** starts from a directory and makes its step,
and can be followed wherever this is a directory. -/
theorem follow_ok {f : Files} {p q : Place} {segment : List Char}
    (h : f.follow p segment = .ok q) :
    f.node? p = some .directory ∧ q = stepTo p segment ∧
      ∀ f' : Files, f'.node? p = some .directory → f'.follow p segment = .ok q := by
  unfold follow at h
  split at h
  · cases h
  · cases h
  · next hd =>
    refine ⟨hd, ?_, fun f' hd' => ?_⟩
    · unfold stepTo
      split at h
      · next hi => rw [if_pos hi, Except.ok.inj h]
      · next hi =>
        rw [if_neg hi]
        split at h
        · next hb => rw [if_pos hb, Except.ok.inj h]
        · next hb =>
          rw [if_neg hb]
          dsimp only at h
          split at h
          · cases h
          · exact (Except.ok.inj h).symm
    · unfold follow
      rw [hd']
      exact h

/-- **Segments that can be followed** lead where their steps lead, and do so
wherever the same places are directories. -/
theorem foldlM_follow_ok {f : Files} (segments : List (List Char)) : ∀ {p q : Place},
    segments.foldlM f.follow p = .ok q →
    q = segments.foldl stepTo p ∧
      ∀ f' : Files, (∀ r, f.node? r = some .directory → f'.node? r = some .directory) →
        segments.foldlM f'.follow p = .ok q := by
  induction segments with
  | nil =>
    intro p q h
    exact ⟨(Except.ok.inj h).symm, fun _ _ => h⟩
  | cons segment segments ih =>
    intro p q h
    rw [List.foldlM_cons] at h
    cases hs : f.follow p segment with
    | error e =>
      rw [hs] at h
      cases h
    | ok r =>
      rw [hs] at h
      obtain ⟨hd, hr, hf⟩ := follow_ok hs
      obtain ⟨hq, hrest⟩ := ih h
      refine ⟨by rw [List.foldl_cons, ← hr, hq], fun f' hdir => ?_⟩
      rw [List.foldlM_cons, hf f' (hdir p hd)]
      exact hrest f' hdir

/-- **Where a path leads** is where its segments lead from its beginning, and it
leads there wherever the same places are directories. -/
theorem place_ok {f : Files} {path : String} {p : Place} (h : f.place path = .ok p) :
    path ≠ "" ∧
      p = (Path.parts path).2.foldl stepTo (f.start (Path.parts path).1) ∧
      ∀ f' : Files, f'.here = f.here →
        (∀ r, f.node? r = some .directory → f'.node? r = some .directory) →
        f'.place path = .ok p := by
  unfold place at h
  split at h
  · cases h
  · next hnul =>
    split at h
    · cases h
    · next hne =>
      obtain ⟨hp, hf⟩ := foldlM_follow_ok _ h
      refine ⟨hne, hp, fun f' hhere hdir => ?_⟩
      have hstart : f'.start (Path.parts path).1 = f.start (Path.parts path).1 := by
        unfold start
        rw [hhere]
      unfold place
      rw [if_neg hnul, if_neg hne]
      show (Path.parts path).2.foldlM f'.follow (f'.start (Path.parts path).1) = _
      rw [hstart]
      exact hf f' hdir

/-! ## The last step of a path -/

/-- Segments that lead nowhere make no step. -/
theorem foldl_stepTo_idle (segments : List (List Char)) (p : Place)
    (h : ∀ segment ∈ segments, Path.isIdle segment = true) :
    segments.foldl stepTo p = p := by
  induction segments with
  | nil => rfl
  | cons segment segments ih =>
    have hstep : stepTo p segment = p := if_pos (h segment List.mem_cons_self)
    rw [List.foldl_cons, hstep]
    exact ih fun s hs => h s (List.mem_cons_of_mem segment hs)

/-- The segments at the end that lead nowhere can be left out. -/
theorem foldl_stepTo_trimmed (segments : List (List Char)) (p : Place) :
    (Path.trimmed segments).foldl stepTo p = segments.foldl stepTo p := by
  have hsplit : segments = Path.trimmed segments
      ++ (segments.reverse.takeWhile Path.isIdle).reverse := by
    unfold Path.trimmed
    rw [← List.reverse_append, List.takeWhile_append_dropWhile, List.reverse_reverse]
  have hidle := foldl_stepTo_idle (segments.reverse.takeWhile Path.isIdle).reverse
    ((Path.trimmed segments).foldl stepTo p)
    fun s hs => List.all_eq_true.mp List.all_takeWhile s (List.mem_reverse.mp hs)
  rw [← List.foldl_append, ← hsplit] at hidle
  exact hidle.symm

/-- A segment that stands for a name makes the step to it. -/
theorem stepTo_name (p : Place) {name : List Char} (hidle : Path.isIdle name = false)
    (hback : Path.isBack name = false) : stepTo p name = String.ofList name :: p := by
  unfold stepTo
  rw [hidle, hback]
  rfl

/-- **A name is the innermost one of where it leads.** -/
theorem head?_foldl_stepTo {segments : List (List Char)} {name : List Char} (p : Place)
    (h : segments.getLast? = some name) (hidle : Path.isIdle name = false)
    (hback : Path.isBack name = false) :
    (segments.foldl stepTo p).head? = some (String.ofList name) := by
  obtain ⟨before, rfl⟩ := List.getLast?_eq_some_iff.mp h
  rw [List.foldl_append]
  show (stepTo _ name).head? = _
  rw [stepTo_name _ hidle hback]
  rfl

/-- **What is put behind a path** leads one step on from where the path leads. -/
theorem foldl_stepTo_push (f : Files) {x y : List Char} (hx : x ≠ []) (hy : '/' ∉ y) :
    (Path.parts (String.ofList (Path.push x y))).2.foldl stepTo
        (f.start (Path.parts (String.ofList (Path.push x y))).1)
      = stepTo ((Path.parts (String.ofList x)).2.foldl stepTo
          (f.start (Path.parts (String.ofList x)).1)) y := by
  have hempty : ∀ p, stepTo p [] = p := fun _ => rfl
  unfold Path.push
  by_cases hs : x.getLast? = some '/'
  · rw [if_pos (by simp [hs])]
    obtain ⟨x, rfl⟩ := List.getLast?_eq_some_iff.mp hs
    rw [List.append_assoc]
    show (Path.parts (String.ofList (x ++ '/' :: y))).2.foldl stepTo
      (f.start (Path.parts (String.ofList (x ++ '/' :: y))).1) = _
    by_cases hx' : x = []
    · rw [hx', List.nil_append, List.nil_append, Path.parts_root hy,
        Path.parts_root List.not_mem_nil]
      exact congrArg (fun p => stepTo p y) (hempty _).symm
    · rw [Path.parts_append hx' hy, Path.parts_append hx' List.not_mem_nil, List.foldl_append,
        List.foldl_append]
      exact congrArg (fun p => stepTo p y) (hempty _).symm
  · rw [if_neg (by simp [hx, hs]), Path.parts_append hx hy, List.foldl_append]
    rfl

/-! ## Writing and moving -/

/-- **Files with the same directories**, seen from the same place. -/
structure SameDirectories (f f' : Files) : Prop where
  /-- They are seen from the same place. -/
  here : f'.here = f.here
  /-- They have the same directories. -/
  directory : ∀ p, f'.node? p = some .directory ↔ f.node? p = some .directory

namespace SameDirectories

variable {f f' f'' : Files}

theorem place_iff (h : SameDirectories f f') (path : String) (p : Place) :
    f'.place path = .ok p ↔ f.place path = .ok p :=
  ⟨fun h' => (place_ok h').2.2 f h.here.symm fun r => (h.directory r).mp,
    fun h' => (place_ok h').2.2 f' h.here fun r => (h.directory r).mpr⟩

theorem trans (h : SameDirectories f f') (h' : SameDirectories f' f'') :
    SameDirectories f f'' :=
  ⟨h'.here.trans h.here, fun p => (h'.directory p).trans (h.directory p)⟩

/-- A file put where there is no directory. -/
theorem put {p : Place} (hp : f.node? p ≠ some .directory) (bytes : List UInt8) :
    SameDirectories f (f.put p (.file bytes)) := by
  refine ⟨rfl, fun q => ?_⟩
  by_cases hq : q = p
  · rw [hq, node?_put_self f _ (ne_root hp)]
    exact iff_of_false (by simp) hp
  · rw [node?_put_of_ne f _ hq]

/-- A place emptied where there is no directory. -/
theorem erase {p : Place} (hp : f.node? p ≠ some .directory) : SameDirectories f (f.erase p) := by
  refine ⟨rfl, fun q => ?_⟩
  by_cases hq : q = p
  · have hnone : (f.erase p).node? p = none := by
      show (if p = [] then _ else (f.nodes.filter (·.1 ≠ p)).lookup p) = _
      rw [if_neg (ne_root hp), List.lookup_eq_none_iff]
      intro x hx
      exact bne_iff_ne.mpr fun h => absurd h.symm (by simpa using (List.mem_filter.mp hx).2)
    rw [hq, hnone]
    exact iff_of_false (by simp) hp
  · rw [node?_erase_of_ne f hq]

end SameDirectories

/-- **What writing a file does**, when it can be done. -/
theorem write_ok {f f' : Files} {path : String} {bytes : List UInt8}
    (h : f.write path bytes = .ok f') :
    ∃ p, f.place path = .ok p ∧ f.node? p ≠ some .directory ∧ f' = f.put p (.file bytes) := by
  unfold write at h
  cases hp : f.place path with
  | error e =>
    rw [hp] at h
    cases h
  | ok p =>
    rw [hp] at h
    refine ⟨p, rfl, ?_⟩
    cases hn : f.node? p with
    | none =>
      simp only [bind, Except.bind, hn] at h
      exact ⟨by simp, (Except.ok.inj h).symm⟩
    | some n =>
      cases n with
      | directory =>
        simp only [bind, Except.bind, hn] at h
        cases h
      | file old =>
        simp only [bind, Except.bind, hn] at h
        exact ⟨by simp, (Except.ok.inj h).symm⟩

/-- The text of a path that does not end in a slash is what is left without the
slashes at its end. -/
theorem stripped_of_not_endsInSlash {path : String} (h : endsInSlash path = false) :
    String.ofList (path.toList.reverse.dropWhile (· = '/')).reverse = path := by
  have hlast : path.toList.reverse.head? ≠ some '/' := by
    rw [List.head?_reverse]
    exact of_decide_eq_false h
  have hdrop : path.toList.reverse.dropWhile (· = '/') = path.toList.reverse := by
    cases hr : path.toList.reverse with
    | nil => rfl
    | cons c rest =>
      rw [hr, List.head?_cons] at hlast
      exact List.dropWhile_cons_of_neg (by simpa using hlast)
  rw [hdrop, List.reverse_reverse, String.ofList_toList]

/-- **What moving a file does**, when it can be done: the path leads to no
directory, and the file is there instead of where it has been. -/
theorem rename_ok {f f' : Files} {source path : String} (h : f.rename source path = .ok f') :
    ∃ s t bytes, f.place source = .ok s ∧ f.place path = .ok t ∧
      f.node? s = some (.file bytes) ∧ f.node? t ≠ some .directory ∧
      f' = (f.erase s).put t (.file bytes) := by
  unfold rename at h
  cases hs : f.place source with
  | error e =>
    rw [hs] at h
    cases h
  | ok s =>
    cases ht : f.target path with
    | error e =>
      rw [hs, ht] at h
      cases h
    | ok t =>
      simp only [hs, ht, bind, Except.bind] at h
      split at h
      · cases h
      · cases h
      · next bytes hbytes =>
        split at h
        · cases h
        · next hslash =>
          -- the path does not end in a slash, so nothing is taken off it
          have htarget : f.place path = .ok t := by
            unfold target at ht
            rw [stripped_of_not_endsInSlash (by simpa using hslash)] at ht
            cases hp : f.place path with
            | error e =>
              rw [hp] at ht
              cases ht
            | ok p =>
              simp only [hp, bind, Except.bind] at ht
              split at ht
              · cases ht
              · split at ht
                · cases ht
                · exact ht
          split at h
          · cases h
          · next hdir =>
            exact ⟨s, t, bytes, rfl, htarget, hbytes, hdir, (Except.ok.inj h).symm⟩

/-- What a path leads to is read when it is a file. -/
theorem read_eq_ok_iff {f : Files} {path : String} {bytes : List UInt8} :
    f.read path = .ok bytes ↔ ∃ p, f.place path = .ok p ∧ f.node? p = some (.file bytes) := by
  unfold read open?
  cases hp : f.place path with
  | error e => simp [bind, Except.bind]
  | ok p =>
    cases hn : f.node? p with
    | none => simp [bind, Except.bind, hn]
    | some n => cases n <;> simp [bind, Except.bind, hn, contents]

end Courier.Files
