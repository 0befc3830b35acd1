import Courier.Proofs.Files.Place
/-!
# A file beside another

The path of a file beside another leads through the directories that the path
of the other leads through, and to a name of its own in the last of them
(`Path.exists_beside`). So whoever follows the one path does not come across
the file that the other leads to, and it does not matter to them what is
written there (`Files.place_put_beside`).
-/

namespace Courier

/-! ## Paths written out -/

namespace Path

/-- **What stands before the first slash is the first piece.** -/
theorem cut_append_of_no_slash {y : List Char} (hy : '/' ∉ y) (x : List Char) :
    cut (y ++ '/' :: x) = (y, (cut x).1 :: (cut x).2) := by
  induction y with
  | nil =>
    show cut ('/' :: x) = _
    rw [cut]
    exact if_pos rfl
  | cons c y ih =>
    rw [List.cons_append, cut, ih fun h => hy (List.mem_cons_of_mem c h)]
    exact if_neg fun h : c = '/' => hy (h ▸ List.mem_cons_self)

/-- **Pieces written with slashes between them are cut there again.** -/
theorem cut_intercalate (rest : List (List Char)) : ∀ {first : List Char},
    '/' ∉ first → (∀ piece ∈ rest, '/' ∉ piece) →
    cut (['/'].intercalate (first :: rest)) = (first, rest) := by
  induction rest with
  | nil =>
    intro first hfirst _
    rw [List.intercalate_singleton, cut_of_no_slash hfirst]
  | cons second rest ih =>
    intro first hfirst hrest
    rw [List.intercalate_cons_cons, List.append_assoc, List.singleton_append,
      cut_append_of_no_slash hfirst,
      ih (hrest second List.mem_cons_self)
        fun piece h => hrest piece (List.mem_cons_of_mem second h)]

/-- **The first segments of a path, written out**, have its beginning. -/
theorem parts_render {path : String} {segments : List (List Char)}
    (hfirsts : segments <+: (parts path).2) (hne : segments ≠ []) :
    parts (String.ofList (render (parts path).1 segments)) = ((parts path).1, segments) := by
  obtain ⟨first, rest, rfl⟩ := List.exists_cons_of_ne_nil hne
  have hslash : ∀ piece ∈ first :: rest, '/' ∉ piece :=
    fun piece h => parts_no_slash path piece (hfirsts.subset h)
  have hcut : cut (['/'].intercalate (first :: rest)) = (first, rest) :=
    cut_intercalate rest (hslash first List.mem_cons_self)
      fun piece h => hslash piece (List.mem_cons_of_mem first h)
  rw [parts_eq path] at hfirsts ⊢
  by_cases hfirst : (cut path.toList).1 = []
  · by_cases hpieces : (cut path.toList).2 = []
    · rw [if_pos hfirst, if_pos hpieces] at hfirsts
      exact absurd (List.prefix_nil.mp hfirsts) hne
    · rw [if_pos hfirst, if_neg hpieces]
      have hrender : render .root (first :: rest)
          = [] ++ '/' :: ['/'].intercalate (first :: rest) := rfl
      rw [hrender, parts_eq, String.toList_ofList, cut_append_of_no_slash List.not_mem_nil, hcut,
        if_pos rfl, if_neg (List.cons_ne_nil first rest)]
  · rw [if_neg hfirst] at hfirsts ⊢
    by_cases hdot : (cut path.toList).1 = ['.']
    · rw [if_pos hdot]
      have hrender : render .dot (first :: rest)
          = ['.'] ++ '/' :: ['/'].intercalate (first :: rest) := rfl
      rw [hrender, parts_eq, String.toList_ofList, cut_append_of_no_slash (by decide), hcut,
        if_neg (List.cons_ne_nil '.' []), if_pos rfl]
    · rw [if_neg hdot] at hfirsts ⊢
      obtain ⟨rfl, -⟩ := List.cons_prefix_cons.mp hfirsts
      have hrender : render .here ((cut path.toList).1 :: rest)
          = ['/'].intercalate ((cut path.toList).1 :: rest) := rfl
      rw [hrender, parts_eq, String.toList_ofList, hcut, if_neg hfirst, if_neg hdot]

/-- **What is put behind a path** follows its segments, but for one at the end that leads
nowhere. -/
theorem exists_parts_push {x y : List Char} (hx : x ≠ []) (hy : '/' ∉ y) :
    ∃ segments idle, (parts (String.ofList x)).2 = segments ++ idle ∧
      (∀ segment ∈ idle, isIdle segment = true) ∧
      parts (String.ofList (push x y)) = ((parts (String.ofList x)).1, segments ++ [y]) := by
  unfold push
  by_cases hs : x.getLast? = some '/'
  · rw [if_pos (by simp [hs])]
    have hidle : ∀ segment ∈ [([] : List Char)], isIdle segment = true := by decide
    obtain ⟨x, rfl⟩ := List.getLast?_eq_some_iff.mp hs
    rw [List.append_assoc]
    show ∃ segments idle, _ ∧ _ ∧ parts (String.ofList (x ++ '/' :: y)) = _
    by_cases hx' : x = []
    · rw [hx', List.nil_append, List.nil_append, parts_root hy, parts_root List.not_mem_nil]
      exact ⟨[], [[]], rfl, hidle, rfl⟩
    · rw [parts_append hx' hy, parts_append hx' List.not_mem_nil]
      exact ⟨_, [[]], rfl, hidle, rfl⟩
  · rw [if_neg (by simp [hx, hs]), parts_append hx hy]
    exact ⟨_, [], (List.append_nil _).symm, (fun _ h => nomatch h), rfl⟩

/-- What is put behind the beginning of a path is its only segment. -/
theorem parts_push_render_nil (start : Start) {y : List Char} (hy : '/' ∉ y) (hnil : y ≠ [])
    (hdot : y ≠ ['.']) : parts (String.ofList (push (render start []) y)) = (start, [y]) := by
  cases start with
  | root => exact parts_root hy
  | here => exact parts_name hy hnil hdot
  | dot => exact parts_append (x := ['.']) (List.cons_ne_nil '.' []) hy

/-- What is put behind the first segments of a path follows them, but for some at the end
that lead nowhere. -/
theorem exists_parts_push_render {path : String} {segments : List (List Char)} {y : List Char}
    (hfirsts : segments <+: (parts path).2) (hy : '/' ∉ y) (hnil : y ≠ []) (hdot : y ≠ ['.']) :
    ∃ before idle, segments = before ++ idle ∧ (∀ segment ∈ idle, isIdle segment = true) ∧
      parts (String.ofList (push (render (parts path).1 segments) y))
        = ((parts path).1, before ++ [y]) := by
  by_cases hne : segments = []
  · rw [hne]
    exact ⟨[], [], rfl, (fun _ h => nomatch h), parts_push_render_nil _ hy hnil hdot⟩
  · have hparts := parts_render hfirsts hne
    have hx : render (parts path).1 segments ≠ [] := by
      intro hx
      rw [hx] at hparts
      exact hne (Prod.mk.inj hparts).2.symm
    obtain ⟨before, idle, hsplit, hidle, hpush⟩ := exists_parts_push hx hy
    rw [hparts] at hsplit hpush
    exact ⟨before, idle, hsplit, hidle, hpush⟩

/-- What is left out of segments at their end leads nowhere. -/
theorem exists_trimmed_append (segments : List (List Char)) :
    ∃ idle, segments = trimmed segments ++ idle ∧ ∀ segment ∈ idle, isIdle segment = true := by
  refine ⟨(segments.reverse.takeWhile isIdle).reverse, ?_,
    fun s hs => List.all_eq_true.mp List.all_takeWhile s (List.mem_reverse.mp hs)⟩
  unfold trimmed
  rw [← List.reverse_append, List.takeWhile_append_dropWhile, List.reverse_reverse]

/-- The name of the file that a path leads to is the last of its segments that lead
anywhere. -/
theorem getLast?_of_fileName? {path : String} {name : List Char}
    (h : fileName? path = some name) : (trimmed (parts path).2).getLast? = some name := by
  unfold fileName? at h
  split at h
  · next last hlast =>
    split at h
    · cases h
    · rw [hlast, h]
  · cases h

/-- **The path of a file beside another** leads through the directories that the path of
the other leads through, and to the name of the file. Then the path of the other goes on
by its own name and no further; or it leads to no file, and then it does not go on. -/
theorem exists_beside {path : String} {name : List Char} (hpath : path ≠ "")
    (hslash : '/' ∉ name) (hnil : name ≠ []) (hdot : name ≠ ['.']) :
    ∃ segments idle more, (parts path).2 = segments ++ idle ++ more ∧
      parts (beside path name) = ((parts path).1, segments ++ [name]) ∧
      (∀ segment ∈ idle, isIdle segment = true) ∧
      (more = [] ∧ fileName? path = none ∨
        ∃ last rest, more = last :: rest ∧ fileName? path = some last ∧
          ∀ segment ∈ rest, isIdle segment = true) := by
  have hx : path.toList ≠ [] := fun h => hpath (String.toList_eq_nil_iff.mp h)
  unfold beside
  cases hname : fileName? path with
  | none =>
    obtain ⟨segments, idle, hparts, hidle, hpush⟩ := exists_parts_push hx hslash
    rw [String.ofList_toList] at hparts hpush
    exact ⟨segments, idle, [], by rw [hparts, List.append_nil], hpush, hidle, .inl ⟨rfl, rfl⟩⟩
  | some last =>
    -- the path goes through `before` and then to its last name
    obtain ⟨before, hbefore⟩ := List.getLast?_eq_some_iff.mp (getLast?_of_fileName? hname)
    obtain ⟨rest, hrest, hidle⟩ := exists_trimmed_append (parts path).2
    obtain ⟨idle, hbefore', hidle'⟩ := exists_trimmed_append before
    have hparts : (parts path).2 = trimmed before ++ (idle ++ last :: rest) :=
      calc (parts path).2 = trimmed (parts path).2 ++ rest := hrest
        _ = before ++ [last] ++ rest := by rw [hbefore]
        _ = trimmed before ++ idle ++ [last] ++ rest := by rw [← hbefore']
        _ = trimmed before ++ (idle ++ last :: rest) := by simp
    obtain ⟨segments, more, hsplit, hmore, hpush⟩ :=
      exists_parts_push_render ⟨_, hparts.symm⟩ hslash hnil hdot
    refine ⟨segments, more ++ idle, last :: rest, ?_, ?_, ?_, .inr ⟨last, rest, rfl, rfl, hidle⟩⟩
    · rw [hparts, hsplit]
      simp
    · show parts (String.ofList (push (render (parts path).1
        (trimmed (trimmed (parts path).2).dropLast)) name)) = _
      rw [hbefore, List.dropLast_concat]
      exact hpush
    · intro segment hs
      obtain hs | hs := List.mem_append.mp hs
      · exact hmore segment hs
      · exact hidle' segment hs

end Path

/-! ## Following a path past a file beside it -/

namespace Files

variable {f f' : Files}

/-- **Following segments is the same** where the places that one goes on from are. -/
theorem foldlM_follow_congr (segments : List (List Char)) : ∀ {p : Place},
    (∀ before after q, segments = before ++ after → after ≠ [] →
      before.foldlM f.follow p = .ok q → f'.node? q = f.node? q) →
    segments.foldlM f'.follow p = segments.foldlM f.follow p := by
  induction segments with
  | nil => exact fun _ => rfl
  | cons segment segments ih =>
    intro p h
    have hnode : f'.node? p = f.node? p := h [] _ p rfl (List.cons_ne_nil segment segments) rfl
    have hfollow : f'.follow p segment = f.follow p segment := by
      unfold follow
      rw [hnode]
    rw [List.foldlM_cons, List.foldlM_cons, hfollow]
    cases hs : f.follow p segment with
    | error e => rfl
    | ok q =>
      refine ih fun before after r hsplit hafter hr => ?_
      refine h (segment :: before) after r (congrArg (segment :: ·) hsplit) hafter ?_
      rw [List.foldlM_cons, hs]
      exact hr

/-- Segments followed in two parts. -/
theorem foldlM_follow_append {before after : List (List Char)} {p r : Place} :
    (before ++ after).foldlM f.follow p = .ok r ↔
      ∃ q, before.foldlM f.follow p = .ok q ∧ after.foldlM f.follow q = .ok r := by
  rw [List.foldlM_append]
  cases before.foldlM f.follow p with
  | error e => exact ⟨(nomatch ·), fun ⟨_, h, _⟩ => nomatch h⟩
  | ok q => exact ⟨fun h => ⟨q, rfl, h⟩, fun ⟨_, h, h'⟩ => Except.ok.inj h ▸ h'⟩

/-- Segments that lead nowhere stay in a directory. -/
theorem foldlM_follow_idle {p : Place} (hp : f.node? p = some .directory)
    (idle : List (List Char)) (h : ∀ segment ∈ idle, Path.isIdle segment = true) :
    idle.foldlM f.follow p = .ok p := by
  induction idle with
  | nil => rfl
  | cons segment idle ih =>
    have hfollow : f.follow p segment = .ok p := by
      unfold follow
      rw [hp]
      exact if_pos (h segment List.mem_cons_self)
    rw [List.foldlM_cons, hfollow]
    exact ih fun s hs => h s (List.mem_cons_of_mem segment hs)

/-- **On the way to a directory there are directories.** -/
theorem directory_of_foldlM_follow {before after : List (List Char)} {p q r : Place}
    (hq : before.foldlM f.follow p = .ok q) (hr : (before ++ after).foldlM f.follow p = .ok r)
    (hdir : f.node? r = some .directory) : f.node? q = some .directory := by
  obtain ⟨q', hq', hr⟩ := foldlM_follow_append.mp hr
  obtain rfl : q = q' := Except.ok.inj (hq.symm.trans hq')
  cases after with
  | nil =>
    obtain rfl : q = r := Except.ok.inj hr
    exact hdir
  | cons segment after =>
    rw [List.foldlM_cons] at hr
    cases hs : f.follow q segment with
    | error e =>
      rw [hs] at hr
      exact nomatch hr
    | ok r' => exact (follow_ok hs).1

/-- A path that leads somewhere is followed there. -/
theorem foldlM_of_place {path : String} {p : Place} (h : f.place path = .ok p) :
    (Path.parts path).2.foldlM f.follow (f.start (Path.parts path).1) = .ok p := by
  unfold place at h
  split at h
  · exact nomatch h
  · split at h
    · exact nomatch h
    · exact h

/-- A path leads to the same place when it is followed in the same way. -/
theorem place_congr {path : String} (hhere : f'.here = f.here)
    (h : (Path.parts path).2.foldlM f'.follow (f.start (Path.parts path).1)
      = (Path.parts path).2.foldlM f.follow (f.start (Path.parts path).1)) :
    f'.place path = f.place path := by
  have hstart : f'.start (Path.parts path).1 = f.start (Path.parts path).1 := by
    unfold start
    rw [hhere]
  unfold place
  split
  · rfl
  · split
    · rfl
    · show (Path.parts path).2.foldlM f'.follow (f'.start (Path.parts path).1) = _
      rw [hstart]
      exact h

/-- A step from a place does not lead to another name in it. -/
theorem stepTo_ne {p : Place} {segment name : List Char} (h : segment ≠ name) :
    stepTo p segment ≠ String.ofList name :: p := by
  unfold stepTo
  split
  · exact fun hp => List.cons_ne_self _ _ hp.symm
  · split
    · intro hp
      have hlen := congrArg List.length hp
      rw [List.length_tail, List.length_cons] at hlen
      omega
    · exact fun hp => h (String.ofList_injective (List.cons.inj hp).1)

/-- **A file that is written beside another** does not change where the path of the other
leads, nor how it fails to lead anywhere. -/
theorem place_put_beside {path : String} {name : List Char} {d : Place}
    (hslash : '/' ∉ name) (hidle : Path.isIdle name = false) (hback : Path.isBack name = false)
    (hlast : Path.fileName? path ≠ some name) (hd : f.place (Path.beside path name) = .ok d)
    (hdir : f.node? d ≠ some .directory) (bytes : List UInt8) :
    (f.put d (.file bytes)).place path = f.place path := by
  by_cases hpath : path = ""
  · rw [hpath]
    rfl
  obtain ⟨segments, idle, more, hparts, hbeside, hidles, hmore⟩ :=
    Path.exists_beside hpath hslash (fun h => by rw [h] at hidle; cases hidle)
      (fun h => by rw [h] at hidle; cases hidle)
  have hfollow := foldlM_of_place hd
  rw [hbeside] at hfollow
  obtain ⟨parent, hsegments, hname⟩ := foldlM_follow_append.mp hfollow
  obtain ⟨hparent, hplace⟩ :
      f.node? parent = some .directory ∧ d = String.ofList name :: parent := by
    cases hs : f.follow parent name with
    | error e =>
      rw [List.foldlM_cons, hs] at hname
      exact nomatch hname
    | ok r =>
      rw [List.foldlM_cons, hs] at hname
      obtain rfl : r = d := Except.ok.inj hname
      obtain ⟨hdirectory, hstep, -⟩ := follow_ok hs
      exact ⟨hdirectory, hstep.trans (stepTo_name parent hidle hback)⟩
  have hlead : (segments ++ idle).foldlM f.follow (f.start (Path.parts path).1) = .ok parent :=
    foldlM_follow_append.mpr ⟨parent, hsegments, foldlM_follow_idle hparent idle hidles⟩
  refine place_congr rfl (foldlM_follow_congr _ fun before after q hsplit hafter hq =>
    node?_put_of_ne f _ ?_)
  rintro rfl
  rw [hparts] at hsplit
  obtain ⟨as, rfl, has⟩ | ⟨bs, hbs, -⟩ := List.append_eq_append_iff.mp hsplit
  · obtain ⟨r, hr, hq⟩ := foldlM_follow_append.mp hq
    obtain rfl : r = parent := Except.ok.inj (hr.symm.trans hlead)
    cases as with
    | nil =>
      obtain rfl : r = q := Except.ok.inj hq
      exact hdir hparent
    | cons segment as =>
      -- the path has gone on by its last name, which is another one
      obtain ⟨hnil, -⟩ | ⟨last, rest, hrest, hfile, hidle'⟩ := hmore
      · exact nomatch hnil.symm.trans has
      obtain ⟨rfl, rfl⟩ := List.cons.inj (hrest.symm.trans has)
      have hq' := (foldlM_follow_ok _ hq).1
      rw [List.foldl_cons, foldl_stepTo_idle as _ fun s hs =>
        hidle' s (List.mem_append_left after hs)] at hq'
      have hother : last ≠ name := fun h => hlast (hfile.trans (congrArg some h))
      exact stepTo_ne hother (hq'.symm.trans hplace)
  · rw [hbs] at hlead
    exact hdir (directory_of_foldlM_follow hq hlead hparent)

end Files

end Courier
