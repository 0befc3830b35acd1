import Courier.Proofs.Url.Origin
/-!
# What stands behind the host of a URL is read as it was written

A path that was read consists of segments of which none stands for another one: those that
did were resolved, a backslash became a slash, and what is encoded was encoded. Such
segments are read as themselves when they are written (`parsePath_pathOf`), and so are a
query and a fragment that were read (`KeepsTail.parseTail`). With what stands before the
path, a URL of the web is thus read as itself from its own text (`Keeps.parse_render`).
-/

namespace Courier.Url

/-! ## Segments -/

/-- **A segment that is read as itself.** -/
structure IsSegment (s : List Char) : Prop where
  /-- None of its characters is encoded. -/
  left : ∀ c ∈ s, c.toNat < 0x80 ∧ inPath c = false
  /-- It holds no slash, and nothing that is as good. -/
  whole : ∀ c ∈ s, isSlash .web c = false
  /-- It does not stand for the one above. -/
  not_above : isAbove s = false
  /-- It does not stand for the one it is in. -/
  not_here : isHere s = false

/-- An empty segment is read as itself. -/
theorem isSegment_nil : IsSegment [] where
  left _ h := absurd h List.not_mem_nil
  whole _ h := absurd h List.not_mem_nil
  not_above := by decide
  not_here := by decide

/-- The path above has segments of the path. -/
theorem mem_of_mem_above {path : List (List Char)} {segment : List Char}
    (h : segment ∈ above path) : segment ∈ path := by
  unfold above at h
  split at h
  · exact h
  · split at h
    · exact h
    · exact List.mem_cons_of_mem _ h

/-- **What holds of every segment that stands for itself, and of the empty one, holds of every
segment of a path that is resolved.** -/
theorem forall_mem_resolve {P : List Char → Prop} (hempty : P []) {segments : List (List Char)}
    (hsegments : ∀ s ∈ segments, ¬ isAbove s = true → ¬ isHere s = true → P s) :
    ∀ {path : List (List Char)}, (∀ s ∈ path, P s) → ∀ s ∈ resolve path segments, P s := by
  have hreverse : ∀ {first : List Char} {path : List (List Char)}, P first →
      (∀ s ∈ path, P s) → ∀ s ∈ (first :: path).reverse, P s := fun hfirst hpath s hs =>
    List.forall_mem_cons.mpr ⟨hfirst, hpath⟩ s (List.mem_reverse.mp hs)
  have habove : ∀ {path : List (List Char)}, (∀ s ∈ path, P s) → ∀ s ∈ above path, P s :=
    fun hpath s hs => hpath s (mem_of_mem_above hs)
  induction segments with
  | nil =>
    intro path hpath s hs
    rw [resolve] at hs
    exact hpath s (List.mem_reverse.mp hs)
  | cons first rest ih =>
    intro path hpath
    obtain ⟨hfirst, hrest⟩ := List.forall_mem_cons.mp hsegments
    cases rest with
    | nil =>
      rw [resolve]
      split
      · exact hreverse hempty (habove hpath)
      · next hnotAbove =>
        split
        · exact hreverse hempty hpath
        · next hnotHere => exact hreverse (hfirst hnotAbove hnotHere) hpath
    | cons next rest =>
      rw [resolve]
      · split
        · exact ih hrest (habove hpath)
        · next hnotAbove =>
          split
          · exact ih hrest hpath
          · next hnotHere =>
            exact ih hrest (List.forall_mem_cons.mpr ⟨hfirst hnotAbove hnotHere, hpath⟩)
      · exact List.cons_ne_nil _ _

/-- A path that is resolved has a segment. -/
theorem resolve_ne_nil {segments : List (List Char)} (h : segments ≠ []) :
    ∀ path, resolve path segments ≠ [] := by
  induction segments with
  | nil => exact absurd rfl h
  | cons first rest ih =>
    intro path
    have hcons : ∀ (x : List Char) xs, (x :: xs).reverse ≠ [] := fun x xs hnil =>
      List.cons_ne_nil x xs (List.reverse_eq_nil_iff.mp hnil)
    cases rest with
    | nil =>
      rw [resolve]
      split
      · exact hcons _ _
      · split <;> exact hcons _ _
    | cons next rest =>
      rw [resolve]
      · split
        · exact ih (List.cons_ne_nil _ _) _
        · split <;> exact ih (List.cons_ne_nil _ _) _
      · exact List.cons_ne_nil _ _

/-- **Segments that stand for themselves are resolved already.** -/
theorem resolve_of_isSegment {segments : List (List Char)} (h : ∀ s ∈ segments, IsSegment s) :
    ∀ path, resolve path segments = path.reverse ++ segments := by
  induction segments with
  | nil =>
    intro path
    rw [resolve, List.append_nil]
  | cons first rest ih =>
    intro path
    obtain ⟨hfirst, hrest⟩ := List.forall_mem_cons.mp h
    cases rest with
    | nil =>
      rw [resolve, if_neg (Bool.eq_false_iff.mp hfirst.not_above),
        if_neg (Bool.eq_false_iff.mp hfirst.not_here), List.reverse_cons]
    | cons next rest =>
      rw [resolve]
      · rw [if_neg (Bool.eq_false_iff.mp hfirst.not_above),
          if_neg (Bool.eq_false_iff.mp hfirst.not_here), ih hrest, List.reverse_cons,
          List.append_assoc, List.singleton_append]
      · exact List.cons_ne_nil _ _

/-! ## Paths -/

/-- A text whose only slashes are slashes is straight. -/
theorem straightened_eq {s : List Char} (h : ∀ c ∈ s, isSlash .web c = true → c = '/') :
    straightened .web s = s := by
  refine (List.map_congr_left fun c hc => ?_).trans (List.map_id s)
  split
  · next hslash => exact (h c hc hslash).symm
  · rfl

/-- A text that was straightened has no other slashes. -/
theorem eq_slash_of_mem_straightened {s : List Char} {c : Char} (h : c ∈ straightened .web s)
    (hslash : isSlash .web c = true) : c = '/' := by
  obtain ⟨x, -, rfl⟩ := List.mem_map.mp h
  split at hslash
  · next hx => exact if_pos hx
  · next hx => exact absurd hslash hx

/-- **Segments, written as a path.** -/
def pathOf (segments : List (List Char)) : List Char :=
  segments.flatMap ('/' :: ·)

section

variable {segments : List (List Char)}

theorem of_mem_pathOf {c : Char} (h : c ∈ pathOf segments) :
    c = '/' ∨ ∃ s ∈ segments, c ∈ s := by
  obtain ⟨s, hs, hc⟩ := List.mem_flatMap.mp h
  exact (List.mem_cons.mp hc).imp_right fun hc => ⟨s, hs, hc⟩

theorem pathOf_concat (segments : List (List Char)) (last : List Char) :
    pathOf (segments ++ [last]) = pathOf segments ++ '/' :: last := by
  unfold pathOf
  rw [List.flatMap_append, List.flatMap_singleton]

/-- A path is a slash, and its segments with slashes between them. -/
theorem pathOf_eq_cons (h : segments ≠ []) :
    pathOf segments = '/' :: List.intercalate ['/'] segments := by
  induction segments with
  | nil => exact absurd rfl h
  | cons first rest ih =>
    show '/' :: first ++ pathOf rest = _
    cases rest with
    | nil => rw [List.intercalate_singleton]; exact List.append_nil _
    | cons next rest =>
      rw [ih (List.cons_ne_nil _ _), List.intercalate_cons_cons, List.append_assoc]
      rfl

variable (h : ∀ s ∈ segments, IsSegment s)

include h

/-- The characters of a path are left as they are. -/
theorem left_of_mem_pathOf {c : Char} (hc : c ∈ pathOf segments) :
    c.toNat < 0x80 ∧ inPath c = false := by
  obtain rfl | ⟨s, hs, hc⟩ := of_mem_pathOf hc
  · decide
  · exact (h s hs).left c hc

/-- **A path of segments is read as itself.** -/
theorem parsePath_pathOf (hne : segments ≠ []) :
    parsePath .web (pathOf segments) = String.ofList (pathOf segments) := by
  have hstraight : straightened .web (pathOf segments) = pathOf segments := by
    refine straightened_eq fun c hc hslash => ?_
    obtain hc | ⟨s, hs, hc⟩ := of_mem_pathOf hc
    · exact hc
    · exact Bool.noConfusion (hslash.symm.trans ((h s hs).whole c hc))
  have hparts : partsBetween '/' (List.intercalate ['/'] segments) = segments :=
    partsBetween_intercalate segments hne fun s hs hslash =>
      Bool.noConfusion (((h s hs).whole '/' hslash).symm.trans (by decide : isSlash .web '/' = true))
  have hencoded : segments.map (percentEncode inPath) = segments :=
    (List.map_congr_left fun s hs => percentEncode_of_left (h s hs).left).trans (List.map_id _)
  unfold parsePath
  rw [hstraight, pathOf_eq_cons hne]
  dsimp only
  rw [if_pos rfl, hparts, hencoded, resolve_of_isSegment h, List.reverse_nil, List.nil_append,
    ← pathOf_eq_cons hne]
  rfl

end

/-- A part of a straight text between slashes, encoded, is a segment if it stands for itself. -/
theorem isSegment_percentEncode {s part : List Char} (hpart : part ∈ partsBetween '/' s)
    (hs : ∀ c ∈ s, isSlash .web c = true → c = '/')
    (habove : ¬ isAbove (percentEncode inPath part) = true)
    (hhere : ¬ isHere (percentEncode inPath part) = true) :
    IsSegment (percentEncode inPath part) where
  left _ hc := left_of_mem_percentEncode encodes_inPath hc
  whole c hc := by
    have hdigit : ∀ d : Fin 16, isSlash .web (hexUpper d) = false := by decide
    obtain ⟨hc, -⟩ | rfl | ⟨d, hd, rfl⟩ := of_mem_percentEncode hc
    · obtain ⟨hmem, hne⟩ := of_mem_partsBetween hpart hc
      exact Bool.eq_false_iff.mpr fun hslash => hne (hs c hmem hslash)
    · decide
    · exact hdigit ⟨d, hd⟩
  not_above := Bool.eq_false_iff.mpr habove
  not_here := Bool.eq_false_iff.mpr hhere

/-- **A path that is read for the web consists of segments.** -/
theorem exists_segments (s : List Char) : ∃ segments, segments ≠ [] ∧
    (∀ segment ∈ segments, IsSegment segment) ∧
    (parsePath .web s).toList = pathOf segments := by
  unfold parsePath
  split
  · exact ⟨[[]], List.cons_ne_nil _ _, List.forall_mem_singleton.mpr isSegment_nil, rfl⟩
  · next c rest hstraight =>
    have hslash : ∀ x ∈ (if c = '/' then rest else c :: rest),
        isSlash .web x = true → x = '/' := by
      refine fun x hx => eq_slash_of_mem_straightened (s := s) ?_
      rw [hstraight]
      split at hx
      · exact List.mem_cons_of_mem c hx
      · exact hx
    refine ⟨_, resolve_ne_nil ?_ [], ?_, String.toList_ofList⟩
    · exact fun hnil => partsBetween_ne_nil _ (List.map_eq_nil_iff.mp hnil)
    · refine forall_mem_resolve isSegment_nil (fun segment hsegment => ?_)
        fun _ h => absurd h List.not_mem_nil
      obtain ⟨part, hpart, rfl⟩ := List.mem_map.mp hsegment
      exact isSegment_percentEncode hpart hslash

/-! ## The query and the fragment -/

/-- **A query and a fragment that are read as themselves.** -/
structure KeepsTail (query fragment : Option String) : Prop where
  /-- None of the characters of the query is encoded. -/
  query : ∀ q, query = some q → ∀ c ∈ q.toList, c.toNat < 0x80 ∧ inQuery true c = false
  /-- None of those of the fragment is. -/
  fragment : ∀ f, fragment = some f → ∀ c ∈ f.toList, c.toNat < 0x80 ∧ inFragment c = false

/-- **A query and a fragment that are read for the web keep.** -/
theorem keepsTail_of_parseTail {s : List Char} {query fragment : Option String}
    (h : parseTail .web s = (query, fragment)) : KeepsTail query fragment := by
  have hencoded : ∀ {encoded : Char → Bool} (t : List Char) (f : String), Encodes encoded →
      String.ofList (percentEncode encoded t) = f →
      ∀ c ∈ f.toList, c.toNat < 0x80 ∧ encoded c = false := by
    rintro encoded t _ he rfl c hc
    rw [String.toList_ofList] at hc
    exact left_of_mem_percentEncode he hc
  unfold parseTail at h
  dsimp only at h
  split at h
  · obtain ⟨rfl, rfl⟩ := Prod.mk.inj h
    refine ⟨fun q hq => hencoded _ q encodes_inQuery (Option.some.inj hq), fun f hf => ?_⟩
    split at hf
    · exact hencoded _ f encodes_inFragment (Option.some.inj hf)
    · cases hf
  · obtain ⟨rfl, rfl⟩ := Prod.mk.inj h
    refine ⟨fun q hq => absurd hq.symm (Option.some_ne_none q), fun f hf => ?_⟩
    split at hf
    · exact hencoded _ f encodes_inFragment (Option.some.inj hf)
    · cases hf

/-- A part of a URL behind the sign that it begins with, if it is there. -/
def marked (sign : Char) : Option String → List Char
  | none => []
  | some part => sign :: part.toList

/-- **A query and a fragment that keep are read as themselves.** -/
theorem KeepsTail.parseTail {query fragment : Option String} (h : KeepsTail query fragment) :
    parseTail .web (marked '?' query ++ marked '#' fragment) = (query, fragment) := by
  have hfragment : ∀ f, fragment = some f →
      String.ofList (percentEncode inFragment f.toList) = f := fun f hf => by
    rw [percentEncode_of_left (h.fragment f hf), String.ofList_toList]
  cases query with
  | none =>
    cases fragment with
    | none => rfl
    | some f =>
      show (none, some (String.ofList (percentEncode inFragment f.toList))) = _
      rw [hfragment f rfl]
  | some q =>
    have hinside : ∀ c ∈ q.toList, decide (c ≠ '#') = true := fun c hc =>
      decide_eq_true fun hsign => by
        have hleft := (h.query q rfl c hc).2
        rw [hsign] at hleft
        exact absurd hleft (by decide)
    have hquery : String.ofList (percentEncode (inQuery true) q.toList) = q := by
      rw [percentEncode_of_left (h.query q rfl), String.ofList_toList]
    have hends : (marked '#' fragment).takeWhile (· ≠ '#') = [] ∧
        (marked '#' fragment).dropWhile (· ≠ '#') = marked '#' fragment := by
      cases fragment with
      | none => exact ⟨rfl, rfl⟩
      | some f => exact ⟨rfl, rfl⟩
    have htake : (q.toList ++ marked '#' fragment).takeWhile (· ≠ '#') = q.toList := by
      rw [List.takeWhile_append_of_pos hinside, hends.1, List.append_nil]
    have hdrop : (q.toList ++ marked '#' fragment).dropWhile (· ≠ '#') = marked '#' fragment := by
      rw [List.dropWhile_append_of_pos hinside, hends.2]
    show Url.parseTail .web ('?' :: (q.toList ++ marked '#' fragment)) = _
    unfold Url.parseTail
    dsimp only
    split
    · next rest heq =>
      rw [← (List.cons.inj heq).2, htake, hdrop]
      refine Prod.ext (congrArg some hquery) ?_
      cases fragment with
      | none => rfl
      | some f => exact congrArg some (hfragment f rfl)
    · next hother => exact absurd rfl (hother _)

/-! ## The whole -/

/-- **What stands behind the host and the port.** -/
def remainder (u : Url) : List Char :=
  u.path.toList ++ marked '?' u.query ++ marked '#' u.fragment

/-- A URL with a host is written as its two halves. -/
theorem toList_render {u : Url} (h : u.host.isSome = true) :
    u.render.toList = u.origin ++ u.remainder := by
  unfold render target origin remainder
  rw [if_pos h]
  cases u.query <;> cases u.fragment <;> simp [marked, List.append_assoc]

/-- **A URL of the web that is read as itself.** -/
structure Keeps (u : Url) : Prop extends KeepsOrigin u where
  /-- Its path consists of segments. -/
  path : ∃ segments, segments ≠ [] ∧ (∀ s ∈ segments, IsSegment s) ∧
    u.path.toList = pathOf segments
  /-- Its query and its fragment keep. -/
  tail : KeepsTail u.query u.fragment

/-- **Every URL of the web that is read keeps.** -/
theorem keeps_of_parse {s : String} {u : Url} (h : parse s = .ok u)
    (hscheme : Kind.ofScheme u.scheme = .web) : u.Keeps := by
  obtain ⟨horigin, ⟨path, hpath⟩, tail, htail⟩ := keepsOrigin_of_parse h hscheme
  exact ⟨horigin, hpath ▸ exists_segments path, keepsTail_of_parseTail htail⟩

namespace Keeps

variable {u : Url}

/-- The path begins with a slash. -/
theorem head?_path (h : u.Keeps) : u.path.toList.head? = some '/' := by
  obtain ⟨segments, hne, -, hpath⟩ := h.path
  rw [hpath, pathOf_eq_cons hne]
  rfl

/-- **What stands behind the host and the port** begins with a slash, and it is visible. -/
theorem remainder (h : u.Keeps) :
    u.remainder.head? = some '/' ∧ ∀ c ∈ u.remainder, IsVisible c := by
  obtain ⟨segments, -, hsegments, hpath⟩ := h.path
  have hmarked : ∀ {sign : Char} {part : Option String} {encoded : Char → Bool},
      IsVisible sign → Encodes encoded →
      (∀ p, part = some p → ∀ c ∈ p.toList, c.toNat < 0x80 ∧ encoded c = false) →
      ∀ c ∈ marked sign part, IsVisible c := by
    intro sign part encoded hsign he hpart c hc
    cases part with
    | none => exact absurd hc List.not_mem_nil
    | some p =>
      obtain rfl | hc := List.mem_cons.mp hc
      · exact hsign
      · obtain ⟨hascii, hleft⟩ := hpart p rfl c hc
        exact he.visible c hascii hleft
  refine ⟨?_, fun c hc => ?_⟩
  · unfold Url.remainder
    rw [List.append_assoc, List.head?_append, h.head?_path]
    rfl
  · obtain hc | hc := List.mem_append.mp hc
    · obtain hc | hc := List.mem_append.mp hc
      · obtain ⟨hascii, hleft⟩ := left_of_mem_pathOf hsegments (hpath ▸ hc)
        exact encodes_inPath.visible c hascii hleft
      · exact hmarked (by decide) encodes_inQuery h.tail.query c hc
    · exact hmarked (by decide) encodes_inFragment h.tail.fragment c hc

/-- The path ends where the query or the fragment begins. -/
theorem splitTail_remainder (h : u.Keeps) : splitTail u.remainder
    = (u.path.toList, marked '?' u.query ++ marked '#' u.fragment) := by
  obtain ⟨segments, -, hsegments, hpath⟩ := h.path
  have hinside : ∀ c ∈ u.path.toList, (decide (c ≠ '?') && decide (c ≠ '#')) = true := by
    intro c hc
    have hleft := (left_of_mem_pathOf hsegments (hpath ▸ hc)).2
    have hother : ∀ x, inPath x = true → decide (c ≠ x) = true := fun x hx =>
      decide_eq_true fun heq => by
        rw [heq, hx] at hleft
        cases hleft
    rw [hother '?' (by decide), hother '#' (by decide), Bool.and_self]
  have hends : (marked '?' u.query ++ marked '#' u.fragment).takeWhile
        (fun c => c ≠ '?' && c ≠ '#') = [] ∧
      (marked '?' u.query ++ marked '#' u.fragment).dropWhile (fun c => c ≠ '?' && c ≠ '#')
        = marked '?' u.query ++ marked '#' u.fragment := by
    cases u.query with
    | none => cases u.fragment <;> exact ⟨rfl, rfl⟩
    | some q => exact ⟨rfl, rfl⟩
  unfold splitTail Url.remainder
  dsimp only
  rw [List.append_assoc, List.takeWhile_append_of_pos hinside,
    List.dropWhile_append_of_pos hinside, hends.1, hends.2, List.append_nil]

/-- **A URL of the web that keeps is read as itself.** -/
theorem parse_render (h : u.Keeps) : parse u.render = .ok u := by
  obtain ⟨host, hhost, -⟩ := h.host
  obtain ⟨segments, hne, hsegments, hpath⟩ := h.path
  have hrender : u.render = String.ofList (u.origin ++ u.remainder) := by
    rw [← toList_render (by rw [hhost]; rfl), String.ofList_toList]
  have hsame : parsePath .web u.path.toList = u.path := by
    rw [hpath, parsePath_pathOf hsegments hne, ← hpath, String.ofList_toList]
  rw [hrender, h.toKeepsOrigin.parse h.remainder.1 h.remainder.2 h.splitTail_remainder
    h.tail.parseTail, hsame]

end Keeps

end Courier.Url
