import Mathlib.Data.List.DropRight
import Courier.Proofs.Url.Remainder
import Courier.Sink.Params
/-!
# Where requests go to

Requests go to a path below the URL of their sink. It is made by writing the URL,
dropping the slashes it ends in, putting the path behind it and reading what comes of
it. What is written so is another URL of the web that is read as itself
(`joined_eq_render`): the URL with the path behind the last of its parts (`extended`). So
a place for requests is found exactly when the text is a URL of HTTP (`endpointOf_cases`).

The last part is the path only when there is neither a query nor a fragment. Then the path
of the requests begins with that of the URL, and otherwise it is the same, and what should
be its end is the end of the query or of the fragment (`bulkEndpoint_iff`).
-/

namespace Courier.Sink

open Courier.Url (IsSegment Keeps KeepsTail Kind inFragment inPath inQuery isSlash marked pathOf)

/-! ## The slashes that a text ends in -/

theorem dropTrailingSlashes_prefix (s : List Char) : dropTrailingSlashes s <+: s :=
  List.rdropWhile_prefix _ s

/-- **A text that ends in no slash stays**, whatever stands behind it. -/
theorem dropTrailingSlashes_append {a : List Char} {c : Char} (hlast : a.getLast? = some c)
    (hc : c ≠ '/') (b : List Char) :
    dropTrailingSlashes (a ++ b) = a ++ dropTrailingSlashes b := by
  have hstays : a.reverse.dropWhile (· = '/') = a.reverse := by
    rw [← List.head?_reverse] at hlast
    obtain ⟨rest, hrest⟩ := List.head?_eq_some_iff.mp hlast
    rw [hrest, List.dropWhile_cons_of_neg (by simpa using hc)]
  unfold dropTrailingSlashes
  rw [List.reverse_append, List.dropWhile_append, hstays]
  split
  · next hnone =>
    rw [List.isEmpty_iff.mp hnone, List.reverse_nil, List.append_nil, List.reverse_reverse]
  · rw [List.reverse_append, List.reverse_reverse]

/-- **A path loses the empty segments that it ends in.** -/
theorem exists_dropTrailingSlashes_pathOf {segments : List (List Char)}
    (h : ∀ s ∈ segments, IsSegment s) :
    ∃ fewer, (∀ s ∈ fewer, IsSegment s) ∧ dropTrailingSlashes (pathOf segments) = pathOf fewer := by
  induction segments using List.reverseRecOn with
  | nil => exact ⟨[], h, rfl⟩
  | append_singleton rest last ih =>
    obtain ⟨hrest, hlast⟩ := List.forall_mem_append.mp h
    obtain rfl | ⟨init, c, rfl⟩ := List.eq_nil_or_concat' last
    · obtain ⟨fewer, hfewer, hdrop⟩ := ih hrest
      refine ⟨fewer, hfewer, ?_⟩
      rw [Url.pathOf_concat, ← hdrop]
      exact List.rdropWhile_concat_pos _ _ _ (by decide)
    · have hc : c ≠ '/' := fun heq => by
        have hslash := (List.forall_mem_singleton.mp hlast).whole c (List.mem_append_right _ List.mem_cons_self)
        rw [heq] at hslash
        cases hslash
      refine ⟨_, h, ?_⟩
      rw [Url.pathOf_concat, ← List.cons_append, ← List.append_assoc]
      exact List.rdropWhile_concat_neg _ _ _ (by simpa using hc)

/-- **A text without the slashes that it ends in.** -/
def trimmed (s : String) : String :=
  String.ofList (dropTrailingSlashes s.toList)

/-! ## A path behind a URL -/

/-- **A path that may stand behind any part of a URL**: a segment without an apostrophe, which
is encoded in a query. -/
structure IsPlain (path : String) : Prop extends IsSegment path.toList where
  /-- It has no apostrophe. -/
  quote : '\x27' ∉ path.toList

/-- The path of bulk requests is plain. -/
theorem isPlain_bulk : IsPlain "_bulk" where
  left := Url.forall_mem_of_all (by decide)
  whole := Url.forall_mem_of_all (by decide)
  not_above := by decide
  not_here := by decide
  quote := by decide

theorem isPlain_empty : IsPlain "" where
  toIsSegment := Url.isSegment_nil
  quote := List.not_mem_nil

/-- **A URL with a path behind the last of its parts**, which loses the slashes it ends in. -/
def extended (u : Url) (path : String) : Url :=
  match u.query, u.fragment with
  | _, some fragment => { u with fragment := some (trimmed fragment ++ "/" ++ path) }
  | some query, none => { u with query := some (trimmed query ++ "/" ++ path) }
  | none, none => { u with path := trimmed u.path ++ "/" ++ path }

section

variable {u : Url} {path : String}

/-- Before its path it is the same URL. -/
theorem extended_scheme : (extended u path).scheme = u.scheme ∧
    (extended u path).username = u.username ∧ (extended u path).password = u.password ∧
    (extended u path).host = u.host ∧ (extended u path).port = u.port := by
  unfold extended
  split <;> exact ⟨rfl, rfl, rfl, rfl, rfl⟩

/-- So it is written in the same way up to there. -/
theorem origin_extended (u : Url) (path : String) : (extended u path).origin = u.origin := by
  unfold extended
  split <;> rfl

/-- A part of a URL that loses the slashes it ends in keeps the sign that it begins with. -/
theorem dropTrailingSlashes_marked {sign : Char} (hsign : sign ≠ '/') (before : List Char)
    (part : String) :
    dropTrailingSlashes (before ++ marked sign (some part))
      = before ++ marked sign (some (trimmed part)) := by
  have hlast : (before ++ [sign]).getLast? = some sign := List.getLast?_concat
  show dropTrailingSlashes (before ++ sign :: part.toList)
    = before ++ sign :: (String.ofList (dropTrailingSlashes part.toList)).toList
  rw [List.append_cons, dropTrailingSlashes_append hlast hsign, String.toList_ofList,
    ← List.append_cons]

/-- **What stands behind the host and the port** loses the slashes it ends in, and the path
comes behind it. -/
theorem remainder_extended :
    (extended u path).remainder = dropTrailingSlashes u.remainder ++ '/' :: path.toList := by
  have hbehind : ∀ s : String, (trimmed s ++ "/" ++ path).toList
      = (trimmed s).toList ++ '/' :: path.toList := fun s => by
    rw [String.toList_append, String.toList_append, List.append_assoc]
    rfl
  have hmarked : ∀ (sign : Char) (s : String), marked sign (some (trimmed s ++ "/" ++ path))
      = marked sign (some (trimmed s)) ++ '/' :: path.toList := fun sign s =>
    congrArg (sign :: ·) (hbehind s)
  unfold extended Url.remainder
  split
  · next fragment hfragment =>
    show u.path.toList ++ marked '?' u.query ++ marked '#' (some (trimmed fragment ++ "/" ++ path))
      = _
    rw [hfragment, dropTrailingSlashes_marked (by decide), hmarked, ← List.append_assoc]
  · next query hquery hfragment =>
    show u.path.toList ++ marked '?' (some (trimmed query ++ "/" ++ path)) ++ marked '#' u.fragment
      = _
    rw [hquery, hfragment]
    show _ ++ [] = dropTrailingSlashes (_ ++ []) ++ _
    rw [List.append_nil, List.append_nil, dropTrailingSlashes_marked (by decide), hmarked,
      ← List.append_assoc]
  · next hquery hfragment =>
    show (trimmed u.path ++ "/" ++ path).toList ++ marked '?' u.query ++ marked '#' u.fragment = _
    rw [hquery, hfragment]
    show _ ++ [] ++ [] = dropTrailingSlashes (_ ++ [] ++ []) ++ _
    rw [List.append_nil, List.append_nil, List.append_nil, List.append_nil, hbehind]
    exact congrArg (· ++ '/' :: path.toList) String.toList_ofList

/-- A plain path begins with no slash. -/
theorem IsPlain.dropWhile (h : IsPlain path) :
    path.toList.dropWhile (· = '/') = path.toList := by
  cases hpath : path.toList with
  | nil => rfl
  | cons c rest =>
    refine List.dropWhile_cons_of_neg fun hslash => ?_
    have hwhole := h.whole c (hpath ▸ List.mem_cons_self)
    rw [of_decide_eq_true hslash] at hwhole
    cases hwhole

/-- **A plain path below a URL is written as a URL**, when the URL has a host. -/
theorem joined_eq_render (h : u.Keeps) (hpath : IsPlain path) :
    joined u path = (extended u path).render := by
  obtain ⟨host, hhost, -⟩ := h.host
  -- what stands before the path ends in no slash
  have hne := h.authority_ne_nil
  have hlast : u.origin.getLast? = some (u.authority.toList.getLast hne) := by
    unfold Url.origin
    rw [List.getLast?_append_of_ne_nil _ hne, List.getLast?_eq_some_getLast hne]
  have hslash : u.authority.toList.getLast hne ≠ '/' := fun heq => by
    have hends := (h.of_mem (List.mem_append_right _ (List.getLast_mem hne))).2
    rw [heq] at hends
    exact absurd hends (by decide)
  have hsome : u.host.isSome = true := by rw [hhost]; rfl
  have hsome' : (extended u path).host.isSome = true := by rw [extended_scheme.2.2.2.1, hsome]
  unfold joined
  rw [hpath.dropWhile, Url.toList_render hsome, dropTrailingSlashes_append hlast hslash, List.append_assoc,
    ← remainder_extended, ← origin_extended u path, ← Url.toList_render hsome',
    String.ofList_toList]

/-- **A part with a plain path behind it** is made of characters that are left as they are. -/
theorem left_of_behind {encoded : Char → Bool} {part : String}
    (hpart : ∀ c ∈ part.toList, c.toNat < 0x80 ∧ encoded c = false)
    (hpath : ∀ c ∈ path.toList, c.toNat < 0x80 ∧ encoded c = false) (hslash : encoded '/' = false) :
    ∀ c ∈ (trimmed part ++ "/" ++ path).toList, c.toNat < 0x80 ∧ encoded c = false := by
  intro c hc
  rw [String.toList_append, String.toList_append, List.append_assoc] at hc
  obtain hc | hc := List.mem_append.mp hc
  · have hstart := dropTrailingSlashes_prefix part.toList
    rw [trimmed, String.toList_ofList] at hc
    exact hpart c (hstart.subset hc)
  · obtain rfl | hc := List.mem_cons.mp hc
    · exact ⟨by decide, hslash⟩
    · exact hpath c hc

/-- The characters of a plain path are left as they are in a query and in a fragment. -/
theorem IsPlain.left_of_mem (h : IsPlain path) {c : Char} (hc : c ∈ path.toList) :
    c.toNat < 0x80 ∧ inQuery true c = false ∧ inFragment c = false := by
  obtain ⟨hascii, hleft⟩ := h.left c hc
  have all : inPath c = false → c ≠ '\x27' → inQuery true c = false ∧ inFragment c = false :=
    Url.forall_ascii (P := fun c => inPath c = false → c ≠ '\x27' →
      inQuery true c = false ∧ inFragment c = false) (by decide) hascii
  exact ⟨hascii, all hleft fun heq => h.quote (heq ▸ hc)⟩

/-- **A URL with a plain path behind it is read as itself.** -/
theorem keeps_extended (h : u.Keeps) (hpath : IsPlain path) : (extended u path).Keeps := by
  obtain ⟨hscheme, huser, hhost, hport⟩ := h.toKeepsOrigin
  unfold extended
  split
  · next fragment hfragment =>
    refine ⟨⟨hscheme, huser, hhost, hport⟩, h.path, h.tail.query, ?_⟩
    intro f hf
    obtain rfl := Option.some.inj hf
    exact left_of_behind (h.tail.fragment fragment hfragment)
      (fun c hc => ⟨(hpath.left_of_mem hc).1, (hpath.left_of_mem hc).2.2⟩) (by decide)
  · next query hquery _ =>
    refine ⟨⟨hscheme, huser, hhost, hport⟩, h.path, ?_, h.tail.fragment⟩
    intro q hq
    obtain rfl := Option.some.inj hq
    exact left_of_behind (h.tail.query query hquery)
      (fun c hc => ⟨(hpath.left_of_mem hc).1, (hpath.left_of_mem hc).2.1⟩) (by decide)
  · refine ⟨⟨hscheme, huser, hhost, hport⟩, ?_, h.tail⟩
    obtain ⟨segments, -, hsegments, htext⟩ := h.path
    obtain ⟨fewer, hfewer, hdrop⟩ := exists_dropTrailingSlashes_pathOf hsegments
    refine ⟨fewer ++ [path.toList], List.concat_ne_nil _ _, ?_, ?_⟩
    · exact List.forall_mem_append.mpr ⟨hfewer, List.forall_mem_singleton.mpr hpath.toIsSegment⟩
    · show (trimmed u.path ++ "/" ++ path).toList = _
      rw [Url.pathOf_concat, ← hdrop, ← htext, String.toList_append, String.toList_append,
        List.append_assoc, trimmed, String.toList_ofList]
      rfl

end

/-! ## Places for requests -/

/-- **A URL of HTTP.** -/
def IsHttp (u : Url) : Prop :=
  u.scheme = "http" ∨ u.scheme = "https"

/-- **A text that is a URL of HTTP.** -/
def IsWebUrl (text : String) : Prop :=
  ∃ u, Url.parse text = .ok u ∧ IsHttp u

theorem IsHttp.ofScheme {u : Url} (h : IsHttp u) : Kind.ofScheme u.scheme = .web := by
  obtain h | h := h <;> rw [h] <;> rfl

/-- **Requests go to the URL of their sink with their path behind it.** -/
theorem endpointOf_eq_ok (sink : String) {base path : String} {u : Url}
    (hparse : Url.parse base = .ok u) (hhttp : IsHttp u) (hpath : IsPlain path) :
    endpointOf sink base path = .ok (extended u path) := by
  have hkeeps := Url.keeps_of_parse hparse hhttp.ofScheme
  have hjoined : Url.parse (joined u path) = .ok (extended u path) := by
    rw [joined_eq_render hkeeps hpath, (keeps_extended hkeeps hpath).parse_render]
  have hscheme : ¬(u.scheme ≠ "http" && u.scheme ≠ "https") = true := by
    simpa [IsHttp, Decidable.imp_iff_not_or] using hhttp
  unfold endpointOf
  rw [hparse]
  dsimp only
  rw [if_neg hscheme, hjoined]

/-- **A place for requests is found below every URL of HTTP.** Below another text there is
none: it is no URL, or one of another scheme. -/
theorem endpointOf_cases (sink base : String) {path : String} (hpath : IsPlain path) :
    (∃ u, Url.parse base = .ok u ∧ IsHttp u ∧
      endpointOf sink base path = .ok (extended u path)) ∨
    (∃ fault, Url.parse base = .error fault ∧ endpointOf sink base path
      = .error (paramFailure sink "url" (s!"invalid url '{base}': " ++ fault.message))) ∨
    ∃ u, Url.parse base = .ok u ∧ ¬IsHttp u ∧ endpointOf sink base path
      = .error (paramFailure sink "url" s!"unsupported scheme '{u.scheme}'") := by
  cases hparse : Url.parse base with
  | error fault =>
    refine .inr (.inl ⟨fault, rfl, ?_⟩)
    unfold endpointOf
    rw [hparse]
  | ok u =>
    by_cases hhttp : IsHttp u
    · exact .inl ⟨u, rfl, hhttp, endpointOf_eq_ok sink hparse hhttp hpath⟩
    · refine .inr (.inr ⟨u, rfl, hhttp, ?_⟩)
      unfold endpointOf
      rw [hparse]
      exact if_pos (by simpa [IsHttp] using hhttp)

/-! ## Bulk requests -/

/-- No text has `/_bulk` where it has the slashes it ends in. -/
theorem ne_trimmed_append (s : String) : s ≠ trimmed s ++ "/_bulk" := by
  intro heq
  have hlist : s.toList = dropTrailingSlashes s.toList ++ "/_bulk".toList := by
    have htext := congrArg String.toList heq
    rwa [String.toList_append, trimmed, String.toList_ofList] at htext
  -- such a text ends in no slash, and so it would have nothing before it
  have hends : s.toList = (dropTrailingSlashes s.toList ++ "/_bul".toList) ++ ['k'] := by
    rw [List.append_assoc]
    exact hlist
  have hstays : dropTrailingSlashes s.toList = s.toList :=
    (congrArg dropTrailingSlashes hends).trans
      ((List.rdropWhile_concat_neg _ _ _ (by decide)).trans hends.symm)
  rw [hstays] at hlist
  exact absurd (List.append_right_eq_self.mp hlist.symm) (by decide)

/-- **Requests go to the path of the URL, without the slashes it ends in and with `/_bulk`
behind it, and to the query of the URL**, exactly when it has neither a query nor a
fragment. With one of them the path is that of the URL and `/_bulk` is put behind the
last of them. Scheme, user, host and port are those of the URL in any case. -/
theorem bulkEndpoint_iff {sink base : String} {endpoint : Url}
    (h : endpointOf sink base "_bulk" = .ok endpoint) :
    ∃ u, Url.parse base = .ok u ∧ endpoint = extended u "_bulk" ∧
      (endpoint.scheme = u.scheme ∧ endpoint.username = u.username ∧
        endpoint.password = u.password ∧ endpoint.host = u.host ∧ endpoint.port = u.port) ∧
      ((endpoint.path = trimmed u.path ++ "/_bulk" ∧ endpoint.query = u.query) ↔
        u.query = none ∧ u.fragment = none) := by
  obtain ⟨u, hparse, -, hend⟩ | ⟨fault, -, hend⟩ | ⟨u, -, -, hend⟩ :=
    endpointOf_cases sink base isPlain_bulk
  · obtain rfl := Except.ok.inj (h.symm.trans hend)
    refine ⟨u, hparse, rfl, extended_scheme, ?_⟩
    unfold extended
    split
    · next fragment hfragment =>
      exact ⟨fun hpath => absurd hpath.1 (ne_trimmed_append u.path),
        fun hnone => absurd (hfragment.symm.trans hnone.2) (Option.some_ne_none _)⟩
    · next query hquery _ =>
      exact ⟨fun hpath => absurd hpath.1 (ne_trimmed_append u.path),
        fun hnone => absurd (hquery.symm.trans hnone.1) (Option.some_ne_none _)⟩
    · next hquery hfragment =>
      refine ⟨fun _ => ⟨hquery, hfragment⟩, fun _ => ⟨?_, rfl⟩⟩
      show trimmed u.path ++ "/" ++ "_bulk" = _
      rw [String.append_assoc]
      rfl
  · cases h.symm.trans hend
  · cases h.symm.trans hend

/-- The slashes that the URL of a sink ends in are not those of its requests. -/
theorem bulkEndpoint_iff_slashes :
    let endpoint : Url :=
      ⟨"http", "", none, some (.domain "localhost"), some 9200, "/logs/_bulk", none, none⟩
    endpointOf "search" "http://localhost:9200/logs//" "_bulk" = .ok endpoint ∧
      ∃ u, Url.parse "http://localhost:9200/logs//" = .ok u ∧
        endpoint.path = trimmed u.path ++ "/_bulk" ∧ endpoint.query = u.query := by
  intro endpoint
  have hparse : Url.parse "http://localhost:9200/logs//" = .ok
      ⟨"http", "", none, some (.domain "localhost"), some 9200, "/logs//", none, none⟩ := by
    decide +kernel
  have hend : endpointOf "search" "http://localhost:9200/logs//" "_bulk" = .ok endpoint :=
    endpointOf_eq_ok "search" hparse (.inl rfl) isPlain_bulk
  obtain ⟨u, hu, -, -, hiff⟩ := bulkEndpoint_iff hend
  obtain rfl := Except.ok.inj (hparse.symm.trans hu)
  exact ⟨hend, _, hparse, hiff.mpr ⟨rfl, rfl⟩⟩

/-- **The path of the requests is put behind the query** of a URL that has one. -/
theorem bulkEndpoint_behind_query :
    let u : Url :=
      ⟨"http", "", none, some (.domain "localhost"), some 9200, "/a", some "x=1", none⟩
    Url.parse "http://localhost:9200/a?x=1" = .ok u ∧
      endpointOf "search" "http://localhost:9200/a?x=1" "_bulk"
        = .ok { u with query := some "x=1/_bulk" } ∧
      u.path ≠ trimmed u.path ++ "/_bulk" ∧ some "x=1/_bulk" ≠ u.query := by
  intro u
  have hparse : Url.parse "http://localhost:9200/a?x=1" = .ok u := by decide +kernel
  exact ⟨hparse, endpointOf_eq_ok "search" hparse (.inl rfl) isPlain_bulk, ne_trimmed_append _,
    by decide⟩

end Courier.Sink
