import Courier.Proofs.Checkpoint.Entry
import Courier.Proofs.Files.Place
import Courier.Proofs.Results
/-!
# What the file of the last position says

An entry is written to another file first. Whatever is written there, even if
it is cut off, and whatever becomes of it, the file itself says what it has
said, because the two are at different places (`draft_place_ne`). Only when the
other file has been put in the place of the file does it say something else,
and then it says the position that was stored (`load_commit`).
-/

namespace Courier

namespace Checkpoint.FileStore

open Courier.Files (stepTo)

/-! ## The two files -/

/-- A name with something behind it is a name that leads somewhere. -/
theorem draftName_leads (name : List Char) :
    Path.isIdle (name ++ ".tmp".toList) = false ∧ Path.isBack (name ++ ".tmp".toList) = false := by
  have hlen : (name ++ ".tmp".toList).length ≠ 0 ∧ (name ++ ".tmp".toList).length ≠ 1 ∧
      (name ++ ".tmp".toList).length ≠ 2 := by
    have h : (name ++ ".tmp".toList).length = name.length + 4 := by
      rw [List.length_append]
      rfl
    omega
  unfold Path.isIdle Path.isBack
  refine ⟨?_, decide_eq_false fun h => hlen.2.2 (by rw [h]; rfl)⟩
  rw [decide_eq_false (fun h => hlen.1 (by rw [h]; rfl)),
    decide_eq_false (fun h => hlen.2.1 (by rw [h]; rfl))]
  rfl

/-- The name of the other file ends in something that is not in its directory's
name. -/
theorem draftName_ok {name : List Char} (h : '/' ∉ name) :
    '/' ∉ name ++ ".tmp".toList ∧ name ++ ".tmp".toList ≠ [] ∧ name ++ ".tmp".toList ≠ ['.'] := by
  obtain ⟨hidle, -⟩ := draftName_leads name
  have hidle : decide (name ++ ".tmp".toList = []) = false ∧
      decide (name ++ ".tmp".toList = ['.']) = false := by
    unfold Path.isIdle at hidle
    exact Bool.or_eq_false_iff.mp hidle
  refine ⟨fun hs => ?_, of_decide_eq_false hidle.1, of_decide_eq_false hidle.2⟩
  obtain hs | hs := List.mem_append.mp hs
  · exact h hs
  · exact absurd hs (by decide)

/-- **The name of the file that a path leads to** is its last segment that leads
anywhere. -/
theorem fileName?_eq_some {path : String} {name : List Char}
    (h : Path.fileName? path = some name) :
    (Path.trimmed (Path.parts path).2).getLast? = some name ∧ Path.isIdle name = false ∧
      Path.isBack name = false ∧ '/' ∉ name := by
  have hlast : (Path.trimmed (Path.parts path).2).getLast? = some name ∧
      Path.isBack name = false := by
    unfold Path.fileName? at h
    split at h
    · next last hl =>
      split at h
      · cases h
      · next hb => exact ⟨by rw [hl, h], by rw [← Option.some.inj h]; simpa using hb⟩
    · cases h
  have hhead : ((Path.parts path).2.reverse.dropWhile Path.isIdle).head? = some name := by
    rw [← List.getLast?_reverse]
    exact hlast.1
  have hidle := List.head?_dropWhile_not Path.isIdle (Path.parts path).2.reverse
  rw [hhead] at hidle
  have hmem : name ∈ (Path.parts path).2 :=
    List.mem_reverse.mp ((List.dropWhile_sublist _).mem (List.mem_of_mem_head? hhead))
  exact ⟨hlast.1, hidle, hlast.2, Path.parts_no_slash path name hmem⟩

/-- **The other file is at another place**, wherever the two paths lead. -/
theorem draft_place_ne (s : FileStore) {f : Files} {d t : Place}
    (hd : f.place s.draft = .ok d) (ht : f.place s.path = .ok t) : d ≠ t := by
  obtain ⟨-, hd, -⟩ := Files.place_ok hd
  obtain ⟨hne, ht, -⟩ := Files.place_ok ht
  intro heq
  cases hname : Path.fileName? s.path with
  | some name =>
    -- the innermost names are different
    obtain ⟨hlast, hidle, hback, hslash⟩ := fileName?_eq_some hname
    obtain ⟨hslash', hnil, hdot⟩ := draftName_ok hslash
    obtain ⟨hidle', hback'⟩ := draftName_leads name
    have hdraft : ∃ x, s.draft = String.ofList (Path.push x (name ++ ".tmp".toList)) := by
      refine ⟨Path.render (Path.parts s.path).1
        (Path.trimmed (Path.trimmed (Path.parts s.path).2).dropLast), ?_⟩
      unfold draft Path.beside
      rw [hname]
      rfl
    obtain ⟨x, hdraft⟩ := hdraft
    have hlast' : (Path.parts s.draft).2.getLast? = some (name ++ ".tmp".toList) := by
      rw [hdraft]
      exact Path.getLast?_parts_push x hslash' hnil hdot
    have hd' := Files.head?_foldl_stepTo (f.start (Path.parts s.draft).1) hlast' hidle' hback'
    have ht' := Files.head?_foldl_stepTo (f.start (Path.parts s.path).1) hlast hidle hback
    rw [Files.foldl_stepTo_trimmed, ← ht, ← heq, hd, hd'] at ht'
    have hlen := congrArg List.length (String.ofList_injective (Option.some.inj ht'))
    rw [List.length_append] at hlen
    exact absurd hlen (Nat.ne_of_gt (Nat.lt_add_of_pos_right (by decide)))
  | none =>
    -- the other file is one step on from where the path leads
    have hdraft : s.draft = String.ofList (Path.push s.path.toList ".tmp".toList) := by
      unfold draft Path.beside
      rw [hname]
      rfl
    have hx : s.path.toList ≠ [] := fun h => hne (String.toList_eq_nil_iff.mp h)
    obtain ⟨hidle, hback⟩ : Path.isIdle ".tmp".toList = false ∧ Path.isBack ".tmp".toList = false :=
      draftName_leads []
    rw [hdraft, Files.foldl_stepTo_push f hx (by decide), String.ofList_toList, ← ht,
      Files.stepTo_name t hidle hback] at hd
    have hlen := congrArg List.length (hd.symm.trans heq)
    exact absurd hlen (Nat.succ_ne_self t.length)

/-! ## What is looked up -/

variable (s : FileStore) {f f' : Files} {e : Entry} {bytes : List UInt8}

/-- **A position is looked up** when the path leads to a file that holds an entry
with it. -/
theorem load_eq_some_iff {position : String} :
    s.load f = .ok (some position) ↔ ∃ t bytes e, f.place s.path = .ok t ∧
      f.node? t = some (.file bytes) ∧ Entry.decode bytes = .ok e ∧ e.position = position := by
  unfold load
  constructor
  · intro h
    cases hr : f.read s.path with
    | error e =>
      rw [hr] at h
      dsimp only at h
      split at h <;> cases h
    | ok bytes =>
      obtain ⟨t, ht, hn⟩ := Files.read_eq_ok_iff.mp hr
      rw [hr] at h
      dsimp only at h
      cases hd : Entry.decode bytes with
      | error fault =>
        rw [hd] at h
        cases h
      | ok e =>
        rw [hd] at h
        exact ⟨t, bytes, e, ht, hn, hd, Option.some.inj (Except.ok.inj h)⟩
  · rintro ⟨t, bytes, e, ht, hn, hd, rfl⟩
    rw [Files.read_eq_ok_iff.mpr ⟨t, ht, hn⟩]
    dsimp only
    rw [hd]

/-- **Whatever is written to the other file**, the position that is looked up is the
same. -/
theorem load_write_draft (h : f.write s.draft bytes = .ok f') (position : String) :
    s.load f' = .ok (some position) ↔ s.load f = .ok (some position) := by
  obtain ⟨d, hd, hdir, rfl⟩ := Files.write_ok h
  have hsame := Files.SameDirectories.put hdir bytes
  have hnode : ∀ t, f.place s.path = .ok t → (f.put d (.file bytes)).node? t = f.node? t :=
    fun t ht => Files.node?_put_of_ne f _ (Ne.symm (draft_place_ne s hd ht))
  rw [load_eq_some_iff, load_eq_some_iff]
  refine exists_congr fun t => exists_congr fun b => exists_congr fun e => ?_
  rw [hsame.place_iff]
  refine and_congr_right fun ht => ?_
  rw [hnode t ht]

/-- **A commit that fails** has at most written to the other file. -/
theorem commit_error {failure : Failure} (h : s.commit f e = (f', .error failure)) :
    f' = f ∨ f.write s.draft e.encode = .ok f' := by
  unfold commit at h
  cases hstage : s.stage f e with
  | error failure =>
    rw [hstage] at h
    exact .inl (Prod.mk.inj h).1.symm
  | ok g =>
    rw [hstage] at h
    dsimp only at h
    cases hpublish : s.publish g with
    | error failure =>
      rw [hpublish] at h
      exact .inr ((Prod.mk.inj h).1 ▸ mapError_eq_ok hstage)
    | ok g' =>
      rw [hpublish] at h
      cases (Prod.mk.inj h).2

/-- **A commit that succeeds** has put the bytes of the entry where the path
leads. -/
theorem commit_ok (h : s.commit f e = (f', .ok ())) :
    ∃ t, f'.place s.path = .ok t ∧ f'.node? t = some (.file e.encode) := by
  unfold commit at h
  cases hstage : s.stage f e with
  | error failure =>
    rw [hstage] at h
    cases (Prod.mk.inj h).2
  | ok g =>
    rw [hstage] at h
    dsimp only at h
    cases hpublish : s.publish g with
    | error failure =>
      rw [hpublish] at h
      cases (Prod.mk.inj h).2
    | ok g' =>
      rw [hpublish] at h
      obtain rfl : g' = f' := (Prod.mk.inj h).1
      obtain ⟨d, hd, hdir, rfl⟩ := Files.write_ok (mapError_eq_ok hstage)
      obtain ⟨d', t, bytes, hd', ht, hfile, htdir, rfl⟩ := Files.rename_ok (mapError_eq_ok hpublish)
      have hput := Files.SameDirectories.put hdir e.encode
      -- what is moved is what has just been written
      obtain rfl : d' = d := Except.ok.inj (((hput.place_iff _ _).mp hd').symm.trans hd)
      rw [Files.node?_put_self f _ (Files.ne_root hdir)] at hfile
      obtain rfl : e.encode = bytes := Node.file.inj (Option.some.inj hfile)
      have herase : Files.SameDirectories _ ((f.put d' (.file e.encode)).erase d') :=
        Files.SameDirectories.erase (by
          rw [Files.node?_put_self f _ (Files.ne_root hdir)]
          simp)
      have htdir' := mt (herase.directory t).mp htdir
      have hmoved := herase.trans (Files.SameDirectories.put htdir' e.encode)
      exact ⟨t, (hmoved.place_iff _ _).mpr ht,
        Files.node?_put_self _ _ (Files.ne_root htdir')⟩

/-- **Once an entry is stored, its position is looked up**, if its moment is a
timestamp, and otherwise none. -/
theorem load_commit (h : s.commit f e = (f', .ok ())) (position : String) :
    s.load f' = .ok (some position)
      ↔ Text.Timestamp.valid e.moment.toList = true ∧ e.position = position := by
  obtain ⟨t, ht, hn⟩ := commit_ok s h
  rw [load_eq_some_iff]
  constructor
  · rintro ⟨t', bytes, e', ht', hn', hd, rfl⟩
    obtain rfl : t = t' := Except.ok.inj (ht.symm.trans ht')
    obtain rfl : e.encode = bytes := Node.file.inj (Option.some.inj (hn.symm.trans hn'))
    rw [Entry.decode_encode] at hd
    by_cases hv : Text.Timestamp.valid e.moment.toList = true
    · rw [if_pos hv] at hd
      exact ⟨hv, congrArg Entry.position (Except.ok.inj hd)⟩
    · rw [if_neg hv] at hd
      cases hd
  · rintro ⟨hv, hp⟩
    exact ⟨t, e.encode, e, ht, hn, by rw [Entry.decode_encode, if_pos hv], hp⟩

/-- **A commit that fails changes no position that is looked up.** -/
theorem load_commit_error {failure : Failure} (h : s.commit f e = (f', .error failure))
    (position : String) : s.load f' = .ok (some position) ↔ s.load f = .ok (some position) := by
  obtain rfl | hw := commit_error s h
  · exact Iff.rfl
  · exact load_write_draft s hw position

end Checkpoint.FileStore

end Courier
