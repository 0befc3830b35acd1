import Courier.Proofs.Checkpoint.Store
import Courier.Proofs.Files.Beside
/-!
# What goes wrong while positions are stored

Nothing of what can go wrong shows in the file of the last position, since all
of it happens to the other file (`FileStore.load_write_draft_eq`). So whatever is stored and looked up, and
whatever goes wrong on the way, the position that is looked up is the last one
of which the store has said that it is stored (`FileStore.load_run`).
-/

namespace Courier.Checkpoint.FileStore

/-! ## The other file -/

variable (s : FileStore) {f f' : Files} {bytes : List UInt8}

/-- The name of the other file is not the one of the file. -/
theorem fileName?_ne_draftName :
    Path.fileName? s.path ≠ some ((Path.fileName? s.path).getD [] ++ ".tmp".toList) := by
  cases Path.fileName? s.path with
  | none => exact fun h => nomatch h
  | some name =>
    intro h
    have hlen := congrArg List.length (Option.some.inj h)
    rw [Option.getD_some, List.length_append] at hlen
    exact absurd hlen (Nat.ne_of_lt (Nat.lt_add_of_pos_right (by decide)))

/-- The name of a file holds no slash. -/
theorem slash_notMem_fileName : '/' ∉ (Path.fileName? s.path).getD [] := by
  cases h : Path.fileName? s.path with
  | none => exact List.not_mem_nil
  | some name => exact (fileName?_eq_some h).2.2.2

/-- **Writing the other file** leaves the path of the file as it is. -/
theorem place_write_draft (h : f.write s.draft bytes = .ok f') :
    f'.place s.path = f.place s.path := by
  obtain ⟨d, hd, hdir, rfl⟩ := Files.write_ok h
  obtain ⟨hidle, hback⟩ := draftName_leads ((Path.fileName? s.path).getD [])
  exact Files.place_put_beside (draftName_ok s.slash_notMem_fileName).1 hidle hback
    s.fileName?_ne_draftName hd hdir bytes

/-- **Whatever is written to the other file**, the same is read from the file, or cannot be
read for the same reason. -/
theorem read_write_draft (h : f.write s.draft bytes = .ok f') :
    f'.read s.path = f.read s.path := by
  have hplace := s.place_write_draft h
  obtain ⟨d, hd, hdir, rfl⟩ := Files.write_ok h
  unfold Files.read Files.open?
  rw [hplace]
  cases ht : f.place s.path with
  | error e => rfl
  | ok t =>
    have hnode := Files.node?_put_of_ne f (.file bytes) (Ne.symm (draft_place_ne s hd ht))
    simp only [bind, Except.bind, hnode]

/-- **Whatever is written to the other file**, the same is looked up. -/
theorem load_write_draft_eq (h : f.write s.draft bytes = .ok f') : s.load f' = s.load f := by
  unfold load
  rw [s.read_write_draft h]

/-- **A commit that fails leaves what is looked up as it is.** -/
theorem load_commit_error_eq {e : Entry} {failure : Failure}
    (h : s.commit f e = (f', .error failure)) : s.load f' = s.load f := by
  obtain rfl | hwrite := commit_error s h
  · rfl
  · exact s.load_write_draft_eq hwrite

theorem stage_unavailable {e : Entry} {failure : Failure} (h : s.stage f e = .error failure) :
    ∃ message, failure = .storeUnavailable message := by
  obtain ⟨error, -, rfl⟩ := mapError_eq_error h
  exact ⟨_, rfl⟩

/-- **A commit that fails has the store unavailable.** -/
theorem commit_unavailable {e : Entry} {failure : Failure}
    (h : (s.commit f e).2 = .error failure) : ∃ message, failure = .storeUnavailable message := by
  unfold commit at h
  cases hstage : s.stage f e with
  | error failure' =>
    rw [hstage] at h
    obtain rfl := Except.error.inj h
    exact s.stage_unavailable hstage
  | ok g =>
    rw [hstage] at h
    dsimp only at h
    cases hpublish : s.publish g with
    | error failure' =>
      rw [hpublish] at h
      obtain rfl := Except.error.inj h
      obtain ⟨error, -, rfl⟩ := mapError_eq_error hpublish
      exact ⟨_, rfl⟩
    | ok g' =>
      rw [hpublish] at h
      cases h

/-! ## Mishaps -/

/-- **Whatever is left in the other file**, the same is looked up. -/
theorem load_leave (f : Files) (left : Option (List UInt8)) :
    s.load (s.leave f left) = s.load f := by
  unfold leave
  split
  · rfl
  · split
    · next f' hwrite => exact s.load_write_draft_eq hwrite
    · rfl

/-- **A commit that fails, however it does**, has the store unavailable and leaves what is
looked up as it is. -/
theorem commitAmid_error {e : Entry} {mishap : Mishap} {failure : Failure}
    (h : s.commitAmid f e mishap = (f', .error failure)) :
    (∃ message, failure = .storeUnavailable message) ∧ s.load f' = s.load f := by
  cases mishap with
  | none =>
    have hcommit : s.commit f e = (f', .error failure) := h
    exact ⟨s.commit_unavailable (congrArg Prod.snd hcommit), s.load_commit_error_eq hcommit⟩
  | writing error left =>
    obtain ⟨rfl, hfailure⟩ := Prod.mk.inj h
    exact ⟨⟨_, (Except.error.inj hfailure).symm⟩, s.load_leave f left⟩
  | moving error =>
    unfold commitAmid at h
    cases hstage : s.stage f e with
    | error failure' =>
      rw [hstage] at h
      obtain ⟨rfl, hfailure⟩ := Prod.mk.inj h
      obtain rfl := Except.error.inj hfailure
      exact ⟨s.stage_unavailable hstage, rfl⟩
    | ok g =>
      rw [hstage] at h
      obtain ⟨rfl, hfailure⟩ := Prod.mk.inj h
      exact ⟨⟨_, (Except.error.inj hfailure).symm⟩, s.load_write_draft_eq (mapError_eq_ok hstage)⟩

/-- **A commit that succeeds** has its position looked up, whatever the position is. -/
theorem commitAmid_ok {e : Entry} {mishap : Mishap} (h : s.commitAmid f e mishap = (f', .ok ()))
    (he : Text.Timestamp.valid e.moment.toList = true) :
    s.load f' = .ok (some e.position) := by
  cases mishap with
  | none =>
    have hcommit : s.commit f e = (f', .ok ()) := h
    exact (s.load_commit hcommit e.position).mpr ⟨he, rfl⟩
  | writing error left => cases (Prod.mk.inj h).2
  | moving error =>
    unfold commitAmid at h
    cases hstage : s.stage f e with
    | error failure =>
      rw [hstage] at h
      cases (Prod.mk.inj h).2
    | ok g =>
      rw [hstage] at h
      cases (Prod.mk.inj h).2

/-! ## Calls -/

/-- The position that is stored by a call, if the store has said so. -/
def stored? : Call × Answer → Option String
  | (.commit position _ _, .committed (.ok ())) => some position
  | _ => none

/-- **The position of the last commit that succeeded.** -/
def lastStored (answers : List (Call × Answer)) : Option String :=
  (answers.filterMap stored?).getLast?

/-- **One call changes what is looked up** when it has stored a position, and only then. -/
theorem load_call (f : Files) (c : Call) :
    s.load (s.call f c).1
      = match stored? (c, (s.call f c).2) with
        | some position => .ok (some position)
        | none => s.load f := by
  cases c with
  | load => rfl
  | crash left => exact s.load_leave f left
  | commit position moment mishap =>
    cases hcommit : s.commitAmid f ⟨position, moment.text⟩ mishap with
    | mk f' result =>
      have hcall : s.call f (.commit position moment mishap) = (f', .committed result) := by
        simp only [call, hcommit]
      rw [hcall]
      cases result with
      | ok u =>
        have hstored : stored? (.commit position moment mishap, .committed (.ok u))
            = some position := rfl
        rw [hstored]
        exact s.commitAmid_ok hcommit moment.valid
      | error failure =>
        have hstored : stored? (.commit position moment mishap, .committed (.error failure))
            = none := rfl
        rw [hstored]
        exact (s.commitAmid_error hcommit).2

/-- **Several calls change what is looked up** to the last position that they have stored. -/
theorem load_run_of_load (calls : List Call) : ∀ {f : Files} {last : Option String},
    s.load f = .ok last →
    s.load (s.run f calls).1 = .ok ((lastStored (s.run f calls).2).or last) := by
  induction calls with
  | nil => exact fun h => h
  | cons c rest ih =>
    intro f last h
    have hcall := s.load_call f c
    have hrun : s.run f (c :: rest) = ((s.run (s.call f c).1 rest).1,
        (c, (s.call f c).2) :: (s.run (s.call f c).1 rest).2) := rfl
    rw [hrun]
    unfold lastStored
    rw [List.filterMap_cons]
    cases hstored : stored? (c, (s.call f c).2) with
    | none =>
      rw [hstored] at hcall
      exact ih (hcall.trans h)
    | some position =>
      rw [hstored] at hcall
      dsimp only
      rw [ih hcall, List.getLast?_cons, lastStored]
      cases (List.filterMap stored? (s.run (s.call f c).1 rest).2).getLast? <;> rfl

/-- **What is looked up is the last position that is stored.** There is no file at first;
then positions are stored and looked up, and whatever goes wrong, what is looked up is the
position of the last commit that has succeeded. A commit that fails has the store
unavailable and leaves it at that, and so does a process that ends between the two halves
of a commit. -/
theorem load_run {f : Files} (hnone : f.read s.path = .error .notFound) (calls : List Call) :
    s.load (s.run f calls).1 = .ok (lastStored (s.run f calls).2) ∧
    (∀ e mishap f' failure, s.commitAmid (s.run f calls).1 e mishap = (f', .error failure) →
      (∃ message, failure = .storeUnavailable message) ∧ s.load f' = s.load (s.run f calls).1) ∧
    ∀ left, s.load (s.leave (s.run f calls).1 left) = s.load (s.run f calls).1 := by
  have hload : s.load f = .ok none := by
    unfold load
    rw [hnone]
    rfl
  have hrun := s.load_run_of_load calls hload
  rw [Option.or_none] at hrun
  exact ⟨hrun, fun e mishap f' failure h => s.commitAmid_error h, s.load_leave _⟩

/-- A position with quotes and a new line in it is stored. The next one is not written,
then the process ends, and then the other file is not moved. -/
theorem load_run_unlucky :
    let s : FileStore := ⟨"cp.json"⟩
    let moment : Moment := ⟨"1970-01-01T00:00:00Z", by decide⟩
    let calls : List Call := [.commit "\"1\"\n" moment .none,
      .commit "2" moment (.writing (.code 28) (some [34, 50])), .crash (some []),
      .commit "2" moment (.moving (.code 5))]
    Files.empty.read s.path = .error .notFound ∧
      lastStored (s.run .empty calls).2 = some "\"1\"\n" ∧
      s.load (s.run .empty calls).1 = .ok (lastStored (s.run .empty calls).2) :=
  ⟨rfl, rfl, (load_run ⟨"cp.json"⟩ rfl _).1⟩

end Courier.Checkpoint.FileStore
