import Courier.Document.Value
import Mathlib.Data.List.Basic
/-!
# Tables in the order of their keys

A table that is put together entry by entry keeps its keys in their order, and each key
has one entry, which is found under it.
-/

namespace Courier.Document

/-- What is found in a table is its first entry, or found in the others. -/
theorem lookup_cons_eq {α : Type} (key other : String) (value : α)
    (rest : List (String × α)) :
    ((key, value) :: rest).lookup other
      = if other = key then some value else rest.lookup other := by
  rw [List.lookup_cons]
  by_cases h : other = key
  · rw [if_pos h, beq_iff_eq.mpr h]
  · rw [if_neg h, beq_false_of_ne h]

/-- An entry put into a table is found there, and the others are found as before. -/
theorem lookup_insertSorted {α : Type} (key other : String) (value : α)
    (entries : List (String × α)) :
    (insertSorted key value entries).lookup other
      = if other = key then some value else entries.lookup other := by
  induction entries with
  | nil => rw [insertSorted, lookup_cons_eq]
  | cons entry rest ih =>
    obtain ⟨k, v⟩ := entry
    rw [insertSorted]
    split
    · next heq => rw [lookup_cons_eq, lookup_cons_eq, ← heq]; split <;> rfl
    · next hne =>
      split
      · rw [lookup_cons_eq]
      · rw [lookup_cons_eq, lookup_cons_eq, ih]
        by_cases hk : other = k
        · rw [if_pos hk, if_pos hk, if_neg (hk ▸ Ne.symm hne)]
        · rw [if_neg hk, if_neg hk]

variable {α : Type} {key : String} {entries : List (String × α)}

/-- A table into which an entry is put has that entry and those that it had. -/
theorem mem_insertSorted {entry : String × α} {value : α}
    (h : entry ∈ insertSorted key value entries) : entry = (key, value) ∨ entry ∈ entries := by
  induction entries with
  | nil => exact .inl (List.mem_singleton.mp h)
  | cons other rest ih =>
    obtain ⟨k, v⟩ := other
    rw [insertSorted] at h
    split at h
    · exact (List.mem_cons.mp h).imp id (List.mem_cons_of_mem _)
    · split at h
      · exact List.mem_cons.mp h
      · obtain rfl | h := List.mem_cons.mp h
        · exact .inr List.mem_cons_self
        · exact (ih h).imp id (List.mem_cons_of_mem _)

/-- A table into which an entry is put has the key of that entry and those that it had. -/
theorem mem_keys_insertSorted {k : String} {value : α}
    (h : k ∈ (insertSorted key value entries).map (·.1)) :
    k = key ∨ k ∈ entries.map (·.1) := by
  induction entries with
  | nil => exact .inl (List.mem_singleton.mp h)
  | cons entry rest ih =>
    obtain ⟨k', v⟩ := entry
    rw [insertSorted] at h
    split at h
    · exact (List.mem_cons.mp h).imp id (List.mem_cons_of_mem _)
    · split at h
      · exact List.mem_cons.mp h
      · obtain rfl | h := List.mem_cons.mp h
        · exact .inr List.mem_cons_self
        · exact (ih h).imp id (List.mem_cons_of_mem _)

/-- **Keys that go up** still do when an entry is put into the table. -/
theorem pairwise_insertSorted (value : α) (h : (entries.map (·.1)).Pairwise (· < ·)) :
    ((insertSorted key value entries).map (·.1)).Pairwise (· < ·) := by
  induction entries with
  | nil => exact List.pairwise_singleton _ _
  | cons entry rest ih =>
    obtain ⟨k, v⟩ := entry
    obtain ⟨hfirst, hrest⟩ := List.pairwise_cons.mp h
    rw [insertSorted]
    split
    · next heq => exact List.pairwise_cons.mpr ⟨heq ▸ hfirst, hrest⟩
    · next hne =>
      split
      · next hlt =>
        refine List.pairwise_cons.mpr ⟨fun k' hk => ?_, h⟩
        obtain rfl | hk := List.mem_cons.mp hk
        · exact hlt
        · exact String.lt_trans hlt (hfirst k' hk)
      · next hnlt =>
        have hlt : k < key := Std.lt_of_le_of_ne (String.not_lt.mp hnlt) (Ne.symm hne)
        refine List.pairwise_cons.mpr ⟨fun k' hk => ?_, ih hrest⟩
        obtain rfl | hk := mem_keys_insertSorted hk
        · exact hlt
        · exact hfirst k' hk

/-- A key before all others is not found among them. -/
theorem lookup_of_lt (h : ∀ k ∈ entries.map (·.1), key < k) : entries.lookup key = none := by
  refine List.lookup_eq_none_iff.mpr fun entry he => bne_iff_ne.mpr fun heq => ?_
  have hlt := h entry.1 (List.mem_map_of_mem he)
  rw [← heq] at hlt
  exact String.lt_irrefl key hlt

/-- **An entry whose key comes after all others** is put behind them. -/
theorem insertSorted_of_lt (value : α) (h : ∀ k ∈ entries.map (·.1), k < key) :
    insertSorted key value entries = entries ++ [(key, value)] := by
  induction entries with
  | nil => rfl
  | cons entry rest ih =>
    obtain ⟨k, v⟩ := entry
    have hk : k < key := h k List.mem_cons_self
    have hne : ¬key = k := fun heq => String.lt_irrefl k (heq ▸ hk)
    have hnlt : ¬key < k := fun hlt => String.lt_irrefl k (String.lt_trans hk hlt)
    rw [insertSorted, if_neg hne, if_neg hnlt,
      ih fun k' hk' => h k' (List.mem_cons_of_mem _ hk')]
    rfl

theorem mem_of_lookup {value : α} (h : entries.lookup key = some value) :
    (key, value) ∈ entries := by
  obtain ⟨xs, ys, rfl, -⟩ := List.lookup_eq_some_iff.mp h
  exact List.mem_append_right xs List.mem_cons_self

/-- **An entry is found under its key** when the keys are different. -/
theorem lookup_of_mem {entry : String × α} (hnodup : (entries.map (·.1)).Nodup)
    (h : entry ∈ entries) : entries.lookup entry.1 = some entry.2 := by
  obtain ⟨xs, ys, rfl⟩ := List.append_of_mem h
  refine List.lookup_eq_some_iff.mpr ⟨xs, ys, rfl, fun e he => bne_iff_ne.mpr fun heq => ?_⟩
  rw [List.map_append, List.nodup_append] at hnodup
  exact hnodup.2.2 e.1 (List.mem_map_of_mem he) entry.1 List.mem_cons_self heq.symm

/-- Keys that go up are different. -/
theorem nodup_of_pairwise (h : (entries.map (·.1)).Pairwise (· < ·)) :
    (entries.map (·.1)).Nodup := by
  refine h.imp ?_
  rintro k _ hlt rfl
  exact String.lt_irrefl k hlt

/-- An entry put into a table twice is there as it was put there last. -/
theorem insertSorted_insertSorted (value value' : α) :
    insertSorted key value' (insertSorted key value entries) = insertSorted key value' entries := by
  induction entries with
  | nil => exact if_pos rfl
  | cons entry rest ih =>
    obtain ⟨k, v⟩ := entry
    simp only [insertSorted]
    by_cases heq : key = k
    · rw [if_pos heq, if_pos heq, insertSorted, if_pos rfl]
    · rw [if_neg heq, if_neg heq]
      by_cases hlt : key < k
      · rw [if_pos hlt, if_pos hlt, insertSorted, if_pos rfl]
      · rw [if_neg hlt, if_neg hlt, insertSorted, if_neg heq, if_neg hlt, ih]

/-- **Tables in order with the same to be found are the same.** -/
theorem eq_of_lookup {entries' : List (String × α)} (h : (entries.map (·.1)).Pairwise (· < ·))
    (h' : (entries'.map (·.1)).Pairwise (· < ·))
    (hsame : ∀ key, entries.lookup key = entries'.lookup key) : entries = entries' := by
  induction entries generalizing entries' with
  | nil =>
    cases entries' with
    | nil => rfl
    | cons entry' rest' => exact nomatch (hsame entry'.1).trans List.lookup_cons_self
  | cons entry rest ih =>
    obtain ⟨k, v⟩ := entry
    cases entries' with
    | nil => exact nomatch (hsame k).symm.trans List.lookup_cons_self
    | cons entry' rest' =>
      obtain ⟨k', v'⟩ := entry'
      obtain ⟨hfirst, hrest⟩ := List.pairwise_cons.mp h
      obtain ⟨hfirst', hrest'⟩ := List.pairwise_cons.mp h'
      -- the first key of one table is found in the other, so it does not come before its keys
      have hnlt : ¬k < k' := fun hlt => by
        have hfound := (hsame k).symm.trans List.lookup_cons_self
        have hmissing : ((k', v') :: rest').lookup k = none := lookup_of_lt fun key hkey => by
          obtain rfl | hkey := List.mem_cons.mp hkey
          · exact hlt
          · exact String.lt_trans hlt (hfirst' key hkey)
        cases hmissing.symm.trans hfound
      have hnlt' : ¬k' < k := fun hlt => by
        have hfound := (hsame k').trans List.lookup_cons_self
        have hmissing : ((k, v) :: rest).lookup k' = none := lookup_of_lt fun key hkey => by
          obtain rfl | hkey := List.mem_cons.mp hkey
          · exact hlt
          · exact String.lt_trans hlt (hfirst key hkey)
        cases hmissing.symm.trans hfound
      obtain rfl : k = k' := String.le_antisymm (String.not_lt.mp hnlt') (String.not_lt.mp hnlt)
      have hvalue : v = v' := by
        have heq := hsame k
        rw [List.lookup_cons_self, List.lookup_cons_self] at heq
        exact Option.some.inj heq
      rw [hvalue, ih hrest hrest' fun key => ?_]
      by_cases hkey : key = k
      · rw [hkey, lookup_of_lt hfirst, lookup_of_lt hfirst']
      · have heq := hsame key
        rwa [lookup_cons_eq, lookup_cons_eq, if_neg hkey, if_neg hkey] at heq

/-- What is found last in a table is found last in its other entries, or is its first entry. -/
theorem lookupLast_cons (other : String) (value : α) :
    lookupLast ((other, value) :: entries) key
      = (lookupLast entries key).or (if key = other then some value else none) := by
  unfold lookupLast
  rw [List.reverse_cons, List.find?_append, Option.map_or]
  congr 1
  by_cases h : key = other
  · rw [if_pos h, List.find?_singleton, if_pos (decide_eq_true (p := other = key) h.symm)]
    rfl
  · rw [if_neg h, List.find?_singleton, if_neg (by simpa using Ne.symm h)]
    rfl

/-- What is found last in a table is in it. -/
theorem mem_of_lookupLast {value : α} (h : lookupLast entries key = some value) :
    (key, value) ∈ entries := by
  obtain ⟨⟨k, v⟩, hfind, rfl⟩ := Option.map_eq_some_iff.mp h
  have hkey := List.find?_some hfind
  obtain rfl : k = key := of_decide_eq_true hkey
  exact List.mem_reverse.mp (List.mem_of_find?_eq_some hfind)

/-- Where keys are different, the last entry of a key is the only one. -/
theorem lookupLast_of_nodup (hnodup : (entries.map (·.1)).Nodup) (key : String) :
    lookupLast entries key = entries.lookup key := by
  induction entries with
  | nil => rfl
  | cons entry rest ih =>
    obtain ⟨k, v⟩ := entry
    obtain ⟨hk, hrest⟩ := List.nodup_cons.mp hnodup
    rw [lookupLast_cons, lookup_cons_eq, ih hrest]
    by_cases hkey : key = k
    · have hnone : rest.lookup key = none := List.lookup_eq_none_iff.mpr fun e he =>
        bne_iff_ne.mpr fun heq => hk (List.mem_map.mpr ⟨e, he, heq.symm.trans hkey⟩)
      rw [if_pos hkey, if_pos hkey, hnone]
      rfl
    · rw [if_neg hkey, if_neg hkey]
      exact Option.or_none

/-- **The keys of sorted entries go up**, whether keys were repeated or not. -/
theorem pairwise_sortEntries (entries : List (String × α)) :
    ((sortEntries entries).map (·.1)).Pairwise (· < ·) := by
  have hfold : ∀ sorted : List (String × α), (sorted.map (·.1)).Pairwise (· < ·) →
      ((entries.foldl (fun sorted entry => insertSorted entry.1 entry.2 sorted) sorted).map
        (·.1)).Pairwise (· < ·) := by
    induction entries with
    | nil => exact fun sorted h => h
    | cons entry rest ih => exact fun sorted h => ih _ (pairwise_insertSorted entry.2 h)
  exact hfold [] List.Pairwise.nil

/-- **Among sorted entries the last of repeated keys is found.** -/
theorem lookup_sortEntries (entries : List (String × α)) (key : String) :
    (sortEntries entries).lookup key = lookupLast entries key := by
  have hfold : ∀ sorted : List (String × α),
      (entries.foldl (fun sorted entry => insertSorted entry.1 entry.2 sorted) sorted).lookup key
        = (lookupLast entries key).or (sorted.lookup key) := by
    induction entries with
    | nil => exact fun _ => rfl
    | cons entry rest ih =>
      obtain ⟨k, v⟩ := entry
      intro sorted
      rw [List.foldl_cons, ih, lookupLast_cons, lookup_insertSorted, Option.or_assoc]
      congr 1
      by_cases hkey : key = k
      · rw [if_pos hkey, if_pos hkey]
        rfl
      · rw [if_neg hkey, if_neg hkey]
        rfl
  exact (hfold []).trans Option.or_none

/-- Sorted entries are among those that were sorted. -/
theorem mem_of_mem_sortEntries {entry : String × α} (h : entry ∈ sortEntries entries) :
    entry ∈ entries := by
  have hfound := lookup_of_mem (nodup_of_pairwise (pairwise_sortEntries entries)) h
  rw [lookup_sortEntries] at hfound
  exact mem_of_lookupLast hfound

/-- **Sorted entries** have their keys in order, and the same is found in them. -/
theorem sortEntries_spec (hnodup : (entries.map (·.1)).Nodup) :
    ((sortEntries entries).map (·.1)).Pairwise (· < ·) ∧
      ∀ key, (sortEntries entries).lookup key = entries.lookup key :=
  ⟨pairwise_sortEntries entries, fun key =>
    (lookup_sortEntries entries key).trans (lookupLast_of_nodup hnodup key)⟩

end Courier.Document
