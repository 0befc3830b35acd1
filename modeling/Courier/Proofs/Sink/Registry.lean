import Courier.Proofs.Document.Tables
import Courier.Sink.Client
import Mathlib.Data.Finset.Card
/-!
# One client for each name, until the registry is cleared

A registry is called by many at once, and serves their calls one after another, in
an order that nobody has in hand: a schedule. Whatever the schedule, a name has one
client from the first call that can make it up to the next call to clear the
registry, and everybody who asks for the name in between is handed this client
(`Registry.Told.handed_same`, `Registry.Told.handed_first`). A configuration of which
no client can be made leaves no trace, what is not there is not found, and the size is
the number of names that have a client (`Registry.serve_orderly`).

The state of the registry before each call carries this: a client stays as long as
the registry is not cleared (`Registry.lookup_kept`), and every client that is made
later has a greater number (`Registry.kept_or_later`).
-/

namespace Courier.Sink

open Courier.Document (mem_of_lookup)

namespace Registry

/-- The name that a call asks a client for. -/
def Call.name? : Call → Option String
  | .getOrCreate s => some s.name
  | .get name => some name
  | _ => none

variable {κ : Type}

/-- The registry before a call of a schedule. -/
def before (r : Registry) (schedule : List (κ × Call)) (i : Nat) : Registry :=
  (r.serve (schedule.take i)).1

/-- **The call at a place of a schedule, and what its caller is told.** -/
def Told (r : Registry) (schedule : List (κ × Call)) (i : Nat) (call : Call) (reply : Reply) :
    Prop :=
  ∃ who, schedule[i]? = some (who, call) ∧ (r.serve schedule).2[i]? = some (who, reply)

/-- No call from one place of a schedule up to another one clears the registry. -/
def Calm (schedule : List (κ × Call)) (i j : Nat) : Prop :=
  ∀ k who, i ≤ k → k < j → schedule[k]? ≠ some (who, .clear)

/-- **A name that has a client**: since the registry was last cleared, a call for the client
of a configuration of this name has succeeded. -/
def Stands (schedule : List (κ × Call)) (i : Nat) (name : String) : Prop :=
  ∃ j s h, j < i ∧ Calm schedule j i ∧ Told {} schedule j (.getOrCreate s) (.client (.ok h)) ∧
    s.name = name

/-! ## One call -/

/-- **A call for the client of a configuration** hands out the one of its name that is there;
or there is none of its name, and none can be made, or the one that is made is put there. -/
theorem getOrCreate_cases (r : Registry) (s : SinkSettings) :
    (∃ h, r.clients.lookup s.name = some h ∧ r.getOrCreate s = (r, .ok h)) ∨
    (∃ e, r.clients.lookup s.name = none ∧ Client.ofSettings s = .error e ∧
      r.getOrCreate s = (r, .error e)) ∨
    (∃ c, r.clients.lookup s.name = none ∧ Client.ofSettings s = .ok c ∧
      r.getOrCreate s
        = (⟨(s.name, ⟨r.made, c⟩) :: r.clients, r.made + 1⟩, .ok ⟨r.made, c⟩)) := by
  unfold getOrCreate
  cases hl : r.clients.lookup s.name with
  | some h => exact .inl ⟨h, rfl, rfl⟩
  | none =>
    cases hc : Client.ofSettings s with
    | error e => exact .inr (.inl ⟨e, rfl, rfl, rfl⟩)
    | ok c => exact .inr (.inr ⟨c, rfl, rfl, rfl⟩)

/-- **What a call does to a registry**: it is cleared, or a client is made that was not
there, or it stays as it is. -/
theorem answer_cases (r : Registry) (call : Call) :
    (call = .clear ∧ (r.answer call).1 = r.clear) ∨
    (∃ s c, call = .getOrCreate s ∧ r.clients.lookup s.name = none ∧
      Client.ofSettings s = .ok c ∧
      (r.answer call).1 = ⟨(s.name, ⟨r.made, c⟩) :: r.clients, r.made + 1⟩) ∨
    (call ≠ .clear ∧ (r.answer call).1 = r) := by
  cases call with
  | clear => exact .inl ⟨rfl, rfl⟩
  | get name => exact .inr (.inr ⟨nofun, rfl⟩)
  | size => exact .inr (.inr ⟨nofun, rfl⟩)
  | getOrCreate s =>
    have hstate : (r.answer (.getOrCreate s)).1 = (r.getOrCreate s).1 := rfl
    obtain ⟨h, hl, heq⟩ | ⟨e, hl, hc, heq⟩ | ⟨c, hl, hc, heq⟩ := r.getOrCreate_cases s
    · exact .inr (.inr ⟨nofun, by rw [hstate, heq]⟩)
    · exact .inr (.inr ⟨nofun, by rw [hstate, heq]⟩)
    · exact .inr (.inl ⟨s, c, rfl, hl, hc, by rw [hstate, heq]⟩)

/-- **A client that is handed out for a name is the one of this name** in the registry after
the call. -/
theorem lookup_of_handed {r : Registry} {call : Call} {name : String} {h : Handle}
    (hname : call.name? = some name) (hr : (r.answer call).2 = .client (.ok h)) :
    (r.answer call).1.clients.lookup name = some h := by
  cases call with
  | size => cases hname
  | clear => cases hname
  | get n =>
    obtain rfl := Option.some.inj hname
    have hget : r.get n = .ok h := Reply.client.inj hr
    unfold Registry.get at hget
    split at hget
    · next h' hl => exact hl.trans (congrArg some (Except.ok.inj hget))
    · cases hget
  | getOrCreate s =>
    obtain rfl := Option.some.inj hname
    have hres : (r.getOrCreate s).2 = .ok h := Reply.client.inj hr
    show (r.getOrCreate s).1.clients.lookup s.name = some h
    obtain ⟨h', hl, heq⟩ | ⟨e, hl, hc, heq⟩ | ⟨c, hl, hc, heq⟩ := r.getOrCreate_cases s
    · rw [heq] at hres ⊢
      exact hl.trans (congrArg some (Except.ok.inj hres))
    · rw [heq] at hres
      cases hres
    · rw [heq] at hres ⊢
      exact List.lookup_cons_self.trans (congrArg some (Except.ok.inj hres))

/-- **A registry in order**: the names in it are different, and every client has a number
of its own, which the clients to come are not given. -/
structure Sound (r : Registry) : Prop where
  /-- The names are different. -/
  names : (r.clients.map (·.1)).Nodup
  /-- What was made later has the greater number. -/
  serials : (r.clients.map (·.2.serial)).Pairwise (· > ·)
  /-- The numbers are below the next one. -/
  below : ∀ entry ∈ r.clients, entry.2.serial < r.made

theorem sound_empty : ({} : Registry).Sound where
  names := List.nodup_nil
  serials := List.Pairwise.nil
  below _ h := absurd h List.not_mem_nil

/-- A name that is not found is not there. -/
theorem not_mem_names {clients : List (String × Handle)} {name : String}
    (h : clients.lookup name = none) : name ∉ clients.map (·.1) := by
  intro hin
  obtain ⟨entry, he, rfl⟩ := List.mem_map.mp hin
  exact absurd (beq_self_eq_true entry.1) (by simpa using List.lookup_eq_none_iff.mp h entry he)

/-- **Every call leaves a registry in order.** -/
theorem Sound.answer {r : Registry} (hr : r.Sound) (call : Call) : (r.answer call).1.Sound := by
  obtain ⟨-, heq⟩ | ⟨s, c, -, hl, -, heq⟩ | ⟨-, heq⟩ := r.answer_cases call
  · rw [heq]
    exact ⟨List.nodup_nil, List.Pairwise.nil, fun _ h => absurd h List.not_mem_nil⟩
  · rw [heq]
    refine ⟨List.nodup_cons.mpr ⟨not_mem_names hl, hr.names⟩,
      List.pairwise_cons.mpr ⟨fun n hn => ?_, hr.serials⟩, fun entry he => ?_⟩
    · obtain ⟨entry, he, rfl⟩ := List.mem_map.mp hn
      exact hr.below entry he
    · obtain rfl | he := List.mem_cons.mp he
      · exact Nat.lt_succ_self _
      · exact Nat.lt_succ_of_lt (hr.below entry he)
  · rw [heq]
    exact hr

/-! ## A schedule -/

variable {r : Registry} {schedule : List (κ × Call)} {i j : Nat}

/-- **Calls served one after another.** -/
theorem serve_append (r : Registry) (xs ys : List (κ × Call)) :
    r.serve (xs ++ ys)
      = (((r.serve xs).1.serve ys).1, (r.serve xs).2 ++ ((r.serve xs).1.serve ys).2) := by
  induction xs generalizing r with
  | nil => rfl
  | cons x xs ih =>
    rw [List.cons_append, serve, ih]
    rfl

/-- Every caller is told something, in the order of the schedule. -/
theorem callers_serve (r : Registry) (schedule : List (κ × Call)) :
    (r.serve schedule).2.map (·.1) = schedule.map (·.1) := by
  induction schedule generalizing r with
  | nil => rfl
  | cons x rest ih => exact congrArg (x.1 :: ·) (ih (r.answer x.2).1)

theorem take_succ {who : κ} {call : Call} (h : schedule[i]? = some (who, call)) :
    schedule.take (i + 1) = schedule.take i ++ [(who, call)] := by
  rw [List.take_add_one, h]
  rfl

/-- **A call is answered by the registry before it.** -/
theorem before_succ {who : κ} {call : Call} (h : schedule[i]? = some (who, call)) :
    r.before schedule (i + 1) = ((r.before schedule i).answer call).1 := by
  unfold before
  rw [take_succ h, serve_append]
  rfl

theorem before_succ_of_none (h : schedule[i]? = none) :
    r.before schedule (i + 1) = r.before schedule i := by
  unfold before
  rw [List.take_add_one, h, Option.toList_none, List.append_nil]

/-- **What a caller is told** is the answer of the registry before the call. -/
theorem told_iff {call : Call} {reply : Reply} :
    Told r schedule i call reply
      ↔ (∃ who, schedule[i]? = some (who, call)) ∧
        reply = ((r.before schedule i).answer call).2 := by
  have hreply : ∀ who, schedule[i]? = some (who, call) →
      (r.serve schedule).2[i]? = some (who, ((r.before schedule i).answer call).2) := by
    intro who h
    obtain ⟨hi, -⟩ := List.getElem?_eq_some_iff.mp h
    have hlength : (r.serve (schedule.take i)).2.length = i := by
      have hcallers := congrArg List.length (callers_serve r (schedule.take i))
      rw [List.length_map, List.length_map, List.length_take] at hcallers
      omega
    have hserve : r.serve schedule
        = r.serve (schedule.take i ++ ((who, call) :: schedule.drop (i + 1))) := by
      rw [List.append_cons, ← take_succ h, List.take_append_drop]
    rw [hserve, serve_append]
    dsimp only
    rw [List.getElem?_append_right (Nat.le_of_eq hlength), hlength, Nat.sub_self]
    rfl
  constructor
  · rintro ⟨who, h, hr⟩
    refine ⟨⟨who, h⟩, ?_⟩
    rw [hreply who h] at hr
    exact (Prod.mk.inj (Option.some.inj hr)).2.symm
  · rintro ⟨⟨who, h⟩, rfl⟩
    exact ⟨who, h, hreply who h⟩

/-- A registry that was in order is so before each call. -/
theorem Sound.before (hr : r.Sound) (schedule : List (κ × Call)) :
    ∀ i, (r.before schedule i).Sound := by
  intro i
  induction i with
  | zero => exact hr
  | succ i ih =>
    cases h : schedule[i]? with
    | none => rw [before_succ_of_none h]; exact ih
    | some x => rw [before_succ h]; exact ih.answer x.2

/-! ## From one call to a later one -/

theorem Calm.mono {i' j' : Nat} (h : Calm schedule i j) (hi : i ≤ i') (hj : j' ≤ j) :
    Calm schedule i' j' :=
  fun k who hk hk' => h k who (Nat.le_trans hi hk) (Nat.lt_of_lt_of_le hk' hj)

/-- One call more that does not clear the registry. -/
theorem Calm.snoc (h : Calm schedule i j) (hj : ∀ who, schedule[j]? ≠ some (who, .clear)) :
    Calm schedule i (j + 1) := by
  intro k who hk hk'
  obtain hk' | rfl := Nat.lt_succ_iff_lt_or_eq.mp hk'
  · exact h k who hk hk'
  · exact hj who

/-- A call that asks for a client clears nothing. -/
theorem Calm.cons {who : κ} {call : Call} (hi : schedule[i]? = some (who, call))
    (hc : call ≠ .clear) (h : Calm schedule (i + 1) j) : Calm schedule i j := by
  intro k who' hk hk'
  obtain rfl | hk := Nat.eq_or_lt_of_le hk
  · rw [hi]
    exact fun heq => hc (Prod.mk.inj (Option.some.inj heq)).2
  · exact h k who' hk hk'

/-- **A client stays as long as the registry is not cleared.** -/
theorem lookup_kept {name : String} {h : Handle} (hij : i ≤ j) (hcalm : Calm schedule i j)
    (hl : (r.before schedule i).clients.lookup name = some h) :
    (r.before schedule j).clients.lookup name = some h := by
  induction j, hij using Nat.le_induction with
  | base => exact hl
  | succ j hij ih =>
    have ih := ih (hcalm.mono (Nat.le_refl i) (Nat.le_succ j))
    cases hj : schedule[j]? with
    | none => rw [before_succ_of_none hj]; exact ih
    | some x =>
      rw [before_succ hj]
      obtain ⟨hc, -⟩ | ⟨s, c, -, hnone, -, heq⟩ | ⟨-, heq⟩ :=
        (r.before schedule j).answer_cases x.2
      · exact absurd (by rw [hj, ← hc]) (hcalm j x.1 hij (Nat.lt_succ_self j))
      · -- a client of another name comes in front of it
        rw [heq, List.lookup_cons, beq_false_of_ne]
        · exact ih
        · rintro rfl
          exact absurd (hnone.symm.trans ih) nofun
      · rw [heq]
        exact ih

/-- **Every client of a later registry** was there before, and the registry has not been
cleared since, or it has a number that was not given before. -/
theorem kept_or_later (hij : i ≤ j) :
    (r.before schedule i).made ≤ (r.before schedule j).made ∧
      ∀ entry ∈ (r.before schedule j).clients,
        (entry ∈ (r.before schedule i).clients ∧ Calm schedule i j) ∨
          (r.before schedule i).made ≤ entry.2.serial := by
  induction j, hij using Nat.le_induction with
  | base =>
    exact ⟨Nat.le_refl _, fun entry he =>
      .inl ⟨he, fun k _ hk hk' => absurd hk' (Nat.not_lt.mpr hk)⟩⟩
  | succ j hij ih =>
    obtain ⟨hmade, hkept⟩ := ih
    cases hj : schedule[j]? with
    | none =>
      rw [before_succ_of_none hj]
      refine ⟨hmade, fun entry he => (hkept entry he).imp_left fun h => ⟨h.1, h.2.snoc ?_⟩⟩
      exact fun who heq => nomatch hj.symm.trans heq
    | some x =>
      rw [before_succ hj]
      obtain ⟨-, heq⟩ | ⟨s, c, hcall, -, -, heq⟩ | ⟨hc, heq⟩ :=
        (r.before schedule j).answer_cases x.2
      · rw [heq]
        exact ⟨hmade, fun _ h => absurd h List.not_mem_nil⟩
      · rw [heq]
        refine ⟨Nat.le_succ_of_le hmade, fun entry he => ?_⟩
        obtain rfl | he := List.mem_cons.mp he
        · exact .inr hmade
        · refine (hkept entry he).imp_left fun h => ⟨h.1, h.2.snoc fun who hclear => ?_⟩
          rw [hj, Option.some.injEq] at hclear
          exact nomatch hcall.symm.trans (congrArg Prod.snd hclear)
      · rw [heq]
        refine ⟨hmade, fun entry he => (hkept entry he).imp_left fun h => ⟨h.1, h.2.snoc ?_⟩⟩
        exact fun who hclear => hc (congrArg Prod.snd (Option.some.inj (hj.symm.trans hclear)))

/-- **The call that has made a client**, seen from a later one: the registry has not been
cleared since, and before it there was no client of the name. -/
structure Makes (schedule : List (κ × Call)) (i : Nat) (s : SinkSettings) (h : Handle) (j : Nat) :
    Prop where
  /-- It was earlier. -/
  lt : i < j
  /-- It is for the client of the configuration. -/
  call : ∃ who, schedule[i]? = some (who, .getOrCreate s)
  /-- The client is the one of the configuration. -/
  client : Client.ofSettings s = .ok h.client
  /-- The registry has not been cleared since. -/
  calm : Calm schedule i j
  /-- There was no client of the name before. -/
  fresh : (({} : Registry).before schedule i).clients.lookup s.name = none
  /-- There was one after it. -/
  found : (({} : Registry).before schedule (i + 1)).clients.lookup s.name = some h

/-- A call that clears nothing lets it be so. -/
theorem Makes.succ {s : SinkSettings} {h : Handle} (hm : Makes schedule i s h j)
    (hj : ∀ who, schedule[j]? ≠ some (who, .clear)) : Makes schedule i s h (j + 1) where
  lt := Nat.lt_succ_of_lt hm.lt
  call := hm.call
  client := hm.client
  calm := hm.calm.snoc hj
  fresh := hm.fresh
  found := hm.found

/-- **Every client comes from a call** that has made it. -/
theorem exists_makes {name : String} {h : Handle}
    (hl : (({} : Registry).before schedule j).clients.lookup name = some h) :
    ∃ i s, s.name = name ∧ Makes schedule i s h j := by
  induction j with
  | zero => cases hl
  | succ j ih =>
    -- a client that was there before the last call
    have earlier (hl : (({} : Registry).before schedule j).clients.lookup name = some h)
        (hclear : ∀ who, schedule[j]? ≠ some (who, .clear)) :
        ∃ i s, s.name = name ∧ Makes schedule i s h (j + 1) := by
      obtain ⟨i, s, hname, hm⟩ := ih hl
      exact ⟨i, s, hname, hm.succ hclear⟩
    cases hj : schedule[j]? with
    | none =>
      rw [before_succ_of_none hj] at hl
      exact earlier hl fun who heq => nomatch hj.symm.trans heq
    | some x =>
      have hstep := before_succ (r := {}) hj
      obtain ⟨-, heq⟩ | ⟨s, c, hcall, hnone, hc, heq⟩ | ⟨hne, heq⟩ :=
        (({} : Registry).before schedule j).answer_cases x.2
      · rw [hstep, heq] at hl
        cases hl
      · by_cases hname : s.name = name
        · subst hname
          have hfound := hl
          rw [hstep, heq, List.lookup_cons_self] at hl
          refine ⟨j, s, rfl, Nat.lt_succ_self j, ⟨x.1, by rw [hj, ← hcall]⟩, ?_, ?_, hnone, hfound⟩
          · rw [hc, ← Option.some.inj hl]
          · refine Calm.cons hj (fun h => nomatch hcall.symm.trans h) ?_
            exact fun k _ hk hk' => absurd hk' (Nat.not_lt.mpr hk)
        · rw [hstep, heq, List.lookup_cons, beq_false_of_ne (Ne.symm hname)] at hl
          refine earlier hl fun who hclear => ?_
          rw [hj, Option.some.injEq] at hclear
          exact nomatch hcall.symm.trans (congrArg Prod.snd hclear)
      · rw [hstep, heq] at hl
        exact earlier hl fun who hclear =>
          hne (congrArg Prod.snd (Option.some.inj (hj.symm.trans hclear)))

/-! ## What callers are told -/

/-- **A call for the client of a configuration of which one can be made** hands one out. -/
theorem told_of_ok {s : SinkSettings} {c : Client} {reply : Reply}
    (ht : Told r schedule i (.getOrCreate s) reply) (hc : Client.ofSettings s = .ok c) :
    ∃ h, reply = .client (.ok h) := by
  obtain ⟨-, rfl⟩ := told_iff.mp ht
  show ∃ h, Reply.client ((r.before schedule i).getOrCreate s).2 = _
  obtain ⟨h, -, heq⟩ | ⟨e, -, he, -⟩ | ⟨c, -, -, heq⟩ :=
    (r.before schedule i).getOrCreate_cases s
  · exact ⟨h, by rw [heq]⟩
  · exact nomatch hc.symm.trans he
  · exact ⟨_, by rw [heq]⟩

/-- **What a caller is handed is in the registry after the call.** -/
theorem Told.lookup {call : Call} {name : String} {h : Handle}
    (ht : Told r schedule i call (.client (.ok h))) (hname : call.name? = some name) :
    (r.before schedule (i + 1)).clients.lookup name = some h := by
  obtain ⟨⟨who, hi⟩, hreply⟩ := told_iff.mp ht
  rw [before_succ hi]
  exact lookup_of_handed hname hreply.symm

/-- A call that hands out a client clears nothing. -/
theorem Told.ne_clear {call : Call} {h : Handle}
    (ht : Told r schedule i call (.client (.ok h))) : call ≠ .clear := by
  rintro rfl
  obtain ⟨-, hreply⟩ := told_iff.mp ht
  cases hreply

/-- **A name has a client exactly when one is found.** -/
theorem stands_iff {name : String} :
    Stands schedule i name
      ↔ (({} : Registry).before schedule i).clients.lookup name ≠ none := by
  constructor
  · rintro ⟨j, s, h, hj, hcalm, ht, rfl⟩ hnone
    have hl := lookup_kept hj (hcalm.mono (Nat.le_succ j) (Nat.le_refl i)) (ht.lookup rfl)
    exact nomatch hnone.symm.trans hl
  · intro hne
    obtain ⟨h, hl⟩ := Option.ne_none_iff_exists'.mp hne
    obtain ⟨j, s, rfl, hm⟩ := exists_makes hl
    obtain ⟨who, hcall⟩ := hm.call
    refine ⟨j, s, h, hm.lt, hm.calm, told_iff.mpr ⟨⟨who, hcall⟩, ?_⟩, rfl⟩
    have hfound := hm.found
    rw [before_succ hcall] at hfound
    have ht : Told {} schedule j (.getOrCreate s) _ := told_iff.mpr ⟨⟨who, hcall⟩, rfl⟩
    obtain ⟨h', hreply⟩ := told_of_ok ht hm.client
    rw [hreply, ← Option.some.inj ((lookup_of_handed rfl hreply).symm.trans hfound)]

/-- **Whoever asks for one name is handed one client**, until the registry is cleared. -/
theorem Told.handed_same {call call' : Call} {name : String} {h h' : Handle}
    (ht : Told r schedule i call (.client (.ok h))) (hname : call.name? = some name)
    (ht' : Told r schedule j call' (.client (.ok h'))) (hname' : call'.name? = some name)
    (hij : i ≤ j) (hcalm : Calm schedule i j) : h' = h := by
  have hcalm : Calm schedule (i + 1) (j + 1) := by
    obtain ⟨⟨who, hj⟩, -⟩ := told_iff.mp ht'
    refine (hcalm.mono (Nat.le_succ i) (Nat.le_refl j)).snoc fun who' hclear => ht'.ne_clear ?_
    exact congrArg Prod.snd (Option.some.inj (hj.symm.trans hclear))
  have hkept := lookup_kept (Nat.succ_le_succ hij) hcalm (ht.lookup hname)
  exact Option.some.inj ((ht'.lookup hname').symm.trans hkept)

/-- **Two callers are handed one client only** when they ask for one name, and the registry
is not cleared in between. -/
theorem Told.handed_apart {call call' : Call} {name name' : String} {h h' : Handle}
    (hr : r.Sound) (ht : Told r schedule i call (.client (.ok h)))
    (hname : call.name? = some name) (ht' : Told r schedule j call' (.client (.ok h')))
    (hname' : call'.name? = some name') (hij : i ≤ j) (heq : h'.serial = h.serial) :
    name' = name ∧ Calm schedule i j := by
  have hin := mem_of_lookup (ht.lookup hname)
  have hin' := mem_of_lookup (ht'.lookup hname')
  have hsound := hr.before schedule (i + 1)
  obtain ⟨-, hentries⟩ := @kept_or_later κ r schedule _ _ (Nat.succ_le_succ hij)
  obtain ⟨hkept, hcalm⟩ | hlater := hentries _ hin'
  · have hserials : ((r.before schedule (i + 1)).clients.map (·.2.serial)).Nodup :=
      hsound.serials.imp Nat.ne_of_gt
    have hentry := List.inj_on_of_nodup_map hserials hkept hin heq
    obtain ⟨⟨who, hi⟩, -⟩ := told_iff.mp ht
    exact ⟨congrArg Prod.fst hentry,
      Calm.cons hi ht.ne_clear (hcalm.mono (Nat.le_refl _) (Nat.le_succ j))⟩
  · exact absurd (heq ▸ hlater) (Nat.not_le.mpr (hsound.below _ hin))

/-- **A client that is handed out is the one of the first call that could make it**: of the
calls for the client of a configuration of this name, since the registry was last cleared,
those before it are for configurations of which no client can be made. -/
theorem Told.handed_first {call : Call} {name : String} {h : Handle}
    (ht : Told {} schedule i call (.client (.ok h))) (hname : call.name? = some name) :
    ∃ j s, j ≤ i ∧ Calm schedule j i ∧ (∃ who, schedule[j]? = some (who, .getOrCreate s)) ∧
      s.name = name ∧ Client.ofSettings s = .ok h.client ∧
      ∀ k s' who, k < j → Calm schedule k i → schedule[k]? = some (who, .getOrCreate s') →
        s'.name = name → ∃ e, Client.ofSettings s' = .error e := by
  obtain ⟨j, s, rfl, hm⟩ := exists_makes (ht.lookup hname)
  refine ⟨j, s, Nat.le_of_lt_succ hm.lt, hm.calm.mono (Nat.le_refl j) (Nat.le_succ i), hm.call,
    rfl, hm.client, fun k s' who hk hcalm hcall hsame => ?_⟩
  cases hc : Client.ofSettings s' with
  | error e => exact ⟨e, rfl⟩
  | ok c =>
    -- the client it hands out would still be there
    have ht' : Told {} schedule k (.getOrCreate s') _ := told_iff.mpr ⟨⟨who, hcall⟩, rfl⟩
    obtain ⟨h', hreply⟩ := told_of_ok ht' hc
    rw [hreply] at ht'
    have hkept := lookup_kept hk
      (hcalm.mono (Nat.le_succ k) (Nat.le_of_lt_succ hm.lt)) (ht'.lookup (congrArg some hsame))
    exact nomatch hm.fresh.symm.trans hkept

/-- **A call for the client of a configuration that fails** is for a name without a client
and a configuration of which none can be made, and it leaves the registry as it is. -/
theorem Told.failed {s : SinkSettings} {e : ClientError}
    (ht : Told r schedule i (.getOrCreate s) (.client (.error e))) :
    (r.before schedule i).clients.lookup s.name = none ∧ Client.ofSettings s = .error e ∧
      r.before schedule (i + 1) = r.before schedule i := by
  obtain ⟨⟨who, hi⟩, hreply⟩ := told_iff.mp ht
  rw [before_succ hi]
  have hres : ((r.before schedule i).getOrCreate s).2 = .error e := (Reply.client.inj hreply).symm
  show _ ∧ _ ∧ ((r.before schedule i).getOrCreate s).1 = _
  obtain ⟨h, -, heq⟩ | ⟨e', hl, hc, heq⟩ | ⟨c, -, -, heq⟩ :=
    (r.before schedule i).getOrCreate_cases s
  · rw [heq] at hres
    cases hres
  · rw [heq] at hres ⊢
    exact ⟨hl, hc.trans (congrArg _ (Except.error.inj hres)), rfl⟩
  · rw [heq] at hres
    cases hres

/-- **A call for the client of a name** hands it out when it is there, and says that the
name is unknown when it is not. -/
theorem Told.get {name : String} {reply : Reply} (ht : Told r schedule i (.get name) reply) :
    ((r.before schedule i).clients.lookup name = none ∧
        reply = .client (.error (.unknown name))) ∨
      ∃ h, (r.before schedule i).clients.lookup name = some h ∧ reply = .client (.ok h) := by
  obtain ⟨-, rfl⟩ := told_iff.mp ht
  show _ ∧ Reply.client ((r.before schedule i).get name) = _ ∨
    ∃ h, _ ∧ Reply.client ((r.before schedule i).get name) = _
  unfold Registry.get
  cases hl : (r.before schedule i).clients.lookup name with
  | none => exact .inl ⟨rfl, rfl⟩
  | some h => exact .inr ⟨h, rfl, rfl⟩

/-- **What a caller was told stays as it was**, whatever is called later. -/
theorem Told.append {call : Call} {reply : Reply} (ht : Told r schedule i call reply)
    (more : List (κ × Call)) : Told r (schedule ++ more) i call reply := by
  have kept {α : Type} {xs ys : List α} {x : α} (h : xs[i]? = some x) : (xs ++ ys)[i]? = some x :=
    (List.getElem?_append_left (List.getElem?_eq_some_iff.mp h).1).trans h
  obtain ⟨who, hcall, hreply⟩ := ht
  refine ⟨who, kept hcall, ?_⟩
  rw [serve_append]
  exact kept hreply

/-- **A registry that serves a schedule orderly.** -/
structure Orderly (schedule : List (κ × Call)) : Prop where
  /-- Every caller is answered, in the order of the calls. -/
  callers : (({} : Registry).serve schedule).2.map (·.1) = schedule.map (·.1)
  /-- **A client that is handed out is made from the configuration of the first call** for
  this name, since the registry was last cleared, that has one of which a client can be
  made. -/
  first : ∀ {i call name h}, Told {} schedule i call (.client (.ok h)) →
    call.name? = some name →
    ∃ j s, j ≤ i ∧ Calm schedule j i ∧ (∃ who, schedule[j]? = some (who, .getOrCreate s)) ∧
      s.name = name ∧ Client.ofSettings s = .ok h.client ∧
      ∀ k s' who, k < j → Calm schedule k i → schedule[k]? = some (who, .getOrCreate s') →
        s'.name = name → ∃ e, Client.ofSettings s' = .error e
  /-- **Two callers are handed the same client** exactly when they ask for one name, and
  the registry is not cleared in between. -/
  same : ∀ {i j call call' name name' h h'}, i ≤ j →
    Told {} schedule i call (.client (.ok h)) → call.name? = some name →
    Told {} schedule j call' (.client (.ok h')) → call'.name? = some name' →
    (h' = h ↔ name' = name ∧ Calm schedule i j) ∧ (h'.serial = h.serial → h' = h)
  /-- A call for the client of a configuration of which one can be made hands one out. -/
  created : ∀ {i s c reply}, Told {} schedule i (.getOrCreate s) reply →
    Client.ofSettings s = .ok c → ∃ h, reply = .client (.ok h)
  /-- **A call for the client of a configuration hands one out, or fails** as the making of
  the client does, for a name that has none, and leaves the registry as it is. -/
  failed : ∀ {i s reply}, Told {} schedule i (.getOrCreate s) reply →
    (∃ h, reply = .client (.ok h)) ∨
      ∃ e, reply = .client (.error e) ∧ Client.ofSettings s = .error e ∧
        ¬Stands schedule i s.name ∧
        ({} : Registry).before schedule (i + 1) = ({} : Registry).before schedule i
  /-- **A name is unknown exactly when it has no client**; else its client is handed out. -/
  unknown : ∀ {i name reply}, Told {} schedule i (.get name) reply →
    (reply = .client (.error (.unknown name)) ↔ ¬Stands schedule i name) ∧
      (Stands schedule i name → ∃ h, reply = .client (.ok h))
  /-- **The number of clients is the number of the names that have one.** -/
  size : ∀ {i reply}, Told {} schedule i .size reply →
    ∃ names : Finset String, reply = .count names.card ∧
      ∀ name, name ∈ names ↔ Stands schedule i name
  /-- **What callers were told stays as it was**, whatever is called later. -/
  kept : ∀ {i call reply} (more : List (κ × Call)), Told {} schedule i call reply →
    Told {} (schedule ++ more) i call reply

/-- **Whoever calls a registry, and in whatever order**, it serves them orderly. -/
theorem serve_orderly (schedule : List (κ × Call)) : Orderly schedule where
  callers := callers_serve {} schedule
  first ht hname := ht.handed_first hname
  same {i j call call' name name' h h'} hij ht hname ht' hname' := by
    have hsame (h : name' = name ∧ Calm schedule i j) : _ :=
      ht.handed_same hname ht' (h.1 ▸ hname') hij h.2
    have hapart (heq : h'.serial = h.serial) : name' = name ∧ Calm schedule i j :=
      ht.handed_apart sound_empty hname ht' hname' hij heq
    exact ⟨⟨fun heq => hapart (congrArg Handle.serial heq), hsame⟩, fun heq => hsame (hapart heq)⟩
  created ht hc := told_of_ok ht hc
  failed {i s reply} ht := by
    obtain ⟨who, hreply⟩ := told_iff.mp ht
    change reply = .client (({} : Registry).before schedule i |>.getOrCreate s).2 at hreply
    cases hres : (({} : Registry).before schedule i |>.getOrCreate s).2 with
    | ok h => exact .inl ⟨h, by rw [hreply, hres]⟩
    | error e =>
      rw [hres] at hreply
      subst hreply
      obtain ⟨hl, hc, hstate⟩ := ht.failed
      exact .inr ⟨e, rfl, hc, fun hstands => stands_iff.mp hstands hl, hstate⟩
  unknown {i name reply} ht := by
    rw [stands_iff]
    obtain ⟨hl, rfl⟩ | ⟨h, hl, rfl⟩ := ht.get
    · exact ⟨⟨fun _ hne => hne hl, fun _ => rfl⟩, fun hne => absurd hl hne⟩
    · exact ⟨⟨nofun, fun hno => absurd (by rw [hl]; nofun) hno⟩, fun _ => ⟨h, rfl⟩⟩
  size {i reply} ht := by
    obtain ⟨-, rfl⟩ := told_iff.mp ht
    have hnames := (sound_empty.before schedule i).names
    refine ⟨((({} : Registry).before schedule i).clients.map (·.1)).toFinset, ?_, fun name => ?_⟩
    · rw [List.toFinset_card_of_nodup hnames, List.length_map]
      rfl
    · rw [List.mem_toFinset, stands_iff]
      constructor
      · exact fun hin hnone => not_mem_names hnone hin
      · intro hne
        obtain ⟨h, hl⟩ := Option.ne_none_iff_exists'.mp hne
        exact List.mem_map.mpr ⟨_, mem_of_lookup hl, rfl⟩
  kept more ht := ht.append more

end Registry

end Courier.Sink
