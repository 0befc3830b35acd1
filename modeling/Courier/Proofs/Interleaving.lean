import Mathlib.Logic.Function.Basic
/-!
# Machines side by side

A family of machines takes steps in an order that somebody else decides: a
schedule says which of them is next, and with what. Nothing of one machine is in
the reach of another. So what becomes of one of them, and what it puts out, is
what becomes of it when it is run alone, on what the schedule has for it
(`together_own`).
-/

namespace Courier

variable {ι ε σ ω : Type} [DecidableEq ι]

/-- What a list of things for many has for one of them. -/
def own (i : ι) : List (ι × ε) → List ε
  | [] => []
  | (j, e) :: rest => if j = i then e :: own i rest else own i rest

@[simp] theorem own_cons_self (i : ι) (e : ε) (rest : List (ι × ε)) :
    own i ((i, e) :: rest) = e :: own i rest :=
  if_pos rfl

theorem own_cons_of_ne {i j : ι} (h : j ≠ i) (e : ε) (rest : List (ι × ε)) :
    own i ((j, e) :: rest) = own i rest :=
  if_neg h

/-- What two lists have for one of many, one after the other. -/
theorem own_append (i : ι) (xs ys : List (ι × ε)) : own i (xs ++ ys) = own i xs ++ own i ys := by
  induction xs with
  | nil => rfl
  | cons x xs ih =>
    obtain ⟨j, e⟩ := x
    by_cases h : j = i
    · subst h
      rw [List.cons_append, own_cons_self, own_cons_self, ih, List.cons_append]
    · rw [List.cons_append, own_cons_of_ne h, own_cons_of_ne h, ih]

/-- What is for one of many is all there for it. -/
theorem own_map_self (i : ι) (xs : List ε) : own i (xs.map fun e => (i, e)) = xs := by
  induction xs with
  | nil => rfl
  | cons e xs ih => rw [List.map_cons, own_cons_self, ih]

/-- And there is nothing of it for another. -/
theorem own_map_of_ne {i j : ι} (h : j ≠ i) (xs : List ε) :
    own i (xs.map fun e => (j, e)) = [] := by
  induction xs with
  | nil => rfl
  | cons e xs ih => rw [List.map_cons, own_cons_of_ne h, ih]

/-- **A machine that is run alone**: where it ends, and what it puts out. -/
def alone (step : σ → ε → σ × ω) (s : σ) : List ε → σ × List ω
  | [] => (s, [])
  | e :: rest =>
    let r := alone step (step s e).1 rest
    (r.1, (step s e).2 :: r.2)

/-- **Machines that are run together**, in the order of a schedule: where each of
them ends, and what they put out one after another. -/
def together (step : ι → σ → ε → σ × ω) (s : ι → σ) :
    List (ι × ε) → (ι → σ) × List (ι × ω)
  | [] => (s, [])
  | (i, e) :: rest =>
    let r := together step (Function.update s i (step i (s i) e).1) rest
    (r.1, (i, (step i (s i) e).2) :: r.2)

/-- **A machine among others does what it does alone**, whatever the schedule: it
ends where it ends on what the schedule has for it, and puts out the same. -/
theorem together_own (step : ι → σ → ε → σ × ω) (i : ι) (schedule : List (ι × ε)) :
    ∀ s : ι → σ,
      (together step s schedule).1 i = (alone (step i) (s i) (own i schedule)).1 ∧
      own i (together step s schedule).2 = (alone (step i) (s i) (own i schedule)).2 := by
  induction schedule with
  | nil => exact fun s => ⟨rfl, rfl⟩
  | cons x schedule ih =>
    intro s
    obtain ⟨j, e⟩ := x
    obtain ⟨hstate, hout⟩ := ih (Function.update s j (step j (s j) e).1)
    by_cases h : j = i
    · subst h
      rw [Function.update_self] at hstate hout
      rw [own_cons_self]
      exact ⟨hstate, by rw [together, own_cons_self, hout]; rfl⟩
    · rw [Function.update_of_ne (Ne.symm h)] at hstate hout
      rw [own_cons_of_ne h]
      exact ⟨hstate, by rw [together, own_cons_of_ne h, hout]⟩

end Courier
