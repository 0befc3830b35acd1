import Courier.Blueprint.Check
import Mathlib.Data.List.Induction
import Mathlib.Data.List.Nodup
/-!
# The rules of blueprints, one by one

The rules that a blueprint has to keep are stated here without a word on how they are
checked (`Rule.Holds`), and so is where a blueprint is at fault that breaks one of
them (`Rule.Fault`): the first sink without a name, the first sink whose name was there
before, the first parameter that is missing at the first sink that misses one.

Checking comes to the rules one after another. What it finds against one of them is
nothing when the rule is kept (`Rule.violations_of_holds`), and begins with the fault
when it is broken (`Rule.head?_of_fault`). So a blueprint is legal when it keeps all
rules, and the failure of one that is not is that of the first rule it breaks
(`check_reports_first`).
-/

namespace Courier

open Courier.Text (allBlank)

/-- **A sink has a parameter**, and there is something in it to be seen. -/
def SinkSettings.Has (s : SinkSettings) (key : String) : Prop :=
  ∃ value, s.param? key = some value ∧ allBlank value.toList = false

namespace Blueprint

/-- **A rule of blueprints.** -/
inductive Rule
  /-- Positions are offered at least once. -/
  | checkpointAttempts
  /-- Delays are not below zero. -/
  | seed
  /-- Batches are sent at least once. -/
  | deliveryAttempts
  /-- There are sinks. -/
  | sinks
  /-- Every sink has a name. -/
  | names
  /-- Records hold at least one event. -/
  | batchSize
  /-- No two sinks have the same name. -/
  | distinctNames
  /-- Every sink has the parameters that its type requires. -/
  | params
deriving DecidableEq, Repr

namespace Rule

/-- **All rules**, in the order in which they count. -/
def order : List Rule :=
  [checkpointAttempts, seed, deliveryAttempts, sinks, names, batchSize, distinctNames, params]

/-- **A blueprint keeps a rule.** -/
def Holds (b : Blueprint) : Rule → Prop
  | checkpointAttempts => 1 ≤ b.checkpoint.maxAttempts
  | seed => ¬b.delivery.delayOrSeed < 0.0
  | deliveryAttempts => 1 ≤ b.delivery.maxAttempts
  | sinks => b.sinks ≠ []
  | names => ∀ s ∈ b.sinks, s.name ≠ ""
  | batchSize => 1 ≤ b.source.batchSize
  | distinctNames => (b.sinks.map (·.name)).Nodup
  | params => ∀ s ∈ b.sinks, ∀ key ∈ s.type.requiredParams, s.Has key

/-- **Where a blueprint is at fault that breaks a rule**: the path of the field, and what is
wrong with it. -/
inductive Fault (b : Blueprint) : Rule → String → String → Prop
  /-- Positions are never offered. -/
  | checkpointAttempts (h : b.checkpoint.maxAttempts = 0) :
    Fault b .checkpointAttempts "checkpoint.max_attempts" "failed 'range' check"
  /-- Delays are below zero. -/
  | seed (h : b.delivery.delayOrSeed < 0.0) :
    Fault b .seed "delivery.delay_or_seed" "failed 'range' check"
  /-- Batches are never sent. -/
  | deliveryAttempts (h : b.delivery.maxAttempts = 0) :
    Fault b .deliveryAttempts "delivery.max_attempts" "failed 'range' check"
  /-- There is no sink. -/
  | sinks (h : b.sinks = []) : Fault b .sinks "sinks" "at least one sink is required"
  /-- A sink has no name, and all before it have one. -/
  | names {before behind : List SinkSettings} {s : SinkSettings}
    (hsinks : b.sinks = before ++ s :: behind) (h : s.name = "")
    (hbefore : ∀ t ∈ before, t.name ≠ "") :
    Fault b .names s!"sinks[{before.length}].name" "sink name cannot be empty"
  /-- Records hold nothing. -/
  | batchSize (h : b.source.batchSize = 0) :
    Fault b .batchSize "source.batch_size" "failed 'range' check"
  /-- A sink has the name of one before it, and those have different names. -/
  | distinctNames {before behind : List SinkSettings} {s : SinkSettings}
    (hsinks : b.sinks = before ++ s :: behind) (h : s.name ∈ before.map (·.name))
    (hbefore : (before.map (·.name)).Nodup) :
    Fault b .distinctNames s!"sinks[{before.length}].name" s!"duplicate sink name '{s.name}'"
  /-- A sink does not have a parameter, and those before it have all of theirs, and it has
  those that are looked for before. -/
  | params {before behind : List SinkSettings} {s : SinkSettings} {earlier later : List String}
    {key : String} (hsinks : b.sinks = before ++ s :: behind)
    (hkeys : s.type.requiredParams = earlier ++ key :: later) (h : ¬s.Has key)
    (hearlier : ∀ k ∈ earlier, s.Has k)
    (hbefore : ∀ t ∈ before, ∀ k ∈ t.type.requiredParams, t.Has k) :
    Fault b .params s!"sinks[{s.name}].params.{key}" s!"{s.type.title} sink requires '{key}'"

end Rule

/-! ## The first that is not so -/

/-- **Not all members of a list are so**: there is a first one that is not. -/
theorem exists_first {α : Type} {P : α → Prop} {xs : List α} (h : ¬∀ x ∈ xs, P x) :
    ∃ before x behind, xs = before ++ x :: behind ∧ ¬P x ∧ ∀ y ∈ before, P y := by
  classical
  cases hfind : xs.find? fun x => decide (¬P x) with
  | none =>
    refine absurd (fun x hx => ?_) h
    simpa using List.find?_eq_none.mp hfind x hx
  | some x =>
    obtain ⟨hx, before, behind, hsplit, hbefore⟩ := List.find?_eq_some_iff_append.mp hfind
    exact ⟨before, x, behind, hsplit, by simpa using hx, fun y hy => by simpa using hbefore y hy⟩

/-- **A text is there twice in a list**: there is a first one that was there before. -/
theorem exists_repeated {α : Type} {f : α → String} (xs : List α) (h : ¬(xs.map f).Nodup) :
    ∃ before x behind, xs = before ++ x :: behind ∧ f x ∈ before.map f ∧ (before.map f).Nodup := by
  induction xs using List.reverseRecOn with
  | nil => exact absurd List.nodup_nil h
  | append_singleton xs x ih =>
    by_cases hxs : (xs.map f).Nodup
    · refine ⟨xs, x, [], rfl, ?_, hxs⟩
      refine Classical.not_not.mp fun hx => h ?_
      rw [List.map_append, List.nodup_append]
      refine ⟨hxs, List.nodup_singleton _, fun y hy z hz => ?_⟩
      rw [List.map_singleton, List.mem_singleton] at hz
      exact fun heq => hx (hz ▸ heq ▸ hy)
    · obtain ⟨before, y, behind, rfl, hy, hbefore⟩ := ih hxs
      exact ⟨before, y, behind ++ [x], by simp, hy, hbefore⟩

/-! ## What is found -/

theorem unlessHolds_of_true {condition : Bool} (h : condition = true) (v : Violation) :
    unlessHolds condition v = [] :=
  if_pos h

theorem unlessHolds_of_false {condition : Bool} (h : condition = false) (v : Violation) :
    unlessHolds condition v = [v] :=
  if_neg (Bool.eq_false_iff.mp h)

/-- **Sinks that have names** are passed over in the search for one that has none. -/
theorem namelessSinks_append {before : List SinkSettings} (h : ∀ t ∈ before, t.name ≠ "")
    (rest : List SinkSettings) : ∀ index : Nat,
    namelessSinks index (before ++ rest) = namelessSinks (index + before.length) rest := by
  induction before with
  | nil => exact fun _ => rfl
  | cons t before ih =>
    intro index
    have hname : (t.name != "") = true := bne_iff_ne.mpr (h t List.mem_cons_self)
    rw [List.cons_append, namelessSinks, unlessHolds_of_true hname, List.nil_append,
      ih (fun u hu => h u (List.mem_cons_of_mem _ hu)), List.length_cons]
    exact congrArg (namelessSinks · rest) (by omega)

/-- **Sinks with names that are new** are passed over in the search for one that is not, and
their names are seen then. -/
theorem repeatedSinks_append {before : List SinkSettings} (rest : List SinkSettings) :
    ∀ (seen : List String) (index : Nat), (before.map (·.name)).Nodup →
      (∀ t ∈ before, t.name ∉ seen) →
      repeatedSinks seen index (before ++ rest)
        = repeatedSinks ((before.map (·.name)).reverse ++ seen) (index + before.length) rest := by
  induction before with
  | nil => exact fun _ _ _ _ => rfl
  | cons t before ih =>
    intro seen index hnodup hseen
    obtain ⟨hfresh, hnodup⟩ := List.nodup_cons.mp hnodup
    have hnew : (!seen.contains t.name) = true := by
      simpa using hseen t List.mem_cons_self
    rw [List.cons_append, repeatedSinks, unlessHolds_of_true hnew, List.nil_append,
      ih (t.name :: seen) (index + 1) hnodup fun u hu => ?_]
    · rw [List.map_cons, List.reverse_cons, List.append_assoc, List.length_cons]
      exact congrArg (repeatedSinks _ · rest) (by omega)
    · rw [List.mem_cons]
      rintro (heq | hold)
      · exact hfresh (List.mem_map.mpr ⟨u, hu, heq⟩)
      · exact hseen u (List.mem_cons_of_mem _ hu) hold

/-- Whether a sink has a parameter. -/
theorem hasParam_iff (s : SinkSettings) (key : String) : hasParam s key = true ↔ s.Has key := by
  unfold hasParam SinkSettings.Has
  cases s.param? key with
  | none => simp
  | some value => simp

/-- Parameters that are there are passed over in the search for one that is not. -/
theorem flatMap_params_of_has {s : SinkSettings} {keys : List String} (h : ∀ k ∈ keys, s.Has k) :
    (keys.flatMap fun key => unlessHolds (hasParam s key) (.missingParam s.name s.type key)) = [] :=
  List.flatMap_eq_nil_iff.mpr fun k hk => unlessHolds_of_true ((hasParam_iff s k).mpr (h k hk)) _

/-- **Sinks that have all of their parameters** are passed over as well. -/
theorem flatMap_missingParams {before : List SinkSettings}
    (h : ∀ t ∈ before, ∀ k ∈ t.type.requiredParams, t.Has k) :
    before.flatMap missingParams = [] :=
  List.flatMap_eq_nil_iff.mpr fun t ht => flatMap_params_of_has (h t ht)

namespace Rule

variable {b : Blueprint}

/-- **What is found against a rule.** -/
def violations (b : Blueprint) : Rule → List Violation
  | checkpointAttempts =>
    unlessHolds (1 ≤ b.checkpoint.maxAttempts) (.outOfRange "checkpoint.max_attempts")
  | seed => unlessHolds (!(b.delivery.delayOrSeed < 0.0)) (.outOfRange "delivery.delay_or_seed")
  | deliveryAttempts =>
    unlessHolds (1 ≤ b.delivery.maxAttempts) (.outOfRange "delivery.max_attempts")
  | sinks => unlessHolds (!b.sinks.isEmpty) .noSinks
  | names => namelessSinks 0 b.sinks
  | batchSize => unlessHolds (1 ≤ b.source.batchSize) (.outOfRange "source.batch_size")
  | distinctNames => repeatedSinks [] 0 b.sinks
  | params => b.sinks.flatMap missingParams

theorem violations_eq (b : Blueprint) : b.violations = order.flatMap (violations b) := by
  unfold Blueprint.violations order
  simp only [List.flatMap_cons, List.flatMap_nil, List.append_nil, violations, List.append_assoc]

/-- **Nothing is found against a rule that is kept.** -/
theorem violations_of_holds {rule : Rule} (h : rule.Holds b) : rule.violations b = [] := by
  cases rule with
  | checkpointAttempts => exact unlessHolds_of_true (by simpa [Holds] using h) _
  | seed => exact unlessHolds_of_true (by simpa [Holds] using h) _
  | deliveryAttempts => exact unlessHolds_of_true (by simpa [Holds] using h) _
  | sinks => exact unlessHolds_of_true (by simpa [Holds] using h) _
  | names =>
    have hnamed : ∀ s ∈ b.sinks, s.name ≠ "" := h
    have hnone := namelessSinks_append hnamed [] 0
    rwa [List.append_nil] at hnone
  | batchSize => exact unlessHolds_of_true (by simpa [Holds] using h) _
  | distinctNames =>
    have hdistinct : (b.sinks.map (·.name)).Nodup := h
    have hnone := repeatedSinks_append [] [] 0 hdistinct fun _ _ => List.not_mem_nil
    rwa [List.append_nil] at hnone
  | params => exact flatMap_missingParams h

/-- **What is found against a rule that is broken begins with the fault.** -/
theorem head?_of_fault {rule : Rule} {field message : String} (h : Fault b rule field message) :
    ∃ v, (rule.violations b).head? = some v ∧ v.failure = .configInvalid field message := by
  cases h with
  -- most rules look at one field, and find one violation or none
  | checkpointAttempts h =>
    exact ⟨_, congrArg List.head? (unlessHolds_of_false (by simp [h]) _), rfl⟩
  | seed h => exact ⟨_, congrArg List.head? (unlessHolds_of_false (by simp [h]) _), rfl⟩
  | deliveryAttempts h =>
    exact ⟨_, congrArg List.head? (unlessHolds_of_false (by simp [h]) _), rfl⟩
  | sinks h => exact ⟨_, congrArg List.head? (unlessHolds_of_false (by simp [h]) _), rfl⟩
  -- three go through the sinks, and find nothing against those before the one at fault
  | @names before behind s hsinks h hbefore =>
    refine ⟨.namelessSink before.length, ?_, rfl⟩
    show (namelessSinks 0 b.sinks).head? = _
    rw [hsinks, namelessSinks_append hbefore, namelessSinks,
      unlessHolds_of_false (by simp [h]), Nat.zero_add]
    rfl
  | batchSize h => exact ⟨_, congrArg List.head? (unlessHolds_of_false (by simp [h]) _), rfl⟩
  | @distinctNames before behind s hsinks h hbefore =>
    refine ⟨.repeatedSink before.length s.name, ?_, rfl⟩
    show (repeatedSinks [] 0 b.sinks).head? = _
    rw [hsinks, repeatedSinks_append _ _ _ hbefore (fun _ _ => List.not_mem_nil), repeatedSinks,
      unlessHolds_of_false (by simpa using h), Nat.zero_add]
    rfl
  | @params before behind s earlier later key hsinks hkeys h hearlier hbefore =>
    refine ⟨.missingParam s.name s.type key, ?_, rfl⟩
    have hmissing : hasParam s key = false :=
      Bool.eq_false_iff.mpr fun hhas => h ((hasParam_iff s key).mp hhas)
    show (b.sinks.flatMap missingParams).head? = _
    rw [hsinks, List.flatMap_append, flatMap_missingParams hbefore, List.nil_append,
      List.flatMap_cons, missingParams, hkeys, List.flatMap_append,
      flatMap_params_of_has hearlier, List.nil_append, List.flatMap_cons,
      unlessHolds_of_false hmissing]
    rfl

/-- **A blueprint that breaks a rule is at fault somewhere.** -/
theorem exists_fault {rule : Rule} (h : ¬rule.Holds b) : ∃ field message, Fault b rule field message := by
  cases rule with
  | checkpointAttempts => exact ⟨_, _, .checkpointAttempts (Nat.lt_one_iff.mp (Nat.not_le.mp h))⟩
  | seed => exact ⟨_, _, .seed (Classical.not_not.mp h)⟩
  | deliveryAttempts => exact ⟨_, _, .deliveryAttempts (Nat.lt_one_iff.mp (Nat.not_le.mp h))⟩
  | sinks => exact ⟨_, _, .sinks (Classical.not_not.mp h)⟩
  | names =>
    obtain ⟨before, s, behind, hsinks, hs, hbefore⟩ := exists_first h
    exact ⟨_, _, .names hsinks (Classical.not_not.mp hs) hbefore⟩
  | batchSize => exact ⟨_, _, .batchSize (Nat.lt_one_iff.mp (Nat.not_le.mp h))⟩
  | distinctNames =>
    obtain ⟨before, s, behind, hsinks, hs, hbefore⟩ := exists_repeated b.sinks h
    exact ⟨_, _, .distinctNames hsinks hs hbefore⟩
  | params =>
    obtain ⟨before, s, behind, hsinks, hs, hbefore⟩ := exists_first h
    obtain ⟨earlier, key, later, hkeys, hkey, hearlier⟩ := exists_first hs
    exact ⟨_, _, .params hsinks hkeys hkey hearlier hbefore⟩

/-- **The first rule that a blueprint breaks** is found before anything else. -/
theorem head?_violations {before behind : List Rule} {rule : Rule} {field message : String}
    (horder : order = before ++ rule :: behind) (hbefore : ∀ r ∈ before, r.Holds b)
    (hfault : Fault b rule field message) :
    ∃ v, b.violations.head? = some v ∧ v.failure = .configInvalid field message := by
  obtain ⟨v, hv, hfailure⟩ := head?_of_fault hfault
  have hnone : before.flatMap (violations b) = [] :=
    List.flatMap_eq_nil_iff.mpr fun r hr => violations_of_holds (hbefore r hr)
  refine ⟨v, ?_, hfailure⟩
  rw [violations_eq, horder, List.flatMap_append, hnone, List.nil_append, List.flatMap_cons,
    List.head?_append, hv]
  rfl

theorem mem_order (rule : Rule) : rule ∈ order := by
  cases rule <;> decide

end Rule

/-- A blueprint against which something is found is refused for what is found first. -/
theorem check_of_head? {b : Blueprint} {v : Violation} (h : b.violations.head? = some v) :
    b.check = .error v.failure := by
  unfold check
  cases hv : b.violations with
  | nil => rw [hv] at h; cases h
  | cons w rest =>
    rw [hv] at h
    obtain rfl := Option.some.inj h
    rfl

/-- A blueprint that keeps all rules is legal. -/
theorem check_of_holds {b : Blueprint} (h : ∀ rule : Rule, rule.Holds b) : b.check = .ok b := by
  have hnone : b.violations = [] := by
    rw [Rule.violations_eq]
    exact List.flatMap_eq_nil_iff.mpr fun rule _ => Rule.violations_of_holds (h rule)
  unfold check
  rw [hnone]

/-- **A blueprint that breaks rules breaks one first**, and is refused for it. -/
theorem exists_first_broken {b : Blueprint} (h : ¬∀ rule : Rule, rule.Holds b) :
    ∃ before rule behind field message, Rule.order = before ++ rule :: behind ∧
      (∀ r ∈ before, r.Holds b) ∧ ¬rule.Holds b ∧ rule.Fault b field message ∧
      b.check = .error (.configInvalid field message) := by
  have hnot : ¬∀ rule ∈ Rule.order, rule.Holds b := fun hall =>
    h fun rule => hall rule rule.mem_order
  obtain ⟨before, rule, behind, horder, hbroken, hbefore⟩ := exists_first hnot
  obtain ⟨field, message, hfault⟩ := Rule.exists_fault hbroken
  obtain ⟨v, hv, hfailure⟩ := Rule.head?_violations horder hbefore hfault
  exact ⟨before, rule, behind, field, message, horder, hbefore, hbroken, hfault,
    hfailure ▸ check_of_head? hv⟩

/-- A legal blueprint keeps all rules. -/
theorem holds_of_check {b : Blueprint} (hok : b.check = .ok b) : ∀ rule : Rule, rule.Holds b := by
  refine Classical.byContradiction fun h => ?_
  obtain ⟨_, _, _, _, _, _, _, _, _, herror⟩ := exists_first_broken h
  cases hok.symm.trans herror

/-- **A blueprint is legal when it keeps all rules, and otherwise it is refused for the first
rule that it breaks**, in the order of the rules: with the path of the field at which it
is at fault, and what is wrong with it. -/
theorem check_reports_first (b : Blueprint) :
    (b.check = .ok b ↔ ∀ rule : Rule, rule.Holds b) ∧ (∀ b', b.check = .ok b' → b' = b) ∧
      ((¬∀ rule : Rule, rule.Holds b) →
        ∃ field message, b.check = .error (.configInvalid field message)) ∧
      ∀ field message, b.check = .error (.configInvalid field message) ↔
        ∃ before rule behind, Rule.order = before ++ rule :: behind ∧
          (∀ r ∈ before, r.Holds b) ∧ ¬rule.Holds b ∧ rule.Fault b field message := by
  refine ⟨⟨holds_of_check, check_of_holds⟩, fun b' hok => ?_, fun h => ?_, fun field message => ?_⟩
  · unfold check at hok
    split at hok
    · exact (Except.ok.inj hok).symm
    · cases hok
  · obtain ⟨-, -, -, field, message, -, -, -, -, herror⟩ := exists_first_broken h
    exact ⟨field, message, herror⟩
  · constructor
    · intro herror
      have hbroken : ¬∀ rule : Rule, rule.Holds b := fun h => by
        cases (check_of_holds h).symm.trans herror
      obtain ⟨before, rule, behind, field', message', horder, hbefore, hrule, hfault, herror'⟩ :=
        exists_first_broken hbroken
      obtain ⟨rfl, rfl⟩ : field = field' ∧ message = message' := by
        simpa using herror.symm.trans herror'
      exact ⟨before, rule, behind, horder, hbefore, hrule, hfault⟩
    · rintro ⟨before, rule, behind, horder, hbefore, -, hfault⟩
      obtain ⟨v, hv, hfailure⟩ := Rule.head?_violations horder hbefore hfault
      exact hfailure ▸ check_of_head? hv

end Blueprint

end Courier
