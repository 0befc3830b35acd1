import Courier.Proofs.Toml.Tree
/-!
# The lines of a document fill its tables

Every line of a document does to the tables what its entry or its header says. So the
lines of a document do one after another what filling an empty table with its entries
does (`read_write`), and what is read is the settled document.

A line is read with as many steps in hand as there are characters left, and there are
always enough of them. Below a header it does not matter which table entries belonged to
before it.
-/

namespace Courier.Toml

open Courier.Document

/-! ## Keys -/

/-- **A key begins with a character of a key or a quote.** -/
theorem key_head (k : String) :
    ∃ c t, key k = c :: t ∧ (inKey c = true ∨ c = '"' ∨ c = '\x27') := by
  unfold key
  dsimp only
  split
  · next hbare =>
    rw [Bool.and_eq_true, List.all_eq_true] at hbare
    cases hs : k.toList with
    | nil => rw [hs] at hbare; exact nomatch hbare.1
    | cons c cs => exact ⟨c, cs, rfl, .inl (hbare.2 c (hs ▸ List.mem_cons_self))⟩
  · obtain hbasic | hraw := (traits k.toList).lineQuotes?_cases
    · rw [hbasic]
      exact ⟨_, _, rfl, .inr (.inl rfl)⟩
    · rw [hraw]
      exact ⟨_, _, rfl, .inr (.inr rfl)⟩

/-- A key does not begin with any other character. -/
theorem key_ne (k : String) {c : Char} (hc : inKey c = false) (hdouble : c ≠ '"')
    (hsingle : c ≠ '\x27') (rest t : List Char) : key k ++ rest ≠ c :: t := by
  obtain ⟨d, s, heq, hd⟩ := key_head k
  rw [heq]
  intro h
  obtain rfl := (List.cons.inj h).1
  obtain hd | hd | hd := hd
  · rw [hc] at hd
    cases hd
  · exact hdouble hd
  · exact hsingle hd

/-- A key begins as a value does. -/
theorem begins_key (k : String) : Begins (key k) := by
  obtain ⟨c, t, heq, hc⟩ := key_head k
  refine ⟨c, t, heq, ?_⟩
  rintro (rfl | rfl | rfl | rfl | rfl | rfl) <;> revert hc <;> decide

/-- There is no blank space before a value. -/
theorem Begins.dropSpace {s : List Char} (h : Begins s) (rest : List Char) :
    dropSpace (s ++ rest) = s ++ rest := by
  obtain ⟨c, t, rfl, hc⟩ := h
  simp only [not_or] at hc
  exact List.dropWhile_cons_of_neg (by simp [hc.1, hc.2.1])

/-- A key with an equals sign behind it. -/
theorem keys_equals (fuel : Nat) (k : String) (rest : List Char) :
    keys (fuel + 1) (key k ++ ' ' :: '=' :: rest) = some ([k], '=' :: rest) := by
  rw [keys, (begins_key k).dropSpace, simpleKey_key k (.cons _ rfl)]
  show some ([String.ofList k.toList], '=' :: rest) = _
  rw [String.ofList_toList]

/-- **Keys with dots between them**, and the end of a header behind them. -/
theorem keys_path : ∀ {ks : List String}, ks ≠ [] → ∀ {fuel : Nat}, ks.length ≤ fuel →
    ∀ rest, keys fuel (path ks ++ ']' :: rest) = some (ks, ']' :: rest)
  | [k], _, fuel, hfuel, rest => by
    obtain ⟨fuel, rfl⟩ := Nat.exists_eq_add_of_le' hfuel
    have hpath : path [k] = key k := by simp [path]
    rw [hpath]
    show keys (fuel + 1) _ = _
    rw [keys, (begins_key k).dropSpace, simpleKey_key k (.cons _ rfl)]
    show some ([String.ofList k.toList], ']' :: rest) = _
    rw [String.ofList_toList]
  | k :: k' :: ks, _, fuel, hfuel, rest => by
    obtain ⟨fuel, rfl⟩ := Nat.exists_eq_add_of_le' (show 1 ≤ fuel from Nat.le_of_lt_succ (by
      simp only [List.length_cons] at hfuel; omega))
    have hpath : path (k :: k' :: ks) = key k ++ '.' :: path (k' :: ks) := by
      simp [path]
    have hlength : (k' :: ks).length ≤ fuel := Nat.le_of_succ_le_succ hfuel
    have hrest := keys_path (List.cons_ne_nil k' ks) hlength rest
    rw [hpath, List.append_assoc, keys, (begins_key k).dropSpace, List.cons_append,
      simpleKey_key k (.cons _ rfl)]
    show ((keys fuel (path (k' :: ks) ++ ']' :: rest)).map fun read =>
      (String.ofList k.toList :: read.1, read.2)) = _
    rw [hrest, String.ofList_toList]
    rfl

/-! ## One line -/

/-- The line of an entry. -/
def entryLine (k : String) (v : Value) (rest : List Char) : List Char :=
  key k ++ ' ' :: '=' :: ' ' :: (writeInline v ++ '\n' :: rest)

/-- **The line of an entry** puts the value into the table that entries belong to. -/
theorem lines_entry {v : Value} (hv : Inline v) {fuel : Nat} (hfuel : (writeInline v).length ≤ fuel)
    (k : String) (root : Entries) (here : List String) (rest : List Char) :
    lines (fuel + 1) root here (entryLine k v rest)
      = (descend false here (putValue k (v.draft numberDraft)) root).bind fun root =>
          lines fuel root here rest := by
  obtain ⟨c, t, hhead, -⟩ := begins_writeInline hv
  have hpos : 1 ≤ fuel := by
    rw [hhead] at hfuel
    exact Nat.le_trans (Nat.succ_le_succ (Nat.zero_le t.length)) hfuel
  obtain ⟨fuel, rfl⟩ := Nat.exists_eq_add_of_le' hpos
  have hvoid : dropVoid false (entryLine k v rest) = some (entryLine k v rest) :=
    (begins_key k).dropVoid _
  have hkeys : keys (fuel + 1) (entryLine k v rest)
      = some ([k], '=' :: ' ' :: (writeInline v ++ '\n' :: rest)) := keys_equals fuel k _
  have hspace : dropSpace (' ' :: (writeInline v ++ '\n' :: rest)) = writeInline v ++ '\n' :: rest :=
    (begins_writeInline hv).dropSpace _
  have hstops : Stops ('\n' :: rest) := ⟨_, _, rfl, .inl rfl⟩
  have hvalue := value_writeInline v hv hfuel hstops
  have hend : endLine ('\n' :: rest) = some rest := rfl
  have hbracket : ∀ t, entryLine k v rest ≠ '[' :: t :=
    key_ne k rfl (by decide) (by decide) _
  rw [lines, hvoid]
  split
  · next heq => cases heq
  · next heq => exact absurd (congrArg List.length (Option.some.inj heq)) (by
      rw [entryLine, List.length_append, List.length_cons]; exact Nat.succ_ne_zero _)
  · next heq => exact absurd (Option.some.inj heq) (hbracket _)
  · next heq => exact absurd (Option.some.inj heq) (hbracket _)
  · next heq =>
    cases heq
    rw [hkeys]
    simp only [hspace, hvalue, Option.map_some, Option.bind_eq_bind, Option.bind_some, hend]
    rfl

/-- Keys with dots between them do not begin with a bracket. -/
theorem path_ne {ks : List String} (hks : ks ≠ []) (rest t : List Char) :
    path ks ++ rest ≠ '[' :: t := by
  match ks, hks with
  | [k], _ =>
    have hpath : path [k] = key k := by simp [path]
    rw [hpath]
    exact key_ne k rfl (by decide) (by decide) _ _
  | k :: k' :: ks, _ =>
    have hpath : path (k :: k' :: ks) = key k ++ '.' :: path (k' :: ks) := by simp [path]
    rw [hpath, List.append_assoc]
    exact key_ne k rfl (by decide) (by decide) _ _

/-- **A header** opens its table, to which the entries below it belong. -/
theorem lines_header {ks : List String} (hks : ks ≠ []) {fuel : Nat} (hfuel : ks.length ≤ fuel)
    (root : Entries) (here : List String) (rest : List Char) :
    lines (fuel + 1) root here ('\n' :: '[' :: (path ks ++ ']' :: '\n' :: rest))
      = (open? false ks root).bind fun root => lines fuel root ks rest := by
  have hvoid : dropVoid false ('\n' :: '[' :: (path ks ++ ']' :: '\n' :: rest))
      = some ('[' :: (path ks ++ ']' :: '\n' :: rest)) := rfl
  have hheader : header fuel false (path ks ++ ']' :: '\n' :: rest) = some (ks, '\n' :: rest) := by
    unfold header
    rw [keys_path hks hfuel]
    rfl
  have hend : endLine ('\n' :: rest) = some rest := rfl
  rw [lines, hvoid]
  split
  · next heq => cases heq
  · next heq => cases heq
  · next heq => exact absurd (List.cons.inj (Option.some.inj heq)).2 (path_ne hks _ _)
  · next heq =>
    cases heq
    rw [hheader]
    simp only [Option.bind_eq_bind, Option.bind_some, hend]
  · next hbracket heq =>
    cases heq
    exact absurd rfl (hbracket _)

/-- **A header of a list of tables** adds a table, to which the entries below it belong. -/
theorem lines_tablesHeader {ks : List String} (hks : ks ≠ []) {fuel : Nat}
    (hfuel : ks.length ≤ fuel) (root : Entries) (here : List String) (rest : List Char) :
    lines (fuel + 1) root here ('\n' :: '[' :: '[' :: (path ks ++ ']' :: ']' :: '\n' :: rest))
      = (open? true ks root).bind fun root => lines fuel root ks rest := by
  have hvoid : dropVoid false ('\n' :: '[' :: '[' :: (path ks ++ ']' :: ']' :: '\n' :: rest))
      = some ('[' :: '[' :: (path ks ++ ']' :: ']' :: '\n' :: rest)) := rfl
  have hheader : header fuel true (path ks ++ ']' :: ']' :: '\n' :: rest)
      = some (ks, '\n' :: rest) := by
    unfold header
    rw [keys_path hks hfuel]
    rfl
  have hend : endLine ('\n' :: rest) = some rest := rfl
  rw [lines, hvoid]
  split
  · next heq => cases heq
  · next heq => cases heq
  · next heq =>
    cases heq
    rw [hheader]
    simp only [Option.bind_eq_bind, Option.bind_some, hend]
  · next hbrackets heq =>
    cases heq
    exact absurd rfl (hbrackets _)
  · next hbracket heq =>
    cases heq
    exact absurd rfl (hbracket _)

/-! ## The whole document -/

/-- **The lines up to some place are read**, whatever table entries belonged to before: the
tables are then others, and enough steps are left for the other lines. -/
def Goes (root : Entries) (s : List Char) (root' : Entries) (rest : List Char) : Prop :=
  ∀ fuel here, s.length < fuel → ∃ fuel' here', rest.length < fuel' ∧
    lines fuel root here s = lines fuel' root' here' rest

/-- Lines are read one after another. -/
theorem Goes.trans {root root' root'' : Entries} {s t u : List Char} (h : Goes root s root' t)
    (h' : Goes root' t root'' u) : Goes root s root'' u := by
  intro fuel here hfuel
  obtain ⟨fuel', here', hfuel', heq⟩ := h fuel here hfuel
  obtain ⟨fuel'', here'', hfuel'', heq'⟩ := h' fuel' here' hfuel'
  exact ⟨fuel'', here'', hfuel'', heq.trans heq'⟩

/-- The entries of a table on their own lines, and what follows them. -/
theorem plainEntries_cons (k : String) (v : Value) (es : List (String × Value))
    (rest : List Char) : plainEntries ((k, v) :: es) ++ rest
      = if isPlain v then entryLine k v (plainEntries es ++ rest) else plainEntries es ++ rest := by
  have hflat : plainEntries ((k, v) :: es) = (if isBelowHeader v || isNothing v then []
      else key k ++ ' ' :: '=' :: ' ' :: writeInline v ++ ['\n']) ++ plainEntries es := rfl
  rw [hflat, isPlain]
  cases isBelowHeader v || isNothing v with
  | true => rfl
  | false =>
    rw [if_neg Bool.false_ne_true, Bool.not_false, if_pos rfl, entryLine]
    simp only [List.append_assoc, List.cons_append, List.nil_append]

/-- A table that keys lead to. -/
def Reaches (here : List String) (root : Entries) : Prop :=
  descend false here some root = some root

/-- Keys lead to the table in which something was done. -/
theorem Reaches.of_descend {here : List String} {f : Entries → Option Entries}
    {root root' : Entries} (h : descend false here f root = some root') : Reaches here root' := by
  have hbind := @descend_bind false f some here root
  have hsome : (fun e => (f e).bind some) = f := funext fun e => Option.bind_fun_some _
  rw [hsome, h] at hbind
  exact hbind.symm

/-- **The lines of entries fill the table they belong to.** -/
theorem lines_plainEntries {here : List String} {rest : List Char} :
    ∀ {es : List (String × Value)}, TabularEntries es → ∀ {root root' : Entries},
    Reaches here root → descend false here (fillAll putPlain es) root = some root' →
    ∀ fuel, (plainEntries es ++ rest).length < fuel → ∃ fuel', rest.length < fuel' ∧
      lines fuel root here (plainEntries es ++ rest) = lines fuel' root' here rest := by
  intro es
  induction es with
  | nil =>
    intro _ root root' hreach h fuel hfuel
    obtain rfl : root = root' := Option.some.inj (hreach.symm.trans h)
    exact ⟨fuel, hfuel, rfl⟩
  | cons entry es ih =>
    obtain ⟨k, v⟩ := entry
    intro hes root root' hreach h fuel hfuel
    have hfill : fillAll putPlain ((k, v) :: es)
        = fun table => (putPlain k v table).bind (fillAll putPlain es) := rfl
    rw [hfill, descend_bind] at h
    obtain ⟨root₁, hroot, h⟩ := Option.bind_eq_some_iff.mp h
    rw [plainEntries_cons] at hfuel ⊢
    cases hplain : isPlain v with
    | true =>
      have hput : putPlain k v = putValue k (v.draft numberDraft) :=
        funext fun table => if_pos hplain
      rw [hplain, if_pos rfl] at hfuel
      obtain ⟨fuel, rfl⟩ := Nat.exists_eq_add_of_le' (show 1 ≤ fuel by omega)
      have hlength : (entryLine k v (plainEntries es ++ rest)).length
          = (key k).length + (writeInline v).length + (plainEntries es ++ rest).length + 4 := by
        unfold entryLine
        simp only [List.length_append, List.length_cons]
        omega
      rw [hlength] at hfuel
      rw [if_pos rfl, lines_entry (hes.1.inline hplain) (by omega), ← hput, hroot]
      exact ih hes.2 (.of_descend hroot) h fuel (by omega)
    | false =>
      have hput : putPlain k v = some := funext fun table =>
        if_neg (Bool.eq_false_iff.mp hplain)
      rw [hput] at hroot
      obtain rfl : root = root₁ := Option.some.inj (hreach.symm.trans hroot)
      rw [hplain, if_neg Bool.false_ne_true] at hfuel
      rw [if_neg Bool.false_ne_true]
      exact ih hes.2 hreach h fuel hfuel

/-- A header, and what follows it. -/
def headerLine (double : Bool) (ks : List String) (rest : List Char) : List Char :=
  if double then '\n' :: '[' :: '[' :: (path ks ++ ']' :: ']' :: '\n' :: rest)
  else '\n' :: '[' :: (path ks ++ ']' :: '\n' :: rest)

/-- What a header does to the table its last key is in. -/
def openTable (double : Bool) (k : String) : Entries → Option Entries :=
  if double then addTable k else nameTable k

/-- Each key of a header has a character at least. -/
theorem length_path : ∀ ks : List String, ks.length ≤ (path ks).length + 1
  | [] => Nat.zero_le _
  | [k] => Nat.succ_le_succ (Nat.zero_le _)
  | k :: k' :: ks => by
    have hpath : path (k :: k' :: ks) = key k ++ '.' :: path (k' :: ks) := by simp [path]
    have hrest := length_path (k' :: ks)
    obtain ⟨c, t, heq, -⟩ := key_head k
    rw [hpath, heq]
    simp only [List.length_cons, List.length_append] at hrest ⊢
    omega

/-- A header puts a table under its last key. -/
theorem openTable_reaches {double : Bool} {k : String} {table table' : Entries}
    (h : openTable double k table = some table') : Reaches [k] table' := by
  cases double with
  | false =>
    have h : nameTable k table = some table' := h
    unfold nameTable at h
    split at h
    · cases h
      exact descend_insertSorted k rfl table
    · cases h
      exact descend_insertSorted k rfl table
    · cases h
  | true =>
    have h : addTable k table = some table' := h
    unfold addTable at h
    split at h
    · cases h
      exact descend_insertSorted_tables k rfl [] table
    · cases h
      exact descend_insertSorted_tables k rfl _ table
    · cases h

/-- **A header with the entries below it** fills the table it opens, and leads to it. -/
theorem goes_table {double : Bool} {keys : List String} {k : String} {es : List (String × Value)}
    (hes : TabularEntries es) {root root₁ root₂ : Entries}
    (hopen : descend false keys (openTable double k) root = some root₁)
    (hfill : descend false (keys ++ [k]) (fillAll putPlain es) root₁ = some root₂)
    (rest : List Char) :
    Goes root (headerLine double (keys ++ [k]) (plainEntries es ++ rest)) root₂ rest := by
  have hreach : Reaches (keys ++ [k]) root₁ := by
    unfold Reaches
    rw [descend_append]
    have hbind := @descend_bind false (openTable double k) (descend false [k] some) keys root
    have hsame : (fun table => (openTable double k table).bind (descend false [k] some))
        = openTable double k := funext fun table => by
      cases h : openTable double k table with
      | none => rfl
      | some table' => exact openTable_reaches h
    rw [hsame, hopen] at hbind
    exact hbind.symm
  have hopen' : open? double (keys ++ [k]) root = some root₁ := by
    unfold open?
    rw [List.getLast?_concat, List.dropLast_concat]
    cases double <;> exact hopen
  have hne : keys ++ [k] ≠ [] := List.append_ne_nil_of_right_ne_nil _ (List.cons_ne_nil _ _)
  have hpath := length_path (keys ++ [k])
  intro fuel here hfuel
  have hlength : (path (keys ++ [k])).length + (plainEntries es ++ rest).length + 3 ≤
      (headerLine double (keys ++ [k]) (plainEntries es ++ rest)).length := by
    cases double
    all_goals
      simp only [headerLine, Bool.false_eq_true, if_false, if_true, List.length_cons,
        List.length_append]
      omega
  obtain ⟨fuel, rfl⟩ := Nat.exists_eq_add_of_le' (show 1 ≤ fuel by omega)
  obtain ⟨fuel', hfuel', hlines⟩ := @lines_plainEntries _ rest _ hes _ _ hreach hfill fuel (by omega)
  refine ⟨fuel', keys ++ [k], hfuel', ?_⟩
  rw [← hlines]
  cases double with
  | false =>
    show lines _ _ _ ('\n' :: '[' :: (path (keys ++ [k]) ++ ']' :: '\n' :: _)) = _
    rw [lines_header hne (by omega), hopen']
    rfl
  | true =>
    show lines _ _ _ ('\n' :: '[' :: '[' :: (path (keys ++ [k]) ++ ']' :: ']' :: '\n' :: _)) = _
    rw [lines_tablesHeader hne (by omega), hopen']
    rfl

/-- **A header with everything below it**: the table it opens is filled. -/
theorem goes_opened {double : Bool} {keys : List String} {k : String} {es : List (String × Value)}
    {rest : List Char} (hes : TabularEntries es)
    (hbelow : ∀ {root root' : Entries}, Reaches (keys ++ [k]) root →
      descend false (keys ++ [k]) (fillAll putBelow es) root = some root' →
      Goes root (below (keys ++ [k]) es ++ rest) root' rest)
    {root root' : Entries} (h : descend false keys (fun table =>
      (openTable double k table).bind (descend false [k] (fill es))) root = some root') :
    Goes root (headerLine double (keys ++ [k]) (plainEntries es ++ (below (keys ++ [k]) es ++ rest)))
      root' rest := by
  rw [descend_bind] at h
  obtain ⟨root₁, hopen, hfill⟩ := Option.bind_eq_some_iff.mp h
  have hboth : fill es = fun table => (fillAll putPlain es table).bind (fillAll putBelow es) :=
    funext fun table => by rw [fill, funext (fillBelow_eq es)]
  rw [← descend_append, hboth, descend_bind] at hfill
  obtain ⟨root₂, hplain, hrest⟩ := Option.bind_eq_some_iff.mp hfill
  exact (goes_table hes hopen hplain _).trans (hbelow (.of_descend hplain) hrest)

theorem fillEach_table (k : String) (es : List (String × Value)) (more : List Value) :
    fillEach k (.table es :: more) = fun table => ((addTable k table).bind
      (descend false [k] (fill es))).bind (fillEach k more) :=
  funext fun table => by rw [fillEach]; rfl

/-- What is not below a header has no lines there. -/
theorem below_skip {v : Value} (hv : isBelowHeader v = false) (keys : List String) (k : String)
    (more : List (String × Value)) : below keys ((k, v) :: more) = below keys more := by
  cases v with
  | table entries => exact nomatch hv
  | list items => rw [below, hv, if_neg Bool.false_ne_true, List.nil_append]
  | _ => simp only [below]

/-- What is not below a header is not put there. -/
theorem putBelow_skip {v : Value} (hv : isBelowHeader v = false) (k : String) :
    putBelow k v = some := by
  cases v with
  | table entries => exact nomatch hv
  | list items => exact funext fun table => if_neg (Bool.eq_false_iff.mp hv)
  | _ => rfl

section

variable {keys : List String} {k : String} {v : Value} {more : List (String × Value)}
  {root root' : Entries}

/-- The first of several entries is put into a table, and then the others are. -/
theorem descend_fillAll {put : String → Value → Entries → Option Entries}
    (h : descend false keys (fillAll put ((k, v) :: more)) root = some root') :
    ∃ root₁, descend false keys (put k v) root = some root₁ ∧
      descend false keys (fillAll put more) root₁ = some root' := by
  have hfill : fillAll put ((k, v) :: more)
      = fun table => (put k v table).bind (fillAll put more) := rfl
  rw [hfill, descend_bind] at h
  exact Option.bind_eq_some_iff.mp h

/-- What is not below a header is passed over. -/
theorem goes_skip {rest : List Char} (hv : isBelowHeader v = false)
    (hmore : descend false keys (fillAll putBelow more) root = some root' →
      Goes root (below keys more ++ rest) root' rest)
    (hreach : Reaches keys root)
    (h : descend false keys (fillAll putBelow ((k, v) :: more)) root = some root') :
    Goes root (below keys ((k, v) :: more) ++ rest) root' rest := by
  obtain ⟨root₁, hput, h⟩ := descend_fillAll h
  rw [putBelow_skip hv] at hput
  obtain rfl : root = root₁ := Option.some.inj (hreach.symm.trans hput)
  rw [below_skip hv]
  exact hmore h

end

mutual

/-- **The lines below headers** fill the tables that the headers name. -/
theorem goes_below {rest : List Char} : ∀ {es : List (String × Value)}, TabularEntries es →
    ∀ {keys : List String} {root root' : Entries}, Reaches keys root →
    descend false keys (fillAll putBelow es) root = some root' →
    Goes root (below keys es ++ rest) root' rest
  | [], _, keys, root, root', hreach, h => by
    obtain rfl : root = root' := Option.some.inj (hreach.symm.trans h)
    rw [below]
    exact fun fuel here hfuel => ⟨fuel, here, hfuel, rfl⟩
  | (k, .table entries) :: more, hes, keys, root, root', _, h => by
    obtain ⟨root₁, hput, hmore⟩ := descend_fillAll h
    rw [below]
    simp only [List.append_assoc, List.cons_append, List.nil_append]
    exact (@goes_opened false _ _ _ _ hes.1.2 (goes_below hes.1.2) _ _ hput).trans
      (goes_below hes.2 (.of_descend hput) hmore)
  | (k, .list items) :: more, hes, keys, root, root', hreach, h => by
    cases hbelow : isBelowHeader (.list items) with
    | false => exact goes_skip hbelow (goes_below hes.2 hreach) hreach h
    | true =>
      have hitems : TabularItems items :=
        hes.1.elim (fun h => absurd h (not_inlineItems_of_below hbelow)) (·.2)
      obtain ⟨root₁, hput, hmore⟩ := descend_fillAll h
      have hsame : putBelow k (.list items) = fillEach k items := funext fun table => if_pos hbelow
      rw [hsame] at hput
      rw [below, if_pos hbelow, List.append_assoc]
      exact (goes_eachBelow hitems hreach hput).trans
        (goes_below hes.2 (.of_descend hput) hmore)
  | (_, .null) :: _, hes, _, _, _, hreach, h => goes_skip rfl (goes_below hes.2 hreach) hreach h
  | (_, .flag _) :: _, hes, _, _, _, hreach, h => goes_skip rfl (goes_below hes.2 hreach) hreach h
  | (_, .number _) :: _, hes, _, _, _, hreach, h => goes_skip rfl (goes_below hes.2 hreach) hreach h
  | (_, .text _) :: _, hes, _, _, _, hreach, h => goes_skip rfl (goes_below hes.2 hreach) hreach h

/-- The lines of a list of tables fill one table after another. -/
theorem goes_eachBelow {rest : List Char} : ∀ {items : List Value}, TabularItems items →
    ∀ {keys : List String} {k : String} {root root' : Entries}, Reaches keys root →
    descend false keys (fillEach k items) root = some root' →
    Goes root (eachBelow (keys ++ [k]) items ++ rest) root' rest
  | [], _, keys, k, root, root', hreach, h => by
    have hnil : fillEach k [] = some := funext fun table => by rw [fillEach]
    rw [hnil] at h
    obtain rfl : root = root' := Option.some.inj (hreach.symm.trans h)
    rw [eachBelow]
    exact fun fuel here hfuel => ⟨fuel, here, hfuel, rfl⟩
  | .table entries :: more, hes, keys, k, root, root', _, h => by
    rw [fillEach_table, descend_bind] at h
    obtain ⟨root₁, hput, hmore⟩ := Option.bind_eq_some_iff.mp h
    rw [eachBelow]
    simp only [List.append_assoc, List.cons_append, List.nil_append]
    exact (@goes_opened true _ _ _ _ hes.2.1.2 (goes_below hes.2.1.2) _ _ hput).trans
      (goes_eachBelow hes.2.2 (.of_descend hput) hmore)
  | .null :: _, h, _, _, _, _, _, _ => nomatch h.1
  | .flag _ :: _, h, _, _, _, _, _, _ => nomatch h.1
  | .number _ :: _, h, _, _, _, _, _, _ => nomatch h.1
  | .text _ :: _, h, _, _, _, _, _, _ => nomatch h.1
  | .list _ :: _, h, _, _, _, _, _, _ => nomatch h.1

end

/-! ## What is read -/

/-- The lines below headers begin with an empty line. -/
theorem below_head {keys : List String} : ∀ {es : List (String × Value)} {c : Char}
    {t : List Char}, TabularEntries es → below keys es = c :: t → c = '\n'
  | [], _, _, _, h => by rw [below] at h; cases h
  | (k, v) :: more, c, t, hes, h => by
    cases hbelow : isBelowHeader v with
    | false =>
      rw [below_skip hbelow] at h
      exact below_head hes.2 h
    | true =>
      match v, hbelow, hes with
      | .table entries, _, _ =>
        rw [below] at h
        exact (List.cons.inj h).1.symm
      | .list (.table entries :: items), hbelow, _ =>
        rw [below, if_pos hbelow, eachBelow] at h
        exact (List.cons.inj h).1.symm

/-- A document has no mark of byte order. -/
theorem withoutMark_write {es : List (String × Value)} {s : List Char}
    (hs : ∀ t, s ≠ '\uFEFF' :: t) : withoutMark (plainEntries es ++ s) = plainEntries es ++ s := by
  have hne : ∀ t, plainEntries es ++ s ≠ '\uFEFF' :: t := by
    induction es with
    | nil => exact hs
    | cons entry es ih =>
      obtain ⟨k, v⟩ := entry
      rw [plainEntries_cons]
      split
      · exact key_ne k rfl (by decide) (by decide) _
      · exact ih
  unfold withoutMark
  split
  · next heq => exact absurd heq (hne _)
  · rfl

/-- **A document that was written is read as it is when it is settled.** -/
theorem read_write {entries : List (String × Value)} (h : Tabular (.table entries)) :
    read (write (.table entries)) = some ((settled (.table entries)).draft numberDraft) := by
  have hfill := fill_nil h
  unfold fill at hfill
  obtain ⟨plain, hplain, hbelow⟩ := Option.bind_eq_some_iff.mp hfill
  rw [fillBelow_eq] at hbelow
  have hmark : withoutMark (plainEntries entries ++ below [] entries)
      = plainEntries entries ++ below [] entries :=
    withoutMark_write fun t ht => absurd (below_head h.2 ht) (by decide)
  have hgo : Goes plain (below [] entries ++ []) _ [] := goes_below h.2 rfl hbelow
  rw [List.append_nil] at hgo
  have hread : ∀ fuel, (plainEntries entries ++ below [] entries).length < fuel →
      lines fuel [] [] (plainEntries entries ++ below [] entries)
        = some (nodes (sortEntries (settledEntries entries))) := by
    intro fuel hfuel
    obtain ⟨fuel₁, hfuel₁, heq₁⟩ := @lines_plainEntries [] _ _ h.2 _ _ rfl hplain fuel hfuel
    obtain ⟨fuel₂, here, hfuel₂, heq₂⟩ := hgo fuel₁ [] hfuel₁
    obtain ⟨fuel₂, rfl⟩ := Nat.exists_eq_add_of_le' hfuel₂
    rw [heq₁, heq₂]
    rfl
  unfold read
  rw [write, String.toList_ofList, hmark]
  dsimp only
  rw [hread _ (by omega), Option.map_some, entriesToDraft_nodes]
  rfl

end Courier.Toml
