import Mathlib.Data.List.TakeWhile
import Courier.Url.Parse
import Courier.Proofs.Results
import Courier.Proofs.Url.Address
import Courier.Proofs.Url.Percent
/-!
# What stands before the path of a URL is read as it was written

A URL of the web begins with its scheme, its user, its host and its port. Whatever path
stands behind them, they are read as they were written (`KeepsOrigin.parse`): what is
encoded in the user is encoded as itself, a host is read as itself, of whichever kind it
is, and a port that is written is not that of the scheme. None of them holds a
character that ends them, so each is read up to where it ends.
-/

namespace Courier.Url

open Courier.Text (isDigit_of_mem)

/-! ## Characters before the path -/

/-- **A character that may stand before the path**: visible, and none that ends the part
before it. -/
def IsBefore (c : Char) : Prop :=
  IsVisible c ∧ endsAuthority .web c = false

instance (c : Char) : Decidable (IsBefore c) :=
  inferInstanceAs (Decidable (_ ∧ _))

/-- A settled character may stand there, and it does not part user, host and port. -/
theorem IsSettled.isBefore {c : Char} (h : IsSettled c) :
    IsBefore c ∧ c ≠ '@' ∧ c ≠ ':' ∧ c ≠ '[' :=
  forall_ascii (P := fun c => isForbiddenInDomain c = false →
    IsBefore c ∧ c ≠ '@' ∧ c ≠ ':' ∧ c ≠ '[') (by decide) h.ascii h.allowed

theorem isBefore_of_userinfo {c : Char} (hascii : c.toNat < 0x80) (h : inUserinfo c = false) :
    IsBefore c ∧ c ≠ '@' ∧ c ≠ ':' :=
  forall_ascii (P := fun c => inUserinfo c = false → IsBefore c ∧ c ≠ '@' ∧ c ≠ ':')
    (by decide) hascii h

/-! ## Hosts -/

/-- **A host that is read as itself.** -/
structure Host.Keeps (host : Host) : Prop where
  /-- It is read as itself. -/
  parse : parseHost .web host.render.toList = .ok host
  /-- It is not written as nothing. -/
  ne_nil : host.render.toList ≠ []
  /-- Its characters may stand before the path, and none of them ends the user. -/
  before : ∀ c ∈ host.render.toList, IsBefore c ∧ c ≠ '@'
  /-- It ends where the port begins. -/
  split : ∀ rest, rest = [] ∨ (∃ digits, rest = ':' :: digits) →
    splitHost false (host.render.toList ++ rest) = (host.render.toList, rest)

theorem splitHost_end {rest : List Char} (h : rest = [] ∨ ∃ digits, rest = ':' :: digits) :
    splitHost false rest = ([], rest) := by
  obtain rfl | ⟨digits, rfl⟩ := h <;> rfl

/-- A text without colons and brackets is part of the host. -/
theorem splitHost_append {s : List Char} (h : ∀ c ∈ s, c ≠ ':' ∧ c ≠ '[') (rest : List Char) :
    splitHost false (s ++ rest) = (s ++ (splitHost false rest).1, (splitHost false rest).2) := by
  induction s with
  | nil => rfl
  | cons c s ih =>
    obtain ⟨⟨hcolon, hopen⟩, hs⟩ := List.forall_mem_cons.mp h
    rw [List.cons_append, splitHost, decide_eq_false hcolon, Bool.false_and,
      if_neg Bool.false_ne_true, if_neg hopen, ite_self]
    dsimp only
    rw [ih hs]
    rfl

/-- Within brackets all is part of the host up to the closing one. -/
theorem splitHost_bracketed {s : List Char} (h : ∀ c ∈ s, c ≠ ']') (rest : List Char) :
    splitHost true (s ++ ']' :: rest)
      = (s ++ ']' :: (splitHost false rest).1, (splitHost false rest).2) := by
  induction s with
  | nil => rfl
  | cons c s ih =>
    obtain ⟨hc, hs⟩ := List.forall_mem_cons.mp h
    rw [List.cons_append, splitHost, Bool.not_true, Bool.and_false, if_neg Bool.false_ne_true,
      if_neg hc, ite_self]
    dsimp only
    rw [ih hs]
    rfl

/-- **A text of settled characters that is read as a host is one that keeps.** -/
theorem keeps_of_settled {name : List Char} {host : Host}
    (hrender : host.render.toList = name) (hne : name ≠ []) (hsettled : ∀ c ∈ name, IsSettled c)
    (hparse : parseHost .web name = .ok host) : host.Keeps where
  parse := hrender ▸ hparse
  ne_nil := hrender ▸ hne
  before := by
    rw [hrender]
    intro c hc
    obtain ⟨hbefore, hat, -⟩ := (hsettled c hc).isBefore
    exact ⟨hbefore, hat⟩
  split := by
    rw [hrender]
    intro rest hrest
    rw [splitHost_append (fun c hc => (hsettled c hc).isBefore.2.2), splitHost_end hrest,
      List.append_nil]

section

variable {name : List Char} (hne : name ≠ []) (hsettled : ∀ c ∈ name, IsSettled c)
  (hascii : domainToAscii (percentDecode name) = some name)

include hne hsettled hascii

/-- A text of settled characters that ends in a number is read as an address. -/
theorem parseHost_of_number (hnumber : endsInNumber name = true) {address : Nat}
    (haddress : parseV4 name = some address) : parseHost .web name = .ok (.v4 address) := by
  obtain ⟨c, rest, rfl⟩ := List.exists_cons_of_ne_nil hne
  have hopen : c ≠ '[' := (hsettled c List.mem_cons_self).isBefore.2.2.2
  unfold parseHost
  split
  · next heq => exact absurd (List.cons.inj heq).1 hopen
  · rw [hascii, if_neg (by decide)]
    dsimp only
    rw [if_pos hnumber, haddress]

/-- Any other is read as a domain name. -/
theorem parseHost_of_not_number (hnumber : ¬ endsInNumber name = true) :
    parseHost .web name = .ok (.domain (String.ofList name)) := by
  obtain ⟨c, rest, rfl⟩ := List.exists_cons_of_ne_nil hne
  have hopen : c ≠ '[' := (hsettled c List.mem_cons_self).isBefore.2.2.2
  unfold parseHost
  split
  · next heq => exact absurd (List.cons.inj heq).1 hopen
  · rw [hascii, if_neg (by decide)]
    dsimp only
    rw [if_neg hnumber]

end

/-- **An address of four bytes keeps.** -/
theorem keeps_v4 {n : Nat} (h : n < 256 ^ 4) : (Host.v4 n).Keeps := by
  obtain ⟨hsettled, hascii⟩ := domainToAscii_renderV4 n
  have hne : renderV4 n ≠ [] := by
    intro hnil
    have := endsInNumber_renderV4 n
    rw [hnil] at this
    exact absurd this (by decide)
  exact keeps_of_settled String.toList_ofList hne hsettled
    (parseHost_of_number hne hsettled hascii (endsInNumber_renderV4 n) (parseV4_renderV4 h))

/-- **An address of eight words keeps.** -/
theorem keeps_v6 {words : List Nat} (hlength : words.length = 8)
    (hwords : ∀ w ∈ words, w < 65536) : (Host.v6 words).Keeps := by
  have hrender : (Host.v6 words).render.toList = '[' :: (renderV6 words ++ [']']) := by
    have hwritten : (String.ofList (renderV6 words)).toList = renderV6 words :=
      String.toList_ofList
    show ("[" ++ String.ofList (renderV6 words) ++ "]").toList = _
    rw [String.toList_append, String.toList_append, hwritten]
    rfl
  have hinside : ∀ c ∈ renderV6 words, IsBefore c ∧ c ≠ '@' ∧ c ≠ ']' := by
    intro c hc
    obtain rfl | ⟨d, hd, rfl⟩ := of_mem_renderV6 hc
    · decide
    · have all : ∀ d : Fin 16, IsBefore (Nat.digitChar d.val) ∧ Nat.digitChar d.val ≠ '@' ∧
          Nat.digitChar d.val ≠ ']' := by decide
      exact all ⟨d, hd⟩
  refine ⟨?_, ?_, ?_, ?_⟩ <;> rw [hrender]
  · unfold parseHost
    show (if (renderV6 words ++ [']']).getLast? = some ']' then _ else _) = _
    rw [List.getLast?_concat, if_pos rfl, List.dropLast_concat, parseV6_renderV6 hlength hwords]
  · exact List.cons_ne_nil _ _
  · intro c hc
    obtain rfl | hc := List.mem_cons.mp hc
    · decide
    · obtain hc | hc := List.mem_append.mp hc
      · obtain ⟨hbefore, hat, -⟩ := hinside c hc
        exact ⟨hbefore, hat⟩
      · rw [List.mem_singleton.mp hc]
        decide
  · intro rest hrest
    have hopen : ∀ s, splitHost false ('[' :: s)
        = ('[' :: (splitHost true s).1, (splitHost true s).2) := fun s => rfl
    rw [List.cons_append, List.append_assoc, List.singleton_append, hopen,
      splitHost_bracketed (fun c hc => (hinside c hc).2.2), splitHost_end hrest]

/-- **Every host that is read for the web keeps.** -/
theorem keeps_of_parseHost {s : List Char} {host : Host} (h : parseHost .web s = .ok host) :
    host.Keeps := by
  unfold parseHost at h
  split at h
  · split at h
    · split at h
      · next words hwords =>
        obtain rfl := Except.ok.inj h
        obtain ⟨hlength, hlt⟩ := of_parseV6 hwords
        exact keeps_v6 hlength hlt
      · cases h
    · cases h
  · split at h
    · next hspecial => exact absurd hspecial (by decide)
    · split at h
      · cases h
      · cases h
      · next name hne hname =>
        obtain ⟨hsettled, hascii⟩ := domainToAscii_percentDecode hname
        split at h
        · next hnumber =>
          split at h
          · next address haddress =>
            obtain rfl := Except.ok.inj h
            exact keeps_v4 (lt_of_parseV4 haddress)
          · cases h
        · next hnumber =>
          obtain rfl := Except.ok.inj h
          exact keeps_of_settled String.toList_ofList hne hsettled
            (parseHost_of_not_number hne hsettled hascii hnumber)

/-! ## The port -/

/-- The port of a URL, written with its colon. -/
def portText (port : Option Nat) : List Char :=
  match port with
  | none => []
  | some port => ':' :: Nat.toDigits 10 port

/-- **A port that is written is read as itself.** -/
theorem parsePort_toDigits {n : Nat} (h : n < 65536) :
    parsePort (Nat.toDigits 10 n) = .ok (some n) := by
  have hall : (Nat.toDigits 10 n).all Char.isDigit = true :=
    List.all_eq_true.mpr fun c hc => isDigit_of_mem hc
  have hempty : ¬ (Nat.toDigits 10 n).isEmpty = true :=
    fun h => Nat.toDigits_ne_nil (List.isEmpty_iff.mp h)
  unfold parsePort
  rw [if_pos hall, numeralIn?_toDigits (by decide) (by decide)]
  dsimp only
  rw [if_neg hempty, if_pos h]

/-- **A host and a port that are written are read as they are**, when the port is not that
of the scheme. -/
theorem parseHostPort_render {scheme : String} {host : Host} {port : Option Nat}
    (hhost : host.Keeps)
    (hport : ∀ n, port = some n → n < 65536 ∧ some n ≠ standardPorts.lookup scheme) :
    parseHostPort .web scheme (host.render.toList ++ portText port) = .ok (some host, port) := by
  have hne : ¬ host.render.toList.isEmpty = true := fun h => hhost.ne_nil (List.isEmpty_iff.mp h)
  unfold parseHostPort
  cases port with
  | none =>
    rw [hhost.split (portText none) (.inl rfl)]
    dsimp only
    rw [if_neg hne, hhost.parse]
    rfl
  | some n =>
    obtain ⟨hlt, hother⟩ := hport n rfl
    rw [hhost.split (portText (some n)) (.inr ⟨_, rfl⟩)]
    dsimp only
    rw [if_neg hne, hhost.parse]
    show (parsePort (Nat.toDigits 10 n) >>= fun port => Except.ok
      (some host, if port = standardPorts.lookup scheme then none else port)) = _
    rw [parsePort_toDigits hlt]
    show Except.ok (some host, if some n = standardPorts.lookup scheme then none else some n) = _
    rw [if_neg hother]

/-- What is read as a port is one. -/
theorem lt_of_parsePort {s : List Char} {n : Nat} (h : parsePort s = .ok (some n)) :
    n < 65536 := by
  unfold parsePort at h
  split at h
  · split at h
    · split at h
      · cases h
      · split at h
        · next hlt =>
          obtain rfl := Option.some.inj (Except.ok.inj h)
          exact hlt
        · cases h
    · cases h
  · cases h

/-- **A host and a port that are read keep.** -/
theorem of_parseHostPort {scheme : String} {s : List Char} {host : Option Host}
    {port : Option Nat} (h : parseHostPort .web scheme s = .ok (host, port)) :
    (∃ h, host = some h ∧ h.Keeps) ∧
      ∀ n, port = some n → n < 65536 ∧ some n ≠ standardPorts.lookup scheme := by
  unfold parseHostPort at h
  obtain ⟨name, rest⟩ := splitHost false s
  dsimp only at h
  split at h
  · cases h
  · obtain ⟨host', hhost, h⟩ := bind_eq_ok h
    have hkeeps := keeps_of_parseHost hhost
    split at h
    · obtain ⟨port', hport, h⟩ := bind_eq_ok h
      obtain ⟨rfl, rfl⟩ := Prod.mk.inj (Except.ok.inj h)
      refine ⟨⟨host', rfl, hkeeps⟩, fun n hn => ?_⟩
      split at hn
      · cases hn
      · next hother =>
        rw [hn] at hport hother
        exact ⟨lt_of_parsePort hport, hother⟩
    · obtain ⟨rfl, rfl⟩ := Prod.mk.inj (Except.ok.inj h)
      exact ⟨⟨host', rfl, hkeeps⟩, fun n hn => by cases hn⟩

/-! ## The user -/

/-- The text before the last at sign, and the text behind it. -/
theorem splitUser_append {place : List Char} (h : '@' ∉ place) (user : List Char) :
    splitUser (user ++ '@' :: place) = (some user, place) := by
  have hlength : (user ++ '@' :: place).length = user.length + 1 + place.length := by
    rw [List.length_append, List.length_cons]
    omega
  unfold splitUser
  dsimp only
  rw [behindLast_append h, if_neg (by omega), hlength,
    show user.length + 1 + place.length - place.length - 1 = user.length by omega, List.take_left]

/-- Without an at sign there is no user. -/
theorem splitUser_of_notMem {place : List Char} (h : '@' ∉ place) :
    splitUser place = (none, place) := by
  unfold splitUser
  dsimp only
  rw [behindLast_of_notMem h, if_pos rfl]

/-- **A user name or a password that is encoded.** -/
def IsUserinfo (s : List Char) : Prop :=
  ∀ c ∈ s, c.toNat < 0x80 ∧ inUserinfo c = false

theorem isUserinfo_percentEncode (s : List Char) : IsUserinfo (percentEncode inUserinfo s) :=
  fun _ hc => left_of_mem_percentEncode encodes_inUserinfo hc

theorem IsUserinfo.colon_notMem {s : List Char} (h : IsUserinfo s) : ':' ∉ s := fun hc =>
  (isBefore_of_userinfo (h ':' hc).1 (h ':' hc).2).2.2 rfl

theorem IsUserinfo.percentEncode {s : String} (h : IsUserinfo s.toList) :
    String.ofList (percentEncode inUserinfo s.toList) = s := by
  rw [percentEncode_of_left h, String.ofList_toList]

/-- **A user name and a password that are read as they are written.** -/
structure KeepsUser (name : String) (password : Option String) : Prop where
  /-- The name is encoded. -/
  name : IsUserinfo name.toList
  /-- So is the password, and it is not empty. -/
  password : ∀ p, password = some p → p.toList ≠ [] ∧ IsUserinfo p.toList

/-- What is read as user name and password keeps. -/
theorem keepsUser_parseUser (s : List Char) : KeepsUser (parseUser s).1 (parseUser s).2 where
  name := by
    show IsUserinfo (String.ofList _).toList
    rw [String.toList_ofList]
    exact isUserinfo_percentEncode _
  password p hp := by
    unfold parseUser at hp
    dsimp only at hp
    split at hp
    · cases hp
    · next hne =>
      rw [← Option.some.inj hp, String.toList_ofList]
      exact ⟨percentEncode_ne_nil fun hnil => hne (List.isEmpty_iff.mpr hnil),
        isUserinfo_percentEncode _⟩

/-- A user name by itself is read as it is. -/
theorem parseUser_name {name : String} (h : IsUserinfo name.toList) :
    parseUser name.toList = (name, none) := by
  have hall : ∀ c ∈ name.toList, decide (c ≠ ':') = true := fun c hc =>
    decide_eq_true fun heq => h.colon_notMem (heq ▸ hc)
  have htake : name.toList.takeWhile (· ≠ ':') = name.toList :=
    List.takeWhile_eq_self_iff.mpr hall
  have hdrop : name.toList.dropWhile (· ≠ ':') = [] := List.dropWhile_eq_nil_iff.mpr hall
  unfold parseUser
  dsimp only
  rw [htake, hdrop, h.percentEncode]
  rfl

/-- A user name and a password are read as they are. -/
theorem parseUser_name_password {name password : String} (h : IsUserinfo name.toList)
    (hp : IsUserinfo password.toList) (hne : password.toList ≠ []) :
    parseUser (name.toList ++ ':' :: password.toList) = (name, some password) := by
  have hall : ∀ c ∈ name.toList, decide (c ≠ ':') = true := fun c hc =>
    decide_eq_true fun heq => h.colon_notMem (heq ▸ hc)
  have htake : (name.toList ++ ':' :: password.toList).takeWhile (· ≠ ':') = name.toList := by
    rw [List.takeWhile_append_of_pos hall, List.takeWhile_cons_of_neg (by decide),
      List.append_nil]
  have hdrop : (name.toList ++ ':' :: password.toList).dropWhile (· ≠ ':')
      = ':' :: password.toList := by
    rw [List.dropWhile_append_of_pos hall, List.dropWhile_cons_of_neg (by decide)]
  unfold parseUser
  dsimp only
  rw [htake, hdrop, h.percentEncode, List.drop_one, List.tail_cons,
    if_neg fun hempty => hne (List.isEmpty_iff.mp hempty), hp.percentEncode]

/-- **The user of a URL is read as it was written**, in front of a place without an at
sign. -/
theorem exists_splitUser {u : Url} (h : KeepsUser u.username u.password) {place : List Char}
    (hat : '@' ∉ place) :
    ∃ user, splitUser (u.credentials.toList ++ place) = (user, place) ∧
      parseUser (user.getD []) = (u.username, u.password) := by
  unfold credentials
  split
  · next hname hpassword =>
    rw [hname, hpassword]
    exact ⟨none, splitUser_of_notMem hat, rfl⟩
  · next hpassword _ =>
    refine ⟨some u.username.toList, ?_, hpassword ▸ parseUser_name h.name⟩
    rw [String.toList_append, List.append_assoc]
    exact splitUser_append hat _
  · next password hpassword =>
    obtain ⟨hne, hp⟩ := h.password password hpassword
    have htext : (u.username ++ ":" ++ password ++ "@").toList ++ place
        = (u.username.toList ++ ':' :: password.toList) ++ '@' :: place := by
      simp [String.toList_append]
    exact ⟨some (u.username.toList ++ ':' :: password.toList), htext ▸ splitUser_append hat _,
      hpassword ▸ parseUser_name_password h.name hp hne⟩

/-- Its characters may stand before the path. -/
theorem isBefore_of_mem_credentials {u : Url} (h : KeepsUser u.username u.password) {c : Char}
    (hc : c ∈ u.credentials.toList) : IsBefore c := by
  have hinfo : ∀ {s : List Char}, IsUserinfo s → c ∈ s → IsBefore c := fun hs hc =>
    (isBefore_of_userinfo (hs c hc).1 (hs c hc).2).1
  unfold credentials at hc
  split at hc
  · exact absurd hc List.not_mem_nil
  · rw [String.toList_append] at hc
    obtain hc | hc := List.mem_append.mp hc
    · exact hinfo h.name hc
    · rw [List.mem_singleton.mp hc]
      decide
  · next password hpassword =>
    simp only [String.toList_append, List.mem_append] at hc
    obtain ((hc | hc) | hc) | hc := hc
    · exact hinfo h.name hc
    · rw [List.mem_singleton.mp hc]
      decide
    · exact hinfo (h.password password hpassword).2 hc
    · rw [List.mem_singleton.mp hc]
      decide

/-! ## Scheme, user, host and port -/

/-- **What stands before the path of a URL with a host.** -/
def origin (u : Url) : List Char :=
  u.scheme.toList ++ "://".toList ++ u.credentials.toList ++ u.authority.toList

/-- **A URL of the web whose user, host and port keep.** -/
structure KeepsOrigin (u : Url) : Prop where
  /-- Its scheme is one of the web. -/
  scheme : Kind.ofScheme u.scheme = .web
  /-- The user keeps. -/
  user : KeepsUser u.username u.password
  /-- It has a host, which keeps. -/
  host : ∃ host, u.host = some host ∧ host.Keeps
  /-- The port is not that of the scheme. -/
  port : ∀ n, u.port = some n → n < 65536 ∧ some n ≠ standardPorts.lookup u.scheme

/-- The host and the port, written. -/
theorem toList_authority {u : Url} {host : Host} (h : u.host = some host) :
    u.authority.toList = host.render.toList ++ portText u.port := by
  unfold authority
  rw [h]
  cases u.port with
  | none =>
    show (host.render ++ "").toList = _
    rw [String.append_empty]
    exact (List.append_nil _).symm
  | some n =>
    show (host.render ++ (":" ++ toString n)).toList = _
    rw [String.toList_append, String.toList_append]
    exact congrArg (host.render.toList ++ ':' :: ·) Nat.toList_repr

/-- Characters of a port may stand before the path. -/
theorem isBefore_of_mem_portText {port : Option Nat} {c : Char} (h : c ∈ portText port) :
    IsBefore c ∧ c ≠ '@' := by
  cases port with
  | none => exact absurd h List.not_mem_nil
  | some n =>
    obtain rfl | h := List.mem_cons.mp h
    · decide
    · obtain ⟨hbefore, hat, -⟩ := (isSettled_of_isDigit (isDigit_of_mem h)).1.isBefore
      exact ⟨hbefore, hat⟩

section

variable {u : Url}

/-- So may those of the host and the port. -/
theorem KeepsOrigin.of_mem_authority (h : KeepsOrigin u) {c : Char}
    (hc : c ∈ u.authority.toList) : IsBefore c ∧ c ≠ '@' := by
  obtain ⟨host, hhost, hkeeps⟩ := h.host
  rw [toList_authority hhost] at hc
  obtain hc | hc := List.mem_append.mp hc
  · exact hkeeps.before c hc
  · exact isBefore_of_mem_portText hc

/-- So may all that stands between the scheme and the path. -/
theorem KeepsOrigin.of_mem (h : KeepsOrigin u) {c : Char}
    (hc : c ∈ u.credentials.toList ++ u.authority.toList) : IsBefore c := by
  obtain hc | hc := List.mem_append.mp hc
  · exact isBefore_of_mem_credentials h.user hc
  · exact (h.of_mem_authority hc).1

/-- There is something there. -/
theorem KeepsOrigin.authority_ne_nil (h : KeepsOrigin u) : u.authority.toList ≠ [] := by
  obtain ⟨host, hhost, hkeeps⟩ := h.host
  rw [toList_authority hhost]
  exact fun hnil => hkeeps.ne_nil (List.append_eq_nil_iff.mp hnil).1

/-- **The part before the path is read as it was written.** -/
theorem KeepsOrigin.parseWithHost (h : KeepsOrigin u) {rest path tail : List Char}
    {query fragment : Option String} (hrest : rest.head? = some '/')
    (hpath : splitTail rest = (path, tail)) (htail : parseTail .web tail = (query, fragment)) :
    parseWithHost .web u.scheme (u.credentials.toList ++ u.authority.toList ++ rest)
      = .ok { u with path := parsePath .web path, query := query, fragment := fragment } := by
  obtain ⟨host, hhost, hkeeps⟩ := h.host
  obtain ⟨rest, rfl⟩ : ∃ rest', rest = '/' :: rest' := by
    cases rest with
    | nil => cases hrest
    | cons c rest => exact ⟨rest, congrArg (· :: rest) (Option.some.inj hrest)⟩
  have hall : ∀ c ∈ u.credentials.toList ++ u.authority.toList,
      (!endsAuthority .web c) = true := fun c hc => by rw [(h.of_mem hc).2]; rfl
  have htake : (u.credentials.toList ++ u.authority.toList ++ '/' :: rest).takeWhile
      (fun c => !endsAuthority .web c) = u.credentials.toList ++ u.authority.toList := by
    rw [List.takeWhile_append_of_pos hall, List.takeWhile_cons_of_neg (by decide),
      List.append_nil]
  have hdrop : (u.credentials.toList ++ u.authority.toList ++ '/' :: rest).dropWhile
      (fun c => !endsAuthority .web c) = '/' :: rest := by
    rw [List.dropWhile_append_of_pos hall, List.dropWhile_cons_of_neg (by decide)]
  have hne : u.authority.toList.isEmpty = false :=
    Bool.eq_false_iff.mpr fun hempty => h.authority_ne_nil (List.isEmpty_iff.mp hempty)
  have hplace : parseHostPort .web u.scheme u.authority.toList = .ok (u.host, u.port) := by
    rw [toList_authority hhost, hhost]
    exact parseHostPort_render hkeeps h.port
  obtain ⟨user, hsplit, huser⟩ := exists_splitUser h.user fun hat => (h.of_mem_authority hat).2 rfl
  unfold Url.parseWithHost
  dsimp only
  rw [htake, hdrop, hpath]
  dsimp only
  rw [htail, hsplit]
  dsimp only
  rw [huser, hne, Bool.and_false, Bool.false_and, if_neg Bool.false_ne_true]
  rw [hplace, hhost]
  rfl

end

/-! ## The scheme -/

/-- A text of visible characters has nothing in it that does not count. -/
theorem cleaned_of_visible {s : List Char} (h : ∀ c ∈ s, IsVisible c) : cleaned s = s := by
  have hdrop : ∀ t : List Char, (∀ c ∈ t, IsVisible c) →
      t.dropWhile (fun c => decide (c.toNat ≤ 0x20)) = t := by
    intro t ht
    cases t with
    | nil => rfl
    | cons c t =>
      refine List.dropWhile_cons_of_neg fun hlow => ?_
      exact absurd (ht c List.mem_cons_self).1 (Nat.not_lt.mpr (of_decide_eq_true hlow))
  have hfilter : s.filter (fun c => c ≠ '\t' && c ≠ '\n' && c ≠ '\r') = s := by
    refine List.filter_eq_self.mpr fun c hc => ?_
    have hlow := (h c hc).1
    have hne : ∀ x : Char, x.toNat ≤ 0x20 → decide (c ≠ x) = true := fun x hx =>
      decide_eq_true fun heq => absurd (heq ▸ hlow) (Nat.not_lt.mpr hx)
    rw [hne _ (by decide), hne _ (by decide), hne _ (by decide)]
    rfl
  unfold cleaned
  dsimp only
  rw [hdrop s h, hdrop s.reverse fun c hc => h c (List.mem_reverse.mp hc), List.reverse_reverse,
    hfilter]

/-- A scheme of the web is one of a few. -/
theorem mem_of_ofScheme {scheme : String} (h : Kind.ofScheme scheme = .web) :
    scheme ∈ standardPorts.map (·.1) := by
  unfold Kind.ofScheme at h
  split at h
  · cases h
  · split at h
    · next hsome =>
      obtain ⟨entry, hentry, heq⟩ := List.lookup_isSome_iff.mp hsome
      exact List.mem_map.mpr ⟨entry, hentry, (beq_iff_eq.mp heq).symm⟩
    · cases h

/-- A scheme of the web, and what follows its colon. -/
theorem splitScheme_append {scheme : String} (h : Kind.ofScheme scheme = .web)
    (rest : List Char) : splitScheme (scheme.toList ++ ':' :: rest) = some (scheme, rest) := by
  have all : ∀ scheme ∈ standardPorts.map (·.1), ∀ rest,
      splitScheme (scheme.toList ++ ':' :: rest) = some (scheme, rest) := by
    simp only [standardPorts, List.map_cons, List.map_nil, List.forall_mem_cons]
    exact ⟨fun _ => rfl, fun _ => rfl, fun _ => rfl, fun _ => rfl, fun _ => rfl,
      fun _ h => absurd h List.not_mem_nil⟩
  exact all scheme (mem_of_ofScheme h) rest

/-- Its characters are visible. -/
theorem visible_of_mem_scheme {scheme : String} (h : Kind.ofScheme scheme = .web) :
    ∀ c ∈ scheme.toList, IsVisible c := by
  have all : ∀ scheme ∈ standardPorts.map (·.1),
      scheme.toList.all (fun c => decide (IsVisible c)) = true := by decide
  exact forall_mem_of_all (all scheme (mem_of_ofScheme h))

/-- **A URL of the web is read as it was written up to its path**, whatever path, query and
fragment stand behind it. -/
theorem KeepsOrigin.parse {u : Url} (h : KeepsOrigin u) {rest path tail : List Char}
    {query fragment : Option String} (hrest : rest.head? = some '/')
    (hvisible : ∀ c ∈ rest, IsVisible c)
    (hpath : splitTail rest = (path, tail)) (htail : parseTail .web tail = (query, fragment)) :
    Url.parse (String.ofList (u.origin ++ rest))
      = .ok { u with path := parsePath .web path, query := query, fragment := fragment } := by
  have htext : u.origin ++ rest = u.scheme.toList ++ ':' :: '/' :: '/' ::
      (u.credentials.toList ++ u.authority.toList ++ rest) := by
    unfold origin
    simp [List.append_assoc]
  have hall : ∀ c ∈ u.origin ++ rest, IsVisible c := by
    intro c hc
    unfold origin at hc
    simp only [List.mem_append] at hc
    obtain (((hc | hc) | hc) | hc) | hc := hc
    · exact visible_of_mem_scheme h.scheme c hc
    · exact forall_mem_of_all (s := "://".toList) (by decide) c hc
    · exact (h.of_mem (List.mem_append_left _ hc)).1
    · exact (h.of_mem (List.mem_append_right _ hc)).1
    · exact hvisible c hc
  have hdrop : ('/' :: '/' :: (u.credentials.toList ++ u.authority.toList ++ rest)).dropWhile
      (isSlash .web) = u.credentials.toList ++ u.authority.toList ++ rest := by
    obtain ⟨c, s, hcons⟩ := List.exists_cons_of_ne_nil
      (fun hnil => h.authority_ne_nil (List.append_eq_nil_iff.mp hnil).2 :
        u.credentials.toList ++ u.authority.toList ≠ [])
    have hc : isSlash .web c = false := by
      have hends := (h.of_mem (hcons ▸ List.mem_cons_self)).2
      unfold endsAuthority at hends
      simp only [Bool.or_eq_false_iff] at hends
      exact hends.1.1
    rw [List.dropWhile_cons_of_pos (by decide), List.dropWhile_cons_of_pos (by decide), hcons,
      List.cons_append, List.dropWhile_cons_of_neg (Bool.eq_false_iff.mp hc)]
  unfold Url.parse
  rw [String.toList_ofList, cleaned_of_visible hall, htext, splitScheme_append h.scheme]
  dsimp only
  rw [h.scheme]
  dsimp only
  rw [hdrop]
  exact h.parseWithHost hrest hpath htail

/-! ## What is read keeps -/

/-- **What a text is read as, behind the slashes of a URL with a host.** -/
theorem of_parseWithHost {kind : Kind} {scheme : String} {s : List Char} {u : Url}
    (h : parseWithHost kind scheme s = .ok u) :
    u.scheme = scheme ∧ KeepsUser u.username u.password ∧
      (∃ place, parseHostPort kind scheme place = .ok (u.host, u.port)) ∧
      (∃ path, u.path = parsePath kind path) ∧
      ∃ tail, parseTail kind tail = (u.query, u.fragment) := by
  unfold parseWithHost at h
  dsimp only at h
  split at h
  · cases h
  · obtain ⟨⟨host, port⟩, hplace, h⟩ := bind_eq_ok h
    split at h
    · cases h
    · obtain rfl := Except.ok.inj h
      exact ⟨rfl, keepsUser_parseUser _, ⟨_, hplace⟩, ⟨_, rfl⟩, _, rfl⟩

/-- A URL of a file has that scheme. -/
theorem scheme_of_parseFile {s : List Char} {u : Url} (h : parseFile s = .ok u) :
    u.scheme = "file" := by
  unfold parseFile at h
  dsimp only at h
  split at h
  · split at h
    · split at h
      · exact congrArg Url.scheme (Except.ok.inj h).symm
      · obtain ⟨host, -, h⟩ := bind_eq_ok h
        exact congrArg Url.scheme (Except.ok.inj h).symm
    · exact congrArg Url.scheme (Except.ok.inj h).symm
  · exact congrArg Url.scheme (Except.ok.inj h).symm

/-- A URL of the web is read as one with a host. -/
theorem parseWithHost_of_parse {s : String} {u : Url} (h : parse s = .ok u)
    (hscheme : Kind.ofScheme u.scheme = .web) :
    ∃ rest, parseWithHost .web u.scheme rest = .ok u := by
  unfold parse at h
  split at h
  · cases h
  · next scheme rest _ =>
    split at h
    · rw [scheme_of_parseFile h] at hscheme
      exact absurd hscheme (by decide)
    · exact ⟨_, (of_parseWithHost h).1 ▸ h⟩
    · next hkind =>
      have hsame : u.scheme = scheme := by
        split at h
        · exact (of_parseWithHost h).1
        · exact congrArg Url.scheme (Except.ok.inj h).symm
      rw [hsame, hkind] at hscheme
      exact absurd hscheme (by decide)

/-- **Every URL of the web that is read keeps**, and it has a path. -/
theorem keepsOrigin_of_parse {s : String} {u : Url} (h : parse s = .ok u)
    (hscheme : Kind.ofScheme u.scheme = .web) :
    KeepsOrigin u ∧ (∃ path, u.path = parsePath .web path) ∧
      ∃ tail, parseTail .web tail = (u.query, u.fragment) := by
  obtain ⟨rest, hrest⟩ := parseWithHost_of_parse h hscheme
  obtain ⟨-, huser, ⟨place, hplace⟩, hpath, htail⟩ := of_parseWithHost hrest
  obtain ⟨hhost, hport⟩ := of_parseHostPort hplace
  exact ⟨⟨hscheme, huser, hhost, hport⟩, hpath, htail⟩

end Courier.Url
