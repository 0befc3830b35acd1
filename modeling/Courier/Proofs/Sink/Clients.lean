import Courier.Pipeline.Run
import Courier.Proofs.Blueprint.Rules
import Courier.Proofs.Document.Tables
import Courier.Proofs.Sink.Endpoint
import Courier.Proofs.Sink.Roster
import Courier.Proofs.Text.Numeral
import Mathlib.Data.List.Forall2
/-!
# The clients of a legal blueprint

A legal blueprint has for each of its sinks the parameters that it requires, and no two
of its sinks have the same name. So when clients are made of them, none is handed out
twice and no parameter is missing: what can still be wrong with a sink is its URL or its
timeout (`Unusable`), which no rule of blueprints looks into. If there is no such sink,
every sink gets a client of its own name and type; otherwise the first one is reported,
and there are clients of those before it (`clients_of_legal`).

Clients are made in the order of the sinks, and the registry holds what has been made so
far: this is the invariant (`Registry.Adds`), whatever was in the registry before.
-/

namespace Courier.Sink

open Courier.Text (NumeralFault Writes readNumeral readNumeral_eq_ok_iff word64)

/-! ## One sink -/

/-- **A sink of which no client can be made**: it is behind a URL, and what is configured as
its URL is none of HTTP, or what is configured as its timeout is no number of 64 bits. -/
def Unusable (s : SinkSettings) : Prop :=
  s.type ≠ .log ∧
    ((∃ url, s.param? "url" = some url ∧ ¬IsWebUrl url) ∨
      ∃ raw, s.param? "timeout_ms" = some raw ∧ ∀ n, ¬Writes word64 raw.toList n)

/-- **What is said to be wrong with such a sink.** -/
inductive Complaint (s : SinkSettings) : Failure → Prop
  /-- The timeout cannot be read. -/
  | timeout {raw : String} {fault : NumeralFault} (hraw : s.param? "timeout_ms" = some raw)
    (h : readNumeral word64 raw.toList = .error fault) :
    Complaint s
      (paramFailure s.name "timeout_ms" (s!"invalid timeout '{raw}': " ++ fault.message))
  /-- The URL cannot be read. -/
  | url {url : String} {fault : Url.Fault} (hurl : s.param? "url" = some url)
    (h : Url.parse url = .error fault) :
    Complaint s (paramFailure s.name "url" (s!"invalid url '{url}': " ++ fault.message))
  /-- The URL is one of another scheme. -/
  | scheme {url : String} {u : Url} (hurl : s.param? "url" = some url)
    (h : Url.parse url = .ok u) (hscheme : ¬IsHttp u) :
    Complaint s (paramFailure s.name "url" s!"unsupported scheme '{u.scheme}'")

/-- A parameter that is there is found. -/
theorem requiredParam_of_has {s : SinkSettings} {key : String} (h : s.Has key) :
    ∃ value, s.param? key = some value ∧ requiredParam s key = .ok value := by
  obtain ⟨value, hvalue, -⟩ := h
  refine ⟨value, hvalue, ?_⟩
  unfold requiredParam
  rw [hvalue]

/-- **The timeout of a sink is found** unless what is configured is no number of 64 bits. -/
theorem timeoutOf_cases (s : SinkSettings) :
    (∃ n, timeoutOf s = .ok n ∧
      ¬∃ raw, s.param? "timeout_ms" = some raw ∧ ∀ n, ¬Writes word64 raw.toList n) ∨
    ∃ f, timeoutOf s = .error f ∧ Complaint s f ∧
      ∃ raw, s.param? "timeout_ms" = some raw ∧ ∀ n, ¬Writes word64 raw.toList n := by
  unfold timeoutOf
  cases hraw : s.param? "timeout_ms" with
  | none =>
    refine .inl ⟨standardTimeout, rfl, ?_⟩
    rintro ⟨raw, hsome, -⟩
    cases hsome
  | some raw =>
    dsimp only
    cases hread : readNumeral word64 raw.toList with
    | ok n =>
      refine .inl ⟨n, rfl, ?_⟩
      rintro ⟨raw', hsome, hnone⟩
      obtain rfl := Option.some.inj hsome
      exact hnone n (readNumeral_eq_ok_iff.mp hread)
    | error fault =>
      refine .inr ⟨_, rfl, .timeout hraw hread, raw, rfl, fun n hwrites => ?_⟩
      rw [readNumeral_eq_ok_iff.mpr hwrites] at hread
      cases hread

/-- **A place for the requests of a sink is found** unless its URL is none of HTTP. -/
theorem endpointOf_param {s : SinkSettings} {url path : String}
    (hurl : s.param? "url" = some url) (hpath : IsPlain path) :
    (∃ endpoint, endpointOf s.name url path = .ok endpoint ∧ IsWebUrl url) ∨
    ∃ f, endpointOf s.name url path = .error f ∧ Complaint s f ∧ ¬IsWebUrl url := by
  obtain ⟨u, hu, hhttp, hend⟩ | ⟨fault, hu, hend⟩ | ⟨u, hu, hhttp, hend⟩ :=
    endpointOf_cases s.name url hpath
  · exact .inl ⟨_, hend, u, hu, hhttp⟩
  · refine .inr ⟨_, hend, .url hurl hu, ?_⟩
    rintro ⟨u', hu', -⟩
    cases hu.symm.trans hu'
  · refine .inr ⟨_, hend, .scheme hurl hu hhttp, ?_⟩
    rintro ⟨u', hu', hhttp'⟩
    obtain rfl := Except.ok.inj (hu.symm.trans hu')
    exact hhttp hhttp'

/-- **A sink behind a URL**, made of a parameter of its own, the timeout, and where requests
go to. -/
def build {α : Type} (s : SinkSettings) (key path : String) (make : String → Nat → Url → α) :
    Except Failure α := do
  let url ← requiredParam s "url"
  let own ← requiredParam s key
  let timeout ← timeoutOf s
  let endpoint ← endpointOf s.name url path
  return make own timeout endpoint

theorem SearchBulk.ofSettings_eq (s : SinkSettings) :
    SearchBulk.ofSettings s = build s "index" "_bulk" fun index timeout endpoint =>
      ⟨s.name, index, endpoint, timeout⟩ :=
  rfl

theorem RecordStream.ofSettings_eq (s : SinkSettings) :
    RecordStream.ofSettings s = build s "stream_name" "" fun stream timeout endpoint =>
      ⟨s.name, stream, endpoint, timeout⟩ :=
  rfl

/-- **A sink behind a URL is built when it has its parameters**, unless its URL or its timeout
is wrong; that of the timeout is said first. -/
theorem build_cases {α : Type} {s : SinkSettings} (key path : String)
    (make : String → Nat → Url → α) (htype : s.type ≠ .log) (hurl : s.Has "url")
    (hkey : s.Has key) (hpath : IsPlain path) :
    (∃ own timeout endpoint, build s key path make = .ok (make own timeout endpoint) ∧
      ¬Unusable s) ∨
    ∃ f, build s key path make = .error f ∧ Unusable s ∧ Complaint s f := by
  obtain ⟨url, hurl, hurl'⟩ := requiredParam_of_has hurl
  obtain ⟨own, -, hown⟩ := requiredParam_of_has hkey
  obtain ⟨n, htimeout, hgood⟩ | ⟨f, htimeout, hcomplaint, hbad⟩ := timeoutOf_cases s
  · obtain ⟨endpoint, hend, hweb⟩ | ⟨f, hend, hcomplaint, hnone⟩ := endpointOf_param hurl hpath
    · refine .inl ⟨own, n, endpoint, ?_, ?_⟩
      · simp only [build, hurl', hown, htimeout, hend, bind, Except.bind, pure, Except.pure]
      · rintro ⟨-, ⟨url', hurl', hnone⟩ | hbad⟩
        · obtain rfl := Option.some.inj (hurl.symm.trans hurl')
          exact hnone hweb
        · exact hgood hbad
    · refine .inr ⟨f, ?_, ⟨htype, .inl ⟨url, hurl, hnone⟩⟩, hcomplaint⟩
      simp only [build, hurl', hown, htimeout, hend, bind, Except.bind]
  · refine .inr ⟨f, ?_, ⟨htype, .inr hbad⟩, hcomplaint⟩
    simp only [build, hurl', hown, htimeout, bind, Except.bind]

/-- **What comes of a sink that has the parameters that it requires**: a client of its type, or
a failure under its name when it is one of which none can be made. -/
theorem Client.ofSettings_cases {s : SinkSettings} (h : ∀ key ∈ s.type.requiredParams, s.Has key) :
    (∃ c, Client.ofSettings s = .ok c ∧ c.type = s.type ∧ ¬Unusable s) ∨
    ∃ f, Client.ofSettings s = .error (.creation s.name f.message) ∧ Unusable s ∧
      Complaint s f := by
  unfold Client.ofSettings
  dsimp only
  cases htype : s.type with
  | log => exact .inl ⟨.log s.name, rfl, rfl, fun hbad => hbad.1 htype⟩
  | searchBulk =>
    rw [htype] at h
    dsimp only
    rw [SearchBulk.ofSettings_eq]
    obtain ⟨own, timeout, endpoint, hbuild, hgood⟩ | ⟨f, hbuild, hbad, hcomplaint⟩ :=
      build_cases "index" "_bulk"
        (fun index timeout endpoint => SearchBulk.mk s.name index endpoint timeout)
        (by rw [htype]; decide) (h _ (by decide)) (h _ (by decide)) isPlain_bulk
    · exact .inl ⟨_, by rw [hbuild]; rfl, rfl, hgood⟩
    · exact .inr ⟨f, by rw [hbuild]; rfl, hbad, hcomplaint⟩
  | recordStream =>
    rw [htype] at h
    dsimp only
    rw [RecordStream.ofSettings_eq]
    obtain ⟨own, timeout, endpoint, hbuild, hgood⟩ | ⟨f, hbuild, hbad, hcomplaint⟩ :=
      build_cases "stream_name" ""
        (fun stream timeout endpoint => RecordStream.mk s.name stream endpoint timeout)
        (by rw [htype]; decide) (h _ (by decide)) (h _ (by decide)) isPlain_empty
    · exact .inl ⟨_, by rw [hbuild]; rfl, rfl, hgood⟩
    · exact .inr ⟨f, by rw [hbuild]; rfl, hbad, hcomplaint⟩

/-! ## One sink after another -/

namespace Registry

/-- **A registry to which clients of sinks were added**, in the order of the sinks. -/
structure Adds (r : Registry) (sinks : List SinkSettings) (handles : List Handle)
    (r' : Registry) : Prop where
  /-- Each client was made of its sink, and is of its type. -/
  each : List.Forall₂ (fun s h => Client.ofSettings s = .ok h.client ∧ h.client.type = s.type)
    sinks handles
  /-- They are there by the names of the sinks, before what was there. -/
  clients : r'.clients = ((sinks.map (·.name)).zip handles).reverse ++ r.clients
  /-- They are numbered one after another. -/
  serials : handles.map (·.serial) = List.range' r.made sinks.length

variable {r r' : Registry} {sinks : List SinkSettings} {handles : List Handle}

theorem Adds.nil (r : Registry) : r.Adds [] [] r where
  each := .nil
  clients := rfl
  serials := rfl

/-- One client added before others. -/
theorem Adds.cons {s : SinkSettings} {c : Client} (hc : Client.ofSettings s = .ok c)
    (htype : c.type = s.type)
    (h : Adds ⟨(s.name, ⟨r.made, c⟩) :: r.clients, r.made + 1⟩ sinks handles r') :
    r.Adds (s :: sinks) (⟨r.made, c⟩ :: handles) r' where
  each := .cons ⟨hc, htype⟩ h.each
  clients := by
    rw [h.clients, List.map_cons, List.zip_cons_cons, List.reverse_cons, List.append_assoc]
    rfl
  serials := by
    rw [List.map_cons, h.serials, List.length_cons, List.range'_succ]

/-- **Clients of sinks whose names are new and that have their parameters** are made one after
another: of all of them when none is unusable, and of those before the first one that is. -/
theorem getAll_cases {sinks : List SinkSettings} (hnodup : (sinks.map (·.name)).Nodup)
    (hparams : ∀ s ∈ sinks, ∀ key ∈ s.type.requiredParams, s.Has key) : ∀ r : Registry,
    (∀ s ∈ sinks, r.clients.lookup s.name = none) →
      (∃ handles r', r.getAll sinks = (r', .ok handles) ∧ (∀ s ∈ sinks, ¬Unusable s) ∧
        r.Adds sinks handles r') ∨
      ∃ before s behind handles r' f, sinks = before ++ s :: behind ∧
        (∀ t ∈ before, ¬Unusable t) ∧ Unusable s ∧ Complaint s f ∧ r.Adds before handles r' ∧
        r.getAll sinks = (r', .error (.configInvalid s!"sinks.{s.name}" f.message)) := by
  induction sinks with
  | nil =>
    intro r _
    exact .inl ⟨[], r, rfl, fun s hs => absurd hs List.not_mem_nil, .nil r⟩
  | cons s sinks ih =>
    intro r hfresh
    rw [List.map_cons, List.nodup_cons] at hnodup
    have hnew : r.clients.lookup s.name = none := hfresh s List.mem_cons_self
    obtain ⟨c, hc, htype, hgood⟩ | ⟨f, hc, hbad, hcomplaint⟩ :=
      Client.ofSettings_cases (hparams s List.mem_cons_self)
    · -- its client is made, and those behind it are made in the registry with it
      have hstep : r.getOrCreate s
          = (⟨(s.name, ⟨r.made, c⟩) :: r.clients, r.made + 1⟩, .ok ⟨r.made, c⟩) := by
        unfold getOrCreate
        rw [hnew, hc]
      have hfresh' : ∀ t ∈ sinks,
          ((s.name, (⟨r.made, c⟩ : Handle)) :: r.clients).lookup t.name = none := by
        intro t ht
        have hother : t.name ≠ s.name := fun heq => hnodup.1 (heq ▸ List.mem_map_of_mem ht)
        rw [List.lookup_cons, beq_false_of_ne hother]
        exact hfresh t (List.mem_cons_of_mem s ht)
      obtain ⟨handles, r', hall, husable, hadds⟩ |
          ⟨before, t, behind, handles, r', f, rfl, hbefore, hbad, hcomplaint, hadds, hall⟩ :=
        ih hnodup.2 (fun t ht => hparams t (List.mem_cons_of_mem s ht))
          ⟨(s.name, ⟨r.made, c⟩) :: r.clients, r.made + 1⟩ hfresh'
      · refine .inl ⟨_, r', ?_, List.forall_mem_cons.mpr ⟨hgood, husable⟩, hadds.cons hc htype⟩
        rw [getAll, hstep]
        dsimp only
        rw [hall]
      · refine .inr ⟨s :: before, t, behind, _, r', f, rfl,
          List.forall_mem_cons.mpr ⟨hgood, hbefore⟩, hbad, hcomplaint, hadds.cons hc htype, ?_⟩
        rw [getAll, hstep]
        dsimp only
        rw [hall]
    · refine .inr ⟨[], s, sinks, [], r, f, rfl, fun t ht => absurd ht List.not_mem_nil, hbad,
        hcomplaint, .nil r, ?_⟩
      rw [getAll, getOrCreate, hnew, hc]
      rfl

/-- **A registry that holds the clients of sinks, and nothing else.** -/
structure Serves (r : Registry) (sinks : List SinkSettings) (handles : List Handle) : Prop where
  /-- Each sink has the client at its place: it was made of the sink, with its name and of its
  type, and it is found by this name. -/
  each : List.Forall₂ (fun s h => h.client.name = s.name ∧ h.client.type = s.type ∧
    Client.ofSettings s = .ok h.client ∧ r.clients.lookup s.name = some h) sinks handles
  /-- No two sinks have the same client. -/
  distinct : (handles.map (·.serial)).Nodup
  /-- There are as many clients as sinks. -/
  size : r.size = sinks.length
  /-- There is none of another name. -/
  only : ∀ name h, r.clients.lookup name = some h → name ∈ sinks.map (·.name)

/-- **Clients that were added to an empty registry** are what it holds. -/
theorem Adds.serves (h : Adds {} sinks handles r) (hnodup : (sinks.map (·.name)).Nodup) :
    r.Serves sinks handles := by
  have hlength : sinks.length = handles.length := h.each.length_eq
  have hclients : r.clients = ((sinks.map (·.name)).zip handles).reverse :=
    h.clients.trans (List.append_nil _)
  have hnames : r.clients.map (·.1) = (sinks.map (·.name)).reverse := by
    rw [hclients, List.map_reverse, List.map_fst_zip (by rw [List.length_map, hlength])]
  have hnodup' : (r.clients.map (·.1)).Nodup := by
    rw [hnames]
    exact List.nodup_reverse.mpr hnodup
  refine ⟨List.forall₂_iff_zip.mpr ⟨hlength, fun {s handle} hmem => ?_⟩, ?_, ?_, ?_⟩
  · obtain ⟨hc, htype⟩ := List.forall₂_zip h.each hmem
    refine ⟨Client.name_ofSettings hc, htype, hc, ?_⟩
    have hentry : (s.name, handle) ∈ r.clients := by
      rw [hclients, List.mem_reverse, List.zip_map_left]
      exact List.mem_map.mpr ⟨(s, handle), hmem, rfl⟩
    exact Document.lookup_of_mem hnodup' hentry
  · rw [h.serials]
    exact List.nodup_range'
  · have hcount := congrArg List.length hnames
    rwa [List.length_map, List.length_reverse, List.length_map] at hcount
  · intro name handle hlookup
    rw [← List.mem_reverse, ← hnames]
    exact List.mem_map.mpr ⟨(name, handle), Document.mem_of_lookup hlookup, rfl⟩

end Registry

/-! ## A legal blueprint -/

open Run (Plan plan)

variable {b : Blueprint}

theorem has_of_check (h : b.check = .ok b) :
    ∀ s ∈ b.sinks, ∀ key ∈ s.type.requiredParams, s.Has key :=
  Blueprint.holds_of_check h .params

theorem nodup_of_check (h : b.check = .ok b) : (b.sinks.map (·.name)).Nodup :=
  Blueprint.holds_of_check h .distinctNames

/-- **A run has the clients that were handed out for its sinks**, one for each, by their
names, and its requests are made again as the blueprint says. -/
theorem plan_of_getAll {r : Registry} {handles : List Handle}
    (hall : ({} : Registry).getAll b.sinks = (r, .ok handles)) {s : Run.Settings} {files : Files}
    {p : Plan} (h : plan b s files = .ok p) :
    p.clients = handles.map (·.client) ∧ p.pipeline.sinks = b.sinks.map (·.name) ∧
      p.pipeline.strategy = b.delivery.strategy := by
  obtain ⟨handles', hhandles, h⟩ := bind_eq_ok h
  obtain ⟨line, -, h⟩ := bind_eq_ok h
  obtain ⟨reader, -, h⟩ := bind_eq_ok h
  have hhanded := mapError_eq_ok hhandles
  have hnames := Registry.names_getAll hhanded
  rw [hall] at hhanded
  obtain rfl := Except.ok.inj hhanded
  obtain rfl := Except.ok.inj h
  refine ⟨rfl, ?_, rfl⟩
  rw [← hnames]
  exact List.map_map

/-- **A run of which a client cannot be made** does not begin. -/
theorem plan_of_getAll_error {r : Registry} {f : Failure}
    (hall : ({} : Registry).getAll b.sinks = (r, .error f)) (s : Run.Settings) (files : Files) :
    plan b s files = .error (.behind "Failed to create sink clients" f) := by
  unfold plan
  rw [hall]
  rfl

/-- **The clients of a legal blueprint.** No parameter is missing that a client is made of. If
none of its sinks is unusable, there is one client for each, with its name and of its
type, in their order, and a run delivers to these. Otherwise the first sink that is
unusable is reported under its name, with what is wrong with it, there are clients of
those before it and no others, and no run begins. -/
theorem clients_of_legal (h : b.check = .ok b) :
    (∀ s ∈ b.sinks, ∀ key ∈ s.type.requiredParams,
      ∃ value, requiredParam s key = .ok value) ∧
    ((∃ r handles, ({} : Registry).getAll b.sinks = (r, .ok handles) ∧
        (∀ s ∈ b.sinks, ¬Unusable s) ∧ r.Serves b.sinks handles ∧
        ∀ settings files p, plan b settings files = .ok p →
          p.clients = handles.map (·.client) ∧ p.pipeline.sinks = b.sinks.map (·.name) ∧
            p.pipeline.strategy = b.delivery.strategy) ∨
      ∃ before s behind r handles f, b.sinks = before ++ s :: behind ∧
        (∀ t ∈ before, ¬Unusable t) ∧ Unusable s ∧ Complaint s f ∧
        ({} : Registry).getAll b.sinks
          = (r, .error (.configInvalid s!"sinks.{s.name}" f.message)) ∧
        r.Serves before handles ∧
        ∀ settings files, plan b settings files
          = .error (.behind "Failed to create sink clients"
              (.configInvalid s!"sinks.{s.name}" f.message))) := by
  have hnodup := nodup_of_check h
  refine ⟨fun s hs key hkey => ?_, ?_⟩
  · obtain ⟨value, -, hvalue⟩ := requiredParam_of_has (has_of_check h s hs key hkey)
    exact ⟨value, hvalue⟩
  · obtain ⟨handles, r, hall, husable, hadds⟩ |
        ⟨before, s, behind, handles, r, f, hsinks, hbefore, hbad, hcomplaint, hadds, hall⟩ :=
      Registry.getAll_cases hnodup (has_of_check h) {} fun _ _ => rfl
    · exact .inl ⟨r, handles, hall, husable, hadds.serves hnodup,
        fun _ _ _ hplan => plan_of_getAll hall hplan⟩
    · have hnodup' : (before.map (·.name)).Nodup := by
        rw [hsinks, List.map_append] at hnodup
        exact (List.nodup_append.mp hnodup).1
      exact .inr ⟨before, s, behind, r, handles, f, hsinks, hbefore, hbad, hcomplaint, hall,
        hadds.serves hnodup', plan_of_getAll_error hall⟩

/-- A sink that is the log. -/
def audit : SinkSettings :=
  ⟨"audit", .log, []⟩

/-- A sink behind a URL that is none. -/
def astray : SinkSettings :=
  ⟨"search", .searchBulk, [("index", "events"), ("url", "nowhere")]⟩

/-- A legal blueprint with both of them. -/
def auditing : Blueprint :=
  ⟨default, .standard, .standard, .exit, ⟨"in", 1, none, none⟩, [audit, astray]⟩

/-- **The second of two sinks is unusable**: it is reported, and there is a client of the first
one. -/
theorem clients_of_legal_auditing :
    auditing.check = .ok auditing ∧
      ∃ r handles f, ({} : Registry).getAll auditing.sinks
          = (r, .error (.configInvalid "sinks.search" f.message)) ∧
        Complaint astray f ∧ r.Serves [audit] handles := by
  have hlegal : auditing.violations = [] := by decide +kernel
  have hcheck : auditing.check = .ok auditing := by
    unfold Blueprint.check
    rw [hlegal]
  have hparse : Url.parse "nowhere" = .error .relative := by decide +kernel
  have hastray : Unusable astray := by
    refine ⟨by decide, .inl ⟨"nowhere", rfl, ?_⟩⟩
    rintro ⟨u, hu, -⟩
    cases hparse.symm.trans hu
  have haudit : ¬Unusable audit := fun h => h.1 rfl
  refine ⟨hcheck, ?_⟩
  obtain ⟨-, ⟨_, _, -, husable, -⟩ |
    ⟨before, s, behind, r, handles, f, hsinks, hbefore, hbad, hcomplaint, hall, hserves, -⟩⟩ :=
    clients_of_legal hcheck
  · exact absurd hastray (husable astray (by decide))
  · -- the first sink is not the one, and there is no third
    have hsplit : [audit, astray] = before ++ s :: behind := hsinks
    cases before with
    | nil => exact absurd ((List.cons.inj hsplit).1 ▸ hbad) haudit
    | cons t before =>
      obtain ⟨rfl, hrest⟩ := List.cons.inj hsplit
      have hrest : [astray] = before ++ s :: behind := hrest
      cases before with
      | nil =>
        obtain rfl : astray = s := (List.cons.inj hrest).1
        exact ⟨r, handles, f, hall, hcomplaint, hserves⟩
      | cons u before => cases before <;> cases (List.cons.inj hrest).2

end Courier.Sink
