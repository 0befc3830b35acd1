import Courier.Sink.Client
import Courier.Proofs.Results
/-!
# Whose clients a registry hands out

A registry is asked for the clients of several configurations and hands out a
client for each, in their order. A client has the name of the configuration it
was made from (`Client.name_ofSettings`), and when there is one of a name
already it is handed out again; so the names are those of the configurations
(`Registry.names_getAll`), also where one of them repeats.
-/

namespace Courier.Sink

/-- **A client has the name of its configuration.** -/
theorem Client.name_ofSettings {s : SinkSettings} {client : Client}
    (h : Client.ofSettings s = .ok client) : client.name = s.name := by
  unfold Client.ofSettings at h
  dsimp only at h
  cases ht : s.type with
  | log =>
    rw [ht] at h
    exact (congrArg Client.name (Except.ok.inj h)).symm
  | searchBulk =>
    rw [ht] at h
    obtain ⟨sink, hs, rfl⟩ := map_eq_ok h
    obtain ⟨url, -, hs⟩ := bind_eq_ok (mapError_eq_ok hs)
    obtain ⟨index, -, hs⟩ := bind_eq_ok hs
    obtain ⟨timeout, -, hs⟩ := bind_eq_ok hs
    obtain ⟨endpoint, -, hs⟩ := bind_eq_ok hs
    exact (congrArg SearchBulk.name (Except.ok.inj hs)).symm
  | recordStream =>
    rw [ht] at h
    obtain ⟨sink, hs, rfl⟩ := map_eq_ok h
    obtain ⟨url, -, hs⟩ := bind_eq_ok (mapError_eq_ok hs)
    obtain ⟨stream, -, hs⟩ := bind_eq_ok hs
    obtain ⟨timeout, -, hs⟩ := bind_eq_ok hs
    obtain ⟨endpoint, -, hs⟩ := bind_eq_ok hs
    exact (congrArg RecordStream.name (Except.ok.inj hs)).symm

namespace Registry

/-- **A registry whose clients are found by their own names.** -/
def Named (r : Registry) : Prop :=
  ∀ name h, r.clients.lookup name = some h → h.client.name = name

/-- **A client that is handed out** has the name of its configuration, and the
registry still finds its clients by their names. -/
theorem Named.getOrCreate {r r' : Registry} {s : SinkSettings} {handle : Handle}
    (hr : r.Named) (h : r.getOrCreate s = (r', .ok handle)) :
    r'.Named ∧ handle.client.name = s.name := by
  unfold Registry.getOrCreate at h
  cases hl : r.clients.lookup s.name with
  | some handle' =>
    rw [hl] at h
    dsimp only at h
    obtain ⟨rfl, hhandle⟩ := Prod.mk.inj h
    obtain rfl := Except.ok.inj hhandle
    exact ⟨hr, hr s.name _ hl⟩
  | none =>
    rw [hl] at h
    dsimp only at h
    cases hc : Client.ofSettings s with
    | error e =>
      rw [hc] at h
      cases (Prod.mk.inj h).2
    | ok client =>
      rw [hc] at h
      dsimp only at h
      obtain ⟨rfl, hhandle⟩ := Prod.mk.inj h
      obtain rfl := Except.ok.inj hhandle
      have hname := Client.name_ofSettings hc
      refine ⟨fun name handle' hlookup => ?_, hname⟩
      rw [List.lookup_cons] at hlookup
      split at hlookup
      · next heq =>
        obtain rfl := Option.some.inj hlookup
        exact hname.trans (eq_of_beq heq).symm
      · exact hr name handle' hlookup

/-- **The clients of several configurations** have their names, in their order. -/
theorem Named.getAll {settings : List SinkSettings} : ∀ {r r' : Registry} {handles : List Handle},
    r.Named → r.getAll settings = (r', .ok handles) →
    handles.map (·.client.name) = settings.map (·.name) := by
  induction settings with
  | nil =>
    intro r r' handles _ h
    obtain rfl := Except.ok.inj (Prod.mk.inj h).2
    rfl
  | cons s rest ih =>
    intro r r' handles hr h
    unfold Registry.getAll at h
    split at h
    · cases (Prod.mk.inj h).2
    · next r₁ handle hfirst =>
      obtain ⟨hr₁, hname⟩ := hr.getOrCreate hfirst
      split at h
      · cases (Prod.mk.inj h).2
      · next r₂ others hrest =>
        obtain rfl := Except.ok.inj (Prod.mk.inj h).2
        rw [List.map_cons, List.map_cons, hname, ih hr₁ hrest]

/-- **A registry that has handed out nothing yet** hands out clients with the names of
their configurations. -/
theorem names_getAll {settings : List SinkSettings} {handles : List Handle}
    (h : (({} : Registry).getAll settings).2 = .ok handles) :
    handles.map (·.client.name) = settings.map (·.name) :=
  Named.getAll (r := {}) (fun _ _ hlookup => nomatch hlookup) (Prod.ext rfl h)

end Registry

end Courier.Sink
