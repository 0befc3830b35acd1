import Courier.Proofs.Blueprint.Documents
import Courier.Proofs.Json.Double
import Courier.Proofs.Toml.Codec
/-!
# A blueprint comes back from the texts it is written as

A legal blueprint that was loaded from a text is in form, and so it is a datum of its
schema. Written as TOML it is always loaded again as it was (`load_write`): lines leave
out what is nothing and reorder the entries of tables, but neither changes the datum, and
every double is read from its shortest decimal.

JSON has no text for the infinities and for what is not a number, and its numbers are
read in two roundings. So a blueprint comes back from JSON just when its delay is read
from its own text (`Json.Keeps`). That is so for a short decimal (`Json.keeps_of_short`),
and not for an infinite delay (`not_load_write_endless`).
-/

namespace Courier

open Courier.Document

/-! ## Sections that are written as lines -/

/-- Every field of delivery settings has a default; the kinds are a list of names. -/
theorem DeliverySettings.lined : Toml.Lined codec.schema := by
  have hkinds : Toml.Lined (.sequence Failure.Kind.codec.schema) := .flat trivial
  exact .record (.cons rfl trivial (.cons rfl trivial (.cons rfl trivial (.cons rfl hkinds .nil))))

/-- Of checkpoint settings the file may be nothing. -/
theorem CheckpointSettings.lined : Toml.Lined codec.schema := by
  have hpath : Toml.LinedFields (.optional "path" .path .nil) := .optional trivial .nil
  exact .record (.cons rfl trivial (.cons rfl trivial (.cons rfl trivial hpath)))

/-- Of source settings the names of two fields may be nothing. -/
theorem SourceSettings.lined : Toml.Lined codec.schema := by
  have hnames : Toml.LinedFields (.optional "id_field" .text
      (.optional "partition_key_field" .text .nil)) := .optional trivial (.optional trivial .nil)
  exact .record (.cons rfl trivial (.cons rfl trivial hnames))

/-- The parameters of a sink are a table of texts. -/
theorem SinkSettings.lined : Toml.Lined codec.schema := by
  have hparams : Toml.Lined (.dictionary .text) := .dictionary rfl trivial
  exact .record (.cons rfl trivial (.cons rfl trivial (.cons rfl hparams .nil)))

namespace Blueprint

/-- **The documents of blueprints are written as lines**: no section may be nothing, and the
sinks are a list of tables. -/
theorem lined : Toml.Lined codec.schema := by
  have hversion : Toml.Lined Version.codec.schema := trivial
  have hexception : Toml.Lined ExceptionStrategy.codec.schema := trivial
  have hsinks : Toml.Lined (.sequence SinkSettings.codec.schema) := .tables rfl SinkSettings.lined
  refine .record (.cons rfl hversion (.cons rfl DeliverySettings.lined ?_))
  refine .cons rfl CheckpointSettings.lined (.cons rfl hexception ?_)
  exact .cons rfl SourceSettings.lined (.cons rfl hsinks .nil)

/-! ## Loading and writing -/

/-- **A text is decoded** as its format says. -/
def decode : Format → String → Except Fault Blueprint
  | .toml, text => Toml.decode codec text
  | .json, text => Json.decode codec text

/-- **A blueprint is loaded from a text** that is decoded as it, when it is legal. -/
theorem load_eq_ok_iff {format : Format} {text : String} {b : Blueprint} :
    load format text = .ok b ↔ decode format text = .ok b ∧ b.check = .ok b := by
  have hload : load format text = ((decode format text).mapError fun fault =>
      Failure.configParse (format.name ++ " parse error: " ++ fault.describe format.dialect)
        (some (format.dialect, fault))).bind check := by
    cases format <;> rfl
  rw [hload]
  cases decode format text with
  | error fault => exact ⟨nofun, fun h => nomatch h.1⟩
  | ok b' =>
    have hcheck : b'.check = .ok b ↔ b' = b ∧ b.check = .ok b := by
      unfold check
      cases hviolations : b'.violations with
      | nil =>
        refine ⟨fun h => ?_, fun h => congrArg _ h.1⟩
        obtain rfl := Except.ok.inj h
        rw [hviolations]
        exact ⟨rfl, rfl⟩
      | cons v rest =>
        refine ⟨nofun, fun h => ?_⟩
        obtain ⟨rfl, h⟩ := h
        rw [hviolations] at h
        cases h
    exact hcheck.trans (and_congr_left' ⟨congrArg _, Except.ok.inj⟩)

/-- **What is loaded is in form.** -/
theorem inForm_of_decode {format : Format} {text : String} {b : Blueprint}
    (h : decode format text = .ok b) : b.InForm := by
  have hdraft : ∀ {dialect : Dialect} {d : Draft}, codec.ofDraft dialect d = .ok b → b.InForm := by
    intro dialect d h
    obtain ⟨datum, hread, h⟩ := bind_eq_ok h
    split at h
    · next hb =>
      cases h
      rw [eq_toDatum hb] at hread
      exact (inForm_of_fits (codec.schema.fits_of_read sound hread)).1
    · cases h
  cases format with
  | toml =>
    have h : Toml.decode codec text = .ok b := h
    unfold Toml.decode at h
    split at h
    · exact hdraft h
    · cases h
  | json =>
    obtain ⟨a, ha, h⟩ := bind_eq_ok (show Json.decode codec text = .ok b from h)
    unfold whenClosed at h
    split at h
    · cases h
      exact hdraft ha
    · cases h

/-- **A blueprint comes back from its lines.** -/
theorem InForm.decode_toml {b : Blueprint} (h : b.InForm) :
    decode .toml (write .toml b) = .ok b :=
  Toml.Carried.comesBack ⟨ofDatum?_toDatum b, h.fits trivial, lined, rfl⟩

/-- **A blueprint comes back from its JSON text** just when its double does. -/
theorem InForm.decode_json_iff {b : Blueprint} (h : b.InForm) :
    decode .json (write .json b) = .ok b ↔ Json.Keeps b.delivery.delayOrSeed := by
  constructor
  · intro hback
    have hdecode : Json.decode codec (Json.writePretty (codec.toValue b))
        = codec.ofDraft .json ((codec.toValue b).draft Json.numberDraft) :=
      Json.decode_of_read (Json.read_writePretty _)
    obtain ⟨d, hread, hd⟩ := bind_eq_ok (hdecode.symm.trans hback)
    split at hd
    · next hb =>
      cases hd
      rw [eq_toDatum hb] at hread
      have hfits : codec.schema.Fits AnyReal (codec.toDatum b) := h.fits trivial
      exact (inForm_of_fits (codec.schema.kept_of_read_write hfits hread)).2
    · cases hd
  · intro hseed
    exact (Json.Carried.comesBack ⟨ofDatum?_toDatum b, h.fits hseed, by decide⟩).indented

/-- **A blueprint that was loaded comes back from both formats**, whichever it was loaded from:
always from TOML, and from JSON just when its double is read from its own text. -/
theorem load_write {format : Format} {text : String} {b : Blueprint}
    (h : load format text = .ok b) :
    load .toml (write .toml b) = .ok b ∧
      (load .json (write .json b) = .ok b ↔ Json.Keeps b.delivery.delayOrSeed) := by
  obtain ⟨hdecode, hcheck⟩ := load_eq_ok_iff.mp h
  have hform := inForm_of_decode hdecode
  refine ⟨load_eq_ok_iff.mpr ⟨hform.decode_toml, hcheck⟩, ?_⟩
  rw [load_eq_ok_iff, hform.decode_json_iff]
  exact and_iff_left hcheck

/-- A blueprint with one sink, and a delay of its own. -/
def patient (delay : Float) : Blueprint where
  version := .v1
  delivery := ⟨3, .exponential, delay, []⟩
  checkpoint := .standard
  exception := .exit
  source := ⟨"events.ndjson", 100, none, none⟩
  sinks := [⟨"log", .log, []⟩]

/-- Such a blueprint in a few lines. -/
def patientText (delay : String) : String :=
  "[delivery]\ndelay_or_seed = " ++ delay ++ "\n[source]\npath = \"events.ndjson\"\n\n" ++
    "[[sinks]]\nname = \"log\"\nsink_type = \"log\"\n"

/-- A blueprint with a delay of one and a half comes back from both formats. -/
theorem load_write_patient : load .toml (patientText "1.5") = .ok (patient 1.5) ∧
    load .toml (write .toml (patient 1.5)) = .ok (patient 1.5) ∧
    load .json (write .json (patient 1.5)) = .ok (patient 1.5) := by
  have hload : load .toml (patientText "1.5") = .ok (patient 1.5) :=
    ok_of_toOption (by decide +kernel)
  have hsize : Decimal.magnitude 1.5 = .finite 6755399441055744 (-52) := by decide +kernel
  have hkeeps : Json.Keeps (patient 1.5).delivery.delayOrSeed :=
    Json.keeps_of_short hsize (by decide +kernel)
  obtain ⟨htoml, hjson⟩ := load_write hload
  exact ⟨hload, htoml, hjson.mpr hkeeps⟩

/-- **A blueprint with an infinite delay** is loaded, and is written as a JSON text that is
refused. -/
theorem not_load_write_endless :
    load .toml (patientText "inf") = .ok (patient (Float.ofBits 0x7FF0000000000000)) ∧
    load .json (write .json (patient (Float.ofBits 0x7FF0000000000000)))
      ≠ .ok (patient (Float.ofBits 0x7FF0000000000000)) := by
  have hload : load .toml (patientText "inf")
      = .ok (patient (Float.ofBits 0x7FF0000000000000)) := ok_of_toOption (by decide +kernel)
  refine ⟨hload, fun h => ?_⟩
  have hform := inForm_of_decode (load_eq_ok_iff.mp hload).1
  obtain ⟨m, q, hfinite⟩ := (hform.decode_json_iff.mp (load_eq_ok_iff.mp h).1).finite
  have hinfinite : Decimal.magnitude (Float.ofBits 0x7FF0000000000000) = .infinite := by decide +kernel
  cases hinfinite.symm.trans hfinite

end Blueprint

end Courier
