import Courier.Blueprint.File
import Courier.Proofs.Document.Soundness
/-!
# Blueprints and their data

A blueprint is made of its datum again, and its datum is one of the schema when its
numbers have their widths and the parameters of its sinks stand in the order of their
keys. Every blueprint that is read from a text is of this form (`InForm`).
-/

namespace Courier

open Courier.Document

variable {real : Float → Prop}

/-- An optional file is a datum of its schema. -/
theorem fits_path (s : Option String) : (Schema.optional .path).Fits real (Datum.ofText? s) := by
  cases s with
  | none => exact .inl rfl
  | some s => exact .inr ⟨_, rfl, rfl, s, rfl⟩

/-! ## Names -/

theorem Version.ofDatum?_toDatum (v : Version) : codec.ofDatum? (codec.toDatum v) = some v := rfl

theorem Retry.Growth.ofDatum?_toDatum (g : Growth) :
    codec.ofDatum? (codec.toDatum g) = some g := by
  cases g <;> rfl

theorem Failure.Kind.ofDatum?_toDatum (k : Kind) :
    codec.ofDatum? (codec.toDatum k) = some k := by
  cases k <;> rfl

theorem ExceptionStrategy.ofDatum?_toDatum (e : ExceptionStrategy) :
    codec.ofDatum? (codec.toDatum e) = some e := by
  cases e <;> rfl

theorem SinkType.ofDatum?_toDatum (t : SinkType) : codec.ofDatum? (codec.toDatum t) = some t := by
  cases t <;> rfl

theorem Version.fits (v : Version) : codec.schema.Fits real (codec.toDatum v) :=
  ⟨_, rfl, List.mem_singleton_self _⟩

theorem Retry.Growth.fits (g : Growth) : codec.schema.Fits real (codec.toDatum g) :=
  ⟨_, rfl, List.mem_map_of_mem (by cases g <;> decide)⟩

theorem Failure.Kind.fits (k : Kind) : codec.schema.Fits real (codec.toDatum k) :=
  ⟨_, rfl, List.mem_map_of_mem (by cases k <;> decide)⟩

theorem ExceptionStrategy.fits (e : ExceptionStrategy) :
    codec.schema.Fits real (codec.toDatum e) :=
  ⟨_, rfl, List.mem_map_of_mem (by cases e <;> decide)⟩

theorem SinkType.fits (t : SinkType) : codec.schema.Fits real (codec.toDatum t) :=
  ⟨_, rfl, List.mem_map_of_mem (by cases t <;> decide)⟩

/-- The datum of a version is the one it is made of. -/
theorem Version.eq_toDatum {d : Datum} {v : Version} (h : codec.ofDatum? d = some v) :
    d = codec.toDatum v := by
  cases d with
  | choice s =>
    have h : (if s = v1.name then some v1 else none) = some v := h
    split at h
    · next hs => cases v; exact congrArg Datum.choice hs
    · cases h
  | _ => cases h

/-- A value that is found by its name has this name. -/
theorem name_of_find? {α : Type} {name : α → String} {all : List α} {s : String} {a : α}
    (h : all.find? (fun a => decide (name a = s)) = some a) : Datum.choice s = .choice (name a) := by
  have hname := List.find?_some h
  rw [decide_eq_true_eq] at hname
  rw [hname]

/-- The datum of a way in which delays grow is the one it is made of. -/
theorem Retry.Growth.eq_toDatum {d : Datum} {g : Growth} (h : codec.ofDatum? d = some g) :
    d = codec.toDatum g := by
  cases d with
  | choice s => exact name_of_find? h
  | _ => cases h

/-- The datum of a kind of failure is the one it is made of. -/
theorem Failure.Kind.eq_toDatum (d : Datum) (k : Kind) (h : codec.ofDatum? d = some k) :
    d = codec.toDatum k := by
  cases d with
  | choice s => exact name_of_find? h
  | _ => cases h

/-- The datum of a strategy is the one it is made of. -/
theorem ExceptionStrategy.eq_toDatum {d : Datum} {e : ExceptionStrategy}
    (h : codec.ofDatum? d = some e) : d = codec.toDatum e := by
  cases d with
  | choice s => exact name_of_find? h
  | _ => cases h

/-- The datum of a type of sink is the one it is made of. -/
theorem SinkType.eq_toDatum {d : Datum} {t : SinkType} (h : codec.ofDatum? d = some t) :
    d = codec.toDatum t := by
  cases d with
  | choice s => exact name_of_find? h
  | _ => cases h

/-! ## Settings -/

namespace DeliverySettings

/-- Settings are made of their datum. -/
theorem ofDatum?_toDatum (d : DeliverySettings) : codec.ofDatum? (codec.toDatum d) = some d := by
  show (do
    let growth ← Retry.Growth.codec.ofDatum? (Retry.Growth.codec.toDatum d.growth)
    let kinds ← (d.kinds.map Failure.Kind.codec.toDatum).mapM Failure.Kind.codec.ofDatum?
    some (⟨d.maxAttempts, growth, d.delayOrSeed, kinds⟩ : DeliverySettings)) = _
  rw [d.growth.ofDatum?_toDatum, mapM_map_of_law Failure.Kind.ofDatum?_toDatum]
  rfl

/-- The datum of settings is the one they are made of. -/
theorem eq_toDatum {d : Datum} {settings : DeliverySettings}
    (h : codec.ofDatum? d = some settings) : d = codec.toDatum settings := by
  unfold codec at h
  dsimp only at h
  split at h
  · obtain ⟨growth, hgrowth, h⟩ := Option.bind_eq_some_iff.mp h
    obtain ⟨kinds, hkinds, h⟩ := Option.bind_eq_some_iff.mp h
    cases h
    rw [Retry.Growth.eq_toDatum hgrowth, eq_map_of_mapM Failure.Kind.eq_toDatum hkinds]
    rfl
  · cases h

/-- **Settings are a datum of their schema** when the attempts have their width. -/
theorem fits {d : DeliverySettings} (h : d.maxAttempts < 0x100000000) (hreal : real d.delayOrSeed) :
    codec.schema.Fits real (codec.toDatum d) := by
  have hattempts : (Schema.natural .u32).Fits real (.natural d.maxAttempts) := ⟨_, rfl, h⟩
  have hdelay : Schema.real.Fits real (.real d.delayOrSeed) := ⟨_, rfl, hreal⟩
  have hkinds : (Schema.sequence Failure.Kind.codec.schema).Fits real
      (.sequence (d.kinds.map Failure.Kind.codec.toDatum)) := .sequence fun k _ => k.fits
  exact .record (by decide)
    (.cons hattempts (.cons d.growth.fits (.cons hdelay (.cons hkinds .nil))))

/-- The defaults of settings are data of their shapes. -/
theorem sound : codec.schema.Sound := by
  have hattempts : (Schema.natural .u32).Fits AnyReal (.natural 3) := ⟨3, rfl, by decide⟩
  have hgrowth : Retry.Growth.codec.schema.Fits AnyReal (.choice "exponential") :=
    Retry.Growth.exponential.fits
  have hdelay : Schema.real.Fits AnyReal (.real 1.0) := ⟨1.0, rfl, trivial⟩
  have hkinds : (Schema.sequence Failure.Kind.codec.schema).Fits AnyReal (.sequence []) :=
    ⟨[], rfl, nofun⟩
  exact .record (by decide) (.defaulting trivial hattempts (.defaulting trivial hgrowth
    (.defaulting trivial hdelay (.defaulting trivial hkinds .nil))))

/-- The attempts of settings whose datum is one of the schema have their width. -/
theorem inForm_of_fits {d : DeliverySettings} (h : codec.schema.Fits real (codec.toDatum d)) :
    d.maxAttempts < 0x100000000 ∧ real d.delayOrSeed := by
  have hfields := Fields.Fits.of_record h
  obtain ⟨_, ⟨⟩, hattempts⟩ := hfields.head
  obtain ⟨_, ⟨⟩, hreal⟩ := hfields.tail.tail.head
  exact ⟨hattempts, hreal⟩

end DeliverySettings

namespace CheckpointSettings

/-- Settings are made of their datum. -/
theorem ofDatum?_toDatum (c : CheckpointSettings) :
    codec.ofDatum? (codec.toDatum c) = some c := by
  show (do
    let path ← (Datum.ofText? c.path).toText?
    some (⟨c.maxAttempts, c.delay, c.dry, path⟩ : CheckpointSettings)) = _
  rw [toText?_ofText?]
  rfl

/-- The datum of settings is the one they are made of. -/
theorem eq_toDatum {d : Datum} {c : CheckpointSettings} (h : codec.ofDatum? d = some c) :
    d = codec.toDatum c := by
  unfold codec at h
  dsimp only at h
  split at h
  · obtain ⟨path, hpath, h⟩ := Option.bind_eq_some_iff.mp h
    cases h
    rw [eq_ofText?_of_toText? hpath]
    rfl
  · cases h

/-- Settings whose numbers have their widths. -/
structure InForm (c : CheckpointSettings) : Prop where
  /-- The attempts. -/
  maxAttempts : c.maxAttempts < 0x100000000
  /-- The delay. -/
  delay : c.delay < 0x10000000000000000

/-- **Settings are a datum of their schema** when their numbers have their widths. -/
theorem InForm.fits {c : CheckpointSettings} (h : c.InForm) :
    codec.schema.Fits real (codec.toDatum c) := by
  have hattempts : (Schema.natural .u32).Fits real (.natural c.maxAttempts) :=
    ⟨_, rfl, h.maxAttempts⟩
  have hdelay : (Schema.natural .u64).Fits real (.natural c.delay) := ⟨_, rfl, h.delay⟩
  have hdry : Schema.flag.Fits real (.flag c.dry) := ⟨_, rfl⟩
  exact .record (by decide)
    (.cons hattempts (.cons hdelay (.cons hdry (.cons (fits_path c.path) .nil))))

/-- The defaults of settings are data of their shapes. -/
theorem sound : codec.schema.Sound := by
  have hattempts : (Schema.natural .u32).Fits AnyReal (.natural 30) := ⟨30, rfl, by decide⟩
  have hdelay : (Schema.natural .u64).Fits AnyReal (.natural 3000) := ⟨3000, rfl, by decide⟩
  have hdry : Schema.flag.Fits AnyReal (.flag false) := ⟨false, rfl⟩
  exact .record (by decide) (.defaulting trivial hattempts (.defaulting trivial hdelay
    (.defaulting trivial hdry (.optional rfl trivial .nil))))

/-- The numbers of settings whose datum is one of the schema have their widths. -/
theorem inForm_of_fits {c : CheckpointSettings} (h : codec.schema.Fits real (codec.toDatum c)) :
    c.InForm := by
  have hfields := Fields.Fits.of_record h
  obtain ⟨_, ⟨⟩, hattempts⟩ := hfields.head
  obtain ⟨_, ⟨⟩, hdelay⟩ := hfields.tail.head
  exact ⟨hattempts, hdelay⟩

end CheckpointSettings

namespace SourceSettings

/-- Settings are made of their datum. -/
theorem ofDatum?_toDatum (s : SourceSettings) : codec.ofDatum? (codec.toDatum s) = some s := by
  show (do
    let idField ← (Datum.ofText? s.idField).toText?
    let keyField ← (Datum.ofText? s.keyField).toText?
    some (⟨s.path, s.batchSize, idField, keyField⟩ : SourceSettings)) = _
  rw [toText?_ofText?, toText?_ofText?]
  rfl

/-- The datum of settings is the one they are made of. -/
theorem eq_toDatum {d : Datum} {s : SourceSettings} (h : codec.ofDatum? d = some s) :
    d = codec.toDatum s := by
  unfold codec at h
  dsimp only at h
  split at h
  · obtain ⟨idField, hid, h⟩ := Option.bind_eq_some_iff.mp h
    obtain ⟨keyField, hkey, h⟩ := Option.bind_eq_some_iff.mp h
    cases h
    rw [eq_ofText?_of_toText? hid, eq_ofText?_of_toText? hkey]
    rfl
  · cases h

/-- **Settings are a datum of their schema** when the size of a batch has its width. -/
theorem fits {s : SourceSettings} (h : s.batchSize < 0x10000000000000000) :
    codec.schema.Fits real (codec.toDatum s) := by
  have hpath : Schema.path.Fits real (.text s.path) := ⟨_, rfl⟩
  have hsize : (Schema.natural .usize).Fits real (.natural s.batchSize) := ⟨_, rfl, h⟩
  exact .record (by decide) (.cons hpath (.cons hsize
    (.cons (fits_ofText? s.idField) (.cons (fits_ofText? s.keyField) .nil))))

/-- The defaults of settings are data of their shapes. -/
theorem sound : codec.schema.Sound := by
  have hsize : (Schema.natural .usize).Fits AnyReal (.natural 100) := ⟨100, rfl, by decide⟩
  exact .record (by decide) (.required trivial (.defaulting trivial hsize
    (.optional rfl trivial (.optional rfl trivial .nil))))

/-- The size of a batch in settings whose datum is one of the schema has its width. -/
theorem inForm_of_fits {s : SourceSettings} (h : codec.schema.Fits real (codec.toDatum s)) :
    s.batchSize < 0x10000000000000000 := by
  have hfields := Fields.Fits.of_record h
  obtain ⟨_, ⟨⟩, hsize⟩ := hfields.tail.head
  exact hsize

end SourceSettings

namespace SinkSettings

/-- A sink is made of its datum. -/
theorem ofDatum?_toDatum (s : SinkSettings) : codec.ofDatum? (codec.toDatum s) = some s := by
  show (do
    let type ← SinkType.codec.ofDatum? (SinkType.codec.toDatum s.type)
    let params ← (s.params.map fun p : String × String => (p.1, Datum.text p.2)).mapM paramOfDatum?
    some (⟨s.name, type, params⟩ : SinkSettings)) = _
  have hparams := mapM_map_of_law (f := fun p : String × String => (p.1, Datum.text p.2))
    (g := paramOfDatum?) (fun _ => rfl) s.params
  rw [s.type.ofDatum?_toDatum, hparams]
  rfl

/-- The entry of a parameter is the one it is made of. -/
theorem eq_of_paramOfDatum? (entry : String × Datum) (p : String × String)
    (h : paramOfDatum? entry = some p) : entry = (p.1, .text p.2) := by
  obtain ⟨key, d⟩ := entry
  cases d <;> cases h
  rfl

/-- The datum of a sink is the one it is made of. -/
theorem eq_toDatum (d : Datum) (s : SinkSettings) (h : codec.ofDatum? d = some s) :
    d = codec.toDatum s := by
  unfold codec at h
  dsimp only at h
  split at h
  · obtain ⟨type, htype, h⟩ := Option.bind_eq_some_iff.mp h
    obtain ⟨params, hparams, h⟩ := Option.bind_eq_some_iff.mp h
    cases h
    rw [SinkType.eq_toDatum htype, eq_map_of_mapM eq_of_paramOfDatum? hparams]
    rfl
  · cases h

/-- **A sink is a datum of its schema** when its parameters are in the order of their keys. -/
theorem fits {s : SinkSettings} (h : (s.params.map (·.1)).Pairwise (· < ·)) :
    codec.schema.Fits real (codec.toDatum s) := by
  have hname : Schema.text.Fits real (.text s.name) := ⟨_, rfl⟩
  have hparams : (Schema.dictionary .text).Fits real
      (.dictionary (s.params.map fun p : String × String => (p.1, Datum.text p.2))) := by
    refine ⟨_, rfl, ?_, fun e he => ?_⟩
    · rw [List.map_map]
      exact h
    · obtain ⟨p, -, rfl⟩ := List.mem_map.mp he
      exact ⟨_, rfl⟩
  exact .record (by decide) (.cons hname (.cons s.type.fits (.cons hparams .nil)))

/-- The default of the parameters is a datum of its shape. -/
theorem sound : codec.schema.Sound := by
  have hparams : (Schema.dictionary .text).Fits AnyReal (.dictionary []) :=
    ⟨[], rfl, List.Pairwise.nil, nofun⟩
  exact .record (by decide)
    (.required trivial (.required trivial (.defaulting trivial hparams .nil)))

/-- The parameters of a sink whose datum is one of the schema are in order. -/
theorem inForm_of_fits {s : SinkSettings} (h : codec.schema.Fits real (codec.toDatum s)) :
    (s.params.map (·.1)).Pairwise (· < ·) := by
  have hfields := Fields.Fits.of_record h
  obtain ⟨_, ⟨⟩, hsorted, -⟩ := hfields.tail.tail.head
  rw [List.map_map] at hsorted
  exact hsorted

end SinkSettings

/-! ## Blueprints -/

namespace Blueprint

/-- A blueprint is made of its datum. -/
theorem ofDatum?_toDatum (b : Blueprint) : codec.ofDatum? (codec.toDatum b) = some b := by
  show (do
    let version ← Version.codec.ofDatum? (Version.codec.toDatum b.version)
    let delivery ← DeliverySettings.codec.ofDatum? (DeliverySettings.codec.toDatum b.delivery)
    let checkpoint ← CheckpointSettings.codec.ofDatum?
      (CheckpointSettings.codec.toDatum b.checkpoint)
    let exception ← ExceptionStrategy.codec.ofDatum? (ExceptionStrategy.codec.toDatum b.exception)
    let source ← SourceSettings.codec.ofDatum? (SourceSettings.codec.toDatum b.source)
    let sinks ← (b.sinks.map SinkSettings.codec.toDatum).mapM SinkSettings.codec.ofDatum?
    some (⟨version, delivery, checkpoint, exception, source, sinks⟩ : Blueprint)) = _
  rw [Version.ofDatum?_toDatum, DeliverySettings.ofDatum?_toDatum,
    CheckpointSettings.ofDatum?_toDatum, ExceptionStrategy.ofDatum?_toDatum,
    SourceSettings.ofDatum?_toDatum, mapM_map_of_law SinkSettings.ofDatum?_toDatum]
  rfl

/-- **The datum of a blueprint is the one it is made of.** -/
theorem eq_toDatum {d : Datum} {b : Blueprint} (h : codec.ofDatum? d = some b) :
    d = codec.toDatum b := by
  unfold codec at h
  dsimp only at h
  split at h
  · obtain ⟨version, hversion, h⟩ := Option.bind_eq_some_iff.mp h
    obtain ⟨delivery, hdelivery, h⟩ := Option.bind_eq_some_iff.mp h
    obtain ⟨checkpoint, hcheckpoint, h⟩ := Option.bind_eq_some_iff.mp h
    obtain ⟨exception, hexception, h⟩ := Option.bind_eq_some_iff.mp h
    obtain ⟨source, hsource, h⟩ := Option.bind_eq_some_iff.mp h
    obtain ⟨sinks, hsinks, h⟩ := Option.bind_eq_some_iff.mp h
    cases h
    rw [Version.eq_toDatum hversion, DeliverySettings.eq_toDatum hdelivery,
      CheckpointSettings.eq_toDatum hcheckpoint, ExceptionStrategy.eq_toDatum hexception,
      SourceSettings.eq_toDatum hsource, eq_map_of_mapM SinkSettings.eq_toDatum hsinks]
    rfl
  · cases h

/-- **A blueprint as files can hold it**: its numbers have their widths, and the parameters of
its sinks are in the order of their keys. -/
structure InForm (b : Blueprint) : Prop where
  /-- The attempts of a delivery. -/
  attempts : b.delivery.maxAttempts < 0x100000000
  /-- The numbers of the checkpoints. -/
  checkpoint : b.checkpoint.InForm
  /-- The size of a batch. -/
  batchSize : b.source.batchSize < 0x10000000000000000
  /-- The parameters of each sink. -/
  params : ∀ s ∈ b.sinks, (s.params.map (·.1)).Pairwise (· < ·)

/-- **A blueprint is a datum of its schema** when it is in form. -/
theorem InForm.fits {b : Blueprint} (h : b.InForm) (hreal : real b.delivery.delayOrSeed) :
    codec.schema.Fits real (codec.toDatum b) := by
  have hdelivery := DeliverySettings.fits h.attempts hreal
  have hsource : SourceSettings.codec.schema.Fits real (SourceSettings.codec.toDatum b.source) :=
    SourceSettings.fits h.batchSize
  have hsinks : (Schema.sequence SinkSettings.codec.schema).Fits real
      (.sequence (b.sinks.map SinkSettings.codec.toDatum)) :=
    .sequence fun s hs => SinkSettings.fits (h.params s hs)
  exact .record (by decide) (.cons b.version.fits (.cons hdelivery (.cons h.checkpoint.fits
    (.cons b.exception.fits (.cons hsource (.cons hsinks .nil))))))

/-- **The defaults of a blueprint are data of their shapes.** -/
theorem sound : codec.schema.Sound := by
  have hversion : Version.codec.schema.Fits AnyReal (.choice "V1") := Version.v1.fits
  have hdelivery : DeliverySettings.codec.schema.Fits AnyReal DeliverySettings.standard.toDatum :=
    DeliverySettings.fits (by decide) trivial
  have hcheckpoint : CheckpointSettings.codec.schema.Fits AnyReal
      CheckpointSettings.standard.toDatum :=
    CheckpointSettings.InForm.fits ⟨by decide, by decide⟩
  have hexception : ExceptionStrategy.codec.schema.Fits AnyReal (.choice "exit") :=
    ExceptionStrategy.exit.fits
  exact .record (by decide) (.defaulting trivial hversion
    (.defaulting DeliverySettings.sound hdelivery
      (.defaulting CheckpointSettings.sound hcheckpoint (.defaulting trivial hexception
        (.required SourceSettings.sound (.required SinkSettings.sound .nil))))))

/-- **A blueprint whose datum is one of the schema is in form**, and its double is one of those
in the datum. -/
theorem inForm_of_fits {b : Blueprint} (h : codec.schema.Fits real (codec.toDatum b)) :
    b.InForm ∧ real b.delivery.delayOrSeed := by
  have hdelivery := (Fields.Fits.of_record h).tail
  have hcheckpoint := hdelivery.tail
  have hsource := hcheckpoint.tail.tail
  obtain ⟨_, ⟨⟩, hsinks⟩ := hsource.tail.head
  obtain ⟨hattempts, hreal⟩ := DeliverySettings.inForm_of_fits hdelivery.head
  exact ⟨⟨hattempts, CheckpointSettings.inForm_of_fits hcheckpoint.head,
    SourceSettings.inForm_of_fits hsource.head,
    fun s hs => SinkSettings.inForm_of_fits (hsinks _ (List.mem_map_of_mem hs))⟩, hreal⟩

end Blueprint

end Courier
