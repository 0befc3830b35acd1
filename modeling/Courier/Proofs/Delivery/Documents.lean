import Courier.Outcome
import Courier.Proofs.Json.Codec
/-!
# What is delivered and reported comes back from its documents

Events, answers, outcomes and reports are written as JSON and read again: whatever the
texts, the bytes and the keys in them, the value that is read is the one that was
written (`read_back`). The numbers have their widths, a code sixteen bits and the others
thirty-two.

The codecs write some fields without a value as nothing and leave others out. It makes
no difference to the reader: every document of the value is read as it, in which fields
without a value are nothing or left out.
-/

namespace Courier

open Courier.Document
open Courier.Json (Carried ComesBack)

variable {real : Float → Prop}

/-- **Every event has its datum.** -/
theorem Event.carried (e : Event) : Carried Event.codec e where
  law := by
    show (do let key ← (Datum.ofText? e.key).toText?; some (⟨⟨e.id.text⟩, e.payload, key⟩ : Event))
      = _
    rw [toText?_ofText?]
    rfl
  fits := by
    have hid : Schema.text.Fits Json.Keeps (.text e.id.text) := ⟨_, rfl⟩
    have hpayload : Schema.bytes.Fits Json.Keeps (.bytes e.payload) := ⟨_, rfl⟩
    exact .record (by decide) (.cons hid (.cons hpayload (.sparing (fits_ofText? e.key) .nil)))
  room := by decide

/-- **An answer has its datum** when its code has sixteen bits. -/
theorem ItemStatus.carried (s : ItemStatus) (h : s.status < 0x10000) :
    Carried ItemStatus.codec s where
  law := by
    obtain ⟨id, status, error⟩ := s
    cases id <;> cases error <;> rfl
  fits := by
    have hstatus : (Schema.natural .u16).Fits Json.Keeps (.natural s.status) := ⟨_, rfl, h⟩
    exact .record (by decide)
      (.cons (fits_ofText? _) (.cons hstatus (.cons (fits_ofText? s.error) .nil)))
  room := by decide

/-- An outcome whose numbers have their widths. -/
structure Outcome.InWidth (o : Outcome) : Prop where
  /-- The code. -/
  status : o.status < 0x10000
  /-- The attempt. -/
  attempt : o.attempt < 0x100000000

theorem Outcome.ofDatum?_toDatum (o : Outcome) :
    Outcome.codec.ofDatum? (Outcome.codec.toDatum o) = some o := by
  obtain ⟨id, success, status, retryable, attempt, message⟩ := o
  cases message <;> rfl

/-- An outcome is a datum of its schema. -/
theorem Outcome.fits {o : Outcome} (h : o.InWidth) :
    Outcome.codec.schema.Fits real (Outcome.codec.toDatum o) := by
  have hid : Schema.text.Fits real (.text o.id.text) := ⟨_, rfl⟩
  have hflag : ∀ b, Schema.flag.Fits real (.flag b) := fun _ => ⟨_, rfl⟩
  have hstatus : (Schema.natural .u16).Fits real (.natural o.status) := ⟨_, rfl, h.status⟩
  have hattempt : (Schema.natural .u32).Fits real (.natural o.attempt) := ⟨_, rfl, h.attempt⟩
  exact .record (by decide) (.cons hid (.cons (hflag o.success) (.cons hstatus
    (.cons (hflag o.retryable) (.cons hattempt (.sparing (fits_ofText? o.message) .nil))))))

/-- **An outcome has its datum** when its numbers have their widths. -/
theorem Outcome.carried (o : Outcome) (h : o.InWidth) : Carried Outcome.codec o where
  law := o.ofDatum?_toDatum
  fits := Outcome.fits h
  room := by decide

/-- A report whose numbers have their widths. -/
structure Report.InWidth (r : Report) : Prop where
  /-- The numbers of each outcome. -/
  outcomes : ∀ o ∈ r.outcomes, o.InWidth
  /-- The number of requests. -/
  attempts : r.attempts < 0x100000000
  /-- The number of requests sent again. -/
  retries : r.retries < 0x100000000

/-- **A report has its datum** when its numbers have their widths. -/
theorem Report.carried (r : Report) (h : r.InWidth) : Carried Report.codec r where
  law := by
    show (do
      let outcomes ← (r.outcomes.map Outcome.codec.toDatum).mapM Outcome.codec.ofDatum?
      some (⟨outcomes, r.attempts, r.retries⟩ : Report)) = _
    rw [mapM_map_of_law Outcome.ofDatum?_toDatum]
    rfl
  fits := by
    have houtcomes : (Schema.sequence Outcome.codec.schema).Fits Json.Keeps
        (.sequence (r.outcomes.map Outcome.codec.toDatum)) :=
      .sequence fun o ho => Outcome.fits (h.outcomes o ho)
    have hattempts : (Schema.natural .u32).Fits Json.Keeps (.natural r.attempts) :=
      ⟨_, rfl, h.attempts⟩
    have hretries : (Schema.natural .u32).Fits Json.Keeps (.natural r.retries) :=
      ⟨_, rfl, h.retries⟩
    exact .record (by decide) (.cons houtcomes (.cons hattempts (.cons hretries .nil)))
  room := by decide

/-- **An identity has its datum**, which is its text. -/
theorem EventId.carried (id : EventId) : Carried EventId.codec id where
  law := rfl
  fits := ⟨_, rfl⟩
  room := by decide

/-- **Events, answers, outcomes and reports come back from their documents**, whatever is in
them, as long as their numbers have their widths. -/
theorem read_back :
    (∀ id : EventId, ComesBack EventId.codec id) ∧
    (∀ e : Event, ComesBack Event.codec e) ∧
    (∀ s : ItemStatus, s.status < 0x10000 → ComesBack ItemStatus.codec s) ∧
    (∀ o : Outcome, o.InWidth → ComesBack Outcome.codec o) ∧
    (∀ r : Report, r.InWidth → ComesBack Report.codec r) :=
  ⟨fun id => id.carried.comesBack, fun e => e.carried.comesBack,
    fun s h => (s.carried h).comesBack, fun o h => (o.carried h).comesBack,
    fun r h => (r.carried h).comesBack⟩

/-- An event that was throttled at its first attempt. -/
def throttledOutcome : Outcome := ⟨⟨"a\n\"b\""⟩, false, 429, true, 1, some "slow down"⟩

/-- Its outcome, and the answer and the report that it stands in, come back. -/
theorem read_back_throttled :
    ((⟨none, 429, some "slow down"⟩ : ItemStatus).status < 0x10000 ∧
      ComesBack ItemStatus.codec ⟨none, 429, some "slow down"⟩) ∧
    (throttledOutcome.InWidth ∧ ComesBack Outcome.codec throttledOutcome) ∧
    ((⟨[throttledOutcome], 2, 1⟩ : Report).InWidth ∧
      ComesBack Report.codec ⟨[throttledOutcome], 2, 1⟩) := by
  have houtcome : throttledOutcome.InWidth := ⟨by decide, by decide⟩
  have hreport : (⟨[throttledOutcome], 2, 1⟩ : Report).InWidth :=
    ⟨fun o ho => List.mem_singleton.mp ho ▸ houtcome, by decide, by decide⟩
  obtain ⟨-, -, hstatuses, houtcomes, hreports⟩ := read_back
  exact ⟨⟨by decide, hstatuses _ (by decide)⟩, ⟨houtcome, houtcomes _ houtcome⟩,
    hreport, hreports _ hreport⟩

end Courier
