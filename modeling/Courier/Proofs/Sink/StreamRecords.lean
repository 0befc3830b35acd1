import Courier.Sink.Stream
import Courier.Proofs.Json.Codec
import Courier.Proofs.Json.Reread
import Courier.Proofs.Sink.BulkItems
import Courier.Proofs.Text.Base64
import Courier.Proofs.Text.Utf8
/-!
# Records of a stream and their events

A record of a stream has no name, neither in the request nor in the answer: what
ties it to its event is its position alone. The request has a record for every
event (`readPut_request`), and a result of the answer decides the event at its own
position in the request and no other (`RecordStream.round_aligned`).

The answer also says how many records failed. That number is read, so that an
answer whose number is no number is not readable, and then it is used for nothing
(`decode_streamResults`); nor are results beyond the last record.
-/

namespace Courier.Sink

open Courier.Document Courier.Delivery

/-! ## What a service reads of a request -/

/-- The text under a key of a table. -/
def textAt? (v : Value) (key : String) : Option String :=
  match v.get? key with
  | some (.text s) => some s
  | _ => none

/-- **The data and the partition key of a record**, the data taken out of
base 64. -/
def readRecord (v : Value) : Option (List UInt8 × String) := do
  let data ← textAt? v "Data"
  let payload ← Text.Base64.decode data.toList
  let key ← textAt? v "PartitionKey"
  some (payload, key)

/-- **The stream and the records of a request**, from the bytes of its body. -/
def readPut (body : List UInt8) : Option (String × List (List UInt8 × String)) := do
  let text ← (Text.Utf8.decode body).toOption
  let v ← (Json.parse (String.ofList text)).toOption
  let stream ← textAt? v "StreamName"
  match v.get? "Records" with
  | some (.list records) => do
    let records ← records.mapM readRecord
    some (stream, records)
  | _ => none

/-- The record of an event is read as its payload and its routing key. -/
theorem readRecord_streamRecord (e : Event) :
    readRecord (streamRecord e) = some (e.payload, e.routingKey) := by
  show (Text.Base64.decode (String.ofList (Text.Base64.encode e.payload)).toList >>= _) = _
  rw [String.toList_ofList, Text.Base64.decode_encode]
  rfl

/-- The document of a batch can be read back from its text. -/
theorem parse_streamDocument (stream : String) (batch : List Event) :
    Json.parse (Json.write (streamDocument stream batch))
      = .ok (streamDocument stream batch) := by
  have hrecord : ∀ v ∈ batch.map streamRecord, v.Fits Json.Whole 125 := by
    intro v hv
    obtain ⟨e, -, rfl⟩ := List.mem_map.mp hv
    refine .table fun entry hentry => ?_
    obtain rfl | rfl := List.mem_pair.mp hentry <;> exact .text 124 _
  refine Json.parse_write (.table fun entry hentry => ?_)
  obtain rfl | rfl := List.mem_pair.mp hentry
  · exact .text 126 stream
  · exact .list hrecord

/-- **A request has a record for every event of its batch, in the order of the
batch**, and each says all of its event that is to be delivered. -/
theorem readPut_request (s : RecordStream) (batch : List Event) :
    readPut (s.request batch).body
      = some (s.stream, batch.map fun e => (e.payload, e.key.getD e.id.text)) := by
  have hrecords : (batch.map streamRecord).mapM readRecord
      = some (batch.map fun e => (e.payload, e.routingKey)) := by
    induction batch with
    | nil => rfl
    | cons e batch ih =>
      rw [List.map_cons, List.mapM_cons, readRecord_streamRecord, ih]
      rfl
  have hbody : Text.Utf8.decode (s.request batch).body
      = .ok (Json.compact (streamDocument s.stream batch)) := Text.Utf8.decode_encode _
  have hparse : Json.parse (String.ofList (Json.compact (streamDocument s.stream batch)))
      = .ok (streamDocument s.stream batch) := parse_streamDocument s.stream batch
  unfold readPut
  simp only [hbody, hparse, Except.toOption, bind, Option.bind]
  show ((batch.map streamRecord).mapM readRecord).bind _ = _
  rw [hrecords]
  rfl

/-! ## What an answer says -/

/-- **An answer with all it says**: the number of records that failed, and the
results. -/
structure StreamAnswer where
  /-- How many records failed. -/
  failed : Nat
  /-- The results. -/
  results : List StreamResult
deriving DecidableEq, Repr, Inhabited

/-- Answers and their documents, which are those that results are read from. -/
def StreamAnswer.codec : Codec StreamAnswer where
  schema := streamResults.schema
  toDatum _ := .absent
  ofDatum?
    | .record [.natural failed, .sequence records] =>
      (records.mapM StreamResult.ofDatum?).map fun results => ⟨failed, results⟩
    | _ => none

/-- What is read by one codec in the form of another is read so from every text. -/
theorem decode_eq_map {α β : Type} {c : Codec α} {c' : Codec β} {f : β → α} (text : String)
    (h : c.ofDraft .json (Json.read text).draft
      = (c'.ofDraft .json (Json.read text).draft).map f) :
    Json.decode c text = (Json.decode c' text).map f := by
  show (c.ofDraft .json (Json.read text).draft >>= _)
    = Except.map f (c'.ofDraft .json (Json.read text).draft >>= _)
  rw [h]
  cases c'.ofDraft .json (Json.read text).draft with
  | error fault => rfl
  | ok answer =>
    show whenClosed (!(Json.read text).trailing) _
      = (whenClosed (!(Json.read text).trailing) _).map _
    cases (Json.read text).trailing <;> rfl

/-- **The number of records that failed decides nothing**: the results are read from
the texts that have a number, and are those beside it. -/
theorem decode_streamResults (text : String) :
    Json.decode streamResults text = (Json.decode StreamAnswer.codec text).map (·.results) := by
  refine decode_eq_map text ?_
  have hschema : StreamAnswer.codec.schema = streamResults.schema := rfl
  cases hread : streamResults.schema.read .json Dialect.json.room (Json.read text).draft with
  | error fault => simp only [Codec.ofDraft, hschema, hread, bind, Except.bind, Except.map]
  | ok d =>
    obtain ⟨_, rfl, failed, _, rfl, hfailed, records, _, rfl, hrecords, rfl⟩ :=
      Schema.each_of_reads (by decide) ⟨_, _, hread⟩
    obtain ⟨n, rfl⟩ : ∃ n, failed = .natural n := by
      obtain ⟨_, _, hfailed⟩ | hfailed := hfailed
      · obtain ⟨n, -, rfl⟩ := map_eq_ok hfailed
        exact ⟨n, rfl⟩
      · exact ⟨0, (Option.some.inj hfailed).symm⟩
    obtain ⟨ds, rfl⟩ : ∃ ds, records = .sequence ds := by
      obtain hrecords | hrecords := hrecords
      · obtain ⟨ds, rfl, -⟩ := Schema.sequence_of_reads hrecords
        exact ⟨ds, rfl⟩
      · exact ⟨[], (Option.some.inj hrecords).symm⟩
    have hresults : streamResults.ofDatum? (.record [.natural n, .sequence ds])
        = ds.mapM StreamResult.ofDatum? := rfl
    have hanswer : StreamAnswer.codec.ofDatum? (.record [.natural n, .sequence ds])
        = (ds.mapM StreamResult.ofDatum?).map fun results => ⟨n, results⟩ := rfl
    simp only [Codec.ofDraft, hschema, hread, bind, Except.bind, hresults, hanswer]
    cases ds.mapM StreamResult.ofDatum? <;> rfl

/-! ## What becomes of an event -/

/-- Whether the result at the position of an event accepts its record: it is there and has
no error code. -/
def accepts : Option StreamResult → Bool
  | some r => r.errorCode.isNone
  | none => false

/-- Whether the result at the position of an event refuses its record, by one of the two
error codes for that. -/
def refuses : Option StreamResult → Bool
  | some r =>
    r.errorCode = some "ValidationException" || r.errorCode = some "InvalidArgumentException"
  | none => false

/-- Whether it leaves the event open. -/
def leavesRecordOpen (result : Option StreamResult) : Bool :=
  !accepts result && !refuses result

/-- The status of an error code is never a success, and it is that of a refusal for two
codes. -/
theorem ofStatus_statusOfErrorCode (code : String) :
    ItemClass.ofStatus (statusOfErrorCode code)
      = if code = "ValidationException" ∨ code = "InvalidArgumentException" then .fatal
        else .retryable := by
  unfold statusOfErrorCode
  split
  · rfl
  · rfl
  · rfl
  · rfl
  · next hv hi => exact (if_neg (not_or.mpr ⟨hv, hi⟩)).symm

/-- **What the status of a result means for its event.** -/
theorem classify_answer (r : StreamResult) :
    r.answer.classify = if accepts (some r) then .success
      else if refuses (some r) then .fatal else .retryable := by
  obtain ⟨sequenceNumber, errorCode, errorMessage⟩ := r
  cases errorCode with
  | none => rfl
  | some code =>
    refine (ofStatus_statusOfErrorCode code).trans ?_
    simp only [accepts, refuses, Option.isNone_some, Bool.false_eq_true, if_false,
      Option.some.injEq, Bool.or_eq_true, decide_eq_true_eq]

/-- **How an event stands according to a result.** -/
structure Follows (result : Option StreamResult) (standing : Standing) : Prop where
  /-- It is delivered when its record is accepted. -/
  delivered : (∃ o, standing = .settled o ∧ o.success = true) ↔ accepts result = true
  /-- It is dropped when its record is refused. -/
  dropped : (∃ o, standing = .settled o ∧ o.isDropped = true) ↔ refuses result = true
  /-- It is outstanding otherwise. -/
  outstanding : (∃ last, standing = .outstanding last) ↔ leavesRecordOpen result = true

/-- A result without an error code does not refuse. -/
theorem refuses_of_accepts {result : Option StreamResult} (h : accepts result = true) :
    refuses result = false := by
  cases result with
  | none => rfl
  | some r =>
    have hr : r.errorCode = none := Option.isNone_iff_eq_none.mp h
    simp only [refuses, hr, reduceCtorEq, decide_false, Bool.or_self]

section

variable {result : Option StreamResult} {o : Outcome}

/-- An outcome is not both a delivery and a refusal. -/
theorem not_isDropped_of_success (h : o.success = true) : o.isDropped = false := by
  unfold Outcome.isDropped
  rw [h]
  rfl

/-- A delivery follows a result that accepts. -/
theorem Follows.of_accepts (h : accepts result = true) (ho : o.success = true) :
    Follows result (.settled o) where
  delivered := iff_of_true ⟨o, rfl, ho⟩ h
  dropped := by
    rw [refuses_of_accepts h]
    refine iff_of_false ?_ Bool.false_ne_true
    rintro ⟨_, ⟨⟩, hd⟩
    exact Bool.false_ne_true ((not_isDropped_of_success ho).symm.trans hd)
  outstanding := by
    refine iff_of_false (by rintro ⟨_, ⟨⟩⟩) ?_
    rw [leavesRecordOpen, h]
    exact Bool.false_ne_true

/-- A refusal follows a result that refuses. -/
theorem Follows.of_refuses (h : refuses result = true) (ho : o.isDropped = true) :
    Follows result (.settled o) where
  delivered := by
    refine iff_of_false ?_ fun ha => ?_
    · rintro ⟨_, ⟨⟩, hs⟩
      exact Bool.false_ne_true ((not_isDropped_of_success hs).symm.trans ho)
    · exact Bool.false_ne_true ((refuses_of_accepts ha).symm.trans h)
  dropped := iff_of_true ⟨o, rfl, ho⟩ h
  outstanding := by
    refine iff_of_false (by rintro ⟨_, ⟨⟩⟩) ?_
    rw [leavesRecordOpen, h, Bool.not_true, Bool.and_false]
    exact Bool.false_ne_true

/-- An event stays outstanding after any other result. -/
theorem Follows.of_open (ha : accepts result = false) (hr : refuses result = false)
    (last : Option Outcome) : Follows result (.outstanding last) where
  delivered := by
    rw [ha]
    exact iff_of_false (by rintro ⟨_, ⟨⟩, -⟩) Bool.false_ne_true
  dropped := by
    rw [hr]
    exact iff_of_false (by rintro ⟨_, ⟨⟩, -⟩) Bool.false_ne_true
  outstanding := iff_of_true ⟨last, rfl⟩ (by rw [leavesRecordOpen, ha, hr]; rfl)

end

/-- How an event stands that a result decides, or that no result is about. -/
def resultStanding (attempt : Nat) (id : EventId) : Option StreamResult → Standing
  | some r => .ofStatus ItemStatus.classify attempt id r.answer
  | none => .unheard attempt id "no status in response"

/-- **An event stands as the result at its position says.** -/
theorem follows_resultStanding (attempt : Nat) (id : EventId) (result : Option StreamResult) :
    Follows result (resultStanding attempt id result) := by
  cases result with
  | none => exact .of_open rfl rfl _
  | some r =>
    have hclass := classify_answer r
    show Follows (some r) (Standing.ofStatus ItemStatus.classify attempt id r.answer)
    unfold Standing.ofStatus
    cases ha : accepts (some r) with
    | true =>
      rw [ha, if_pos rfl] at hclass
      rw [hclass]
      exact .of_accepts ha rfl
    | false =>
      rw [ha, if_neg Bool.false_ne_true] at hclass
      cases hr : refuses (some r) with
      | true =>
        rw [hr, if_pos rfl] at hclass
        rw [hclass]
        exact .of_refuses hr rfl
      | false =>
        rw [hr, if_neg Bool.false_ne_true] at hclass
        rw [hclass]
        exact .of_open ha hr _

/-! ## A request sent and its answer taken in -/

/-- What is kept of a list by a test of its things is kept by their positions, when the test
goes by these. -/
theorem filter_eq_of_position {α : Type} {xs : List α} {p : α → Bool} {q : Nat → Bool}
    (h : ∀ (k : Nat) x, xs[k]? = some x → p x = q k) :
    xs.filter p = (xs.zipIdx.filter fun x => q x.2).map (·.1) := by
  have hxs : xs = xs.zipIdx.map (·.1) := (List.zipIdx_map_fst 0 xs).symm
  conv_lhs => rw [hxs]
  rw [List.filter_map]
  refine congrArg _ (List.filter_congr fun x hx => ?_)
  exact h x.2 x.1 (List.mk_mem_zipIdx_iff_getElem?.mp hx)

namespace RecordStream

/-- **A ledger after the results of an answer.** -/
structure Aligned (l : Ledger) (results : List StreamResult) (l' : Ledger) : Prop where
  /-- Every event of the request stands in one way, which is what the result at its position
  says. -/
  stands : ∀ (k : Nat) e, l.request[k]? = some e →
    ∃ standing, (∀ other, ⟨e, other⟩ ∈ l'.entries ↔ other = standing) ∧
      Follows results[k]? standing
  /-- The next request holds the events that are left open, in the same order. -/
  next : l'.request
    = (l.request.zipIdx.filter fun p => leavesRecordOpen results[p.2]?).map (·.1)
  /-- What was settled before stands as it did. -/
  settled : ∀ x ∈ l.entries, x.isOutstanding = false → x ∈ l'.entries
  /-- The batch is the same. -/
  batch : l'.batch = l.batch

/-- A readable answer makes the statuses of its results. -/
theorem send_eq (s : RecordStream) {exchange : Request → Ending} {batch : List Event}
    {status : Nat} {body : List UInt8} {answer : StreamAnswer}
    (hx : exchange (s.request batch) = .response status body)
    (hs : 200 ≤ status ∧ status ≤ 299)
    (hread : Json.decode StreamAnswer.codec (String.ofList (Text.Utf8.decodeLossy body))
      = .ok answer) :
    s.send exchange batch = .ok (answer.results.map (·.answer)) := by
  have hbody : successBody s.name s.endpoint (.response status body)
      = .ok (status, String.ofList (Text.Utf8.decodeLossy body)) := if_pos hs
  have hparse : parseStreamAnswer (String.ofList (Text.Utf8.decodeLossy body))
      = .ok (answer.results.map (·.answer)) := by
    unfold parseStreamAnswer
    rw [decode_streamResults, hread]
    rfl
  unfold send receive
  rw [hx, hbody]
  dsimp only [bind, Except.bind]
  rw [hparse]

section

variable {l : Ledger} {results : List StreamResult} {k : Nat} {e : Event}

/-- No status of a result names an event. -/
theorem answers_unnamed (results : List StreamResult) :
    ∀ x ∈ results.map (·.answer), x.id = none := by
  intro x hx
  obtain ⟨r, -, rfl⟩ := List.mem_map.mp hx
  unfold StreamResult.answer
  cases r.errorCode <;> rfl

/-- **An event of the request is decided by the result at its position.** -/
theorem deciding_of_result (hn : (l.request.map (·.id)).Nodup) (he : l.request[k]? = some e) :
    deciding l.request e.id 0 (results.map (·.answer)) = results[k]?.map (·.answer) := by
  rw [deciding_of_unnamed hn he (answers_unnamed results), if_pos (Nat.zero_le k), Nat.sub_zero,
    List.getElem?_map]

/-- It stands as that result says. -/
theorem after_of_result (hn : (l.request.map (·.id)).Nodup) (he : l.request[k]? = some e) :
    l.after ItemStatus.classify (results.map (·.answer)) e
      = resultStanding l.attempt e.id results[k]? := by
  unfold Ledger.after
  rw [deciding_of_result hn he]
  cases results[k]? <;> rfl

/-- It is left open when that result leaves it open. -/
theorem leavesOpen_of_result (hn : (l.request.map (·.id)).Nodup)
    (he : l.request[k]? = some e) :
    leavesOpen ItemStatus.classify l.request (.ok (results.map (·.answer))) e
      = leavesRecordOpen results[k]? := by
  have hdec : deciding l.request e.id 0 (results.map (·.answer)) = results[k]?.map (·.answer) :=
    deciding_of_result hn he
  cases hr : results[k]? with
  | none =>
    rw [hr] at hdec
    exact leavesOpen_of_unheard hdec
  | some r =>
    rw [hr] at hdec
    rw [leavesOpen_of_deciding hdec, classify_answer, leavesRecordOpen]
    cases accepts (some r) <;> cases refuses (some r) <;> rfl

/-- **Results make a ledger that is aligned with them.** -/
theorem aligned_answer (hn : (l.batch.map (·.id)).Nodup) (results : List StreamResult) :
    Aligned l results
      (l.answer ItemStatus.classify l.request (results.map (·.answer))).1 := by
  have hreq : (l.request.map (·.id)).Nodup := hn.sublist (l.request_sublist.map _)
  refine ⟨fun k e he => ?_, ?_, fun x hx ho => ?_, Ledger.batch_answer ..⟩
  · refine ⟨_, fun other => ?_, follows_resultStanding l.attempt e.id results[k]?⟩
    have hin := Ledger.mem_answer (List.mem_of_getElem? he) ItemStatus.classify
      (results.map (·.answer))
    rw [after_of_result hreq he] at hin
    refine ⟨fun ho => SearchBulk.standing_unique ?_ ho hin, fun ho => ho ▸ hin⟩
    rwa [Ledger.batch_answer]
  · refine (Ledger.request_absorb l ItemStatus.classify (.ok (results.map (·.answer)))).trans ?_
    exact filter_eq_of_position fun k e he => leavesOpen_of_result hreq he
  · rw [Ledger.answer_eq]
    exact List.mem_map.mpr ⟨x, hx, Entry.answered_of_settled _ _ _ ho⟩

/-- **Results that say the same of the events of a request** make the same ledger, whatever
stands beyond them. -/
theorem answer_congr (hn : (l.batch.map (·.id)).Nodup) {results' : List StreamResult}
    (h : results'.take l.request.length = results.take l.request.length) :
    (l.answer ItemStatus.classify l.request (results'.map (·.answer))).1
      = (l.answer ItemStatus.classify l.request (results.map (·.answer))).1 := by
  have hreq : (l.request.map (·.id)).Nodup := hn.sublist (l.request_sublist.map _)
  rw [Ledger.answer_eq, Ledger.answer_eq]
  refine congrArg (fun entries => { l with entries }) (List.map_congr_left fun x hx => ?_)
  unfold Entry.answered
  cases ho : x.isOutstanding with
  | false => rfl
  | true =>
    have hmem : x.event ∈ l.request :=
      List.mem_map_of_mem (List.mem_filter.mpr ⟨hx, ho⟩)
    obtain ⟨k, hk⟩ := List.mem_iff_getElem?.mp hmem
    have hlt : k < l.request.length := (List.getElem?_eq_some_iff.mp hk).1
    have hsame : results'[k]? = results[k]? := by
      rw [← List.getElem?_take_of_lt hlt, h, List.getElem?_take_of_lt hlt]
    rw [deciding_of_result hreq hk, deciding_of_result hreq hk, hsame]

end

/-- **The records of a stream are aligned with the events.** The request has a record for
every event, in order, with its payload and its partition key or else its identity. After a
readable answer every event stands as the result at its position says, and those left open
are the next request. Another answer with the same results for the records of the request
makes the same ledger, whatever it says beyond them and of the number that failed. -/
theorem round_aligned (s : RecordStream) (exchange : Request → Ending) (l : Ledger)
    (hn : (l.batch.map (·.id)).Nodup) {status : Nat} {body : List UInt8} {answer : StreamAnswer}
    (hx : exchange (s.request l.request) = .response status body)
    (hs : 200 ≤ status ∧ status ≤ 299)
    (hread : Json.decode StreamAnswer.codec (String.ofList (Text.Utf8.decodeLossy body))
      = .ok answer) :
    readPut (s.request l.request).body
        = some (s.stream, l.request.map fun e => (e.payload, e.key.getD e.id.text)) ∧
      ∃ l', s.round exchange l = .ok l' ∧ Aligned l answer.results l' ∧
        ∀ (exchange' : Request → Ending) (status' : Nat) (body' : List UInt8)
            (answer' : StreamAnswer),
          exchange' (s.request l.request) = .response status' body' →
          200 ≤ status' ∧ status' ≤ 299 →
          Json.decode StreamAnswer.codec (String.ofList (Text.Utf8.decodeLossy body'))
            = .ok answer' →
          answer'.results.take l.request.length = answer.results.take l.request.length →
          s.round exchange' l = .ok l' := by
  refine ⟨readPut_request s l.request,
    (l.answer ItemStatus.classify l.request (answer.results.map (·.answer))).1, ?_,
    aligned_answer hn answer.results, fun exchange' status' body' answer' hx' hs' hread' h => ?_⟩
  · unfold round
    rw [send_eq s hx hs hread]
    rfl
  · unfold round
    rw [send_eq s hx' hs' hread', ← answer_congr hn h]
    rfl

/-- A stream that takes the first record and is throttled at the second. -/
def oneThrottled : List UInt8 :=
  Text.Utf8.encode "\x7b\"Records\":[\x7b\x7d,\x7b\"ErrorCode\":\"Busy\"\x7d]\x7d".toList

set_option maxRecDepth 20000 in
/-- The answer is readable. -/
theorem decode_oneThrottled :
    Json.decode StreamAnswer.codec (String.ofList (Text.Utf8.decodeLossy oneThrottled))
      = .ok ⟨0, [⟨none, none, none⟩, ⟨none, some "Busy", none⟩]⟩ := by
  rfl

/-- Of three events with two results, only the first one of which accepts a record, the other
two are the next request. -/
theorem round_aligned_oneThrottled :
    ∃ l', RecordStream.round ⟨"stream", "events", default, 1000⟩
        (fun _ => .response 200 oneThrottled)
        (Ledger.fresh "stream"
          [⟨⟨"a"⟩, [0x7b, 0x7d], none⟩, ⟨⟨"b"⟩, [0xff], some "east"⟩, ⟨⟨"c"⟩, [], none⟩])
        = .ok l' ∧
      l'.request = [⟨⟨"b"⟩, [0xff], some "east"⟩, ⟨⟨"c"⟩, [], none⟩] := by
  obtain ⟨-, l', hround, ha, -⟩ := round_aligned ⟨"stream", "events", default, 1000⟩
    (fun _ => .response 200 oneThrottled) (Ledger.fresh "stream"
      [⟨⟨"a"⟩, [0x7b, 0x7d], none⟩, ⟨⟨"b"⟩, [0xff], some "east"⟩, ⟨⟨"c"⟩, [], none⟩]) (by decide)
    rfl (by decide) decode_oneThrottled
  exact ⟨l', hround, ha.next.trans (by decide)⟩

end RecordStream

end Courier.Sink
