import Courier.Source.Feed
import Courier.Proofs.Pipeline.Totals
/-!
# What enters a channel

Nothing that happens outside of a feed adds to what its reader would hand over by itself,
or changes its order: what has entered the channel and what is still to come are the
records of the source, or what is to come has been lost because the reader has stopped
(`Feed.Honest`). So what has entered is the beginning of a reading that nobody
interrupts, and the reader has counted its events and no others (`Feed.entered_in_order`).

A run of a pipeline is a run of its feed, with the consumer as the receiver
(`Pipeline.feeds_run`).
-/

namespace Courier

open Courier.Pipeline (eventCount eventCount_append)

namespace Reader

/-- A reader that is told to shut down is done. -/
theorem phase_step_shutdown (r : Reader) : (r.step .shutdown).phase = .done := by
  unfold step
  cases hp : r.phase with
  | reading => rfl
  | offering record last => rfl
  | done => exact hp

theorem phase_step_refused {r : Reader} {record : Record} {last : Bool}
    (h : r.phase = .offering record last) : (r.step .refused).phase = .done := by
  unfold step
  rw [h]

end Reader

namespace Feed

variable {f : Feed} {records entered : List Record}

theorem after_append (f : Feed) (xs ys : List Move) : f.after (xs ++ ys) = (f.after xs).after ys :=
  List.foldl_append

/-- What enters after others. -/
theorem entered_append (f : Feed) (xs ys : List Move) :
    f.entered (xs ++ ys) = f.entered xs ++ (f.after xs).entered ys := by
  induction xs generalizing f with
  | nil => rfl
  | cons m xs ih =>
    rw [List.cons_append, Feed.entered, ih, Feed.entered, List.append_assoc]
    rfl

/-! ## One thing that happens -/

/-- **What a reader notices**, and when. -/
theorem notices_cases (f : Feed) :
    (f.shutDown = true ∧ f.notices = some .shutdown) ∨
    (f.shutDown = false ∧ (∀ record last, f.reader.phase ≠ .offering record last) ∧
      f.notices = some .go) ∨
    ∃ record last, f.shutDown = false ∧ f.reader.phase = .offering record last ∧
      (f.gone = true ∧ f.notices = some .refused ∨
        f.gone = false ∧ f.channel.length < f.capacity ∧ f.notices = some .taken ∨
        f.gone = false ∧ f.capacity ≤ f.channel.length ∧ f.notices = none) := by
  unfold notices
  cases hshut : f.shutDown with
  | true => exact .inl ⟨rfl, rfl⟩
  | false =>
    cases hp : f.reader.phase with
    | reading => exact .inr (.inl ⟨rfl, fun _ _ h => Reader.Phase.noConfusion h, rfl⟩)
    | done => exact .inr (.inl ⟨rfl, fun _ _ h => Reader.Phase.noConfusion h, rfl⟩)
    | offering record last =>
      refine .inr (.inr ⟨record, last, rfl, rfl, ?_⟩)
      cases f.gone with
      | true => exact .inl ⟨rfl, rfl⟩
      | false =>
        by_cases hroom : f.channel.length < f.capacity
        · exact .inr (.inl ⟨rfl, hroom, if_pos hroom⟩)
        · exact .inr (.inr ⟨rfl, Nat.not_lt.mp hroom, if_neg hroom⟩)

/-- A reader that notices something else than that its record is taken sends nothing. -/
theorem enters_of_ne (h : f.notices ≠ some .taken) : f.enters .reader = [] :=
  if_neg h

/-- The reader goes on by what it notices. -/
theorem step_of_notices {s : Reader.Signal} (h : f.notices = some s) (hs : s ≠ .taken) :
    f.step .reader = { f with reader := f.reader.step s } := by
  unfold step
  dsimp only
  rw [enters_of_ne (by rw [h]; exact fun h' => hs (Option.some.inj h')), List.append_nil, h]
  rfl

/-- A reader that notices nothing stays as it is. -/
theorem step_of_waiting (h : f.notices = none) : f.step .reader = f := by
  unfold step
  dsimp only
  rw [enters_of_ne (by simp [h]), List.append_nil, h]
  rfl

/-- The record that is taken enters the channel. -/
theorem enters_taken {record : Record} {last : Bool} (h : f.notices = some .taken)
    (hphase : f.reader.phase = .offering record last) : f.enters .reader = [record] := by
  unfold enters offered
  rw [hphase]
  exact if_pos h

/-- The reader whose record is taken goes on. -/
theorem step_taken {record : Record} {last : Bool} (h : f.notices = some .taken)
    (hphase : f.reader.phase = .offering record last) :
    f.step .reader
      = { f with reader := f.reader.step .taken, channel := f.channel ++ [record] } := by
  unfold step
  dsimp only
  rw [enters_taken h hphase, h]
  rfl

theorem capacity_step (f : Feed) (m : Move) : (f.step m).capacity = f.capacity := by
  cases m <;> rfl

/-- **The channel never holds more than it can.** -/
theorem length_channel_step (h : f.channel.length ≤ f.capacity) (m : Move) :
    (f.step m).channel.length ≤ f.capacity := by
  cases m with
  | reader =>
    show (f.channel ++ f.enters .reader).length ≤ f.capacity
    obtain ⟨-, hn⟩ | ⟨-, -, hn⟩ |
      ⟨record, last, -, hphase, ⟨-, hn⟩ | ⟨-, hroom, hn⟩ | ⟨-, -, hn⟩⟩ := f.notices_cases
    · rw [enters_of_ne (by simp [hn]), List.append_nil]
      exact h
    · rw [enters_of_ne (by simp [hn]), List.append_nil]
      exact h
    · rw [enters_of_ne (by simp [hn]), List.append_nil]
      exact h
    · rw [enters_taken hn hphase, List.length_append]
      exact hroom
    · rw [enters_of_ne (by simp [hn]), List.append_nil]
      exact h
  | receive =>
    show f.channel.tail.length ≤ f.capacity
    rw [List.length_tail]
    omega
  | leave => exact h
  | shutdown => exact h

/-- So it is after whatever happens. -/
theorem length_channel_after (moves : List Move) : ∀ {f : Feed}, f.channel.length ≤ f.capacity →
    (f.after moves).capacity = f.capacity ∧ (f.after moves).channel.length ≤ f.capacity := by
  induction moves with
  | nil => exact fun h => ⟨rfl, h⟩
  | cons m rest ih =>
    intro f h
    have hstep := length_channel_step h m
    rw [← capacity_step f m] at hstep ⊢
    exact ih hstep

/-- **A feed that is honest about the records of its source**: of those that have entered the
channel, none is lost, changed or counted wrongly, and what the reader would hand over
comes behind them. -/
structure Honest (f : Feed) (records entered : List Record) : Prop where
  /-- What has entered and what is to come is the beginning of the records. -/
  ahead : entered ++ f.reader.finish.2 <+: records
  /-- It is all of them unless the reader has been made to stop. -/
  whole : f.shutDown = false → f.gone = false → entered ++ f.reader.finish.2 = records
  /-- The reader has counted the events that have entered. -/
  sent_eq : f.reader.sent = eventCount entered
  /-- The channel holds what has entered last. -/
  held : f.channel <:+ entered

/-- A reader that has been made to stop hands over nothing more. -/
theorem Honest.stop (h : f.Honest records entered) {s : Reader.Signal} (hs : s ≠ .taken)
    (hdone : (f.reader.step s).phase = .done) (hwhy : f.shutDown = true ∨ f.gone = true) :
    Honest { f with reader := f.reader.step s } records (entered ++ []) where
  ahead := by
    show entered ++ [] ++ (f.reader.step s).finish.2 <+: records
    rw [Reader.finish_done hdone, List.append_nil, List.append_nil]
    exact (List.prefix_append entered _).trans h.ahead
  whole hshut hgone := by
    obtain hwhy | hwhy := hwhy
    · exact Bool.noConfusion (hwhy.symm.trans hshut)
    · exact Bool.noConfusion (hwhy.symm.trans hgone)
  sent_eq := by
    rw [List.append_nil, ← h.sent_eq]
    exact f.reader.sent_step hs
  held := by
    rw [List.append_nil]
    exact h.held

/-- **The reader is run.** -/
theorem Honest.reader (h : f.Honest records entered) :
    (f.step .reader).Honest records (entered ++ f.enters .reader) := by
  obtain ⟨hshut, hn⟩ | ⟨-, hphase, hn⟩ |
    ⟨record, last, -, hphase, ⟨hgone, hn⟩ | ⟨-, -, hn⟩ | ⟨-, -, hn⟩⟩ := f.notices_cases
  · rw [step_of_notices hn Reader.Signal.noConfusion,
      enters_of_ne (by simp [hn])]
    exact h.stop Reader.Signal.noConfusion (Reader.phase_step_shutdown _) (.inl hshut)
  · rw [step_of_notices hn Reader.Signal.noConfusion,
      enters_of_ne (by simp [hn]),
      List.append_nil]
    have hgo := Reader.finish_go hphase
    refine ⟨?_, fun hshut hgone => ?_, ?_, h.held⟩
    · rw [hgo]
      exact h.ahead
    · rw [hgo]
      exact h.whole hshut hgone
    · rw [← h.sent_eq]
      exact f.reader.sent_step Reader.Signal.noConfusion
  · rw [step_of_notices hn Reader.Signal.noConfusion,
      enters_of_ne (by simp [hn])]
    exact h.stop Reader.Signal.noConfusion (Reader.phase_step_refused hphase) (.inr hgone)
  · -- the record moves from what is to come to what has entered
    rw [step_taken hn hphase, enters_taken hn hphase]
    have hmoved : entered ++ [record] ++ (f.reader.step .taken).finish.2
        = entered ++ f.reader.finish.2 := by
      rw [Reader.finish_offering hphase, List.append_assoc]
      rfl
    refine ⟨?_, fun hshut hgone => ?_, ?_, ?_⟩
    · rw [hmoved]
      exact h.ahead
    · rw [hmoved]
      exact h.whole hshut hgone
    · rw [eventCount_append, ← h.sent_eq]
      exact Reader.sent_taken hphase
    · obtain ⟨before, hbefore⟩ := h.held
      exact ⟨before, by rw [← hbefore, List.append_assoc]⟩
  · rw [step_of_waiting hn, enters_of_ne (by simp [hn]), List.append_nil]
    exact h

/-- **One thing that happens.** -/
theorem Honest.step (h : f.Honest records entered) (m : Move) :
    (f.step m).Honest records (entered ++ f.enters m) := by
  cases m with
  | reader => exact h.reader
  | receive =>
    rw [show f.enters .receive = [] from rfl, List.append_nil]
    exact ⟨h.ahead, h.whole, h.sent_eq, (List.tail_suffix _).trans h.held⟩
  | leave =>
    rw [show f.enters .leave = [] from rfl, List.append_nil]
    exact ⟨h.ahead, fun _ hgone => Bool.noConfusion hgone, h.sent_eq, h.held⟩
  | shutdown =>
    rw [show f.enters .shutdown = [] from rfl, List.append_nil]
    exact ⟨h.ahead, fun hshut => Bool.noConfusion hshut, h.sent_eq, h.held⟩

/-- **Whatever happens.** -/
theorem Honest.after (moves : List Move) : ∀ {f : Feed} {entered : List Record},
    f.Honest records entered → (f.after moves).Honest records (entered ++ f.entered moves) := by
  induction moves with
  | nil =>
    intro f entered h
    rw [show f.entered [] = [] from rfl, List.append_nil]
    exact h
  | cons m rest ih =>
    intro f entered h
    rw [Feed.entered, ← List.append_assoc]
    exact ih (h.step m)

/-- A feed at the beginning of a file has all records of the source to come. -/
theorem honest_start (s : Source) (bytes : List UInt8) (capacity : Nat) :
    (start s bytes capacity).Honest (s.records bytes) [] where
  ahead := List.prefix_rfl
  whole _ _ := rfl
  sent_eq := rfl
  held := List.nil_suffix

/-! ## Being stopped -/

/-- A reader that is to shut down stays so. -/
theorem shutDown_step (h : f.shutDown = true) (m : Move) : (f.step m).shutDown = true := by
  cases m with
  | reader => exact h
  | receive => exact h
  | leave => exact h
  | shutdown => rfl

/-- **Nothing enters the channel once the reader is to shut down.** -/
theorem entered_of_shutDown (moves : List Move) : ∀ {f : Feed}, f.shutDown = true →
    f.entered moves = [] := by
  induction moves with
  | nil => exact fun _ => rfl
  | cons m rest ih =>
    intro f h
    have hnothing : f.enters m = [] := by
      cases m with
      | reader =>
        refine enters_of_ne ?_
        rw [notices, if_pos h]
        exact fun h' => Reader.Signal.noConfusion (Option.some.inj h')
      | _ => rfl
    rw [Feed.entered, hnothing, ih (shutDown_step h m)]
    rfl

/-- **Who is to shut down has been told to**, and who has gone away has left. -/
theorem told_of_after (moves : List Move) : ∀ {f : Feed},
    ((f.after moves).shutDown = (f.shutDown || moves.contains .shutdown)) ∧
      ((f.after moves).gone = (f.gone || moves.contains .leave)) := by
  induction moves with
  | nil => exact fun {f} => ⟨(Bool.or_false _).symm, (Bool.or_false _).symm⟩
  | cons m rest ih =>
    intro f
    obtain ⟨hshut, hgone⟩ := ih (f := f.step m)
    show (Feed.after (f.step m) rest).shutDown = _ ∧ (Feed.after (f.step m) rest).gone = _
    rw [hshut, hgone, List.contains_cons, List.contains_cons]
    cases m with
    | reader => exact ⟨rfl, rfl⟩
    | receive => exact ⟨rfl, rfl⟩
    | leave => exact ⟨rfl, by simp [step]⟩
    | shutdown => exact ⟨by simp [step], rfl⟩

/-! ## Coming to an end -/

/-- **What a reader notices brings it nearer to its end.** -/
theorem left_of_notices {s : Reader.Signal} (h : f.notices = some s)
    (hphase : f.reader.phase ≠ .done) : (f.reader.step s).left < f.reader.left := by
  have hpos : 0 < f.reader.left := by
    unfold Reader.left
    cases hp : f.reader.phase with
    | reading => exact Nat.succ_pos _
    | offering record last => cases last <;> exact Nat.succ_pos _
    | done => exact absurd hp hphase
  have hdone {r : Reader} (hr : r.phase = .done) : r.left < f.reader.left := by
    rw [show r.left = 0 by simp [Reader.left, hr]]
    exact hpos
  obtain ⟨-, hn⟩ | ⟨-, hgo, hn⟩ |
    ⟨record, last, -, hoffer, ⟨-, hn⟩ | ⟨-, -, hn⟩ | ⟨-, -, hn⟩⟩ := f.notices_cases
  · obtain rfl := Option.some.inj (h.symm.trans hn)
    exact hdone (Reader.phase_step_shutdown _)
  · obtain rfl := Option.some.inj (h.symm.trans hn)
    cases hp : f.reader.phase with
    | reading =>
      rw [show f.reader.step .go = f.reader.readLine by simp [Reader.step, hp]]
      exact Reader.left_readLine hp
    | offering record last => exact absurd hp (hgo record last)
    | done => exact absurd hp hphase
  · obtain rfl := Option.some.inj (h.symm.trans hn)
    exact hdone (Reader.phase_step_refused hoffer)
  · obtain rfl := Option.some.inj (h.symm.trans hn)
    exact Reader.left_taken hoffer
  · exact absurd (h.symm.trans hn) (Option.some_ne_none s)

/-- **A reader that there is room for does not wait.** -/
theorem exists_notices (h : f.channel.length < f.capacity) : ∃ s, f.notices = some s := by
  obtain ⟨-, hn⟩ | ⟨-, -, hn⟩ |
    ⟨-, -, -, -, ⟨-, hn⟩ | ⟨-, -, hn⟩ | ⟨-, hfull, -⟩⟩ := f.notices_cases
  · exact ⟨_, hn⟩
  · exact ⟨_, hn⟩
  · exact ⟨_, hn⟩
  · exact ⟨_, hn⟩
  · exact absurd h (Nat.not_lt.mpr hfull)

/-- **A round**: a record is taken out of the channel, and the reader is run. -/
def rounds (n : Nat) : List Move :=
  (List.replicate n [.receive, .reader]).flatten

/-- **A reader returns when records are taken out of its channel again and again.** -/
theorem exists_returned (left : Nat) : ∀ {f : Feed}, f.reader.left = left → 1 ≤ f.capacity →
    f.channel.length ≤ f.capacity → ∃ n, (f.after (rounds n)).result?.isSome := by
  -- on what is left to do, which every round makes less until the reader is done
  induction left using Nat.strongRecOn with
  | ind left ih =>
    intro f hleft hcap hroom
    by_cases hdone : f.reader.phase = .done
    · exact ⟨0, by simp [after, rounds, result?, hdone]⟩
    · have hfree : (f.step .receive).channel.length < f.capacity := by
        show f.channel.tail.length < f.capacity
        rw [List.length_tail]
        omega
      obtain ⟨s, hs⟩ := exists_notices (f := f.step .receive) hfree
      have hreader : ((f.step .receive).step .reader).reader = f.reader.step s := by
        show ((f.step .receive).notices.map (f.step .receive).reader.step).getD _ = _
        rw [hs]
        rfl
      have hless : ((f.step .receive).step .reader).reader.left < left := by
        rw [hreader, ← hleft]
        exact left_of_notices (f := f.step .receive) hs hdone
      have hroom' : ((f.step .receive).step .reader).channel.length ≤ f.capacity :=
        length_channel_step (f := f.step .receive) (Nat.le_of_lt hfree) .reader
      obtain ⟨n, hn⟩ := ih _ hless rfl hcap hroom'
      refine ⟨n + 1, ?_⟩
      rw [rounds, List.replicate_succ, List.flatten_cons, after_append]
      exact hn

end Feed

/-! ## The feed of a pipeline -/

namespace Pipeline

/-- **The feed of a pipeline**, whose consumer is the receiver. -/
def feed (p : Pipeline) : Feed where
  capacity := p.capacity
  reader := p.reader
  channel := p.channel
  gone := p.consumer.phase == .done
  shutDown := p.shutDown

variable {p q : Pipeline} {s : Signal} {effects : List Effect}

/-- A consumer in another phase has not gone away. -/
theorem gone_eq_false {phase : Consumer.Phase} (h : p.consumer.phase = phase)
    (hphase : phase ≠ .done) : p.feed.gone = false := by
  show (p.consumer.phase == .done) = false
  rw [h]
  exact beq_eq_false_iff_ne.mpr hphase

/-- **A consumer that is done has gone away.** -/
theorem feed_leave (hdone : q.consumer.phase = .done) (hreader : q.reader = p.reader)
    (hchannel : q.channel = p.channel) (hcapacity : q.capacity = p.capacity)
    (hshut : q.shutDown = p.shutDown) : q.feed = p.feed.step .leave := by
  have hgone : (q.consumer.phase == .done) = true := beq_iff_eq.mpr hdone
  unfold feed
  rw [hgone, hreader, hchannel, hcapacity, hshut]
  rfl

/-- A consumer that goes from one thing to another takes out of the channel what it takes. -/
theorem feed_eq {before after : Consumer.Phase} (hbefore : p.consumer.phase = before)
    (hafter : q.consumer.phase = after) (hne : before ≠ .done) (hne' : after ≠ .done)
    (hreader : q.reader = p.reader) (hcapacity : q.capacity = p.capacity)
    (hshut : q.shutDown = p.shutDown) : q.feed = { p.feed with channel := q.channel } := by
  have hgone := (gone_eq_false hafter hne').trans (gone_eq_false hbefore hne).symm
  unfold feed at hgone ⊢
  rw [hreader, hcapacity, hshut]
  exact congrArg (Feed.mk _ _ _ · _) hgone

/-- **What one thing that is done is to the feed.** -/
theorem Turn.feeds (hturn : Turn p s q effects) :
    ∃ moves, q.feed = p.feed.after moves := by
  have hread {signal : Reader.Signal} (hs : p.feed.notices = some signal) (hne : signal ≠ .taken) :
      ∃ moves, feed { p with reader := p.reader.step signal } = p.feed.after moves :=
    ⟨[.reader], (Feed.step_of_notices hs hne).symm⟩
  have hsame (h : q.feed = p.feed) : ∃ moves, q.feed = p.feed.after moves := ⟨[], h⟩
  cases hturn with
  | idle => exact ⟨[], rfl⟩
  | reads hopen hphase =>
    obtain ⟨hshut, -⟩ | ⟨-, -, hn⟩ | ⟨record, last, -, hoffer, -⟩ := p.feed.notices_cases
    · exact Bool.noConfusion (hopen.symm.trans hshut)
    · exact hread hn Reader.Signal.noConfusion
    · exact absurd hoffer (hphase record last)
  | @hands record last hopen hphase hheard hroom =>
    have hn : p.feed.notices = some .taken := by
      simp [Feed.notices, feed, hopen, hphase, hheard, hroom]
    exact ⟨[.reader], (Feed.step_taken hn hphase).symm⟩
  | refuses hopen hphase hdone =>
    have hn : p.feed.notices = some .refused := by simp [Feed.notices, feed, hopen, hphase, hdone]
    exact hread hn Reader.Signal.noConfusion
  | stops hshut => exact hread (if_pos hshut) Reader.Signal.noConfusion
  | notices hshut =>
    exact ⟨[.leave], feed_leave (phase_tell_shutdown p) rfl rfl rfl rfl⟩
  | @takes r rest hopen hphase hchannel =>
    refine ⟨[.receive], ?_⟩
    show feed _ = { p.feed with channel := p.channel.tail }
    rw [hchannel]
    exact feed_eq hphase (phase_tell_record hphase r) Consumer.Phase.noConfusion
      Consumer.Phase.noConfusion rfl rfl rfl
  | closes hopen hphase =>
    exact ⟨[.leave], feed_leave (phase_tell_closed hphase) rfl rfl rfl rfl⟩
  | hears hopen hphase =>
    exact hsame (feed_eq hphase (phase_tell_acked hphase _) Consumer.Phase.noConfusion
      Consumer.Phase.noConfusion rfl rfl rfl)
  | runs => exact hsame rfl
  | reports => exact hsame rfl
  | concludes hopen hphase =>
    exact hsame (feed_eq hphase (phase_tell_delivered hphase) Consumer.Phase.noConfusion
      Consumer.Phase.noConfusion rfl rfl rfl)
  | fails hopen hphase =>
    exact hsame (feed_eq hphase (phase_tell_failed hphase _) Consumer.Phase.noConfusion
      Consumer.Phase.noConfusion rfl rfl rfl)
  | stores => exact hsame rfl
  | retries => exact hsame rfl
  | givesUp => exact hsame rfl
  | handles hopen hphase =>
    exact hsame (feed_eq hphase (phase_tell_handled hphase) Consumer.Phase.noConfusion
      Consumer.Phase.noConfusion rfl rfl rfl)
  | shutsDown => exact ⟨[.shutdown], rfl⟩

/-- **A run of a pipeline is a run of its feed.** -/
theorem feeds_run (signals : List Signal) : ∀ p : Pipeline,
    ∃ moves, (p.run signals).1.feed = p.feed.after moves := by
  induction signals with
  | nil => exact fun p => ⟨[], rfl⟩
  | cons s rest ih =>
    intro p
    have hstep : ∃ moves, (p.step s).1.feed = p.feed.after moves := by
      cases turns_step p s with
      | one hturn => exact hturn.feeds
      | two hturn _ _ hturn' =>
        obtain ⟨xs, hx⟩ := hturn.feeds
        obtain ⟨ys, hy⟩ := hturn'.feeds
        exact ⟨xs ++ ys, by rw [hy, hx, Feed.after_append]⟩
    obtain ⟨xs, hx⟩ := hstep
    obtain ⟨ys, hy⟩ := ih (p.step s).1
    exact ⟨xs ++ ys, by rw [Feed.after_append, ← hx]; exact hy⟩

end Pipeline

/-! ## Interrupted readings -/

namespace Feed

/-- **What has entered is full records, or everything.** -/
theorem full_or_whole {s : Source} {bytes : List UInt8} {entered : List Record}
    (hb : 1 ≤ s.batchSize) (h : entered <+: s.records bytes) :
    (∀ record ∈ entered, record.events.length = s.batchSize) ∨ entered = s.records bytes := by
  obtain ⟨rest, hrest⟩ := h
  obtain ⟨ps, hcut, hrecords⟩ := s.records_cut bytes hb
  by_cases hnil : rest = []
  · rw [hnil, List.append_nil] at hrest
    exact .inr hrest
  · -- what comes behind is not nothing, so what has entered is without the last record
    refine .inl fun record hrecord => ?_
    have hlast : record ∈ (s.records bytes).dropLast := by
      rw [← hrest, List.dropLast_append_of_ne_nil hnil]
      exact List.mem_append_left _ hrecord
    rw [hrecords, ← List.map_dropLast] at hlast
    obtain ⟨p, hp, rfl⟩ := List.mem_map.mp hlast
    show (p.events.map (·.2)).length = _
    rw [List.length_map]
    exact hcut.length_dropLast p hp

/-- **An interrupted reading is an honest beginning of a reading that nobody interrupts.**
Whatever the receiver does and whenever the reader is told to shut down: the records that
enter the channel are the first of the source, in their order, and all of them are full
unless they are all there are. What the reader returns is the number of the events in
them; and they are all records of the source, or the reader was told to shut down, or
the receiver has left. Once it was told to shut down, no record enters any more. The
channel holds the last that have entered, and not more than it can; and if what it
holds is taken out of it again and again, the reader returns. What happens to a
pipeline that begins like this is what happens to such a feed. -/
theorem entered_in_order (settings : SourceSettings) (resumeAfter : Nat) (bytes : List UInt8)
    (capacity : Nat) (hcap : 1 ≤ capacity) (moves : List Move) :
    let s := Source.ofSettings settings resumeAfter
    let f := start s bytes capacity
    f.entered moves <+: s.records bytes ∧
      ((∀ record ∈ f.entered moves, record.events.length = s.batchSize) ∨
        f.entered moves = s.records bytes) ∧
      (∀ n, (f.after moves).result? = some n → n = eventCount (f.entered moves) ∧
        (f.entered moves = s.records bytes ∨ .shutdown ∈ moves ∨ .leave ∈ moves)) ∧
      (.shutdown ∈ moves → ∀ more, f.entered (moves ++ more) = f.entered moves) ∧
      (f.after moves).channel <:+ f.entered moves ∧
      (f.after moves).channel.length ≤ capacity ∧
      (∃ n, (f.after (moves ++ rounds n)).result?.isSome) ∧
      ∀ p : Pipeline, p.feed = f → ∀ signals, ∃ moves, (p.run signals).1.feed = f.after moves := by
  intro s f
  have honest : (f.after moves).Honest (s.records bytes) (f.entered moves) :=
    (honest_start s bytes capacity).after moves
  obtain ⟨hshut, hgone⟩ := told_of_after moves (f := f)
  obtain ⟨hcapacity, hroom⟩ := length_channel_after moves (f := f) (Nat.zero_le _)
  have hahead : f.entered moves <+: s.records bytes :=
    (List.prefix_append _ _).trans honest.ahead
  refine ⟨hahead, full_or_whole (Nat.le_max_left 1 _) hahead, fun n hn => ?_, fun htold more => ?_,
    honest.held, hroom, ?_, fun p hp signals => hp ▸ p.feeds_run signals⟩
  · obtain ⟨hdone, hsent⟩ : (f.after moves).reader.phase = .done ∧
        (f.after moves).reader.sent = n := by
      unfold result? at hn
      split at hn
      · next hdone => exact ⟨hdone, Option.some.inj hn⟩
      · cases hn
    refine ⟨hsent.symm.trans honest.sent_eq, ?_⟩
    by_cases htold : .shutdown ∈ moves ∨ .leave ∈ moves
    · exact .inr htold
    · obtain ⟨hnone, hnone'⟩ := not_or.mp htold
      have hwhole := honest.whole (by rw [hshut]; simpa using ⟨rfl, hnone⟩)
        (by rw [hgone]; simpa using ⟨rfl, hnone'⟩)
      rw [Reader.finish_done hdone, List.append_nil] at hwhole
      exact .inl hwhole
  · rw [entered_append, entered_of_shutDown more (by rw [hshut]; simpa using .inr htold),
      List.append_nil]
  · obtain ⟨n, hn⟩ := exists_returned _ (f := f.after moves) rfl (by rw [hcapacity]; exact hcap)
      (by rw [hcapacity]; exact hroom)
    exact ⟨n, by rw [after_append]; exact hn⟩

/-- A reader of three lines waits with its second record at a full channel when it is told
to shut down. There would be room when it is run again, and yet the record is lost; it
returns that it has sent one event. -/
theorem entered_in_order_waiting :
    let f := start (.ofSettings ⟨"lines", 1, none, none⟩ 0) [97, 10, 98, 10, 99, 10] 1
    let moves : List Move := [.reader, .reader, .reader, .reader, .shutdown, .receive, .reader]
    let first : Record := ⟨"1", [f.reader.source.event 1 ['a']]⟩
    1 ≤ 1 ∧ f.entered moves = [first] ∧ (f.after moves).result? = some 1 ∧
      [first] <+: f.reader.source.records [97, 10, 98, 10, 99, 10] := by
  intro f moves first
  have hentered : f.entered moves = [first] := by
    have hone : toString 1 = "1" := by decide
    show [(⟨toString 1, _⟩ : Record)] = _
    rw [hone]
    rfl
  have hresult : (f.after moves).result? = some 1 := rfl
  have hahead := (entered_in_order ⟨"lines", 1, none, none⟩ 0 [97, 10, 98, 10, 99, 10] 1
    (Nat.le_refl 1) moves).1
  exact ⟨Nat.le_refl 1, hentered, hresult, hentered ▸ hahead⟩

end Feed

end Courier
