import SessionCapture.Proofs.FinalEvents
import SessionCapture.Proofs.ResetSpellings
import SessionCapture.Proofs.Rounds
import SessionCapture.Workload

/-!
# Generated captures decode as designed

A session of any number of rounds is decoded without a complaint, each response
drawn from the challenge of its round.  In the other capture just the records
that were made corrupt count as such, one by its length and the others by their
meaning.
-/

namespace SessionCapture

theorem length_flatMap_of_sized {α β : Type} {form : α → List β} {size : Nat}
    (sized : ∀ element, (form element).length = size) (elements : List α) :
    (elements.flatMap form).length = size * elements.length := by
  rw [List.flatMap_def, length_flatten_of_sized, List.length_map]
  intro written member
  obtain ⟨element, _, rfl⟩ := List.mem_map.mp member
  exact sized element

/-! ## A session of rounds -/

namespace Workload

/-- What the reset at the start of a session configures. -/
def configuration : Configuration :=
  .of ⟨3, 9, 3⟩ .grid

def parameters : ControlReset :=
  controlReset 3 9 "grid" "random" 3

def resetEvent : Event :=
  eventAt 0 .controlReset parameters.payload

def resetTexts : List String :=
  "System reset with controller parameters:" :: parameters.report

def formEvent : Event :=
  eventAt 9999 .otherData (Text.words "age=42\nhand=right\n")

def formTexts : List String :=
  ["Form data:", "age=42", "hand=right"]

theorem step_resetEvent :
    (Context.fresh .builtin).step resetEvent.header.kind resetEvent.payload =
      (.ok (resetTexts.map .text),
        ⟨.builtin, .configured configuration, #[]⟩) := by
  have statable : parameters.Statable :=
    ⟨by decide, by decide, by decide, by decide, by decide, by decide⟩
  have parsed : ControlReset.parse parameters.payload = .ok parameters :=
    ControlReset.parse_eq_ok_iff.mpr
      ⟨statable, [], (List.append_nil _).symm⟩
  have reset : (Context.fresh .builtin).reset parameters.layout
      parameters.uiType =
        (⟨.builtin, .configured configuration, #[]⟩, none) := by
    decide
  have stepped := Context.step_controlReset (.fresh .builtin) parsed
  rw [reset, Option.toList_none, List.map_nil, List.append_nil] at stepped
  exact stepped

theorem step_formEvent (context : Context) :
    context.step formEvent.header.kind formEvent.payload =
      (.ok (formTexts.map .text), context) := by
  have told : formData formEvent.payload = formTexts.map .text := by
    decide
  change (Except.ok (formData formEvent.payload), context) = _
  rw [told]

theorem exists_tellsRound (round : Nat) :
    ∃ lines, configuration.TellsRound (roundEvents round) lines := by
  have drawable : configuration.grid.Drawable [1, 2, 3, 4, 5, 6, 7, 8, 9] 3 :=
    ⟨by decide, by decide, by decide, by decide⟩
  have held : ∀ digit ∈ [roundDigit round], digit.toNat < 9 / 3 := by
    intro digit member
    rw [List.mem_singleton.mp member]
    have value : (roundDigit round).toNat = round % 3 % 2 ^ 16 :=
      UInt16.toNat_ofNat'
    omega
  exact Configuration.exists_tellsRound rfl rfl rfl drawable held
    (List.cons_ne_nil _ _)

/-- All events of a session. -/
def sessionEvents (rounds : Nat) : List Event :=
  resetEvent :: ((List.range rounds).flatMap roundEvents ++ [formEvent])

theorem length_sessionEvents (rounds : Nat) :
    (sessionEvents rounds).length = 2 * rounds + 2 := by
  have each (round : Nat) : (roundEvents round).length = 2 := rfl
  rw [sessionEvents, List.length_cons, List.length_append,
    length_flatMap_of_sized each, List.length_range]
  rfl

/-- The events of a session are told one after another, the rounds in the
configuration that the reset leaves. -/
theorem ofItems_sessionEvents {lines : Nat → List Line}
    (told : ∀ round, configuration.TellsRound (roundEvents round) (lines round))
    (rounds : Nat) :
    Presentation.ofItems .full (.fresh .builtin)
        ((sessionEvents rounds).map .event) =
      ⟨resetEvent.told resetTexts ++
          ((List.range rounds).flatMap lines ++ formEvent.told formTexts),
        { events := (sessionEvents rounds).length }, none⟩ := by
  have configured : (Context.mk .builtin (.configured configuration)
      #[]).state = .configured configuration := rfl
  obtain ⟨next, _, shown⟩ := Configuration.ofItems_rounds 1 true configured told
    (List.range rounds)
  change Presentation.ofItems ⟨1, true, true⟩ _ (.event resetEvent ::
    List.map _ (_ ++ _)) = _
  rw [Presentation.ofItems_of_texts step_resetEvent, List.map_append, shown,
    List.map_singleton, Presentation.ofItems_of_texts (step_formEvent next),
    Presentation.ofItems_nil, List.length_range]
  have counts : ({ events := 1 } : Counts) +
      ({ events := 2 * rounds } + ({ events := 1 } + 0)) =
        { events := 2 * rounds + 2 } := by
    have total : 1 + (2 * rounds + 1) = 2 * rounds + 2 := by omega
    exact congrArg (fun events => ({ events } : Counts)) total
  rw [length_sessionEvents, ← counts]
  simp only [Presentation.followedBy, List.append_nil]

def recordedAt (timestamp : UInt32) (kind : EventKind) (payload : List UInt16)
    (payloadFits : payload.length < 2 ^ 16) : RecordedEvent :=
  ⟨timestamp, 7, 9, kind.tag, payload, payloadFits⟩

def recordedRound (round : Nat) : List RecordedEvent :=
  [recordedAt (roundStart round) .newChallenge [1, 2, 3, 4, 5, 6, 7, 8, 9]
      (by decide),
    recordedAt (roundStart round + 60) .submit [1, roundDigit round]
      (Nat.lt_of_sub_eq_succ rfl)]

def recordedEvents (rounds : Nat) : List RecordedEvent :=
  recordedAt 0 .controlReset resetEvent.payload (by decide) ::
    ((List.range rounds).flatMap recordedRound ++
      [recordedAt 9999 .otherData formEvent.payload (by decide)])

theorem map_event_recordedEvents (rounds : Nat) :
    (recordedEvents rounds).map RecordedEvent.event = sessionEvents rounds := by
  rw [recordedEvents, List.map_cons, List.map_append, List.map_flatMap]
  rfl

def telemetryBuffer (rounds : UInt16) : RecordedBuffer where
  records := .telemetry ((List.range rounds.toNat).flatMap roundMovements)
  wordsFit := by
    have each (movement : Movement) : movement.words.length = 4 := rfl
    have inRound (round : Nat) : (roundMovements round).length = 10 := rfl
    have bound := rounds.toNat_lt
    change (List.flatMap Movement.words _).length < _
    rw [length_flatMap_of_sized each, length_flatMap_of_sized inRound,
      List.length_range]
    omega

def actionBuffer (rounds : UInt16) : RecordedBuffer where
  records := .action ((List.range rounds.toNat).map roundClick)
  wordsFit := by
    have each (click : Click) : click.words.length = 6 := rfl
    have bound := rounds.toNat_lt
    change (List.flatMap Click.words _).length < _
    rw [length_flatMap_of_sized each, List.length_map, List.length_range]
    omega

def eventBuffer (rounds : UInt16) : RecordedBuffer where
  records := .event (recordedEvents rounds.toNat)
  wordsFit := by
    have reset : resetEvent.words.length = 38 := by decide
    have form : formEvent.words.length = 24 := by decide
    have inRound (round : Nat) :
        ((roundEvents round).flatMap Event.words).length = 23 := rfl
    have bound := rounds.toNat_lt
    change ((List.map RecordedEvent.event _).flatMap Event.words).length < _
    rw [map_event_recordedEvents, sessionEvents, List.flatMap_cons,
      List.flatMap_append, List.flatMap_assoc, List.flatMap_singleton,
      List.length_append, List.length_append, length_flatMap_of_sized inRound,
      List.length_range, reset, form]
    omega

def recordedSession (rounds : UInt16) : Recording where
  version := 1
  sessionId := 1
  sections :=
    [{ version := 1
       id := 1
       registers := [rounds, rounds, 0, 0, 0]
       buffers :=
         [telemetryBuffer rounds, actionBuffer rounds, eventBuffer rounds]
       registersFit := Nat.lt_of_sub_eq_succ rfl
       buffersFit := Nat.lt_of_sub_eq_succ rfl }]
  trailing := []
  sectionsFit := Nat.lt_of_sub_eq_succ rfl

theorem plan_recordedSession (rounds : UInt16) :
    (recordedSession rounds).plan = session rounds := by
  let numbers := List.range rounds.toNat
  exact congrArg (fun events => CapturePlan.mk 1 1
      [{ id := 1
         registers := [rounds, rounds, 0, 0, 0]
         buffers :=
          [.telemetry (numbers.flatMap roundMovements),
            .actions (numbers.map roundClick), .events events] }] none [])
    (map_event_recordedEvents rounds.toNat)

theorem report_recordedSession (rounds : UInt16) :
    (recordedSession rounds).report =
      { sections := 1
        buffers := 3
        movements := 10 * rounds.toNat
        clicks := rounds.toNat
        events := 2 * rounds.toNat + 2
        trailingBytes := some 0 } := by
  have movements :
      (recordedSession rounds).buffers.flatMap (·.records.movements) =
        (List.range rounds.toNat).flatMap roundMovements :=
    List.append_nil _
  have clicks : (recordedSession rounds).buffers.flatMap (·.records.clicks) =
      (List.range rounds.toNat).map roundClick :=
    List.append_nil _
  have events : (recordedSession rounds).buffers.flatMap (·.records.events) =
      recordedEvents rounds.toNat :=
    List.append_nil _
  have inRound (round : Nat) : (roundMovements round).length = 10 := rfl
  rw [Recording.report, movements, clicks, events,
    length_flatMap_of_sized inRound, List.length_map, List.length_range,
    ← List.length_map RecordedEvent.event, map_event_recordedEvents,
    length_sessionEvents]
  rfl

/-- The rounds of a session are told one after another, and no submission is
told of anywhere else. -/
theorem decode_session (rounds : UInt16) {lines : Nat → List Line}
    (told : ∀ round,
      configuration.TellsRound (roundEvents round) (lines round)) :
    ∃ before after : List Line,
      (∀ header, .event header ∈ before ++ after → header.kind ≠ .submit) ∧
      decode .capture .full (session rounds).bytes =
        ⟨before ++ (List.range rounds.toNat).flatMap lines ++ after,
          (recordedSession rounds).report⟩ := by
  let recording := recordedSession rounds
  let earlier := [(telemetryBuffer rounds).frame, (actionBuffer rounds).frame]
  let last := (eventBuffer rounds).frame
  have shown : Presentation.ofItems ⟨recording.frame.version, true, true⟩
      (.fresh .builtin) ((sessionEvents rounds.toNat).map .event) =
        ⟨_, { events := (sessionEvents rounds.toNat).length } + 0, none⟩ :=
    ofItems_sessionEvents told rounds.toNat
  have holds (index : Nat) : last.records index =
      (sessionEvents rounds.toNat).map .event := by
    rw [← map_event_recordedEvents, List.map_map]
    exact (eventBuffer rounds).records_frame index
  have noEvents : ∀ buffer ∈ earlier, ∀ index,
      ∀ item ∈ buffer.records index, item.event? = none := by
    intro buffer among index
    rcases List.mem_pair.mp among with rfl | rfl
    · exact RecordedBuffer.event?_of_mem_records rfl index
    · exact RecordedBuffer.event?_of_mem_records rfl index
  obtain ⟨opening, plain, decoded⟩ := CaptureFrame.decode_lastEvents
    (rfl : recording.frame.sections = [_]) (rfl : _ = earlier ++ [last])
    noEvents holds shown
  rw [recording.bytes_frame, plan_recordedSession, recording.counts_frame]
    at decoded
  refine ⟨opening ++ resetEvent.told resetTexts, formEvent.told formTexts,
    ?_, ?_⟩
  · intro header member
    rcases List.mem_append.mp member with front | form
    · rcases List.mem_append.mp front with early | reset
      · cases plain _ early
      · rw [Event.eq_header_of_mem_told reset]
        decide
    · rw [Event.eq_header_of_mem_told form]
      decide
  · refine Eq.trans decoded ?_
    change Transcript.mk (_ ++ []) _ = _
    rw [List.append_nil, ← List.append_assoc, ← List.append_assoc]
    rfl

/-! ## Records that are mostly corrupt -/

/-- A time sync of one word. -/
def syncEvent (number : UInt16) : Event :=
  eventAt (number.toUInt32 * 10) .timeSync [number]

def syncClick (number : UInt16) : Click :=
  ⟨number.toUInt32 * 10, number, number, 1, number % 9⟩

def numbers (records : UInt16) : List UInt16 :=
  (List.range records.toNat).map Nat.toUInt16

theorem length_numbers (records : UInt16) :
    (numbers records).length = records.toNat := by
  rw [numbers, List.length_map, List.length_range]

theorem ofItems_syncEvents (context : Context) (numbers : List UInt16) :
    ∃ lines, Presentation.ofItems .full context
        ((numbers.map syncEvent).map .event) =
      ⟨lines,
        { events := numbers.length, corruptRecords := numbers.length },
        none⟩ := by
  induction numbers with
  | nil => exact ⟨[], rfl⟩
  | cons number numbers induction =>
      obtain ⟨lines, later⟩ := induction
      have first : Presentation.ofItem .full context
          (.event (syncEvent number)) =
          (⟨(syncEvent number).lines ++
              [.corrupt (syncEvent number).header.fragment],
            { events := 1, corruptRecords := 1 }, none⟩, context) := rfl
      refine ⟨(syncEvent number).lines ++
        [.corrupt (syncEvent number).header.fragment] ++ lines, ?_⟩
      rw [List.map_cons, List.map_cons, Presentation.ofItems_cons, first, later,
        List.length_cons, Nat.add_comm]
      rfl

/-- Clicks and half of another. -/
def cutWords (records : UInt16) : List UInt16 :=
  ((numbers records).map syncClick).flatMap Click.words ++ [1, 0, 2]

def cutBuffer (records : UInt16) : BufferFrame where
  tag := 2
  length := (cutWords records).length.toUInt32
  contents := Wire.bytes (cutWords records)
  known := .inr (.inl rfl)
  filled := by
    have each (click : Click) : click.words.length = 6 := rfl
    have bound := records.toNat_lt
    have fits : (cutWords records).length < 2 ^ 32 := by
      rw [cutWords, List.length_append, length_flatMap_of_sized each,
        List.length_map, length_numbers]
      change _ + 3 < _
      omega
    rw [Wire.length_bytes, Nat.toUInt32_eq, UInt32.toNat_ofNat_of_lt' fits]

theorem bytes_cutBuffer (records : UInt16) :
    (cutBuffer records).bytes =
      BufferPlan.bytes ⟨2, cutWords records, none⟩ := by
  rw [BufferPlan.bytes, Wire.bytes_append]
  rfl

theorem records_cutBuffer (index : Nat) (records : UInt16) :
    (cutBuffer records).records index =
      ((numbers records).map syncClick).map .click ++
        [.corrupt ⟨.action, [1, 2]⟩] := by
  let clicks := (numbers records).map syncClick
  have whole : (Wire.bytes (clicks.flatMap Click.words)).length %
      Click.size = 0 := by
    have each (click : Click) : click.words.length = 6 := rfl
    rw [Wire.length_bytes, length_flatMap_of_sized each, ← Nat.mul_assoc]
    exact Nat.mul_mod_right 12 _
  have cut : pieces Click.size (Wire.bytes [1, 0, 2]) =
      [Wire.bytes [1, 0, 2]] :=
    pieces_of_length_le (by decide) (by decide)
  have told : Click.item (Wire.bytes [1, 0, 2]) =
      .corrupt ⟨.action, [1, 2]⟩ := by
    decide
  change clickItems (Wire.bytes (clicks.flatMap Click.words ++ [1, 0, 2])) = _
  rw [Wire.bytes_append, clickItems, pieces_append (by decide) whole, cut,
    List.map_append, List.map_singleton, told]
  exact congrArg (· ++ _) (clickItems_bytes clicks)

theorem counts_cutBuffer (index offset : Nat) (records : UInt16) :
    (((cutBuffer records).items index offset).map Item.counts).sum =
      { buffers := 1, clicks := records.toNat, corruptRecords := 1 } := by
  have clicks : ((((numbers records).map syncClick).map Item.click).map
      Item.counts).sum = { clicks := records.toNat } := by
    rw [← length_numbers records, ← List.length_map syncClick]
    exact Records.counts_items (.action _)
  have notes := sum_counts_notes ((cutBuffer records).notes index offset)
  rw [BufferFrame.items, records_cutBuffer, List.map_append, List.sum_append,
    notes, Counts.zero_add, List.map_append, List.sum_append, List.map_append,
    List.sum_append, clicks]
  rfl

def syncBuffer (records : UInt16) : RecordedBuffer where
  records := .event ((numbers records).map fun number =>
    recordedAt (number.toUInt32 * 10) .timeSync [number]
      (Nat.lt_of_sub_eq_succ rfl))
  wordsFit := by
    have each (number : UInt16) : (syncEvent number).words.length = 7 := rfl
    have bound := records.toNat_lt
    change (List.flatMap Event.words (List.map RecordedEvent.event
      (List.map _ _))).length < _
    rw [List.map_map, List.flatMap_map]
    change (List.flatMap (fun number => (syncEvent number).words) _).length < _
    rw [length_flatMap_of_sized each, length_numbers]
    omega

def corruptSection (records : UInt16) : SectionFrame where
  version := 1
  reserved := 0
  id := 1
  registerCount := 0
  registers := []
  bufferCount := 2
  buffers := [cutBuffer records, (syncBuffer records).frame]
  registersCounted := SectionFrame.noRegisters_counted
  buffersCounted := rfl

def corruptFrame (records : UInt16) : CaptureFrame where
  version := 1
  reserved := 0
  sessionId := 1
  sectionCount := 1
  sections := [corruptSection records]
  rest := []
  sectionsCounted := rfl

theorem plan_syncBuffer (records : UInt16) :
    (syncBuffer records).plan =
      .events ((numbers records).map syncEvent) := by
  change BufferPlan.events (List.map _ (List.map _ _)) = _
  rw [List.map_map]
  rfl

theorem bytes_corruptFrame (records : UInt16) :
    (corruptFrame records).bytes = (corrupt records).bytes := by
  have buffers : (corruptSection records).buffers.flatMap BufferFrame.bytes =
      [BufferPlan.mk 2 (cutWords records) none,
        .events ((numbers records).map syncEvent)].flatMap
          BufferPlan.bytes := by
    change _ ++ (_ ++ []) = _ ++ (_ ++ [])
    rw [bytes_cutBuffer, RecordedBuffer.bytes_frame, plan_syncBuffer]
  change Wire.bytes _ ++ ((Wire.bytes _ ++ (Wire.bytes _ ++ (Wire.bytes _ ++
    (corruptSection records).buffers.flatMap BufferFrame.bytes)) ++ []) ++ [])
      = _
  rw [buffers]
  rfl

theorem counts_corruptFrame (records : UInt16) :
    ((corruptFrame records).items.map Item.counts).sum =
      { sections := 1
        buffers := 2
        clicks := records.toNat
        events := records.toNat
        corruptRecords := 1 } := by
  have length : (syncBuffer records).records.events.length =
      records.toNat := by
    change (List.map _ _).length = _
    rw [List.length_map, length_numbers]
  have events (index offset : Nat) :
      (((syncBuffer records).frame.items index offset).map Item.counts).sum =
        { buffers := 1, events := records.toNat } := by
    rw [RecordedBuffer.counts_frame, ← length, RecordedBuffer.totals,
      List.flatMap_singleton, List.flatMap_singleton, List.flatMap_singleton]
    rfl
  have buffers (offset : Nat) : ((laidOut (·.bytes.length) BufferFrame.items 0
      offset [cutBuffer records, (syncBuffer records).frame]).map
        Item.counts).sum =
          { buffers := 2
            clicks := records.toNat
            events := records.toNat
            corruptRecords := 1 } := by
    rw [laidOut, laidOut, laidOut, List.append_nil, List.map_append,
      List.sum_append, counts_cutBuffer, events]
    simp only [Counts.add_def, Nat.zero_add, Nat.add_zero]
    rfl
  have one : (corruptFrame records).sections = [corruptSection records] := rfl
  rw [CaptureFrame.sum_counts_items one]
  change List.sum (List.map _ (laidOut _ _ _ _
    [cutBuffer records, (syncBuffer records).frame])) + _ = _
  rw [buffers]
  rfl

theorem report_decode_corrupt (records : UInt16) :
    (decode .capture .full (corrupt records).bytes).report =
      { sections := 1
        buffers := 2
        clicks := records.toNat
        events := records.toNat
        corruptRecords := records.toNat + 1
        trailingBytes := some 0 } := by
  let frame := corruptFrame records
  let events := (numbers records).map syncEvent
  have holds (index : Nat) : (syncBuffer records).frame.records index =
      events.map .event := by
    rw [RecordedBuffer.records_frame]
    change List.map _ (List.map _ _) = List.map _ (List.map _ _)
    rw [List.map_map, List.map_map]
    rfl
  have noEvents : ∀ buffer ∈ [cutBuffer records], ∀ index,
      ∀ item ∈ buffer.records index, item.event? = none := by
    intro buffer among index item member
    rw [List.mem_singleton.mp among, records_cutBuffer] at member
    rcases List.mem_append.mp member with whole | cut
    · obtain ⟨click, _, rfl⟩ := List.mem_map.mp whole
      rfl
    · rw [List.mem_singleton.mp cut]
      rfl
  obtain ⟨lines, told⟩ := ofItems_syncEvents (.fresh .builtin) (numbers records)
  have extra : ({ events := events.length
                  corruptRecords := events.length } : Counts) =
      { events := events.length } + { corruptRecords := events.length } := by
    simp only [Counts.add_def, Nat.zero_add, Nat.add_zero, UInt32.add_zero]
  have length : events.length = records.toNat := by
    rw [List.length_map, length_numbers]
  rw [← List.length_map syncEvent, extra] at told
  obtain ⟨opening, _, decoded⟩ := CaptureFrame.decode_lastEvents
    (rfl : frame.sections = [_]) (rfl : _ = [cutBuffer records] ++ [_])
    noEvents holds told
  rw [bytes_corruptFrame, counts_corruptFrame, length] at decoded
  change decode .capture .full _ = _ at decoded
  rw [decoded, Nat.add_comm]
  simp only [Counts.add_def, Transcript.finished]
  rfl

/-- The generated captures decode as designed, whatever their size.  A session
comes to its end with nothing amiss and nothing left over, and its transcript
tells of each round by a challenge and a response to it, both drawn.  In the
other capture the click cut short and every time sync count as corrupt. -/
theorem generated_captures_decode (size : UInt16) :
    let session := decode .capture .full (session size).bytes
    let corrupt := decode .capture .full (corrupt size).bytes
    session.report =
      { sections := 1
        buffers := 3
        movements := 10 * size.toNat
        clicks := size.toNat
        events := 2 * size.toNat + 2
        trailingBytes := some 0 } ∧
    (∃ (before after : List Line) (told : Nat → List Line),
      session.lines =
        before ++ (List.range size.toNat).flatMap told ++ after ∧
      (∀ round, configuration.TellsRound (roundEvents round) (told round)) ∧
      ∀ header, .event header ∈ before ++ after → header.kind ≠ .submit) ∧
    corrupt.report =
      { sections := 1
        buffers := 2
        clicks := size.toNat
        events := size.toNat
        corruptRecords := size.toNat + 1
        trailingBytes := some 0 } := by
  intro session corrupt
  choose told tells using exists_tellsRound
  obtain ⟨before, after, noSubmit, decoded⟩ := decode_session size tells
  refine ⟨?report, ⟨before, after, told, ?lines, tells, noSubmit⟩,
    report_decode_corrupt size⟩
  case report =>
    rw [← report_recordedSession]
    exact congrArg Transcript.report decoded
  case lines => exact congrArg Transcript.lines decoded

end Workload

end SessionCapture
