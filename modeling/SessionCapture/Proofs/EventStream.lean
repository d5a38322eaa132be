import SessionCapture.Proofs.Overlay
import SessionCapture.Proofs.Recordings

/-!
# Events alone decide what is told of events

An interpreter lives as long as a decode does: where one buffer or section ends
and the next begins is nothing to it, nor is a buffer of other records.  So what
an interpreting decode of a recording tells of events depends on the events of
the recording in order, and on nothing else.
-/

namespace SessionCapture

/-- Whether a line states an event or a word of its payload, says what it means,
or that a record is corrupt. -/
def Line.isOfEvent : Line → Bool
  | .event _ | .data _ _ _ | .human _ _ | .corrupt _ => true
  | _ => false

/-- Whether an item can be shown by such lines if only events are described. -/
def Item.isOfEvent : Item → Bool
  | .event _ | .corrupt _ => true
  | _ => false

namespace Presentation

/-- What a presentation tells of events, and how it stopped. -/
def eventPart (shown : Presentation) : Presentation where
  lines := shown.lines.filter Line.isOfEvent
  counts :=
    { events := shown.counts.events
      corruptRecords := shown.counts.corruptRecords
      advisories := shown.counts.advisories }
  fatal := shown.fatal

theorem eventPart_followedBy (first rest : Presentation) :
    (first.followedBy rest).eventPart =
      first.eventPart.followedBy rest.eventPart := by
  cases stopped : first.fatal with
  | some fatal => simp only [followedBy, eventPart, stopped]
  | none =>
      simp only [followedBy, eventPart, stopped, List.filter_append,
        Counts.add_def, Nat.add_zero, UInt32.add_zero]

variable {supported : UInt16}

theorem eventPart_ofItem {item : Item} (other : item.isOfEvent = false)
    (context : Context) :
    (ofItem ⟨supported, true, false⟩ context item).1.eventPart =
      ⟨[], 0, none⟩ := by
  cases item with
  | event event => cases other
  | corrupt fragment => cases other
  | _ => rfl

/-- Items of other records and of the container could as well be left out. -/
theorem eventPart_ofItems (context : Context) (items : List Item) :
    (ofItems ⟨supported, true, false⟩ context items).eventPart =
      (ofItems ⟨supported, true, false⟩ context
        (items.filter Item.isOfEvent)).eventPart := by
  induction items generalizing context with
  | nil => rfl
  | cons item items induction =>
      cases own : item.isOfEvent with
      | true =>
          rw [List.filter_cons_of_pos own, ofItems_cons, ofItems_cons,
            eventPart_followedBy, eventPart_followedBy, induction]
      | false =>
          have kept : (ofItem ⟨supported, true, false⟩ context item).2 =
              context := by
            cases item with
            | event event => cases own
            | _ => rfl
          rw [List.filter_cons_of_neg (by rw [own]; nofun), ofItems_cons,
            eventPart_followedBy, eventPart_ofItem own, kept, ← induction,
            followedBy, List.nil_append, Counts.zero_add]

end Presentation

/-! ## The events among the items of a recording -/

section LaidOut

variable {α β : Type} {size : α → Nat}

theorem filter_laidOut {told : Nat → Nat → α → List β} (keep : β → Bool)
    (index offset : Nat) (elements : List α) :
    (laidOut size told index offset elements).filter keep =
      laidOut size
        (fun index offset element =>
          (told index offset element).filter keep)
        index offset elements :=
  change_laidOut List.filter_nil (fun _ _ => List.filter_append _ _)
    index offset elements

/-- Elements of which the same is told wherever they stand. -/
theorem laidOut_of_anywhere {source : Type} {told : Nat → Nat → α → List β}
    {stand : source → α} {each : source → List β}
    (same : ∀ index offset element,
      told index offset (stand element) = each element)
    (index offset : Nat) (elements : List source) :
    laidOut size told index offset (elements.map stand) =
      elements.flatMap each := by
  induction elements generalizing index offset with
  | nil => rfl
  | cons element elements induction =>
      rw [List.map_cons, laidOut, same, induction, List.flatMap_cons]

end LaidOut

def RecordedEvent.item (recorded : RecordedEvent) : Item :=
  .event recorded.event

def RecordedSection.events (recorded : RecordedSection) :
    List RecordedEvent :=
  recorded.buffers.flatMap (·.records.events)

/-- The events of a recording in the order in which they stand in it. -/
def Recording.events (recording : Recording) : List RecordedEvent :=
  recording.sections.flatMap RecordedSection.events

theorem RecordedBuffer.events_items (index offset : Nat)
    (buffer : RecordedBuffer) :
    (buffer.frame.items index offset).filter Item.isOfEvent =
      buffer.records.events.map RecordedEvent.item := by
  have records : buffer.records.items.filter Item.isOfEvent =
      buffer.records.events.map RecordedEvent.item := by
    obtain ⟨records, wordsFit⟩ := buffer
    cases records with
    | telemetry movements =>
        apply List.filter_eq_nil_iff.mpr
        intro item member
        obtain ⟨movement, _, rfl⟩ := List.mem_map.mp member
        exact Bool.false_ne_true
    | action clicks =>
        apply List.filter_eq_nil_iff.mpr
        intro item member
        obtain ⟨click, _, rfl⟩ := List.mem_map.mp member
        exact Bool.false_ne_true
    | event events =>
        apply List.filter_eq_self.mpr
        intro item member
        obtain ⟨recorded, _, rfl⟩ := List.mem_map.mp member
        rfl
  rw [BufferFrame.items, List.filter_append, List.filter_append,
    RecordedBuffer.records_frame, records]
  exact List.append_nil _

theorem RecordedSection.events_items (offset : Nat)
    (recorded : RecordedSection) :
    (recorded.frame.items offset).filter Item.isOfEvent =
      recorded.events.map RecordedEvent.item := by
  have registers : (recorded.frame.registers.mapIdx fun index value =>
      Item.note (.register index value)).filter Item.isOfEvent = [] := by
    apply List.filter_eq_nil_iff.mpr
    intro item member
    obtain ⟨index, inside, rfl⟩ := List.mem_mapIdx.mp member
    exact Bool.false_ne_true
  have buffers : (laidOut (fun buffer => buffer.bytes.length)
      BufferFrame.items 0 (offset + recorded.frame.headerSize)
        recorded.frame.buffers).filter Item.isOfEvent =
          recorded.events.map RecordedEvent.item := by
    rw [filter_laidOut, RecordedSection.events, List.map_flatMap]
    apply laidOut_of_anywhere
    intro index offset buffer
    exact buffer.events_items index offset
  rw [SectionFrame.items, List.filter_append, List.filter_append, registers,
    ← buffers]
  change List.filter _ (_ ++ _) = _
  rw [List.filter_append]
  exact List.append_nil _

theorem Recording.events_items (recording : Recording) :
    recording.frame.items.filter Item.isOfEvent =
      recording.events.map RecordedEvent.item := by
  have sections : (laidOut (fun recorded => recorded.bytes.length)
      (fun _ => SectionFrame.items) 0 CaptureFrame.headerSize
        recording.frame.sections).filter Item.isOfEvent =
          recording.events.map RecordedEvent.item := by
    rw [filter_laidOut, Recording.events, List.map_flatMap]
    apply laidOut_of_anywhere
    intro _ offset recorded
    exact recorded.events_items offset
  rw [CaptureFrame.items, List.filter_append, sections]
  rfl

/-! ## Two recordings of the same events -/

namespace Transcript

/-- What a transcript tells of events, and how it was stopped. -/
def eventPart (transcript : Transcript) : Presentation :=
  Presentation.eventPart
    ⟨transcript.lines, transcript.report.toCounts, transcript.report.fatal⟩

theorem eventPart_stopped {shown : Presentation} {fatal : Fatal}
    (reason : shown.fatal = some fatal) :
    (stopped shown fatal).eventPart = shown.eventPart := by
  unfold eventPart stopped Presentation.eventPart
  rw [List.filter_append, reason]
  exact congrArg (Presentation.mk · _ _) (List.append_nil _)

theorem eventPart_finished {shown : Presentation} (goesOn : shown.fatal = none)
    (trailing : Nat) :
    (finished shown trailing).eventPart = shown.eventPart := by
  unfold eventPart finished Presentation.eventPart
  rw [List.filter_append, goesOn]
  refine congrArg (Presentation.mk · _ _) ?_
  split
  · exact List.append_nil _
  · exact List.append_nil _

end Transcript

/-- What an interpreting decode of a recording tells of events is what the
recorded events are shown as by themselves. -/
theorem Recording.eventPart_decode (recording : Recording) :
    (decode .capture ⟨recording.version, true, false⟩
        recording.plan.bytes).eventPart =
      (Presentation.ofItems ⟨recording.version, true, false⟩ (.fresh .builtin)
        (recording.events.map RecordedEvent.item)).eventPart := by
  have walked := recording.trace_plan
  have alone : (Presentation.ofItems ⟨recording.version, true, false⟩
      (.fresh .builtin) recording.frame.items).eventPart = _ :=
    Presentation.eventPart_ofItems _ _
  rw [recording.events_items] at alone
  have items : (Format.capture.trace recording.version
      recording.plan.bytes).items = recording.frame.items :=
    congrArg Trace.items walked
  rw [← alone, ← items]
  change _ = (interpretedItems .capture recording.version false
    recording.plan.bytes).eventPart
  cases ended : (interpretedItems .capture recording.version false
      recording.plan.bytes).fatal with
  | some fatal =>
      rw [decode_of_stopped ended, Transcript.eventPart_stopped ended]
  | none =>
      have reached : (Format.capture.trace recording.version
          recording.plan.bytes).result = .ok _ :=
        congrArg Trace.result walked
      rw [decode_of_notStopped ended, reached]
      exact Transcript.eventPart_finished ended _

/-- Two recordings of the same events are told of alike, in whatever buffers and
sections the events lie and whatever lies between them: what an interpreting
decode shows of events, counts of them and stops at is the same. -/
theorem event_output_of_events {supported : UInt16} {left right : Recording}
    (leftSupported : left.version = supported)
    (rightSupported : right.version = supported)
    (same : left.events = right.events) :
    (decode .capture ⟨supported, true, false⟩ left.plan.bytes).eventPart =
      (decode .capture ⟨supported, true, false⟩
        right.plan.bytes).eventPart := by
  have leftAlone := left.eventPart_decode
  have rightAlone := right.eventPart_decode
  rw [leftSupported] at leftAlone
  rw [rightSupported] at rightAlone
  rw [leftAlone, rightAlone, same]

namespace RecordedEvent

/-- A controller is reset. -/
def reset : RecordedEvent where
  timestamp := 10
  x := 0
  y := 0
  tag := 47
  payload := ControlReset.payload
    ⟨⟨1, 10, 1⟩, "grid", "random", ControlReset.defaultGeometry⟩
  payloadFits := by decide

/-- A secret is made under the parameters of the reset. -/
def secret : RecordedEvent where
  timestamp := 20
  x := 0
  y := 0
  tag := 11
  payload := [1, 8]
  payloadFits := by decide

end RecordedEvent

namespace Recording

/-- A reset and a secret in one buffer. -/
def together : Recording where
  version := 1
  sessionId := 5
  sections :=
    [{ version := 1
       id := 0
       registers := []
       buffers := [⟨.event [.reset, .secret], by decide⟩]
       registersFit := by decide
       buffersFit := by decide }]
  trailing := []
  sectionsFit := by decide

/-- The two in sections of their own, with other records between them. -/
def apart : Recording where
  version := 1
  sessionId := 6
  sections :=
    [{ version := 1
       id := 0
       registers := [3]
       buffers :=
         [⟨.event [.reset], by decide⟩, ⟨.telemetry [⟨15, 7, 9⟩], by decide⟩]
       registersFit := by decide
       buffersFit := by decide },
     { version := 1
       id := 1
       registers := []
       buffers :=
         [⟨.action [⟨16, 1, 2, 2, 0⟩], by decide⟩,
           ⟨.event [.secret], by decide⟩]
       registersFit := by decide
       buffersFit := by decide }]
  trailing := [255]
  sectionsFit := by decide

theorem event_output_of_two_events :
    together.version = 1 ∧ apart.version = 1 ∧
    together.events = apart.events ∧
    (decode .capture ⟨1, true, false⟩ together.plan.bytes).eventPart =
      (decode .capture ⟨1, true, false⟩ apart.plan.bytes).eventPart :=
  ⟨rfl, rfl, rfl, event_output_of_events rfl rfl rfl⟩

end Recording

end SessionCapture
