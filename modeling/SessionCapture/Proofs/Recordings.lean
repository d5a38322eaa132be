import SessionCapture.Proofs.Acceptance
import SessionCapture.Proofs.WholeRecords

/-!
# Decoding undoes writing

A recording is what a capture is written from: sections of registers and buffers
of whole records.  Nothing in it is too long for the field that counts it.
Decoding the capture tells the recording: every field, register and record in
order, each buffer at the offset where it stands, and nothing cut short.
-/

namespace SessionCapture

structure RecordedEvent where
  timestamp : UInt32
  x : UInt16
  y : UInt16
  tag : UInt16
  payload : List UInt16
  payloadFits : payload.length < 2 ^ 16

namespace RecordedEvent

def event (recorded : RecordedEvent) : Event where
  header := ⟨recorded.timestamp, recorded.x, recorded.y, recorded.tag,
    recorded.payload.length.toUInt16⟩
  payload := recorded.payload

def lines (recorded : RecordedEvent) : List Line :=
  .event recorded.event.header ::
    recorded.payload.mapIdx fun index word =>
      .data recorded.timestamp index word

end RecordedEvent

/-- The records of one buffer. -/
inductive Records where
  | telemetry (movements : List Movement)
  | action (clicks : List Click)
  | event (events : List RecordedEvent)

namespace Records

def plan : Records → BufferPlan
  | telemetry movements => .telemetry movements
  | action clicks => .actions clicks
  | event events => .events (events.map RecordedEvent.event)

def lines : Records → List Line
  | telemetry movements => movements.map .movement
  | action clicks => clicks.map .click
  | event events => events.flatMap RecordedEvent.lines

def movements : Records → List Movement
  | telemetry movements => movements
  | _ => []

def clicks : Records → List Click
  | action clicks => clicks
  | _ => []

def events : Records → List RecordedEvent
  | event events => events
  | _ => []

end Records

structure RecordedBuffer where
  records : Records
  wordsFit : records.plan.words.length < 2 ^ 32

structure RecordedSection where
  version : UInt16
  id : UInt16
  registers : List UInt16
  buffers : List RecordedBuffer
  registersFit : registers.length < 2 ^ 32
  buffersFit : buffers.length < 2 ^ 32

structure Recording where
  version : UInt16
  sessionId : UInt16
  sections : List RecordedSection
  trailing : List UInt8
  sectionsFit : sections.length < 2 ^ 32

namespace RecordedBuffer

def plan (buffer : RecordedBuffer) : BufferPlan :=
  buffer.records.plan

def lines (index offset : Nat) (buffer : RecordedBuffer) : List Line :=
  [.notice s!"Buffer({index}) File Offset:{Numeral.hex 2 offset}",
    .notice s!"Buffer Type({index}):{buffer.plan.tag}",
    .notice s!"Buffer({index}) Length:{buffer.plan.words.length}"] ++
    buffer.records.lines

end RecordedBuffer

namespace RecordedSection

def plan (recorded : RecordedSection) : SectionPlan where
  id := recorded.id
  version := recorded.version
  registers := recorded.registers
  buffers := recorded.buffers.map RecordedBuffer.plan

def lines (offset : Nat) (recorded : RecordedSection) : List Line :=
  [.notice s!"Section Format Version:{recorded.version}",
      .notice s!"Section ID:{recorded.id}",
      .notice s!"Register Count:{recorded.registers.length}"] ++
    (recorded.registers.mapIdx fun index value =>
      .notice s!"Register({index}):{value}") ++
    .notice s!"Buffers Count:{recorded.buffers.length}" ::
      laidOut (·.plan.bytes.length) RecordedBuffer.lines 0
        (offset + (Wire.bytes recorded.plan.header).length) recorded.buffers

end RecordedSection

namespace Recording

def plan (recording : Recording) : CapturePlan where
  version := recording.version
  sessionId := recording.sessionId
  sections := recording.sections.map RecordedSection.plan
  trailing := recording.trailing

def lines (recording : Recording) : List Line :=
  [.notice s!"File Format Version:{recording.version}",
      .notice s!"Session ID:{recording.sessionId}",
      .notice s!"Section Count:{recording.sections.length}"] ++
    laidOut (·.plan.bytes.length) (fun _ => RecordedSection.lines) 0
      (Wire.bytes recording.plan.header).length recording.sections ++
    Transcript.leftover recording.trailing

def buffers (recording : Recording) : List RecordedBuffer :=
  recording.sections.flatMap (·.buffers)

def report (recording : Recording) : Report where
  sections := .ofNat recording.sections.length
  buffers := .ofNat recording.buffers.length
  movements := (recording.buffers.flatMap (·.records.movements)).length
  clicks := (recording.buffers.flatMap (·.records.clicks)).length
  events := (recording.buffers.flatMap (·.records.events)).length
  trailingBytes := some recording.trailing.length

end Recording

/-! ## The frame of a recording -/

private theorem toNat_toUInt32 {count : Nat} (fits : count < 2 ^ 32) :
    count.toUInt32.toNat = count := by
  rw [Nat.toUInt32_eq]
  exact UInt32.toNat_ofNat_of_lt' fits

namespace RecordedBuffer

theorem known_tag (buffer : RecordedBuffer) :
    buffer.plan.tag = 1 ∨ buffer.plan.tag = 2 ∨ buffer.plan.tag = 3 := by
  obtain ⟨records, wordsFit⟩ := buffer
  cases records with
  | telemetry movements => exact .inl rfl
  | action clicks => exact .inr (.inl rfl)
  | event events => exact .inr (.inr rfl)

theorem length_words_lt (buffer : RecordedBuffer) :
    buffer.plan.words.length < 2 ^ 32 :=
  buffer.wordsFit

theorem length_plan (buffer : RecordedBuffer) :
    buffer.plan.length = buffer.plan.words.length.toUInt32 := by
  obtain ⟨records, wordsFit⟩ := buffer
  cases records <;> rfl

def frame (buffer : RecordedBuffer) : BufferFrame where
  tag := buffer.plan.tag
  length := buffer.plan.words.length.toUInt32
  contents := Wire.bytes buffer.plan.words
  known := buffer.known_tag
  filled := by
    rw [Wire.length_bytes, toNat_toUInt32 buffer.length_words_lt]

theorem bytes_frame (buffer : RecordedBuffer) :
    buffer.frame.bytes = buffer.plan.bytes := by
  rw [BufferPlan.bytes, Wire.bytes_append, length_plan]
  rfl

end RecordedBuffer

namespace RecordedSection

def frame (recorded : RecordedSection) : SectionFrame where
  version := recorded.version
  reserved := 0
  id := recorded.id
  registerCount := recorded.registers.length.toUInt32
  registers := recorded.registers
  bufferCount := recorded.buffers.length.toUInt32
  buffers := recorded.buffers.map RecordedBuffer.frame
  registersCounted := (toNat_toUInt32 recorded.registersFit).symm
  buffersCounted := by
    rw [List.length_map, toNat_toUInt32 recorded.buffersFit]

theorem bytes_frame (recorded : RecordedSection) :
    recorded.frame.bytes = recorded.plan.bytes := by
  have buffers : recorded.frame.buffers.flatMap BufferFrame.bytes =
      recorded.plan.buffers.flatMap BufferPlan.bytes := by
    simp only [frame, plan, List.flatMap_map, RecordedBuffer.bytes_frame]
  rw [SectionFrame.bytes, buffers, SectionPlan.bytes, SectionPlan.header]
  simp only [frame, plan, Wire.bytes_append, List.append_assoc,
    List.length_map]

theorem headerSize_frame (recorded : RecordedSection) :
    recorded.frame.headerSize =
      (Wire.bytes recorded.plan.header).length := by
  simp only [SectionFrame.headerSize, SectionPlan.header, frame, plan,
    Wire.length_bytes, List.length_append, List.length_cons, List.length_nil,
    Wire.length_splitDword]
  omega

end RecordedSection

namespace Recording

def frame (recording : Recording) : CaptureFrame where
  version := recording.version
  reserved := 0
  sessionId := recording.sessionId
  sectionCount := recording.sections.length.toUInt32
  sections := recording.sections.map RecordedSection.frame
  rest := recording.trailing
  sectionsCounted := by
    rw [List.length_map, toNat_toUInt32 recording.sectionsFit]

theorem bytes_frame (recording : Recording) :
    recording.frame.bytes = recording.plan.bytes := by
  have sections : recording.frame.sections.flatMap SectionFrame.bytes =
      recording.plan.sections.flatMap SectionPlan.bytes := by
    simp only [frame, plan, List.flatMap_map, RecordedSection.bytes_frame]
  have count : recording.plan.sectionCount =
      recording.sections.length.toUInt32 := by
    change (recording.sections.map RecordedSection.plan).length.toUInt32 = _
    rw [List.length_map]
  rw [CaptureFrame.bytes, sections, CapturePlan.bytes, CapturePlan.header,
    count]
  simp only [frame, plan, Wire.bytes_append, List.append_assoc]

/-- The walk of what a recording was written as. -/
theorem trace_plan (recording : Recording) :
    Format.capture.trace recording.version recording.plan.bytes =
      ⟨recording.frame.items,
        .ok ⟨CaptureFrame.headerSize +
          (recording.frame.sections.flatMap SectionFrame.bytes).length,
            recording.trailing⟩⟩ := by
  rw [← recording.bytes_frame]
  exact Format.trace_frame recording.frame

end Recording

/-! ## What the frame tells -/

namespace Records

def items : Records → List Item
  | telemetry movements => movements.map .movement
  | action clicks => clicks.map .click
  | event events => events.map fun recorded => .event recorded.event

end Records

theorem RecordedEvent.counted (recorded : RecordedEvent) :
    recorded.event.Counted := by
  change recorded.payload.length.toUInt16.toNat = recorded.payload.length
  rw [Nat.toUInt16_eq]
  exact UInt16.toNat_ofNat_of_lt' recorded.payloadFits

theorem RecordedBuffer.records_frame (index : Nat) (buffer : RecordedBuffer) :
    buffer.frame.records index = buffer.records.items := by
  obtain ⟨records, wordsFit⟩ := buffer
  unfold BufferFrame.records
  cases records with
  | telemetry movements =>
      change (some (movementItems _)).getD [] = _
      exact movementItems_bytes movements
  | action clicks =>
      change (some (clickItems _)).getD [] = _
      exact clickItems_bytes clicks
  | event events =>
      have counted : ∀ event ∈ events.map RecordedEvent.event,
          event.Counted := by
        intro event member
        obtain ⟨recorded, _, rfl⟩ := List.mem_map.mp member
        exact recorded.counted
      have read := eventItems_bytes index counted
      rw [List.map_map] at read
      exact read

theorem RecordedEvent.lines_event (recorded : RecordedEvent) :
    recorded.event.lines = recorded.lines := by
  rw [Event.lines, lines, List.mapIdx_eq_zipIdx_map]
  rfl

theorem Records.lines_items (records : Records) :
    records.items.flatMap (Item.lines false) = records.lines := by
  cases records with
  | telemetry movements =>
      rw [items, lines, List.flatMap_map, List.map_eq_flatMap]
      rfl
  | action clicks =>
      rw [items, lines, List.flatMap_map, List.map_eq_flatMap]
      rfl
  | event events =>
      rw [items, lines, List.flatMap_map]
      simp only [Item.lines_event, RecordedEvent.lines_event]

private theorem toString_toUInt32 {count : Nat} (fits : count < 2 ^ 32) :
    toString count.toUInt32 = toString count := by
  change toString count.toUInt32.toNat = toString count
  rw [toNat_toUInt32 fits]

private theorem flatMap_notes (notes : List Note) :
    (notes.map Item.note).flatMap (Item.lines false) =
      notes.map fun found => .notice found.text := by
  rw [List.flatMap_map, List.map_eq_flatMap]
  rfl

theorem RecordedBuffer.lines_frame (index offset : Nat)
    (buffer : RecordedBuffer) :
    (buffer.frame.items index offset).flatMap (Item.lines false) =
      buffer.lines index offset := by
  have length : (Note.bufferLength index buffer.frame.length).text =
      s!"Buffer({index}) Length:{buffer.plan.words.length}" := by
    change s!"Buffer({index}) Length:{buffer.plan.words.length.toUInt32}" = _
    rw [toString_toUInt32 buffer.length_words_lt]
  rw [BufferFrame.items, List.flatMap_append, List.flatMap_append,
    flatMap_notes, records_frame, Records.lines_items, List.flatMap_singleton,
    Item.lines_bufferEnd, List.append_nil, lines, ← length]
  rfl

theorem RecordedSection.lines_frame (offset : Nat)
    (recorded : RecordedSection) :
    (recorded.frame.items offset).flatMap (Item.lines false) =
      recorded.lines offset := by
  have registerCount : (Note.registerCount recorded.frame.registerCount).text =
      s!"Register Count:{recorded.registers.length}" := by
    change s!"Register Count:{recorded.registers.length.toUInt32}" = _
    rw [toString_toUInt32 recorded.registersFit]
  have bufferCount : (Note.bufferCount recorded.frame.bufferCount).text =
      s!"Buffers Count:{recorded.buffers.length}" := by
    change s!"Buffers Count:{recorded.buffers.length.toUInt32}" = _
    rw [toString_toUInt32 recorded.buffersFit]
  have registers : ((recorded.frame.registers.mapIdx fun index value =>
      Item.note (.register index value)).flatMap (Item.lines false)) =
        recorded.registers.mapIdx fun index value =>
          .notice s!"Register({index}):{value}" := by
    rw [List.mapIdx_eq_zipIdx_map, List.mapIdx_eq_zipIdx_map,
      List.flatMap_map, List.map_eq_flatMap]
    rfl
  have buffers : (laidOut (fun buffer => buffer.bytes.length)
      BufferFrame.items 0 (offset + recorded.frame.headerSize)
        recorded.frame.buffers ++ [Item.sectionEnd]).flatMap
          (Item.lines false) =
      laidOut (·.plan.bytes.length) RecordedBuffer.lines 0
        (offset + (Wire.bytes recorded.plan.header).length)
        recorded.buffers := by
    rw [List.flatMap_append, List.flatMap_singleton, Item.lines_sectionEnd,
      List.append_nil, flatMap_laidOut, headerSize_frame]
    apply laidOut_map
    · intro buffer
      rw [buffer.bytes_frame]
    · intro index offset buffer
      exact buffer.lines_frame index offset
  rw [SectionFrame.items, List.flatMap_append, List.flatMap_append, registers,
    lines, ← registerCount, ← bufferCount, ← buffers]
  rfl

theorem Recording.lines_frame (recording : Recording) :
    recording.frame.items.flatMap (Item.lines false) ++
        Transcript.leftover recording.trailing =
      recording.lines := by
  have count : (Note.sectionCount recording.frame.sectionCount).text =
      s!"Section Count:{recording.sections.length}" := by
    change s!"Section Count:{recording.sections.length.toUInt32}" = _
    rw [toString_toUInt32 recording.sectionsFit]
  have sections : (laidOut (·.bytes.length) (fun _ => SectionFrame.items) 0
      CaptureFrame.headerSize recording.frame.sections).flatMap
        (Item.lines false) =
      laidOut (·.plan.bytes.length) (fun _ => RecordedSection.lines) 0
        (Wire.bytes recording.plan.header).length recording.sections := by
    rw [flatMap_laidOut]
    apply laidOut_map
    · intro recorded
      rw [recorded.bytes_frame]
    · intro _ offset recorded
      exact recorded.lines_frame offset
  rw [CaptureFrame.items, List.flatMap_append, sections, lines, ← count]
  rfl

/-! ## What the frame counts -/

/-- The counts of so many sections that hold these buffers. -/
def RecordedBuffer.totals (sections : Nat) (buffers : List RecordedBuffer) :
    Counts where
  sections := .ofNat sections
  buffers := .ofNat buffers.length
  movements := (buffers.flatMap (·.records.movements)).length
  clicks := (buffers.flatMap (·.records.clicks)).length
  events := (buffers.flatMap (·.records.events)).length

theorem RecordedBuffer.totals_add (sections moreSections : Nat)
    (buffers moreBuffers : List RecordedBuffer) :
    totals sections buffers + totals moreSections moreBuffers =
      totals (sections + moreSections) (buffers ++ moreBuffers) := by
  simp only [totals, Counts.add_def, List.flatMap_append, List.length_append,
    UInt32.ofNat_add, UInt32.add_zero]

/-- Items that each count the same amount to a total that grows by it. -/
theorem sum_counts_map {α : Type} (item : α → Item) (each : Counts)
    (total : Nat → Counts) (same : ∀ element, (item element).counts = each)
    (zero : total 0 = 0)
    (succ : ∀ count, each + total count = total (count + 1))
    (elements : List α) :
    ((elements.map item).map Item.counts).sum = total elements.length := by
  induction elements with
  | nil => exact zero.symm
  | cons element elements induction =>
      rw [List.map_cons, List.map_cons, List.sum_cons, same, induction, succ,
        List.length_cons]

theorem sum_counts_notes (notes : List Note) :
    ((notes.map Item.note).map Item.counts).sum = 0 :=
  sum_counts_map .note 0 (fun _ => 0) (fun _ => rfl) rfl (fun _ => rfl) notes

theorem Records.counts_items (records : Records) :
    (records.items.map Item.counts).sum =
      { movements := records.movements.length
        clicks := records.clicks.length
        events := records.events.length } := by
  cases records with
  | telemetry movements =>
      refine sum_counts_map .movement { movements := 1 }
        (fun count => { movements := count }) (fun _ => rfl) rfl ?_ movements
      intro count
      simp only [Counts.add_def, Nat.add_comm, UInt32.add_zero]
  | action clicks =>
      refine sum_counts_map .click { clicks := 1 }
        (fun count => { clicks := count }) (fun _ => rfl) rfl ?_ clicks
      intro count
      simp only [Counts.add_def, Nat.add_comm, UInt32.add_zero]
  | event events =>
      refine sum_counts_map (fun recorded => .event recorded.event)
        { events := 1 } (fun count => { events := count }) (fun _ => rfl) rfl
        ?_ events
      intro count
      simp only [Counts.add_def, Nat.add_comm, UInt32.add_zero]

/-- Elements told of one after another count what each of them counts. -/
private theorem sum_counts_laidOut {α β : Type} {size : β → Nat}
    {told : Nat → Nat → β → List Item} {stand : α → β} {total : α → Counts}
    (each : ∀ index offset element,
      ((told index offset (stand element)).map Item.counts).sum =
        total element)
    (index offset : Nat) (elements : List α) :
    ((laidOut size told index offset (elements.map stand)).map
      Item.counts).sum = (elements.map total).sum := by
  induction elements generalizing index offset with
  | nil => rfl
  | cons element elements induction =>
      rw [List.map_cons, laidOut, List.map_append, List.sum_append, each,
        induction, List.map_cons, List.sum_cons]

theorem RecordedBuffer.counts_frame (index offset : Nat)
    (buffer : RecordedBuffer) :
    ((buffer.frame.items index offset).map Item.counts).sum =
      totals 0 [buffer] := by
  have notes := sum_counts_notes (buffer.frame.notes index offset)
  have ending : ([Item.bufferEnd].map Item.counts).sum =
      { buffers := 1 } := rfl
  rw [BufferFrame.items, List.map_append, List.sum_append, notes,
    records_frame, List.map_append, List.sum_append, Records.counts_items,
    ending, Counts.zero_add]
  simp only [totals, Counts.add_def, List.flatMap_singleton, Nat.add_zero,
    UInt32.zero_add, UInt32.add_zero]
  rfl

theorem RecordedBuffer.sum_totals (buffers : List RecordedBuffer) :
    (buffers.map fun buffer => totals 0 [buffer]).sum = totals 0 buffers := by
  induction buffers with
  | nil => rfl
  | cons buffer buffers induction =>
      rw [List.map_cons, List.sum_cons, induction, totals_add]
      rfl

theorem RecordedSection.counts_frame (offset : Nat)
    (recorded : RecordedSection) :
    ((recorded.frame.items offset).map Item.counts).sum =
      RecordedBuffer.totals 1 recorded.buffers := by
  have registers : ((recorded.frame.registers.mapIdx fun index value =>
      Item.note (.register index value)).map Item.counts).sum = 0 := by
    rw [mapIdx_register]
    exact sum_counts_notes _
  have buffers : ((laidOut (fun buffer => buffer.bytes.length)
      BufferFrame.items 0 (offset + recorded.frame.headerSize)
        recorded.frame.buffers).map Item.counts).sum =
          RecordedBuffer.totals 0 recorded.buffers := by
    rw [← RecordedBuffer.sum_totals]
    apply sum_counts_laidOut
    intro index offset buffer
    exact buffer.counts_frame index offset
  have body : ((laidOut (fun buffer => buffer.bytes.length)
      BufferFrame.items 0 (offset + recorded.frame.headerSize)
        recorded.frame.buffers ++ [Item.sectionEnd]).map Item.counts).sum =
          RecordedBuffer.totals 1 recorded.buffers := by
    have ending : ([Item.sectionEnd].map Item.counts).sum =
        RecordedBuffer.totals 1 [] := rfl
    rw [List.map_append, List.sum_append, buffers, ending,
      RecordedBuffer.totals_add, List.append_nil]
  rw [SectionFrame.items, List.map_append, List.sum_append, List.map_append,
    List.sum_append, registers, ← body]
  change 0 + 0 + (0 + List.sum _) = _
  simp only [Counts.zero_add]

theorem RecordedSection.sum_totals (sections : List RecordedSection) :
    (sections.map fun recorded =>
        RecordedBuffer.totals 1 recorded.buffers).sum =
      RecordedBuffer.totals sections.length
        (sections.flatMap (·.buffers)) := by
  induction sections with
  | nil => rfl
  | cons recorded sections induction =>
      rw [List.map_cons, List.sum_cons, induction, RecordedBuffer.totals_add,
        List.length_cons, List.flatMap_cons, Nat.add_comm]

theorem Recording.counts_frame (recording : Recording) :
    (recording.frame.items.map Item.counts).sum =
      recording.report.toCounts := by
  have sections : ((laidOut (fun recorded => recorded.bytes.length)
      (fun _ => SectionFrame.items) 0 CaptureFrame.headerSize
        recording.frame.sections).map Item.counts).sum =
          recording.report.toCounts := by
    refine Eq.trans ?_ (RecordedSection.sum_totals recording.sections)
    apply sum_counts_laidOut
    intro _ offset recorded
    exact recorded.counts_frame offset
  rw [CaptureFrame.items, List.map_append, List.sum_append, sections]
  exact Counts.zero_add _

/-- Decoding what a recording was written as tells the recording.  The offsets
are those at which the buffers stand, the counts those of the recording, and
nothing is cut short or left over but the bytes that follow it. -/
theorem decode_recording (recording : Recording) :
    decode .capture { Options.raw with supportedVersion := recording.version }
        recording.plan.bytes =
      ⟨recording.lines, recording.report⟩ := by
  have decoded := decode_frame false recording.frame
  rw [recording.bytes_frame] at decoded
  have lines : (Transcript.finished (.raw false recording.frame.items)
      recording.frame.rest.length).lines = recording.lines := by
    rw [← recording.lines_frame, ← Transcript.closing_ok 0]
    rfl
  have report : (Transcript.finished (.raw false recording.frame.items)
      recording.frame.rest.length).report = recording.report := by
    change (⟨(recording.frame.items.map Item.counts).sum,
      some recording.trailing.length, none⟩ : Report) = _
    rw [recording.counts_frame]
    rfl
  change decode .capture ⟨recording.frame.version, false, false⟩ _ = _
  rw [decoded, ← lines, ← report]

end SessionCapture
