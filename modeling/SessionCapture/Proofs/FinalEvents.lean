import Mathlib.Tactic.Abel
import SessionCapture.Proofs.FixedChunks
import SessionCapture.Proofs.Overlay
import SessionCapture.Proofs.Recordings

/-!
# Captures that end in their events

If a capture is one section whose last buffer alone holds events, what is shown
of the events follows what is shown of everything else.  So the events can be
interpreted by themselves: the decode shows their lines last, and what they
count over events without meaning is added to what the items count.
-/

namespace SessionCapture

namespace Presentation

variable {supported : UInt16} {human : Bool} {context : Context}

theorem contextAfter_of_noEvents {items : List Item}
    (noEvents : ∀ item ∈ items, item.event? = none) :
    contextAfter ⟨supported, true, human⟩ context items = context := by
  induction items with
  | nil => rfl
  | cons item items induction =>
      obtain ⟨first, later⟩ := List.forall_mem_cons.mp noEvents
      change contextAfter _ (ofItem _ context item).2 items = context
      rw [ofItem_of_noEvent first]
      exact induction later

theorem sum_counts_events (events : List Event) :
    ((events.map Item.event).map Item.counts).sum =
      { events := events.length } := by
  refine sum_counts_map .event { events := 1 }
    (fun count => { events := count }) (fun _ => rfl) rfl ?_ events
  intro count
  simp only [Counts.add_def, UInt32.add_zero, Nat.add_comm]

/-- Events after other items are shown after them.  If they count `extra` over
what they count without interpretation, so do all the items. -/
theorem ofItems_lastEvents {items front : List Item} {events : List Event}
    {lines : List Line} {extra : Counts}
    (split : items =
      front ++ (events.map .event ++ [.bufferEnd, .sectionEnd]))
    (noEvents : ∀ item ∈ front, item.event? = none)
    (told : ofItems ⟨supported, true, human⟩ context (events.map .event) =
      ⟨lines, { events := events.length } + extra, none⟩) :
    ofItems ⟨supported, true, human⟩ context items =
      ⟨front.flatMap (Item.lines human) ++ lines,
        (items.map Item.counts).sum + extra, none⟩ := by
  have ends : ∀ item ∈ [Item.bufferEnd, .sectionEnd], item.event? = none := by
    decide
  rw [split, ofItems_append, contextAfter_of_noEvents noEvents,
    ofItems_append, told, ← sum_counts_events,
    ofItems_of_noEvents _ _ noEvents, ofItems_of_noEvents _ _ ends]
  simp only [followedBy, raw, List.map_append, List.sum_append]
  congr 1
  · exact congrArg _ (List.append_nil lines)
  · abel

end Presentation

theorem event?_of_mem_notes {notes : List Note} :
    ∀ item ∈ notes.map Item.note, item.event? = none := by
  intro item member
  obtain ⟨note, _, rfl⟩ := List.mem_map.mp member
  rfl

/-- Buffers without events, and then one that holds nothing else. -/
theorem BufferFrame.exists_front {earlier : List BufferFrame}
    {last : BufferFrame} {events : List Event}
    (noEvents : ∀ buffer ∈ earlier, ∀ index, ∀ item ∈ buffer.records index,
      item.event? = none)
    (holds : ∀ index, last.records index = events.map .event)
    (index offset : Nat) :
    ∃ front, (∀ item ∈ front, item.event? = none) ∧
      laidOut (·.bytes.length) items index offset (earlier ++ [last]) =
        front ++ (events.map .event ++ [.bufferEnd]) := by
  induction earlier generalizing index offset with
  | nil =>
      refine ⟨(last.notes index offset).map .note, event?_of_mem_notes, ?_⟩
      rw [List.nil_append, laidOut, items, holds, laidOut]
      simp only [List.append_nil]
  | cons buffer earlier induction =>
      obtain ⟨here, later⟩ := List.forall_mem_cons.mp noEvents
      obtain ⟨front, rest, same⟩ :=
        induction later (index + 1) (offset + buffer.bytes.length)
      refine ⟨buffer.items index offset ++ front, ?_, ?_⟩
      · rw [items]
        simp only [List.forall_mem_append, List.forall_mem_singleton]
        exact ⟨⟨event?_of_mem_notes, here index, rfl⟩, rest⟩
      · rw [List.cons_append, laidOut, same]
        simp only [List.append_assoc]

namespace CaptureFrame

variable {frame : CaptureFrame} {only : SectionFrame}

/-- A capture of one section is told of by notes, its buffers and its end. -/
theorem exists_notes (one : frame.sections = [only]) :
    ∃ notes : List Note, frame.items = notes.map .note ++
      (laidOut (·.bytes.length) BufferFrame.items 0
        (headerSize + only.headerSize) only.buffers ++ [.sectionEnd]) := by
  refine ⟨[.fileVersion frame.version, .sessionId frame.sessionId,
    .sectionCount frame.sectionCount, .sectionVersion only.version,
    .sectionId only.id, .registerCount only.registerCount] ++
      only.registers.mapIdx .register ++ [.bufferCount only.bufferCount], ?_⟩
  rw [items, one, laidOut, laidOut, List.append_nil, SectionFrame.items,
    mapIdx_register]
  simp only [List.map_append, List.append_assoc]
  rfl

theorem sum_counts_items (one : frame.sections = [only]) :
    (frame.items.map Item.counts).sum =
      ((laidOut (·.bytes.length) BufferFrame.items 0
        (headerSize + only.headerSize) only.buffers).map Item.counts).sum +
          { sections := 1 } := by
  obtain ⟨notes, items⟩ := exists_notes one
  rw [items, List.map_append, List.sum_append, sum_counts_notes,
    Counts.zero_add, List.map_append, List.sum_append]
  rfl

/-- A capture of one section, the last buffer of which holds its events, is
decoded to the end if the events are told without an unknown one. -/
theorem decode_lastEvents {earlier : List BufferFrame} {last : BufferFrame}
    {events : List Event} {human : Bool} {lines : List Line} {extra : Counts}
    (one : frame.sections = [only]) (split : only.buffers = earlier ++ [last])
    (noEvents : ∀ buffer ∈ earlier, ∀ index, ∀ item ∈ buffer.records index,
      item.event? = none)
    (holds : ∀ index, last.records index = events.map .event)
    (told : Presentation.ofItems ⟨frame.version, true, human⟩ (.fresh .builtin)
        (events.map .event) =
      ⟨lines, { events := events.length } + extra, none⟩) :
    ∃ opening, (∀ line ∈ opening, line.isEvent = false) ∧
      decode .capture ⟨frame.version, true, human⟩ frame.bytes =
        .finished ⟨opening ++ lines,
          (frame.items.map Item.counts).sum + extra, none⟩
          frame.rest.length := by
  obtain ⟨notes, items⟩ := exists_notes one
  obtain ⟨front, plain, body⟩ := BufferFrame.exists_front noEvents holds 0
    (headerSize + only.headerSize)
  have before : ∀ item ∈ notes.map .note ++ front, item.event? = none :=
    List.forall_mem_append.mpr ⟨event?_of_mem_notes, plain⟩
  have parted : frame.items = (notes.map .note ++ front) ++
      (events.map .event ++ [.bufferEnd, .sectionEnd]) := by
    rw [items, split, body]
    simp only [List.append_assoc, List.singleton_append]
  have traced := Format.trace_frame frame
  have shown : interpretedItems .capture frame.version human frame.bytes =
      ⟨(notes.map Item.note ++ front).flatMap (Item.lines human) ++ lines,
        (frame.items.map Item.counts).sum + extra, none⟩ := by
    rw [interpretedItems, traced]
    exact Presentation.ofItems_lastEvents parted before told
  refine ⟨(notes.map Item.note ++ front).flatMap (Item.lines human), ?_, ?_⟩
  · intro line member
    obtain ⟨item, among, own⟩ := List.mem_flatMap.mp member
    exact Item.isEvent_lines (before item among) line own
  · rw [decode_of_notStopped (by rw [shown]), shown, traced]
    rfl

end CaptureFrame

theorem RecordedBuffer.event?_of_mem_records {buffer : RecordedBuffer}
    (noEvents : buffer.records.events = []) (index : Nat) :
    ∀ item ∈ buffer.frame.records index, item.event? = none := by
  obtain ⟨records, wordsFit⟩ := buffer
  rw [records_frame]
  intro item member
  cases records with
  | telemetry movements =>
      obtain ⟨movement, _, rfl⟩ := List.mem_map.mp member
      rfl
  | action clicks =>
      obtain ⟨click, _, rfl⟩ := List.mem_map.mp member
      rfl
  | event events =>
      cases noEvents
      cases member

end SessionCapture
