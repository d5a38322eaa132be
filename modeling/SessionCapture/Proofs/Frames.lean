import SessionCapture.Proofs.RecordItems
import SessionCapture.Proofs.WalkPrinciple

/-!
# The container grammar

A frame is a container taken apart: every word of its headers, and for each
buffer the bytes of its records, whatever they are.  Its counts and lengths
agree with what it holds.  `bytes` puts a frame together again.  No byte
sequence begins with two different frames, and a walk comes to its end exactly
on a sequence that begins with one, telling its notes.
-/

namespace SessionCapture

/-- A buffer of one of the three known kinds, with as many bytes as its length
declares. -/
@[ext]
structure BufferFrame where
  tag : UInt16
  length : UInt32
  contents : List UInt8
  known : tag = 1 ∨ tag = 2 ∨ tag = 3
  filled : contents.length = 2 * length.toNat

@[ext]
structure SectionFrame where
  version : UInt16
  reserved : UInt16
  id : UInt16
  registerCount : UInt32
  registers : List UInt16
  bufferCount : UInt32
  buffers : List BufferFrame
  registersCounted : registers.length = registerCount.toNat
  buffersCounted : buffers.length = bufferCount.toNat

@[ext]
structure CaptureFrame where
  version : UInt16
  reserved : UInt16
  sessionId : UInt16
  sectionCount : UInt32
  sections : List SectionFrame
  /-- What follows the last section. -/
  rest : List UInt8
  sectionsCounted : sections.length = sectionCount.toNat

/-! ## The bytes of a frame -/

namespace BufferFrame

def bytes (frame : BufferFrame) : List UInt8 :=
  Wire.bytes ([frame.tag] ++ Wire.splitDword frame.length) ++ frame.contents

end BufferFrame

namespace SectionFrame

def bytes (frame : SectionFrame) : List UInt8 :=
  Wire.bytes ([frame.version, frame.reserved, frame.id] ++
      Wire.splitDword frame.registerCount) ++
    (Wire.bytes frame.registers ++
      (Wire.bytes (Wire.splitDword frame.bufferCount) ++
        frame.buffers.flatMap BufferFrame.bytes))

end SectionFrame

namespace CaptureFrame

def bytes (frame : CaptureFrame) : List UInt8 :=
  Wire.bytes ([frame.version, frame.reserved, frame.sessionId] ++
      Wire.splitDword frame.sectionCount) ++
    (frame.sections.flatMap SectionFrame.bytes ++ frame.rest)

end CaptureFrame

/-! ## A byte sequence begins with at most one frame -/

private theorem flatMap_append_inj {α : Type} {form : α → List UInt8}
    (each : ∀ {left right : α} {leftRest rightRest : List UInt8},
      form left ++ leftRest = form right ++ rightRest →
        left = right ∧ leftRest = rightRest)
    {left right : List α} {leftRest rightRest : List UInt8}
    (count : left.length = right.length)
    (same : left.flatMap form ++ leftRest = right.flatMap form ++ rightRest) :
    left = right ∧ leftRest = rightRest := by
  induction left generalizing right with
  | nil =>
      cases List.length_eq_zero_iff.mp count.symm
      exact ⟨rfl, same⟩
  | cons first left induction =>
      cases right with
      | nil => cases count
      | cons second right =>
          rw [List.flatMap_cons, List.flatMap_cons, List.append_assoc,
            List.append_assoc] at same
          obtain ⟨sameFirst, sameLater⟩ := each same
          obtain ⟨sameRest, sameEnd⟩ :=
            induction (Nat.succ.inj count) sameLater
          exact ⟨by rw [sameFirst, sameRest], sameEnd⟩

theorem BufferFrame.bytes_append_inj {left right : BufferFrame}
    {leftRest rightRest : List UInt8}
    (same : left.bytes ++ leftRest = right.bytes ++ rightRest) :
    left = right ∧ leftRest = rightRest := by
  rw [BufferFrame.bytes, BufferFrame.bytes, List.append_assoc,
    List.append_assoc] at same
  obtain ⟨header, contents⟩ := Wire.bytes_append_inj (by rfl) same
  obtain ⟨tag, split⟩ := List.cons.inj header
  have length : left.length = right.length := Wire.splitDword_injective split
  have size : left.contents.length = right.contents.length := by
    rw [left.filled, right.filled, length]
  obtain ⟨sameContents, sameRest⟩ := List.append_inj contents size
  exact ⟨BufferFrame.ext tag length sameContents, sameRest⟩

theorem SectionFrame.bytes_append_inj {left right : SectionFrame}
    {leftRest rightRest : List UInt8}
    (same : left.bytes ++ leftRest = right.bytes ++ rightRest) :
    left = right ∧ leftRest = rightRest := by
  simp only [SectionFrame.bytes, List.append_assoc] at same
  obtain ⟨header, afterHeader⟩ := Wire.bytes_append_inj (by rfl) same
  simp only [List.cons_append, List.nil_append, List.cons.injEq] at header
  obtain ⟨version, reserved, id, split⟩ := header
  have registerCount := Wire.splitDword_injective split
  have registersSize : left.registers.length = right.registers.length := by
    rw [left.registersCounted, right.registersCounted, registerCount]
  obtain ⟨registers, afterRegisters⟩ :=
    Wire.bytes_append_inj registersSize afterHeader
  obtain ⟨splitCount, afterCount⟩ :=
    Wire.bytes_append_inj (by rfl) afterRegisters
  have bufferCount := Wire.splitDword_injective splitCount
  have buffersSize : left.buffers.length = right.buffers.length := by
    rw [left.buffersCounted, right.buffersCounted, bufferCount]
  obtain ⟨buffers, sameRest⟩ :=
    flatMap_append_inj BufferFrame.bytes_append_inj buffersSize afterCount
  exact ⟨SectionFrame.ext version reserved id registerCount registers
    bufferCount buffers, sameRest⟩

theorem CaptureFrame.bytes_injective {left right : CaptureFrame}
    (same : left.bytes = right.bytes) : left = right := by
  obtain ⟨header, afterHeader⟩ := Wire.bytes_append_inj (by rfl) same
  simp only [List.cons_append, List.nil_append, List.cons.injEq] at header
  obtain ⟨version, reserved, sessionId, split⟩ := header
  have sectionCount := Wire.splitDword_injective split
  have sectionsSize : left.sections.length = right.sections.length := by
    rw [left.sectionsCounted, right.sectionsCounted, sectionCount]
  obtain ⟨sections, sameRest⟩ :=
    flatMap_append_inj SectionFrame.bytes_append_inj sectionsSize afterHeader
  exact CaptureFrame.ext version reserved sessionId sectionCount sections
    sameRest

/-! ## What a walk tells of a frame -/

namespace BufferFrame

def notes (index offset : Nat) (frame : BufferFrame) : List Note :=
  [.bufferOffset index offset, .bufferTag index frame.tag,
    .bufferLength index frame.length]

/-- The items of the buffer's records. -/
def records (index : Nat) (frame : BufferFrame) : List Item :=
  (recordItems? index (BufferKind.ofTag frame.tag) frame.contents).getD []

def items (index offset : Nat) (frame : BufferFrame) : List Item :=
  (frame.notes index offset).map .note ++ (frame.records index ++ [.bufferEnd])

theorem recordItems?_eq (index : Nat) (frame : BufferFrame) :
    recordItems? index (BufferKind.ofTag frame.tag) frame.contents =
      some (frame.records index) := by
  obtain ⟨items, found⟩ :=
    Option.isSome_iff_exists.mp (recordItems?_isSome_iff.mpr frame.known)
  rw [records, found, Option.getD_some]

theorem isRecord_of_mem_records {index : Nat} {frame : BufferFrame} :
    ∀ item ∈ frame.records index, item.isRecord = true :=
  isRecord_of_mem_recordItems? (frame.recordItems?_eq index)

theorem length_bytes (frame : BufferFrame) :
    frame.bytes.length = 6 + 2 * frame.length.toNat := by
  rw [bytes, List.length_append, Wire.length_bytes, frame.filled]
  rfl

end BufferFrame

namespace SectionFrame

/-- Size in bytes of everything before the buffers. -/
def headerSize (frame : SectionFrame) : Nat :=
  14 + 2 * frame.registers.length

def notes (offset : Nat) (frame : SectionFrame) : List Note :=
  [.sectionVersion frame.version, .sectionId frame.id,
      .registerCount frame.registerCount] ++
    frame.registers.mapIdx .register ++
    .bufferCount frame.bufferCount ::
      laidOut (·.bytes.length) BufferFrame.notes 0
        (offset + frame.headerSize) frame.buffers

def items (offset : Nat) (frame : SectionFrame) : List Item :=
  [.note (.sectionVersion frame.version), .note (.sectionId frame.id),
      .note (.registerCount frame.registerCount)] ++
    (frame.registers.mapIdx fun index value => .note (.register index value)) ++
    .note (.bufferCount frame.bufferCount) ::
      (laidOut (·.bytes.length) BufferFrame.items 0
        (offset + frame.headerSize) frame.buffers ++ [.sectionEnd])

end SectionFrame

namespace CaptureFrame

/-- Size in bytes of the file header. -/
def headerSize : Nat := 10

def notes (frame : CaptureFrame) : List Note :=
  [.fileVersion frame.version, .sessionId frame.sessionId,
      .sectionCount frame.sectionCount] ++
    laidOut (·.bytes.length) (fun _ => SectionFrame.notes) 0 headerSize
      frame.sections

def items (frame : CaptureFrame) : List Item :=
  [.note (.fileVersion frame.version), .note (.sessionId frame.sessionId),
      .note (.sectionCount frame.sectionCount)] ++
    laidOut (·.bytes.length) (fun _ => SectionFrame.items) 0 headerSize
      frame.sections

end CaptureFrame

/-! ## The notes among the items -/

theorem filterMap_note? (notes : List Note) :
    (notes.map Item.note).filterMap Item.note? = notes := by
  rw [List.filterMap_map]
  exact List.filterMap_some

theorem mapIdx_register (registers : List UInt16) :
    (registers.mapIdx fun index value => Item.note (.register index value)) =
      (registers.mapIdx Note.register).map Item.note := by
  rw [List.mapIdx_eq_zipIdx_map, List.mapIdx_eq_zipIdx_map, List.map_map]
  rfl

theorem BufferFrame.notes_items (index offset : Nat) (frame : BufferFrame) :
    (frame.items index offset).filterMap Item.note? =
      frame.notes index offset := by
  have noNote : (frame.records index).filterMap Item.note? = [] :=
    Item.filterMap_note?_of_isRecord isRecord_of_mem_records
  rw [items, List.filterMap_append, List.filterMap_append, filterMap_note?,
    noNote]
  rfl

theorem SectionFrame.notes_items (offset : Nat) (frame : SectionFrame) :
    (frame.items offset).filterMap Item.note? = frame.notes offset := by
  simp only [items, mapIdx_register, List.filterMap_append, List.filterMap_cons,
    filterMap_note?, filterMap_laidOut, BufferFrame.notes_items, Item.note?,
    List.filterMap_nil, List.append_nil]
  rfl

theorem CaptureFrame.notes_items (frame : CaptureFrame) :
    frame.items.filterMap Item.note? = frame.notes := by
  simp only [items, List.filterMap_append, filterMap_laidOut,
    SectionFrame.notes_items]
  rfl

namespace Walk

/-- After a buffer's header its records are told and its declared size is
skipped. -/
theorem run_ofBuffer_header (index offset : Nat) (tag : UInt16)
    (length : UInt32) (rest : List UInt8) :
    (ofBuffer index).run
        ⟨offset, Wire.bytes ([tag] ++ Wire.splitDword length) ++ rest⟩ =
      ((do
        ofRecords index tag (rest.take (bufferSize length))
        skip (bufferSize length)
        emit [.bufferEnd] : Walk Unit).run ⟨offset + 6, rest⟩).after
          [.note (.bufferOffset index offset), .note (.bufferTag index tag),
            .note (.bufferLength index length)] := by
  rw [Wire.bytes_append, List.append_assoc, ofBuffer]
  simp only [run_peek_bind, run_note_bind, run_word_bind, run_dword_bind]
  rfl

theorem exists_bufferHeader_append {content : List UInt8}
    (enough : 6 ≤ content.length) :
    ∃ tag length rest,
      content = Wire.bytes ([tag] ++ Wire.splitDword length) ++ rest := by
  obtain ⟨written, rest, count, same⟩ :=
    Wire.exists_bytes_append (by omega : 2 * 3 ≤ content.length)
  match written, count with
  | [tag, low, high], _ =>
      refine ⟨tag, Wire.joinWords low high, rest, ?_⟩
      rw [Wire.splitDword_joinWords]
      exact same

/-- A span too short for the header of a buffer ends the walk before the length
is met. -/
theorem run_ofBuffer_of_short (index : Nat) {span : Span}
    (short : span.remaining < 6) :
    ∃ items fatal, (ofBuffer index).run span = ⟨items, .error fatal⟩ ∧
      (items = [.note (.bufferOffset index span.offset)] ∨
        ∃ tag, items = [.note (.bufferOffset index span.offset),
          .note (.bufferTag index tag)]) := by
  by_cases shorter : span.remaining < 2
  · refine ⟨[.note (.bufferOffset index span.offset)],
      .truncated ⟨span.offset, 2, span.remaining⟩, ?_, .inl rfl⟩
    rw [ofBuffer, run_peek_bind, run_note_bind,
      run_bind_of_error (run_word_of_short shorter)]
    rfl
  · obtain ⟨offset, content⟩ := span
    obtain ⟨tag, rest, rfl⟩ := Wire.exists_word_append (Nat.not_lt.mp shorter)
    have shortRest : Span.remaining ⟨offset + 2, rest⟩ < 4 := by
      change (Wire.bytes [tag] ++ rest).length < 6 at short
      rw [List.length_append, Wire.length_bytes] at short
      change rest.length < 4
      change 2 + rest.length < 6 at short
      omega
    refine ⟨[.note (.bufferOffset index offset), .note (.bufferTag index tag)],
      .truncated ⟨offset + 2, 4, rest.length⟩, ?_, .inr ⟨tag, rfl⟩⟩
    rw [ofBuffer, run_peek_bind, run_note_bind, run_word_bind, run_note_bind,
      run_bind_of_error (run_dword_of_short shortRest)]
    rfl

theorem run_ofBuffer_frame (index offset : Nat) (frame : BufferFrame)
    (rest : List UInt8) :
    (ofBuffer index).run ⟨offset, frame.bytes ++ rest⟩ =
      ⟨frame.items index offset,
        .ok ((), ⟨offset + frame.bytes.length, rest⟩)⟩ := by
  have size : bufferSize frame.length = frame.contents.length :=
    frame.filled.symm
  rw [BufferFrame.length_bytes, BufferFrame.bytes, List.append_assoc,
    run_ofBuffer_header, size, List.take_left,
    ofRecords_of_some (frame.recordItems?_eq index), run_emit_bind]
  have enough : frame.contents.length ≤
      Span.remaining ⟨offset + 6, frame.contents ++ rest⟩ := by
    simp [Span.remaining]
  rw [run_bind_of_ok (run_skip_of_le enough), ← frame.filled]
  simp [Trace.after, Span.drop, BufferFrame.items, BufferFrame.notes,
    Nat.add_assoc]

theorem run_ofRegister (index offset : Nat) (value : UInt16)
    (rest : List UInt8) :
    (ofRegister index).run ⟨offset, Wire.bytes [value] ++ rest⟩ =
      ⟨[.note (.register index value)], .ok ((), ⟨offset + 2, rest⟩)⟩ := by
  rw [ofRegister, run_word_bind]
  rfl

theorem flatMap_singleton_bytes (registers : List UInt16) :
    (registers.flatMap fun value => Wire.bytes [value]) =
      Wire.bytes registers := by
  induction registers with
  | nil => rfl
  | cons value registers induction =>
      rw [List.flatMap_cons, induction, ← Wire.bytes_append]
      rfl

private theorem laidOut_registers (index offset : Nat)
    (registers : List UInt16) :
    laidOut (fun value => (Wire.bytes [value]).length)
        (fun index _ value => [Item.note (.register index value)])
        index offset registers =
      registers.mapIdx fun later value =>
        .note (.register (index + later) value) := by
  induction registers generalizing index offset with
  | nil => rfl
  | cons value registers induction =>
      rw [laidOut, induction, List.mapIdx_cons]
      simp only [List.cons_append, List.nil_append, Nat.add_zero,
        Nat.add_assoc, Nat.add_comm 1]

theorem run_ofRegisters (offset : Nat) (registers : List UInt16)
    (rest : List UInt8) :
    (times registers.length ofRegister).run
        ⟨offset, Wire.bytes registers ++ rest⟩ =
      ⟨registers.mapIdx fun index value => .note (.register index value),
        .ok ((), ⟨offset + 2 * registers.length, rest⟩)⟩ := by
  have ran := run_timesFrom run_ofRegister 0 offset registers rest
  rw [flatMap_singleton_bytes, laidOut_registers, Wire.length_bytes] at ran
  simp only [Nat.zero_add] at ran
  exact ran

theorem run_ofSection_frame (offset : Nat) (frame : SectionFrame)
    (rest : List UInt8) :
    ofSection.run ⟨offset, frame.bytes ++ rest⟩ =
      ⟨frame.items offset,
        .ok ((), ⟨offset + frame.bytes.length, rest⟩)⟩ := by
  have size : frame.bytes.length =
      frame.headerSize + (frame.buffers.flatMap BufferFrame.bytes).length := by
    simp only [SectionFrame.bytes, SectionFrame.headerSize,
      List.length_append, Wire.length_bytes, List.length_cons,
      List.length_nil, Wire.length_splitDword]
    omega
  have header : offset + 2 + 2 + 2 + 4 + 2 * frame.registers.length + 4 =
      offset + frame.headerSize := by
    rw [SectionFrame.headerSize]
    omega
  have registers := run_ofRegisters (offset + 2 + 2 + 2 + 4) frame.registers
    (Wire.bytes (Wire.splitDword frame.bufferCount) ++
      (frame.buffers.flatMap BufferFrame.bytes ++ rest))
  have buffers := run_timesFrom run_ofBuffer_frame 0
    (offset + frame.headerSize) frame.buffers rest
  rw [frame.registersCounted] at registers
  rw [frame.buffersCounted] at buffers
  rw [size, SectionFrame.bytes]
  simp only [Wire.bytes_append, Wire.bytes_cons_cons, List.append_assoc]
  simp only [ofSection, run_word_bind, run_note_bind, run_dword_bind]
  rw [run_bind_of_ok registers, run_dword_bind, run_note_bind,
    ← frame.registersCounted, header, times, run_bind_of_ok buffers, run_emit]
  simp [Trace.after, SectionFrame.items, Nat.add_assoc]

theorem run_ofCapture_frame (frame : CaptureFrame) :
    (ofCapture frame.version).run ⟨0, frame.bytes⟩ =
      ⟨frame.items,
        .ok ((), ⟨CaptureFrame.headerSize +
            (frame.sections.flatMap SectionFrame.bytes).length,
          frame.rest⟩)⟩ := by
  have sections := run_timesFrom (fun _ => run_ofSection_frame) 0
    CaptureFrame.headerSize frame.sections frame.rest
  rw [frame.sectionsCounted] at sections
  rw [CaptureFrame.bytes]
  simp only [Wire.bytes_append, Wire.bytes_cons_cons, List.append_assoc]
  simp only [ofCapture, run_word_bind, run_note_bind, if_true, run_dword_bind]
  rw [times, show 0 + 2 + 2 + 2 + 4 = CaptureFrame.headerSize from rfl,
    sections]
  simp [Trace.after, CaptureFrame.items]

/-! ## A walk that comes to its end has read a frame -/

theorem Reaches.of_records {index : Nat} {tag : UInt16}
    {region : List UInt8} {span left : Span}
    (reached : (ofRecords index tag region).Reaches span () left) :
    (tag = 1 ∨ tag = 2 ∨ tag = 3) ∧ left = span := by
  cases found : recordItems? index (BufferKind.ofTag tag) region with
  | none =>
      rw [ofRecords_of_none found] at reached
      cases reached
  | some items =>
      rw [ofRecords_of_some found] at reached
      cases reached
      exact ⟨recordItems?_isSome_iff.mp (by rw [found]; rfl), rfl⟩

theorem Reaches.exists_bufferFrame {index : Nat} {span left : Span}
    (reached : (ofBuffer index).Reaches span () left) :
    ∃ frame : BufferFrame, span.bytes = frame.bytes ++ left.bytes := by
  rw [ofBuffer, reaches_peek_bind_iff, reaches_note_bind_iff] at reached
  obtain ⟨tag, afterTag, begins, reached⟩ := reached.of_word_bind
  rw [reaches_note_bind_iff] at reached
  obtain ⟨length, content, continues, reached⟩ := reached.of_dword_bind
  rw [reaches_note_bind_iff, reaches_peek_bind_iff] at reached
  obtain ⟨_, middle, records, reached⟩ := reaches_bind_iff.mp reached
  obtain ⟨_, left, skipped, ended⟩ := reaches_bind_iff.mp reached
  obtain ⟨known, rfl⟩ := records.of_records
  obtain ⟨enough, rfl⟩ := skipped.of_skip
  cases ended
  change bufferSize length ≤ content.length at enough
  refine ⟨⟨tag, length, content.take (bufferSize length), known,
    List.length_take_of_le enough⟩, ?_⟩
  change afterTag = _ at continues
  rw [begins, continues, BufferFrame.bytes, Wire.bytes_append]
  simp only [Span.drop, List.append_assoc, List.take_append_drop]

theorem Reaches.exists_register {index : Nat} {span left : Span}
    (reached : (ofRegister index).Reaches span () left) :
    ∃ value, span.bytes = Wire.bytes [value] ++ left.bytes := by
  obtain ⟨value, rest, begins, ended⟩ := reached.of_word_bind
  cases ended
  exact ⟨value, begins⟩

theorem Reaches.exists_sectionFrame {span left : Span}
    (reached : ofSection.Reaches span () left) :
    ∃ frame : SectionFrame, span.bytes = frame.bytes ++ left.bytes := by
  obtain ⟨version, _, readVersion, reached⟩ := reached.of_word_bind
  obtain ⟨reserved, _, readReserved, reached⟩ :=
    (reaches_note_bind_iff.mp reached).of_word_bind
  obtain ⟨id, _, readId, reached⟩ := reached.of_word_bind
  obtain ⟨registerCount, _, readRegisterCount, reached⟩ :=
    (reaches_note_bind_iff.mp reached).of_dword_bind
  obtain ⟨_, _, readRegisters, reached⟩ :=
    reaches_bind_iff.mp (reaches_note_bind_iff.mp reached)
  obtain ⟨registers, registersCounted, registersRead⟩ :=
    readRegisters.of_timesFrom fun _ _ _ => Reaches.exists_register
  obtain ⟨bufferCount, _, readBufferCount, reached⟩ := reached.of_dword_bind
  obtain ⟨_, _, readBuffers, ended⟩ :=
    reaches_bind_iff.mp (reaches_note_bind_iff.mp reached)
  obtain ⟨buffers, buffersCounted, buffersRead⟩ :=
    readBuffers.of_timesFrom fun _ _ _ => Reaches.exists_bufferFrame
  cases ended
  refine ⟨⟨version, reserved, id, registerCount, registers, bufferCount,
    buffers, registersCounted, buffersCounted⟩, ?_⟩
  dsimp only at readReserved readId readRegisterCount registersRead buffersRead
  rw [readVersion, readReserved, readId, readRegisterCount, registersRead,
    readBufferCount, buffersRead, flatMap_singleton_bytes]
  simp only [SectionFrame.bytes, Wire.bytes_append, Wire.bytes_cons_cons,
    List.append_assoc]

theorem Reaches.exists_captureFrame {supported : UInt16} {span left : Span}
    (reached : (ofCapture supported).Reaches span () left) :
    ∃ frame : CaptureFrame, frame.version = supported ∧
      span.bytes = frame.bytes := by
  obtain ⟨version, _, readVersion, reached⟩ := reached.of_word_bind
  rw [reaches_note_bind_iff] at reached
  by_cases same : version = supported
  · rw [if_pos same] at reached
    obtain ⟨reserved, _, readReserved, reached⟩ := reached.of_word_bind
    obtain ⟨sessionId, _, readId, reached⟩ := reached.of_word_bind
    obtain ⟨sectionCount, _, readCount, reached⟩ :=
      (reaches_note_bind_iff.mp reached).of_dword_bind
    obtain ⟨sections, counted, sectionsRead⟩ :=
      Reaches.of_timesFrom (fun _ _ _ => Reaches.exists_sectionFrame)
        (reaches_note_bind_iff.mp reached)
    refine ⟨⟨version, reserved, sessionId, sectionCount, sections, left.bytes,
      counted⟩, same, ?_⟩
    dsimp only at readReserved readId readCount sectionsRead
    rw [readVersion, readReserved, readId, readCount, sectionsRead]
    simp only [CaptureFrame.bytes, Wire.bytes_append, Wire.bytes_cons_cons,
      List.append_assoc]
  · rw [if_neg same] at reached
    cases reached

end Walk

end SessionCapture
