import SessionCapture.Proofs.OpenedBuffers
import SessionCapture.Proofs.StatedNotes

/-!
# Where sections and buffers stand

The notes of a walk say where each buffer stands, of what sort it is and how
long.  `Tiles` says that they are right: the header of a buffer stands where it
is told, the buffers of a section follow one another without a gap, and the next
section begins where the last buffer of the one before ends.  What the records
are like makes no difference.  The invariant that carries this along the walk is
that what is left to read is the end of the input from the walk's offset on.
-/

namespace SessionCapture

/-- The words stand in the input at the offset. -/
def StandAt (input : List UInt8) (offset : Nat) (words : List UInt16) : Prop :=
  (input.drop offset).take (2 * words.length) = Wire.bytes words

/-- The note tells of a buffer, or that a section begins. -/
def Note.IsPlaced : Note → Prop
  | .sectionVersion _ | .bufferOffset _ _ | .bufferTag _ _
  | .bufferLength _ _ => True
  | _ => False

/-- The notes tell of the buffers of a section from the one numbered `index` on,
of which `count` are left.  The first one stands at `place` and every next one
at the end of the one before.  `finish` is the end of the last one, if the walk
came so far. -/
inductive BuffersTile (input : List UInt8) :
    Nat → Nat → Nat → List Note → Option Nat → Prop where
  | stopped (index count place : Nat) :
      BuffersTile input index count place [] none
  | ended (index place : Nat) :
      BuffersTile input index 0 place [] (some place)
  | noTag (index count place : Nat) :
      BuffersTile input index (count + 1) place [.bufferOffset index place] none
  | noLength (index count place : Nat) (tag : UInt16) :
      BuffersTile input index (count + 1) place
        [.bufferOffset index place, .bufferTag index tag] none
  | next {index count place : Nat} {tag : UInt16} {length : UInt32}
      {notes : List Note} {finish : Option Nat} :
      StandAt input place [tag] →
      StandAt input (place + 2) (Wire.splitDword length) →
      BuffersTile input (index + 1) count (place + 6 + 2 * length.toNat)
        notes finish →
      BuffersTile input index (count + 1) place
        ([.bufferOffset index place, .bufferTag index tag,
          .bufferLength index length] ++ notes) finish

/-- What stands in a section before its buffers. -/
structure SectionHeader where
  version : UInt16
  reserved : UInt16
  id : UInt16
  registerCount : UInt32
  registers : List UInt16
  bufferCount : UInt32
  counted : registers.length = registerCount.toNat

namespace SectionHeader

def words (header : SectionHeader) : List UInt16 :=
  [header.version, header.reserved, header.id] ++
    Wire.splitDword header.registerCount ++ header.registers ++
    Wire.splitDword header.bufferCount

def notes (header : SectionHeader) : List Note :=
  [.sectionVersion header.version, .sectionId header.id,
      .registerCount header.registerCount] ++
    header.registers.mapIdx .register ++ [.bufferCount header.bufferCount]

/-- The offset of the first buffer, if the section begins at `start`. -/
def firstBuffer (header : SectionHeader) (start : Nat) : Nat :=
  start + 14 + 2 * header.registerCount.toNat

theorem firstBuffer_eq (header : SectionHeader) (start : Nat) :
    header.firstBuffer start = start + (Wire.bytes header.words).length := by
  rw [firstBuffer, words, Wire.length_bytes]
  simp only [List.length_append, Wire.length_splitDword, header.counted,
    List.length_cons, List.length_nil]
  omega

end SectionHeader

/-- The notes tell of a section that begins at `start`.  Its buffers come right
after its header and registers. -/
inductive SectionTiles (input : List UInt8) :
    Nat → List Note → Option Nat → Prop where
  | unread (start : Nat) : SectionTiles input start [] none
  | noBuffers {start : Nat} {version : UInt16} {notes : List Note} :
      StandAt input start [version] →
      (∀ found ∈ notes, ¬found.IsPlaced) →
      SectionTiles input start (.sectionVersion version :: notes) none
  | buffers {start : Nat} {header : SectionHeader} {notes : List Note}
      {finish : Option Nat} :
      StandAt input start header.words →
      BuffersTile input 0 header.bufferCount.toNat (header.firstBuffer start)
        notes finish →
      SectionTiles input start (header.notes ++ notes) finish

/-- The notes tell of sections of which `count` are left.  The first one begins
at `start`, and every next one where the one before ends. -/
inductive SectionsTile (input : List UInt8) :
    Nat → Nat → List Note → Option Nat → Prop where
  | ended (start : Nat) : SectionsTile input 0 start [] (some start)
  | stopped {count start : Nat} {notes : List Note} :
      SectionTiles input start notes none →
      SectionsTile input (count + 1) start notes none
  | next {count start stop : Nat} {notes more : List Note}
      {finish : Option Nat} :
      SectionTiles input start notes (some stop) →
      SectionsTile input count stop more finish →
      SectionsTile input (count + 1) start (notes ++ more) finish

/-- What stands in a capture before its sections. -/
structure FileHeader where
  version : UInt16
  reserved : UInt16
  sessionId : UInt16
  sectionCount : UInt32

def FileHeader.words (header : FileHeader) : List UInt16 :=
  [header.version, header.reserved, header.sessionId] ++
    Wire.splitDword header.sectionCount

def FileHeader.notes (header : FileHeader) : List Note :=
  [.fileVersion header.version, .sessionId header.sessionId,
    .sectionCount header.sectionCount]

/-- The notes tell of an input of the format: of one section at its beginning,
or of a file header and the sections after it. -/
inductive Format.Tiles (input : List UInt8) :
    Format → List Note → Option Nat → Prop where
  | bareSection {notes : List Note} {finish : Option Nat} :
      SectionTiles input 0 notes finish →
      Tiles input .bareSection notes finish
  | noSections {notes : List Note} :
      (∀ found ∈ notes, ¬found.IsPlaced) →
      Tiles input .capture notes none
  | sections {header : FileHeader} {notes : List Note}
      {finish : Option Nat} :
      StandAt input 0 header.words →
      SectionsTile input header.sectionCount.toNat 10 notes finish →
      Tiles input .capture (header.notes ++ notes) finish

/-! ## What is left of the input -/

namespace Span

/-- The span is the end of the input from its offset on. -/
def IsRestOf (span : Span) (input : List UInt8) : Prop :=
  ∃ before, input = before ++ span.bytes ∧ span.offset = before.length

variable {input : List UInt8} {span : Span}

theorem IsRestOf.whole (input : List UInt8) : IsRestOf ⟨0, input⟩ input :=
  ⟨[], rfl, rfl⟩

/-- What is left of a rest is one too. -/
theorem IsRestOf.later {taken : List UInt8} {rest : Span}
    (left : span.IsRestOf input) (begins : span.bytes = taken ++ rest.bytes)
    (moved : rest.offset = span.offset + taken.length) :
    rest.IsRestOf input := by
  obtain ⟨before, split, place⟩ := left
  refine ⟨before ++ taken, ?_, ?_⟩
  · rw [split, begins, List.append_assoc]
  · rw [moved, place, List.length_append]

theorem IsRestOf.taken {offset : Nat} {taken rest : List UInt8}
    (left : IsRestOf ⟨offset, taken ++ rest⟩ input) :
    IsRestOf ⟨offset + taken.length, rest⟩ input :=
  left.later rfl rfl

theorem IsRestOf.drop (left : span.IsRestOf input) {count : Nat}
    (enough : count ≤ span.remaining) : (span.drop count).IsRestOf input := by
  obtain ⟨offset, content⟩ := span
  rw [← List.take_append_drop count content] at left
  have dropped := left.taken
  rw [List.length_take_of_le enough] at dropped
  exact dropped

theorem IsRestOf.standAt {offset : Nat} {words : List UInt16}
    {rest : List UInt8}
    (left : IsRestOf ⟨offset, Wire.bytes words ++ rest⟩ input) :
    StandAt input offset words := by
  obtain ⟨before, rfl, rfl⟩ := left
  rw [StandAt]
  dsimp only
  rw [List.drop_left, ← Wire.length_bytes, List.take_left]

theorem IsRestOf.offset_le (left : span.IsRestOf input) :
    span.offset ≤ input.length ∧
      span.remaining = input.length - span.offset := by
  obtain ⟨before, rfl, same⟩ := left
  rw [same, List.length_append, Nat.add_sub_cancel_left]
  exact ⟨Nat.le_add_right _ _, rfl⟩

end Span

namespace Trace

/-- The notes of a trace. -/
def notes {α : Type} (trace : Trace α) : List Note :=
  trace.items.filterMap Item.note?

/-- The offset that a walk came to, if it came to its end. -/
def finish {α : Type} (trace : Trace (α × Span)) : Option Nat :=
  match trace.result with
  | .ok (_, left) => some left.offset
  | .error _ => none

theorem notes_after {α : Type} (items : List Item) (trace : Trace α) :
    (trace.after items).notes = items.filterMap Item.note? ++ trace.notes :=
  List.filterMap_append

theorem finish_after {α : Type} (items : List Item)
    (trace : Trace (α × Span)) :
    (trace.after items).finish = trace.finish := rfl

end Trace

namespace Walk

/-- A walk that meets no note of where a section or a buffer stands. -/
abbrev MeetsUnplaced {α : Type} (walk : Walk α) : Prop :=
  walk.Meets fun item => ∀ found, item = .note found → ¬found.IsPlaced

theorem Meets.unplaced {found : Note} (unplaced : ¬found.IsPlaced) :
    (Walk.note found).MeetsUnplaced := by
  apply Meets.emit_singleton
  intro other same
  cases same
  exact unplaced

theorem MeetsUnplaced.notes {α : Type} {walk : Walk α}
    (unplaced : walk.MeetsUnplaced) (span : Span) :
    ∀ found ∈ (walk.run span).notes, ¬found.IsPlaced := by
  intro found member
  obtain ⟨item, among, told⟩ := List.mem_filterMap.mp member
  cases item with
  | note other =>
      cases told
      exact unplaced span _ among found rfl
  | _ => cases told

end Walk

/-! ## Buffers -/

namespace Walk

variable {input : List UInt8}

/-- The records of a buffer are told without notes, and the walk stops there or
goes on where the buffer ends. -/
theorem run_ofRegion_quiet (index : Nat) (tag : UInt16) (size : Nat)
    (span : Span) :
    ∃ items, items.filterMap Item.note? = [] ∧
      ((∃ fatal, (ofRegion index tag size).run span =
          ⟨items, .error fatal⟩) ∨
        size ≤ span.remaining ∧
          (ofRegion index tag size).run span =
            ⟨items, .ok ((), span.drop size)⟩) := by
  have quiet {records : List Item} (known : recordItems? index
      (BufferKind.ofTag tag) (span.window size).bytes = some records) :
      records.filterMap Item.note? = [] :=
    Item.filterMap_note?_of_isRecord (isRecord_of_mem_recordItems? known)
  have became := regionTrace index tag size span
  generalize (ofRegion index tag size).run span = trace at became ⊢
  cases became with
  | unknown _ => exact ⟨[], rfl, .inl ⟨_, rfl⟩⟩
  | cutOff known _ => exact ⟨_, quiet known, .inl ⟨_, rfl⟩⟩
  | passed known enough =>
      refine ⟨_, ?_, .inr ⟨enough, rfl⟩⟩
      rw [List.filterMap_append, quiet known]
      rfl

theorem buffersTile_timesFrom {span : Span} (left : span.IsRestOf input)
    (index count : Nat) :
    let trace := (timesFrom index count ofBuffer).run span
    BuffersTile input index count span.offset trace.notes trace.finish := by
  induction count generalizing index span with
  | zero => exact .ended index span.offset
  | succ count induction =>
      rw [timesFrom_succ]
      by_cases short : span.remaining < 6
      · obtain ⟨items, fatal, ran, met⟩ := run_ofBuffer_of_short index short
        rw [run_bind_of_error ran]
        rcases met with rfl | ⟨tag, rfl⟩
        · exact .noTag index count span.offset
        · exact .noLength index count span.offset tag
      · obtain ⟨offset, content⟩ := span
        obtain ⟨tag, length, rest, rfl⟩ :=
          exists_bufferHeader_append (Nat.not_lt.mp short)
        have body : Span.IsRestOf ⟨offset + 6, rest⟩ input := left.taken
        rw [Wire.bytes_append, List.append_assoc] at left
        have tagStands := left.standAt
        have lengthStands := left.taken.standAt
        have opened : (ofBuffer index).run ⟨offset,
            Wire.bytes ([tag] ++ Wire.splitDword length) ++ rest⟩ =
              ((ofRegion index tag (bufferSize length)).run
                ⟨offset + 6, rest⟩).after
                  (BufferHeader.items ⟨index, offset, tag, length⟩) :=
          run_ofBuffer ⟨index, offset, tag, length⟩ rest
        obtain ⟨items, quiet, stops | ⟨enough, goesOn⟩⟩ := run_ofRegion_quiet
          index tag (bufferSize length) ⟨offset + 6, rest⟩
        · obtain ⟨fatal, stops⟩ := stops
          have ran := opened.trans (congrArg (Trace.after _) stops)
          have notes : (BufferHeader.items ⟨index, offset, tag, length⟩ ++
              items).filterMap Item.note? = [.bufferOffset index offset,
                .bufferTag index tag, .bufferLength index length] ++ [] := by
            rw [List.filterMap_append, quiet]
            rfl
          rw [run_bind_of_error ran]
          dsimp only [Trace.notes, Trace.finish]
          rw [notes]
          exact .next tagStands lengthStands (.stopped _ _ _)
        · have ran := opened.trans (congrArg (Trace.after _) goesOn)
          rw [run_bind_of_ok ran]
          dsimp only
          rw [Trace.notes_after, List.filterMap_append, quiet, List.append_nil]
          exact .next tagStands lengthStands (induction (body.drop enough) _)

/-! ## Sections -/

/-- The part of a section's header after its version. -/
def sectionHeaderRest : Walk UInt32 := do
  let _reserved ← word
  note (.sectionId (← word))
  let registers ← dword
  note (.registerCount registers)
  times registers.toNat ofRegister
  let buffers ← dword
  note (.bufferCount buffers)
  return buffers

/-- The part of a section's walk before its buffers. -/
def sectionHeader : Walk UInt32 := do
  note (.sectionVersion (← word))
  sectionHeaderRest

theorem ofSection_eq :
    ofSection = (do
      let count ← sectionHeader
      times count.toNat ofBuffer
      emit [.sectionEnd]) := by
  simp only [ofSection, sectionHeader, sectionHeaderRest, bind_assoc,
    pure_bind]

theorem run_sectionHeader (offset : Nat) (header : SectionHeader)
    (rest : List UInt8) :
    sectionHeader.run ⟨offset, Wire.bytes header.words ++ rest⟩ =
      ⟨header.notes.map .note,
        .ok (header.bufferCount, ⟨header.firstBuffer offset, rest⟩)⟩ := by
  have registers := run_ofRegisters (offset + 2 + 2 + 2 + 4) header.registers
    (Wire.bytes (Wire.splitDword header.bufferCount) ++ rest)
  rw [header.counted] at registers
  have first : offset + 2 + 2 + 2 + 4 + 2 * header.registerCount.toNat + 4 =
      header.firstBuffer offset := by
    rw [SectionHeader.firstBuffer]
    omega
  rw [SectionHeader.words]
  simp only [Wire.bytes_append, Wire.bytes_cons_cons, List.append_assoc]
  simp only [sectionHeader, sectionHeaderRest, run_word_bind, run_note_bind,
    run_dword_bind]
  rw [run_bind_of_ok registers, run_dword_bind, run_note_bind, run_pure, first,
    mapIdx_register]
  simp [Trace.after, SectionHeader.notes]

theorem Reaches.exists_sectionHeader {span left : Span} {count : UInt32}
    (reached : sectionHeader.Reaches span count left) :
    ∃ header : SectionHeader,
      span.bytes = Wire.bytes header.words ++ left.bytes := by
  obtain ⟨version, _, readVersion, reached⟩ := reached.of_word_bind
  obtain ⟨reserved, _, readReserved, reached⟩ :=
    (reaches_note_bind_iff.mp reached).of_word_bind
  obtain ⟨id, _, readId, reached⟩ := reached.of_word_bind
  obtain ⟨registerCount, _, readRegisterCount, reached⟩ :=
    (reaches_note_bind_iff.mp reached).of_dword_bind
  obtain ⟨_, _, readRegisters, reached⟩ :=
    reaches_bind_iff.mp (reaches_note_bind_iff.mp reached)
  obtain ⟨registers, counted, registersRead⟩ :=
    readRegisters.of_timesFrom fun _ _ _ => Reaches.exists_register
  obtain ⟨bufferCount, _, readBufferCount, ended⟩ := reached.of_dword_bind
  cases ended
  refine ⟨⟨version, reserved, id, registerCount, registers, count, counted⟩,
    ?_⟩
  dsimp only at readReserved readId readRegisterCount registersRead
  rw [readVersion, readReserved, readId, readRegisterCount, registersRead,
    readBufferCount, flatMap_singleton_bytes]
  simp only [SectionHeader.words, Wire.bytes_append, Wire.bytes_cons_cons,
    List.append_assoc]

theorem MeetsUnplaced.sectionHeaderRest :
    sectionHeaderRest.MeetsUnplaced := by
  refine .bind (.read _) fun reserved => .bind (.read _) fun id => ?_
  refine .bind (.unplaced not_false) fun _ => ?_
  refine .bind (.read _) fun registers => ?_
  refine .bind (.unplaced not_false) fun _ => ?_
  have register (index : Nat) : (ofRegister index).MeetsUnplaced :=
    .bind (.read _) fun value => .unplaced not_false
  refine .bind (Meets.composes.timesFrom .between register 0 _)
    fun _ => ?_
  refine .bind (.read _) fun count => ?_
  exact .bind (.unplaced not_false) fun _ => .pure count

/-- A section that is not read as far as its buffers. -/
theorem sectionTiles_of_stopped {span : Span} (left : span.IsRestOf input)
    {items : List Item} {fatal : Fatal}
    (stopped : sectionHeader.run span = ⟨items, .error fatal⟩) :
    SectionTiles input span.offset (items.filterMap Item.note?) none := by
  by_cases short : span.remaining < 2
  · rw [sectionHeader, run_bind_of_error (run_word_of_short short)] at stopped
    cases stopped
    exact .unread span.offset
  · obtain ⟨offset, content⟩ := span
    obtain ⟨version, rest, rfl⟩ := Wire.exists_word_append (Nat.not_lt.mp short)
    rw [sectionHeader, run_word_bind, run_note_bind] at stopped
    have met := congrArg Trace.notes stopped
    rw [Trace.notes_after] at met
    change _ = items.filterMap Item.note? at met
    rw [← met]
    exact .noBuffers left.standAt
      (MeetsUnplaced.sectionHeaderRest.notes ⟨offset + 2, rest⟩)

theorem run_sectionEnd (walk : Walk Unit) (span : Span) :
    ((do walk; emit [.sectionEnd]).run span).notes = (walk.run span).notes ∧
      ((do walk; emit [.sectionEnd]).run span).finish =
        (walk.run span).finish := by
  cases ran : walk.run span with
  | mk items result =>
      cases result with
      | error fatal =>
          rw [run_bind_of_error ran]
          exact ⟨rfl, rfl⟩
      | ok reached =>
          rw [run_bind_of_ok ran, Trace.notes_after]
          exact ⟨List.append_nil _, rfl⟩

theorem sectionTiles_ofSection {span : Span} (left : span.IsRestOf input) :
    let trace := ofSection.run span
    SectionTiles input span.offset trace.notes trace.finish := by
  rw [ofSection_eq]
  cases ran : sectionHeader.run span with
  | mk items result =>
      cases result with
      | error fatal =>
          rw [run_bind_of_error ran]
          exact sectionTiles_of_stopped left ran
      | ok reached =>
          obtain ⟨count, place, rest⟩ := reached
          have ends : sectionHeader.Reaches span count ⟨place, rest⟩ :=
            congrArg Trace.result ran
          obtain ⟨offset, content⟩ := span
          obtain ⟨header, rfl⟩ := ends.exists_sectionHeader
          cases ran.symm.trans (run_sectionHeader offset header rest)
          have body : Span.IsRestOf ⟨header.firstBuffer offset, rest⟩ input :=
            left.later rfl (header.firstBuffer_eq offset)
          obtain ⟨notes, finish⟩ := run_sectionEnd
            (times header.bufferCount.toNat ofBuffer)
            ⟨header.firstBuffer offset, rest⟩
          rw [run_bind_of_ok ran]
          dsimp only
          rw [Trace.notes_after, Trace.finish_after, notes, finish,
            filterMap_note?]
          exact .buffers left.standAt (buffersTile_timesFrom body 0 _)

theorem sectionsTile_timesFrom {span : Span} (left : span.IsRestOf input)
    (index count : Nat) :
    let trace := (timesFrom index count fun _ => ofSection).run span
    SectionsTile input count span.offset trace.notes trace.finish := by
  induction count generalizing index span with
  | zero => exact .ended span.offset
  | succ count induction =>
      rw [timesFrom_succ]
      have tiles := sectionTiles_ofSection left
      cases ran : ofSection.run span with
      | mk items result =>
          rw [ran] at tiles
          cases result with
          | error fatal =>
              rw [run_bind_of_error ran]
              exact .stopped tiles
          | ok reached =>
              have ends : ofSection.Reaches span () reached.2 :=
                congrArg Trace.result ran
              obtain ⟨taken, begins, moved⟩ :=
                Opens.carries.ofSection.takes ends
              rw [run_bind_of_ok ran]
              dsimp only
              rw [Trace.notes_after]
              exact .next tiles (induction (left.later begins moved) _)

/-! ## Captures -/

/-- The part of a capture's walk before its sections. -/
def fileHeader (supported : UInt16) : Walk UInt32 := do
  let version ← word
  note (.fileVersion version)
  if version = supported then
    let _reserved ← word
    note (.sessionId (← word))
    let sections ← dword
    note (.sectionCount sections)
    return sections
  else
    stop (.versionMismatch version supported)

theorem ofCapture_eq (supported : UInt16) :
    ofCapture supported = (do
      let count ← fileHeader supported
      times count.toNat fun _ => ofSection) := by
  simp only [ofCapture, fileHeader, bind_assoc]
  congr 1
  funext version
  congr 1
  funext _
  by_cases same : version = supported
  · simp only [if_pos same, bind_assoc, pure_bind]
  · simp only [if_neg same]
    rfl

theorem MeetsUnplaced.fileHeader (supported : UInt16) :
    (fileHeader supported).MeetsUnplaced := by
  refine .bind (.read _) fun version => .bind (.unplaced not_false) fun _ => ?_
  split
  · refine .bind (.read _) fun reserved => .bind (.read _) fun id => ?_
    refine .bind (.unplaced not_false) fun _ => ?_
    refine .bind (.read _) fun count => ?_
    exact .bind (.unplaced not_false) fun _ => .pure count
  · exact .stop _

theorem run_fileHeader (offset : Nat) (header : FileHeader)
    (rest : List UInt8) :
    (fileHeader header.version).run
        ⟨offset, Wire.bytes header.words ++ rest⟩ =
      ⟨header.notes.map .note,
        .ok (header.sectionCount, ⟨offset + 10, rest⟩)⟩ := by
  rw [FileHeader.words]
  simp only [Wire.bytes_append, Wire.bytes_cons_cons, List.append_assoc]
  simp only [fileHeader, run_word_bind, run_note_bind, if_true, run_dword_bind]
  rfl

theorem Reaches.exists_fileHeader {supported : UInt16} {span left : Span}
    {count : UInt32}
    (reached : (fileHeader supported).Reaches span count left) :
    ∃ header : FileHeader, header.version = supported ∧
      span.bytes = Wire.bytes header.words ++ left.bytes := by
  obtain ⟨version, _, readVersion, reached⟩ := reached.of_word_bind
  rw [reaches_note_bind_iff] at reached
  by_cases same : version = supported
  · rw [if_pos same] at reached
    obtain ⟨reserved, _, readReserved, reached⟩ := reached.of_word_bind
    obtain ⟨sessionId, _, readId, reached⟩ := reached.of_word_bind
    obtain ⟨sectionCount, _, readCount, ended⟩ :=
      (reaches_note_bind_iff.mp reached).of_dword_bind
    refine ⟨⟨version, reserved, sessionId, sectionCount⟩, same, ?_⟩
    cases ended
    dsimp only at readReserved readId readCount
    rw [readVersion, readReserved, readId, readCount]
    simp only [FileHeader.words, Wire.bytes_append, Wire.bytes_cons_cons,
      List.append_assoc]
  · rw [if_neg same] at reached
    cases reached

theorem tiles_ofCapture (supported : UInt16) (input : List UInt8) :
    let trace := (ofCapture supported).run ⟨0, input⟩
    Format.Tiles input .capture trace.notes trace.finish := by
  rw [ofCapture_eq]
  have unplaced := (MeetsUnplaced.fileHeader supported).notes ⟨0, input⟩
  cases ran : (fileHeader supported).run ⟨0, input⟩ with
  | mk items result =>
      rw [ran] at unplaced
      cases result with
      | error fatal =>
          rw [run_bind_of_error ran]
          exact .noSections unplaced
      | ok reached =>
          obtain ⟨count, place, rest⟩ := reached
          have ends : (fileHeader supported).Reaches ⟨0, input⟩ count
            ⟨place, rest⟩ := congrArg Trace.result ran
          obtain ⟨header, rfl, rfl⟩ := ends.exists_fileHeader
          cases ran.symm.trans (run_fileHeader 0 header rest)
          have whole := Span.IsRestOf.whole (Wire.bytes header.words ++ rest)
          rw [run_bind_of_ok ran]
          dsimp only
          rw [Trace.notes_after, Trace.finish_after, filterMap_note?]
          exact .sections whole.standAt
            (sectionsTile_timesFrom whole.taken 0 _)

end Walk

/-! ## The notes of a walk -/

namespace Format

/-- The notes of a walk, and where it ends if it comes to its end. -/
theorem tiles_trace (format : Format) (supported : UInt16)
    (input : List UInt8) :
    let trace := format.trace supported input
    ∃ finish, format.Tiles input trace.notes finish ∧
      ∀ left, trace.result = .ok left →
        finish = some left.offset ∧ left.IsRestOf input := by
  have tiles : format.Tiles input
      ((format.walk supported).run ⟨0, input⟩).notes
      ((format.walk supported).run ⟨0, input⟩).finish := by
    cases format with
    | capture => exact Walk.tiles_ofCapture supported input
    | bareSection =>
        exact .bareSection (Walk.sectionTiles_ofSection (.whole input))
  rw [Format.trace_eq]
  refine ⟨_, tiles, ?_⟩
  intro left ended
  cases result : ((format.walk supported).run ⟨0, input⟩).result with
  | error fatal =>
      rw [result] at ended
      cases ended
  | ok reached =>
      rw [result] at ended
      cases ended
      obtain ⟨taken, begins, moved⟩ :=
        (Walk.Opens.carries.ofFormat format supported).takes result
      refine ⟨?_, (Span.IsRestOf.whole input).later begins moved⟩
      rw [Trace.finish, result]

end Format

namespace BufferHeader

/-- The sort and the length of the buffer stand in the input where the header
says that it does. -/
def Stands (header : BufferHeader) (input : List UInt8) : Prop :=
  StandAt input header.offset [header.tag] ∧
    StandAt input (header.offset + 2) (Wire.splitDword header.length)

variable {header : BufferHeader} {format : Format} {supported : UInt16}
  {input : List UInt8}

theorem Opened.stands {before after : List Item}
    (opened : header.Opened format supported input before after) :
    header.Stands input := by
  obtain ⟨skipped, rest, split, place, _⟩ := opened.exists_append
  have left : Span.IsRestOf ⟨header.offset, header.bytes ++ rest⟩ input :=
    ⟨skipped, split, place⟩
  rw [bytes, Wire.bytes_append, List.append_assoc] at left
  exact ⟨left.standAt, left.taken.standAt⟩

/-- A header whose notes a walk tells one after another stands where it says. -/
theorem stands_of_notes
    (told : header.notes <:+: (format.trace supported input).notes) :
    header.Stands input := by
  obtain ⟨before, after, split⟩ := told
  have split : (format.trace supported input).items.filterMap Item.note? =
      (before ++ [.bufferOffset header.index header.offset,
        .bufferTag header.index header.tag]) ++
          .bufferLength header.index header.length :: after := by
    rw [List.append_assoc]
    exact split.symm.trans (List.append_assoc before header.notes after)
  obtain ⟨front, back, items, early, late⟩ :=
    List.filterMap_eq_append_iff.mp split
  obtain ⟨skipped, item, after, rfl, quiet, same, _⟩ :=
    List.filterMap_eq_cons_iff.mp late
  have isNote : item = .note (.bufferLength header.index header.length) := by
    cases item with
    | note found => exact congrArg Item.note (Option.some.inj same)
    | _ => cases same
  rw [isNote, ← List.append_assoc] at items
  have found := items
  rw [Format.trace_eq] at found
  obtain ⟨earlier, offset, tag, _, _, opens, _⟩ :=
    (Walk.Opens.carries.ofFormat format supported).opens found
  -- the notes before the length are those that opening the buffer tells
  have ends := congrArg (List.filterMap Item.note?) opens
  rw [List.filterMap_append, early, List.filterMap_eq_nil_iff.mpr quiet,
    List.append_nil, List.filterMap_append] at ends
  have last := List.append_inj_right' ends rfl
  cases last
  have opened : header.Opened format supported input earlier after := by
    rw [Opened, items, opens, List.append_assoc]
    rfl
  exact opened.stands

/-- A header whose lines a decode prints one after another stands where it
says. -/
theorem stands_of_lines {options : Options}
    (told : header.lines <:+: (decode format options input).lines) :
    header.Stands input := by
  obtain ⟨⟨later, split⟩, _⟩ := notes_decode format options input
  have notes : header.lines.filterMap Line.note? = header.notes := by
    simp only [lines, BufferHeader.notes, List.map_cons, List.map_nil,
      List.filterMap_cons, Line.note?_text, List.filterMap_nil]
  have among := told.filterMap Line.note?
  rw [notes] at among
  apply stands_of_notes
  exact among.trans ⟨[], later, split⟩

end BufferHeader

/-- Where a decode says that a buffer stands and how long it is, it stands.  The
buffers told of follow one another from the end of their section's registers on,
and the sections follow one another, whatever the records are like.  A decode
that is not stopped tells of all of them, and what it leaves unread begins at
the end of the last one. -/
theorem told_buffers_tile (format : Format) (options : Options)
    (input : List UInt8) :
    let transcript := decode format options input
    (∀ header : BufferHeader, header.lines <:+: transcript.lines →
      header.Stands input) ∧
    ∃ tiles finish, format.Tiles input tiles finish ∧
      transcript.notes <+: tiles ∧
      (transcript.report.fatal = none →
        transcript.notes = tiles ∧
          ∃ place, finish = some place ∧ place ≤ input.length ∧
            transcript.report.trailingBytes = some (input.length - place)) := by
  intro transcript
  obtain ⟨told, whole⟩ := notes_decode format options input
  obtain ⟨finish, tiles, ends⟩ :=
    format.tiles_trace options.supportedVersion input
  refine ⟨fun header => BufferHeader.stands_of_lines, _, finish, tiles, told,
    ?_⟩
  intro complete
  refine ⟨whole complete, ?_⟩
  unfold transcript at complete ⊢
  rw [decode_eq_ofResult] at complete ⊢
  obtain ⟨left, ended⟩ := (Transcript.fatal_ofResult _ _).mp complete
  rw [ended]
  have result : (format.trace options.supportedVersion input).result =
      .ok left := by
    unfold Presentation.ending at ended
    split at ended
    · cases ended
    · exact ended
  obtain ⟨finished, rest⟩ := ends left result
  obtain ⟨bound, remaining⟩ := rest.offset_le
  refine ⟨left.offset, finished, bound, ?_⟩
  rw [← remaining]
  rfl

end SessionCapture
