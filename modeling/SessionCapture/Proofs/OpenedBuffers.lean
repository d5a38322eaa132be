import SessionCapture.Proofs.Places
import SessionCapture.Proofs.RecordLoops
import SessionCapture.Proofs.SectionCounts

/-!
# The buffers that a walk opens

A walk opens a buffer by telling of its header.  Wherever in a trace this is,
the header stands in the input at the offset that is told, and the items that
follow are those of the records in the bytes after it, as many as the header
declares or as there are, and then the end of the buffer unless the walk stops
there.  A decode that comes so far tells of these records right after the
header.
-/

namespace SessionCapture

/-- What is told of a buffer's header, and where. -/
structure BufferHeader where
  index : Nat
  offset : Nat
  tag : UInt16
  length : UInt32
deriving DecidableEq, Repr

namespace BufferHeader

def notes (header : BufferHeader) : List Note :=
  [.bufferOffset header.index header.offset,
    .bufferTag header.index header.tag,
    .bufferLength header.index header.length]

def items (header : BufferHeader) : List Item :=
  header.notes.map .note

def lines (header : BufferHeader) : List Line :=
  header.notes.map fun found => .notice found.text

def bytes (header : BufferHeader) : List UInt8 :=
  Wire.bytes ([header.tag] ++ Wire.splitDword header.length)

def kind (header : BufferHeader) : BufferKind :=
  BufferKind.ofTag header.tag

/-- The offset of the buffer's records. -/
def start (header : BufferHeader) : Nat :=
  header.offset + 6

/-- The bytes of the buffer's records, as many as the header declares or as many
as there are. -/
def content (header : BufferHeader) (input : List UInt8) : List UInt8 :=
  (input.drop header.start).take (bufferSize header.length)

/-- The reader of the buffer's records: a window on the input. -/
def window (header : BufferHeader) (input : List UInt8) : Reader :=
  ((Reader.ofBytes 0 input).seek header.start).window
    (bufferSize header.length)

theorem length_bytes (header : BufferHeader) : header.bytes.length = 6 := by
  rw [bytes, Wire.length_bytes]
  rfl

theorem bytes_window (header : BufferHeader) (input : List UInt8) :
    (header.window input).unread.bytes = header.content input := by
  change ((Reader.seek header.start (.ofBytes 0 input)).unread.bytes).take _ = _
  rw [Reader.bytes_unread_seek]
  rfl

/-- What can follow the header of a buffer whose records lie in `region`: an
unknown kind or the end of the input stops the walk. -/
inductive Continues (header : BufferHeader) (region : List UInt8)
    (stopped : Prop) : List Item → Prop where
  | unknown :
      recordItems? header.index header.kind region = none → stopped →
      Continues header region stopped []
  | cutOff {records : List Item} :
      recordItems? header.index header.kind region = some records →
      stopped → Continues header region stopped records
  | ended {records : List Item} (later : List Item) :
      recordItems? header.index header.kind region = some records →
      Continues header region stopped (records ++ .bufferEnd :: later)

namespace Continues

variable {header : BufferHeader} {region : List UInt8} {stopped : Prop}
  {items : List Item}

theorem mono {other : Prop} (continues : header.Continues region stopped items)
    (implies : stopped → other) : header.Continues region other items := by
  cases continues with
  | unknown none stops => exact .unknown none (implies stops)
  | cutOff some stops => exact .cutOff some (implies stops)
  | ended later some => exact .ended later some

/-- A walk that goes on has ended the buffer. -/
theorem append (continues : header.Continues region stopped items)
    (goesOn : ¬stopped) (later : List Item) (other : Prop) :
    header.Continues region other (items ++ later) := by
  cases continues with
  | unknown none stops => exact absurd stops goesOn
  | cutOff some stops => exact absurd stops goesOn
  | ended rest some =>
      rw [List.append_assoc, List.cons_append]
      exact .ended _ some

end Continues

end BufferHeader

/-! ## Walks that open buffers -/

namespace Walk

variable {α β : Type}

/-- Whether a walk on the span is stopped. -/
def Stops (walk : Walk α) (span : Span) : Prop :=
  ∃ fatal, (walk.run span).result = .error fatal

/-- A walk that takes its bytes from the front of its span, and that finds each
buffer it opens where it says. -/
structure Opens (walk : Walk α) : Prop where
  takes : ∀ {span left : Span} {value : α}, walk.Reaches span value left →
    ∃ taken, span.bytes = taken ++ left.bytes ∧
      left.offset = span.offset + taken.length
  opens : ∀ {span : Span} {index : Nat} {length : UInt32}
    {before after : List Item},
    (walk.run span).items =
      before ++ .note (.bufferLength index length) :: after →
    ∃ (earlier : List Item) (offset : Nat) (tag : UInt16)
      (skipped rest : List UInt8),
      before = earlier ++ [.note (.bufferOffset index offset),
        .note (.bufferTag index tag)] ∧
      span.bytes =
        skipped ++ (BufferHeader.bytes ⟨index, offset, tag, length⟩ ++ rest) ∧
      offset = span.offset + skipped.length ∧
      BufferHeader.Continues ⟨index, offset, tag, length⟩
        (rest.take (bufferSize length)) (walk.Stops span) after

/-- A walk that opens no buffer. -/
theorem Opens.of_quiet {walk : Walk α}
    (quiet : walk.Meets (·.opensBuffer = false))
    (takes : ∀ {span left : Span} {value : α}, walk.Reaches span value left →
      ∃ taken, span.bytes = taken ++ left.bytes ∧
        left.offset = span.offset + taken.length) : Opens walk where
  takes := takes
  opens := by
    intro span index length before after found
    have member : Item.note (.bufferLength index length) ∈
        (walk.run span).items := by
      rw [found]
      exact List.mem_append_right before List.mem_cons_self
    cases quiet span _ member

/-- A walk that reads nothing and opens no buffer. -/
theorem Opens.of_idle {walk : Walk α}
    (quiet : walk.Meets (·.opensBuffer = false))
    (idle : ∀ {span left : Span} {value : α},
      walk.Reaches span value left → left = span) : Opens walk := by
  refine .of_quiet quiet ?_
  intro span left value reached
  exact ⟨[], by rw [idle reached]; rfl, by rw [idle reached]; rfl⟩

theorem Opens.pure (value : α) : Opens (Pure.pure value : Walk α) :=
  .of_idle (.pure value) fun reached => by cases reached; rfl

theorem Opens.stop (fatal : Fatal) : Opens (stop fatal : Walk α) :=
  .of_idle (.stop fatal) nofun

theorem Opens.emit_singleton {item : Item} (quiet : item.opensBuffer = false) :
    Opens (emit [item]) :=
  .of_idle (.emit_singleton quiet) fun reached => by cases reached; rfl

theorem Opens.word : Opens word := by
  refine .of_quiet (.read _) ?_
  intro span left value reached
  have bound : (Walk.word >>= Pure.pure).Reaches span value left := by
    rw [bind_pure]
    exact reached
  obtain ⟨first, rest, begins, ended⟩ := bound.of_word_bind
  cases ended
  exact ⟨Wire.bytes [value], begins, rfl⟩

theorem Opens.dword : Opens dword := by
  refine .of_quiet (.read _) ?_
  intro span left value reached
  have bound : (Walk.dword >>= Pure.pure).Reaches span value left := by
    rw [bind_pure]
    exact reached
  obtain ⟨first, rest, begins, ended⟩ := bound.of_dword_bind
  cases ended
  exact ⟨Wire.bytes (Wire.splitDword value), begins, rfl⟩

theorem Opens.bind {walk : Walk α} {next : α → Walk β} (first : Opens walk)
    (rest : ∀ value, Opens (next value)) : Opens (walk >>= next) where
  takes := by
    intro span left value reached
    obtain ⟨middleValue, middle, before, after⟩ := reaches_bind_iff.mp reached
    obtain ⟨taken, begins, offset⟩ := first.takes before
    obtain ⟨more, continues, later⟩ := (rest middleValue).takes after
    refine ⟨taken ++ more, ?_, ?_⟩
    · rw [begins, continues, List.append_assoc]
    · rw [later, offset, List.length_append, Nat.add_assoc]
  opens := by
    intro span index length before after found
    cases ran : walk.run span with
    | mk items result =>
        cases result with
        | error fatal =>
            rw [run_bind_of_error ran] at found
            have same := (congrArg Trace.items ran).trans found
            obtain ⟨earlier, offset, tag, skipped, left, split, begins, place,
              continues⟩ := first.opens same
            have stops : (walk >>= next).Stops span :=
              ⟨fatal, by rw [run_bind_of_error ran]⟩
            exact ⟨earlier, offset, tag, skipped, left, split, begins, place,
              continues.mono fun _ => stops⟩
        | ok reached =>
            obtain ⟨value, middle⟩ := reached
            have ends : walk.Reaches span value middle :=
              congrArg Trace.result ran
            rw [run_bind_of_ok ran, Trace.items_after] at found
            rcases exists_of_append_eq found with
              ⟨between, within⟩ | ⟨between, rfl, late⟩
            · have same := (congrArg Trace.items ran).trans within
              rw [within, List.append_assoc] at found
              cases List.append_cancel_left found
              obtain ⟨earlier, offset, tag, skipped, left, split, begins,
                place, continues⟩ := first.opens same
              have goesOn : ¬walk.Stops span := by
                rintro ⟨fatal, stopped⟩
                rw [ends] at stopped
                cases stopped
              exact ⟨earlier, offset, tag, skipped, left, split, begins, place,
                continues.append goesOn _ _⟩
            · obtain ⟨taken, before, moved⟩ := first.takes ends
              obtain ⟨earlier, offset, tag, skipped, left, rfl, begins, place,
                continues⟩ := (rest value).opens late
              refine ⟨items ++ earlier, offset, tag, taken ++ skipped, left,
                (List.append_assoc _ _ _).symm, ?_, ?_, continues.mono ?_⟩
              · rw [before, begins, List.append_assoc]
              · rw [place, moved, List.length_append, Nat.add_assoc]
              · rintro ⟨fatal, stopped⟩
                exact ⟨fatal, by
                  rw [run_bind_of_ok ran, Trace.result_after, stopped]⟩

/-! ## Buffers, sections and captures -/

/-- What follows the header in the walk of a buffer. -/
theorem continues_ofRegion (header : BufferHeader) (span : Span) :
    header.Continues (span.window (bufferSize header.length)).bytes
      ((ofRegion header.index header.tag
        (bufferSize header.length)).Stops span)
      ((ofRegion header.index header.tag
        (bufferSize header.length)).run span).items := by
  have became := regionTrace header.index header.tag
    (bufferSize header.length) span
  unfold Stops
  generalize (ofRegion _ _ _).run span = trace at became ⊢
  cases became with
  | unknown none => exact .unknown none ⟨_, rfl⟩
  | cutOff known _ => exact .cutOff known ⟨_, rfl⟩
  | passed known _ => exact .ended [] known

theorem opensBuffer_of_mem_ofRegion {index size : Nat} {tag : UInt16}
    {span : Span} {item : Item}
    (member : item ∈ ((ofRegion index tag size).run span).items) :
    item.opensBuffer = false := by
  have records {index : Nat} {kind : BufferKind} {region : List UInt8}
      {items : List Item}
      (known : recordItems? index kind region = some items) :
      ∀ item ∈ items, item.opensBuffer = false := by
    intro item member
    have record := isRecord_of_mem_recordItems? known item member
    cases item with
    | note found => cases record
    | _ => rfl
  have quiet : (ofRegion index tag size).Meets (·.opensBuffer = false) := by
    refine Meets.ofRegion ?_ records index tag size
    rfl
  exact quiet span item member

theorem run_ofBuffer (header : BufferHeader) (rest : List UInt8) :
    (ofBuffer header.index).run ⟨header.offset, header.bytes ++ rest⟩ =
      ((ofRegion header.index header.tag (bufferSize header.length)).run
        ⟨header.start, rest⟩).after header.items :=
  run_ofBuffer_header header.index header.offset header.tag header.length rest

theorem Opens.ofBuffer (index : Nat) : Opens (ofBuffer index) where
  takes := by
    intro span left value reached
    obtain ⟨frame, begins⟩ := Reaches.exists_bufferFrame reached
    have ran := run_ofBuffer_frame index span.offset frame left.bytes
    rw [← begins] at ran
    rw [Reaches, ran] at reached
    have same := congrArg (·.2.offset) (Except.ok.inj reached)
    exact ⟨frame.bytes, begins, same.symm⟩
  opens := by
    intro span buffer length before after found
    by_cases short : span.remaining < 6
    · -- too short for a header, and no length is told
      obtain ⟨items, fatal, ran, met⟩ := run_ofBuffer_of_short index short
      have member : Item.note (.bufferLength buffer length) ∈ items := by
        have same := (congrArg Trace.items ran).symm.trans found
        change items = _ at same
        rw [same]
        exact List.mem_append_right before List.mem_cons_self
      rcases met with rfl | ⟨tag, rfl⟩
      · simp at member
      · simp at member
    · obtain ⟨offset, content⟩ := span
      obtain ⟨tag, declared, rest, rfl⟩ :=
        exists_bufferHeader_append (Nat.not_lt.mp short)
      have ran := run_ofBuffer ⟨index, offset, tag, declared⟩ rest
      have continues := continues_ofRegion ⟨index, offset, tag, declared⟩
        ⟨offset + 6, rest⟩
      have split := (congrArg Trace.items ran).symm.trans found
      have early : Item.note (.bufferLength buffer length) ∉
          [Item.note (.bufferOffset index offset),
            .note (.bufferTag index tag)] := by
        simp
      have late : Item.note (.bufferLength buffer length) ∉
          ((ofRegion index tag (bufferSize declared)).run
            ⟨offset + 6, rest⟩).items :=
        fun member => Bool.noConfusion (opensBuffer_of_mem_ofRegion member)
      obtain ⟨rfl, same, rfl⟩ :=
        (List.append_cons_inj_of_notMem early late).mp split
      cases same
      refine ⟨[], offset, tag, [], rest, rfl, rfl, rfl, continues.mono ?_⟩
      rintro ⟨fatal, stopped⟩
      exact ⟨fatal, (congrArg Trace.result ran).trans stopped⟩

theorem Opens.carries : Carries fun _ _ _ walk => Opens walk := by
  have note {found : Note} (outside : found.isOfBuffer = false) :
      Opens (Walk.note found) := by
    apply Opens.emit_singleton
    cases found with
    | bufferLength index words => cases outside
    | _ => rfl
  have keeps : Keeps fun _ walk => Opens walk :=
    ⟨.pure, .bind, .word, .dword, note⟩
  exact keeps.carries .ofBuffer (.emit_singleton rfl) fun _ _ => .stop _

end Walk

/-! ## Buffers of an input -/

namespace BufferHeader

/-- A walk of the input tells of the header after the items `before`, and of the
items `after` right after it. -/
def Opened (header : BufferHeader) (format : Format) (supported : UInt16)
    (input : List UInt8) (before after : List Item) : Prop :=
  (format.trace supported input).items = before ++ (header.items ++ after)

variable {header : BufferHeader} {format : Format} {supported : UInt16}
  {input : List UInt8} {before after : List Item}

/-- A header stands where it says, and what follows it is told of the bytes
after it. -/
theorem Opened.exists_append
    (opened : header.Opened format supported input before after) :
    ∃ skipped rest, input = skipped ++ (header.bytes ++ rest) ∧
      header.offset = skipped.length ∧
      header.Continues (rest.take (bufferSize header.length))
        ((format.walk supported).Stops ⟨0, input⟩) after := by
  have found : ((format.walk supported).run ⟨0, input⟩).items =
      (before ++ [.note (.bufferOffset header.index header.offset),
        .note (.bufferTag header.index header.tag)]) ++
        .note (.bufferLength header.index header.length) :: after := by
    rw [Opened, Format.trace_eq] at opened
    rw [List.append_assoc]
    exact opened
  obtain ⟨earlier, offset, tag, skipped, rest, split, begins, place,
    continues⟩ := (Walk.Opens.carries.ofFormat format supported).opens found
  obtain ⟨rfl, same⟩ := List.append_inj' split rfl
  simp only [List.cons.injEq, Item.note.injEq, Note.bufferOffset.injEq,
    Note.bufferTag.injEq, true_and, and_true] at same
  obtain ⟨rfl, rfl⟩ := same
  rw [Nat.zero_add] at place
  exact ⟨skipped, rest, begins, place, continues⟩

/-- The bytes at the header's offset are those of the header, and its content is
what the walk found after it. -/
theorem Opened.continues
    (opened : header.Opened format supported input before after) :
    (input.drop header.offset).take 6 = header.bytes ∧
      header.Continues (header.content input)
        ((format.walk supported).Stops ⟨0, input⟩) after := by
  obtain ⟨skipped, rest, split, place, continues⟩ := opened.exists_append
  have front : input.drop header.offset = header.bytes ++ rest := by
    rw [place, split, List.drop_left]
  constructor
  · rw [front, List.take_left' header.length_bytes]
  · rw [content, start, ← List.drop_drop, front,
      List.drop_left' header.length_bytes]
    exact continues

/-! ## What a decode tells of a buffer -/

/-- A decode that was not stopped before the header tells of it, then `lines` of
the buffer's records, and then of what the walk meets from the end of the buffer
on, if it comes so far. -/
def Tells (header : BufferHeader) (format : Format) (options : Options)
    (input : List UInt8) (before : List Item) (lines : List Line) : Prop :=
  ∃ records later,
    header.Opened format options.supportedVersion input before
      (records ++ later) ∧
    (later = [] ∨ ∃ others, later = .bufferEnd :: others) ∧
    let context := Presentation.contextAfter options (.fresh .builtin)
      (before ++ header.items ++ records)
    let shown := Presentation.ofItems options context later
    (decode format options input).lines =
      (Presentation.ofItems options (.fresh .builtin) before).lines ++
        (header.lines ++ lines) ++
          (shown.lines ++ Transcript.closing
            (shown.ending (format.trace options.supportedVersion input).result))

variable {options : Options} {records : List Item} {lines : List Line}

theorem ofItems_items (header : BufferHeader) (options : Options)
    (context : Context) :
    Presentation.ofItems options context header.items =
      ⟨header.lines, 0, none⟩ := rfl

/-- The lines of a buffer's records do not depend on what the decode told
before, if they are shown alike in every context. -/
theorem Opened.tells
    (opened : header.Opened format options.supportedVersion input before after)
    (goesOn :
      (Presentation.ofItems options (.fresh .builtin) before).fatal = none)
    (known : recordItems? header.index header.kind (header.content input) =
      some records)
    (shown : ∀ context, ∃ counts,
      Presentation.ofItems options context records = ⟨lines, counts, none⟩) :
    header.Tells format options input before lines := by
  have split : ∃ later, after = records ++ later ∧
      (later = [] ∨ ∃ others, later = .bufferEnd :: others) := by
    cases opened.continues.2 with
    | unknown none _ =>
        rw [known] at none
        cases none
    | cutOff some _ =>
        cases some.symm.trans known
        exact ⟨[], (List.append_nil _).symm, .inl rfl⟩
    | ended later some =>
        cases some.symm.trans known
        exact ⟨_, rfl, .inr ⟨later, rfl⟩⟩
  obtain ⟨later, rfl, ends⟩ := split
  refine ⟨records, later, opened, ends, ?_⟩
  have items : (format.trace options.supportedVersion input).items =
      (before ++ header.items ++ records) ++ later := by
    rw [opened, List.append_assoc, List.append_assoc]
  obtain ⟨counts, told⟩ := shown (Presentation.contextAfter options
    (.fresh .builtin) (before ++ header.items))
  rw [lines_decode, items, Presentation.ofItems_append,
    Presentation.ofItems_append, told, Presentation.ofItems_append,
    ofItems_items]
  generalize Presentation.ofItems options (.fresh .builtin) before = earlier
    at goesOn
  obtain ⟨beforeLines, beforeCounts, fatal⟩ := earlier
  cases goesOn
  simp only [Presentation.followedBy, Presentation.ending, List.append_assoc]

theorem Opened.tells_uninterpreted {human : Bool}
    (opened : header.Opened format supported input before after)
    (known : recordItems? header.index header.kind (header.content input) =
      some records) :
    header.Tells format ⟨supported, false, human⟩ input before
      (records.flatMap (Item.lines human)) := by
  generalize raw : Options.mk supported false human = options
  have version : options.supportedVersion = supported := by rw [← raw]
  have shown (context : Context) (items : List Item) :
      Presentation.ofItems options context items =
        Presentation.raw human items := by
    rw [← raw, Presentation.ofItems_uninterpreted]
  rw [← version] at opened
  refine opened.tells ?_ known ?_
  · rw [shown]
    rfl
  · intro context
    rw [shown]
    exact ⟨_, rfl⟩

end BufferHeader

theorem SectionFrame.noRegisters_counted :
    ([] : List UInt16).length = UInt32.toNat 0 := rfl

theorem SectionFrame.oneBuffer_counted (buffer : BufferFrame) :
    [buffer].length = UInt32.toNat 1 := rfl

/-- A bare section of one buffer. -/
def SectionFrame.single (buffer : BufferFrame) : SectionFrame where
  version := 1
  reserved := 0
  id := 7
  registerCount := 0
  registers := []
  bufferCount := 1
  buffers := [buffer]
  registersCounted := noRegisters_counted
  buffersCounted := oneBuffer_counted buffer

theorem SectionFrame.opened_single (buffer : BufferFrame) (supported : UInt16) :
    BufferHeader.Opened ⟨0, 14, buffer.tag, buffer.length⟩ .bareSection
      supported (single buffer).bytes
      [.note (.sectionVersion 1), .note (.sectionId 7),
        .note (.registerCount 0), .note (.bufferCount 1)]
      (buffer.records 0 ++ [.bufferEnd, .sectionEnd]) := by
  have ran := Walk.run_ofSection_frame 0 (single buffer) []
  have buffers : laidOut (fun frame => frame.bytes.length) BufferFrame.items 0
      (0 + (single buffer).headerSize) [buffer] =
        buffer.items 0 (0 + (single buffer).headerSize) := List.append_nil _
  have records : buffer.items 0 (0 + (single buffer).headerSize) ++
      [.sectionEnd] =
        BufferHeader.items ⟨0, 14, buffer.tag, buffer.length⟩ ++
          (buffer.records 0 ++ [.bufferEnd, .sectionEnd]) := by
    rw [BufferFrame.items, List.append_assoc, List.append_assoc]
    rfl
  rw [List.append_nil] at ran
  rw [BufferHeader.Opened, Format.trace_eq, ← records, ← buffers]
  exact congrArg Trace.items ran

end SessionCapture
