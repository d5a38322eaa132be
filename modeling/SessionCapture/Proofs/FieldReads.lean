import Mathlib.Algebra.GroupWithZero.Nat
import SessionCapture.Proofs.LeadingFields
import SessionCapture.Wire.Request

/-!
# Reading a record field by field

A record that is read field by field from a reader is the record that stands at
the front of the bytes that the reader has not read yet, or the same fragment of
it.  Where the reader stands then follows from its reads: each of them moves it
by the bytes of one field, and the first one that fails ends them.  `Collects`
says this of a sequence of reads, and that of a record is composed of one step
for each of its fields.
-/

namespace SessionCapture

/-! ## Moving a reader -/

namespace Reader

variable {reader later last : Reader}

/-- The other reader has the same bytes and stands elsewhere in them. -/
structure Moves (reader later : Reader) : Prop where
  base_eq : later.base = reader.base
  bytes_eq : later.bytes = reader.bytes

/-- The other reader stands so many bytes later. -/
structure Advances (count : Nat) (reader later : Reader) : Prop
    extends Moves reader later where
  position_eq : later.position = reader.position + count

theorem remaining_eq (reader : Reader) :
    reader.remaining = reader.unread.bytes.length :=
  List.length_drop.symm

theorem remaining_eq_zero_iff :
    reader.remaining = 0 ↔ reader.unread.bytes = [] := by
  rw [remaining_eq, List.length_eq_zero_iff]

theorem moves_seek (reader : Reader) (position : Nat) :
    reader.Moves (reader.seek position) :=
  ⟨rfl, rfl⟩

theorem Moves.seek_eq (moves : reader.Moves later) (position : Nat) :
    later.seek position = reader.seek position := by
  simp only [seek, moves.base_eq, moves.bytes_eq]

/-- Beyond the end nothing is unread. -/
theorem bytes_unread_seek (position : Nat) (reader : Reader) :
    (reader.seek position).unread.bytes = reader.bytes.drop position := by
  change reader.bytes.drop (min position reader.bytes.length) = _
  by_cases inside : position ≤ reader.bytes.length
  · rw [Nat.min_eq_left inside]
  · have beyond := Nat.le_of_not_le inside
    rw [Nat.min_eq_right beyond, List.drop_length,
      List.drop_eq_nil_of_le beyond]

theorem bytes_unread_advance (count : Nat) (reader : Reader) :
    (reader.advance count).unread.bytes = reader.unread.bytes.drop count := by
  rw [advance, bytes_unread_seek, ← List.drop_drop]
  rfl

theorem advances_advance {count : Nat} (enough : count ≤ reader.remaining) :
    reader.Advances count (reader.advance count) := by
  refine ⟨reader.moves_seek _, ?_⟩
  have inside := reader.position_le
  rw [remaining] at enough
  exact Nat.min_eq_left (by omega)

namespace Advances

variable {first second count : Nat}

theorem zero (reader : Reader) : reader.Advances 0 reader :=
  ⟨⟨rfl, rfl⟩, rfl⟩

theorem trans (left : reader.Advances first later)
    (right : later.Advances second last) :
    reader.Advances (first + second) last := by
  refine ⟨⟨?base, ?bytes⟩, ?position⟩
  case base => rw [right.base_eq, left.base_eq]
  case bytes => rw [right.bytes_eq, left.bytes_eq]
  case position => rw [right.position_eq, left.position_eq, Nat.add_assoc]

theorem bytes_unread (advances : reader.Advances count later) :
    later.unread.bytes = reader.unread.bytes.drop count := by
  change later.bytes.drop later.position =
    (reader.bytes.drop reader.position).drop count
  rw [advances.bytes_eq, advances.position_eq, List.drop_drop]

end Advances

end Reader

/-! ## Reading one value -/

namespace Span

/-- A read of `size` bytes, with the value that they tell. -/
structure Reads {α : Type} (read : Span → Except Truncation (α × Span))
    (size : Nat) (tells : α → List UInt8 → Prop) : Prop where
  of_le : ∀ {span : Span}, size ≤ span.remaining →
    ∃ value, read span = .ok (value, span.drop size) ∧
      tells value (span.bytes.take size)
  of_lt : ∀ {span : Span}, span.remaining < size →
    read span = .error ⟨span.offset, size, span.remaining⟩

theorem Reads.imp {α : Type} {read : Span → Except Truncation (α × Span)}
    {size : Nat} {tells others : α → List UInt8 → Prop}
    (reads : Reads read size tells)
    (follows : ∀ {value content}, tells value content → others value content) :
    Reads read size others where
  of_le := by
    intro span enough
    obtain ⟨value, success, told⟩ := reads.of_le enough
    exact ⟨value, success, follows told⟩
  of_lt := reads.of_lt

theorem reads_word :
    Reads word 2 fun value content => content = Wire.bytes [value] where
  of_le := by
    intro span enough
    obtain ⟨offset, content⟩ := span
    obtain ⟨value, rest, rfl⟩ := Wire.exists_word_append enough
    exact ⟨value, word_bytes_append offset value rest, rfl⟩
  of_lt := word_of_short

theorem reads_dword :
    Reads dword 4 fun value content =>
      content = Wire.bytes (Wire.splitDword value) where
  of_le := by
    intro span enough
    obtain ⟨offset, content⟩ := span
    obtain ⟨value, rest, rfl⟩ := Wire.exists_dword_append enough
    exact ⟨value, dword_bytes_append offset value rest, rfl⟩
  of_lt := dword_of_short

theorem reads_words (count : Nat) :
    Reads (words count) (2 * count) fun values content =>
      values = Wire.words content where
  of_le := by
    intro span enough
    refine ⟨Wire.words (span.bytes.take (2 * count)), ?_, rfl⟩
    rw [words, take_of_le enough]
    rfl
  of_lt := by
    intro span short
    rw [words, take_of_lt short]
    rfl

end Span

namespace Reader

variable {α : Type} {primitive : Span → Except Truncation (α × Span)}
  {size : Nat} {tells : α → List UInt8 → Prop} {reader : Reader}

theorem read_of_le (reads : Span.Reads primitive size tells)
    (enough : size ≤ reader.remaining) :
    ∃ value, reader.read primitive = (.ok value, reader.advance size) ∧
      tells value (reader.unread.bytes.take size) := by
  rw [remaining_eq] at enough
  obtain ⟨value, success, told⟩ := reads.of_le enough
  have distance : (reader.unread.drop size).offset - reader.offset = size :=
    Nat.add_sub_cancel_left _ _
  refine ⟨value, ?_, told⟩
  rw [read, success]
  dsimp only
  rw [distance]

theorem read_of_lt (reads : Span.Reads primitive size tells)
    (short : reader.remaining < size) :
    reader.read primitive =
      (.error ⟨reader.offset, size, reader.remaining⟩, reader) := by
  rw [remaining_eq] at short ⊢
  rw [read, reads.of_lt short]
  rfl

end Reader

/-! ## Reading fields one after another -/

theorem toUInt32_eq_ofNat (value : UInt16) :
    value.toUInt32 = UInt32.ofNat (littleEndian (Wire.bytes [value])) := by
  have joined :=
    toUInt32_joinBytes value.toUInt8 (value / 256).toUInt8
  rw [Wire.joinBytes_split] at joined
  exact joined

theorem eq_ofNat_splitDword (value : UInt32) :
    value =
      UInt32.ofNat (littleEndian (Wire.bytes (Wire.splitDword value))) := by
  have joined := joinWords_eq_ofNat
    value.toUInt16.toUInt8 (value.toUInt16 / 256).toUInt8
    (value / 65536).toUInt16.toUInt8 ((value / 65536).toUInt16 / 256).toUInt8
  rw [Wire.joinBytes_split, Wire.joinBytes_split, Wire.joinWords_split]
    at joined
  exact joined

namespace FieldRead

variable {α β : Type}

/-- How reads of fields of the given sizes end that follow those already
`done`: with a record, if the reader has bytes enough for all of them, and else
with the leading ones.  The reader then stands just after the last one read. -/
inductive Ends (fields : α → List UInt32) (done : List UInt32)
    (sizes : List Nat) (kind : RecordKind) (reader : Reader) :
    Except Truncation α × FieldReader → Prop where
  | whole {record : α} {later : Reader} :
      sizes.sum ≤ reader.remaining →
      fields record = done ++ leadingFields sizes reader.unread.bytes →
      reader.Advances sizes.sum later →
      Ends fields done sizes kind reader
        (.ok record, ⟨later, ⟨kind, fields record⟩⟩)
  | cutShort {truncation : Truncation} {found : List UInt32}
      {later : Reader} :
      reader.remaining < sizes.sum →
      found = leadingFields sizes reader.unread.bytes →
      reader.Advances (sizes.take found.length).sum later →
      Ends fields done sizes kind reader
        (.error truncation, ⟨later, ⟨kind, done ++ found⟩⟩)

/-- The reads take fields of the given sizes, after those `done`, wherever a
reader stands. -/
def Collects (fields : α → List UInt32) (done : List UInt32)
    (sizes : List Nat) (read : FieldRead α) : Prop :=
  ∀ kind reader,
    Ends fields done sizes kind reader
      (read.run.run ⟨reader, ⟨kind, done⟩⟩)

theorem run_bind_of_ok {first : FieldRead α} {next : α → FieldRead β}
    {state later : FieldReader} {value : α}
    (success : first.run.run state = (.ok value, later)) :
    (first >>= next).run.run state = (next value).run.run later := by
  rw [ExceptT.run_bind, StateT.run_bind, success]
  rfl

theorem run_bind_of_error {first : FieldRead α} {next : α → FieldRead β}
    {state later : FieldReader} {truncation : Truncation}
    (failure : first.run.run state = (.error truncation, later)) :
    (first >>= next).run.run state = (.error truncation, later) := by
  rw [ExceptT.run_bind, StateT.run_bind, failure]
  rfl

theorem run_field {primitive : Span → Except Truncation (β × Span)}
    {number : β → UInt32} {kind : RecordKind} {done : List UInt32}
    {reader : Reader} :
    (field primitive number).run.run ⟨reader, ⟨kind, done⟩⟩ =
      match reader.read primitive with
      | (.ok value, later) =>
          (.ok value, ⟨later, ⟨kind, done ++ [number value]⟩⟩)
      | (.error truncation, later) =>
          (.error truncation, ⟨later, ⟨kind, done⟩⟩) :=
  rfl

namespace Collects

variable {fields : α → List UInt32} {done : List UInt32} {sizes : List Nat}

/-- No field is left to be read. -/
protected theorem pure {record : α} (whole : fields record = done) :
    Collects fields done [] (pure record) := by
  subst whole
  intro kind reader
  exact .whole (Nat.zero_le _) (List.append_nil _).symm (.zero reader)

theorem field_bind {primitive : Span → Except Truncation (β × Span)}
    {number : β → UInt32} {size : Nat} {next : β → FieldRead α}
    (reads : Span.Reads primitive size fun value content =>
      number value = UInt32.ofNat (littleEndian content))
    (rest : ∀ value,
      Collects fields (done ++ [number value]) sizes (next value)) :
    Collects fields done (size :: sizes)
      (field primitive number >>= next) := by
  intro kind reader
  by_cases enough : size ≤ reader.remaining
  · obtain ⟨value, success, told⟩ := Reader.read_of_le reads enough
    have advanced := Reader.advances_advance enough
    have first : (field primitive number).run.run ⟨reader, ⟨kind, done⟩⟩ =
        (.ok value, ⟨reader.advance size,
          ⟨kind, done ++ [number value]⟩⟩) := by
      rw [run_field, success]
    have left : (reader.advance size).remaining = reader.remaining - size := by
      rw [Reader.remaining_eq, advanced.bytes_unread, List.length_drop,
        ← Reader.remaining_eq]
    have leading : leadingFields (size :: sizes) reader.unread.bytes =
        number value ::
          leadingFields sizes (reader.advance size).unread.bytes := by
      rw [leadingFields, if_pos (reader.remaining_eq ▸ enough), told,
        advanced.bytes_unread]
    have ends := rest value kind (reader.advance size)
    rw [run_bind_of_ok first]
    generalize (next value).run.run _ = outcome at ends ⊢
    cases ends with
    | whole others whole advances =>
        refine .whole ?_ ?_ ?_
        · rw [List.sum_cons]
          omega
        · rw [whole, leading, List.append_assoc]
          rfl
        · rw [List.sum_cons]
          exact advanced.trans advances
    | cutShort few found advances =>
        rw [List.append_assoc]
        refine .cutShort ?_ ?_ ?_
        · rw [List.sum_cons]
          omega
        · rw [leading, found]
          rfl
        · exact advanced.trans advances
  · have short := Nat.lt_of_not_le enough
    have failure : (field primitive number).run.run ⟨reader, ⟨kind, done⟩⟩ =
        (.error ⟨reader.offset, size, reader.remaining⟩,
          ⟨reader, ⟨kind, done⟩⟩) := by
      rw [run_field, Reader.read_of_lt reads short]
    have nothing : [] = leadingFields (size :: sizes) reader.unread.bytes := by
      rw [leadingFields, if_neg (reader.remaining_eq ▸ enough)]
    have few : reader.remaining < (size :: sizes).sum :=
      Nat.lt_of_lt_of_le short (Nat.le_add_right size sizes.sum)
    have ends : Ends fields done (size :: sizes) kind reader
        (.error ⟨reader.offset, size, reader.remaining⟩,
          ⟨reader, ⟨kind, done ++ []⟩⟩) :=
      .cutShort few nothing (.zero reader)
    rw [List.append_nil] at ends
    rw [run_bind_of_error failure]
    exact ends

theorem word_bind {next : UInt16 → FieldRead α}
    (rest : ∀ value,
      Collects fields (done ++ [value.toUInt32]) sizes (next value)) :
    Collects fields done (2 :: sizes) (word >>= next) := by
  refine field_bind (Span.reads_word.imp ?_) rest
  rintro value _ rfl
  exact toUInt32_eq_ofNat value

theorem dword_bind {next : UInt32 → FieldRead α}
    (rest : ∀ value, Collects fields (done ++ [value]) sizes (next value)) :
    Collects fields done (4 :: sizes) (dword >>= next) := by
  refine field_bind (Span.reads_dword.imp ?_) rest
  rintro value _ rfl
  exact eq_ofNat_splitDword value

end Collects

theorem collects_movement :
    Collects FixedForm.movement.fields [] RecordKind.movement.fieldSizes
      movement :=
  .dword_bind fun _ => .word_bind fun _ => .word_bind fun _ => .pure rfl

theorem collects_click :
    Collects FixedForm.click.fields [] RecordKind.action.fieldSizes click :=
  .dword_bind fun _ => .word_bind fun _ => .word_bind fun _ =>
    .word_bind fun _ => .word_bind fun _ => .pure rfl

theorem collects_eventHeader :
    Collects FixedForm.eventHeader.fields [] RecordKind.event.fieldSizes
      eventHeader :=
  .dword_bind fun _ => .word_bind fun _ => .word_bind fun _ =>
    .word_bind fun _ => .word_bind fun _ => .pure rfl

end FieldRead

/-! ## Reading a record -/

theorem RecordKind.sum_fieldSizes (kind : RecordKind) :
    kind.fieldSizes.sum = kind.size := by
  cases kind <;> rfl

/-- The sizes of the fields together. -/
def Fragment.size (fragment : Fragment) : Nat :=
  (fragment.kind.fieldSizes.take fragment.fields.length).sum

namespace Reader

/-- The outcome of reading is what its unread bytes begin with, and the reader
then stands where the rest of them begins, or just after the part that could be
read. -/
inductive Agrees {α ε : Type} (size : ε → Nat) (reader : Reader) :
    Except ε (α × List UInt8) → Except ε α × Reader → Prop where
  | ok {value : α} {rest : List UInt8} {later : Reader} :
      reader.Advances (reader.remaining - rest.length) later →
      later.unread.bytes = rest →
      Agrees size reader (.ok (value, rest)) (.ok value, later)
  | error {failure : ε} {later : Reader} :
      reader.Advances (size failure) later →
      Agrees size reader (.error failure) (.error failure, later)

/-- A reader that has advanced has the rest of its bytes unread. -/
theorem Agrees.of_advances {α ε : Type} {size : ε → Nat}
    {reader later : Reader} {value : α} {count : Nat}
    (advances : reader.Advances count later) :
    Agrees size reader (.ok (value, later.unread.bytes))
      (.ok value, later) := by
  have taken : reader.remaining - later.unread.bytes.length = count := by
    have inside := later.position_le
    rw [advances.bytes_eq, advances.position_eq] at inside
    rw [← remaining_eq, remaining, remaining, advances.bytes_eq,
      advances.position_eq]
    omega
  refine .ok ?_ rfl
  rw [taken]
  exact advances

variable {α : Type} (form : FixedForm α) {fields : FieldRead α}
  {reader : Reader}

theorem start_of_le
    (collects : fields.Collects form.fields [] form.kind.fieldSizes)
    (enough : form.kind.size ≤ reader.remaining) :
    ∃ record later,
      fields.start form.kind reader =
        (.ok record, ⟨later, ⟨form.kind, form.fields record⟩⟩) ∧
      reader.Advances form.kind.size later ∧
      reader.unread.bytes =
        Wire.bytes (form.words record) ++ later.unread.bytes := by
  have ends := collects form.kind reader
  unfold FieldRead.start
  generalize fields.run.run _ = outcome at ends ⊢
  cases ends with
  | @whole record later _ found advances =>
      rw [RecordKind.sum_fieldSizes] at advances
      refine ⟨record, later, rfl, advances, ?_⟩
      obtain ⟨first, begins⟩ :=
        form.exists_bytes_append (reader.remaining_eq ▸ enough)
      have same := form.fields_eq_of_bytes_append begins
      rw [advances.bytes_unread, form.fields_injective (found.trans same.symm)]
      exact begins
  | cutShort few _ _ =>
      rw [RecordKind.sum_fieldSizes] at few
      exact absurd enough (Nat.not_le.mpr few)

theorem start_of_lt
    (collects : fields.Collects form.fields [] form.kind.fieldSizes)
    (short : reader.remaining < form.kind.size) :
    let fragment : Fragment :=
      ⟨form.kind, leadingFields form.kind.fieldSizes reader.unread.bytes⟩
    ∃ truncation later,
      fields.start form.kind reader = (.error truncation, ⟨later, fragment⟩) ∧
      reader.Advances fragment.size later := by
  have ends := collects form.kind reader
  unfold FieldRead.start
  generalize fields.run.run _ = outcome at ends ⊢
  cases ends with
  | whole enough _ _ =>
      rw [RecordKind.sum_fieldSizes] at enough
      exact absurd enough (Nat.not_le.mpr short)
  | cutShort _ found advances =>
      subst found
      exact ⟨_, _, rfl, advances⟩

/-- Reading a record field by field is reading it from the unread bytes. -/
theorem agrees_readRecord
    (collects : fields.Collects form.fields [] form.kind.fieldSizes)
    (reader : Reader) :
    reader.Agrees Fragment.size (form.read reader.unread.bytes)
      (reader.readRecord form.kind fields) := by
  by_cases enough : form.kind.size ≤ reader.remaining
  · obtain ⟨record, later, ran, advances, begins⟩ :=
      start_of_le form collects enough
    rw [readRecord, ran, begins, form.read_bytes_append]
    exact .of_advances advances
  · have short := Nat.lt_of_not_le enough
    obtain ⟨truncation, later, ran, advances⟩ :=
      start_of_lt form collects short
    rw [readRecord, ran, form.read_of_lt (reader.remaining_eq ▸ short)]
    exact .error advances

section Event

open FieldRead (eventHeader)

theorem start_eventHeader_of_le (enough : EventHeader.size ≤ reader.remaining) :
    ∃ (header : EventHeader) (later : Reader),
      eventHeader.start .event reader =
        (.ok header, ⟨later, header.fragment⟩) ∧
      reader.Advances EventHeader.size later ∧
      reader.unread.bytes =
        Wire.bytes header.words ++ later.unread.bytes :=
  start_of_le .eventHeader FieldRead.collects_eventHeader enough

theorem start_eventHeader_of_lt (short : reader.remaining < EventHeader.size) :
    let fragment : Fragment :=
      ⟨.event, leadingFields RecordKind.event.fieldSizes reader.unread.bytes⟩
    ∃ truncation later,
      eventHeader.start .event reader = (.error truncation, ⟨later, fragment⟩) ∧
      reader.Advances fragment.size later :=
  start_of_lt .eventHeader FieldRead.collects_eventHeader short

theorem readEvent_of_header {header : EventHeader} {later : Reader}
    {fragment : Fragment}
    (ran : eventHeader.start .event reader =
      (.ok header, ⟨later, fragment⟩)) :
    reader.readEvent = later.readPayload header fragment := by
  rw [readEvent, ran]

/-- An event is read from the unread bytes too: its payload is read where the
fields of its header end. -/
theorem agrees_readEvent (reader : Reader) :
    reader.Agrees (fun breach : Breach => breach.fragment.size)
      (Event.read reader.unread.bytes) reader.readEvent := by
  by_cases whole : EventHeader.size ≤ reader.remaining
  · obtain ⟨header, later, ran, advances, begins⟩ :=
      start_eventHeader_of_le whole
    have payload := Span.reads_words header.length.toNat
    rw [readEvent_of_header ran, begins, readPayload]
    by_cases enough : 2 * header.length.toNat ≤ later.remaining
    · obtain ⟨values, success, told⟩ := read_of_le payload enough
      have further := advances_advance enough
      rw [success, Event.read_of_payload_le (later.remaining_eq ▸ enough),
        ← told, ← further.bytes_unread]
      exact .of_advances (advances.trans further)
    · have short := Nat.lt_of_not_le enough
      rw [read_of_lt payload short,
        Event.read_of_payload_lt (later.remaining_eq ▸ short),
        ← remaining_eq]
      exact .error advances
  · have short := Nat.lt_of_not_le whole
    obtain ⟨truncation, later, ran, advances⟩ := start_eventHeader_of_lt short
    rw [readEvent, ran, Event.read_of_lt (reader.remaining_eq ▸ short)]
    exact .error advances

end Event

/-! ## Answering requests for records -/

section Answers

variable {answer : Except Fragment α → Answer} {rest : List UInt8}

theorem readingRecord_of_ok
    (collects : fields.Collects form.fields [] form.kind.fieldSizes)
    {record : α}
    (success : form.read reader.unread.bytes = .ok (record, rest)) :
    ∃ later, reader.readingRecord form.kind fields answer =
        (answer (.ok record), later) ∧
      reader.Advances (reader.remaining - rest.length) later ∧
      later.unread.bytes = rest := by
  have agrees := agrees_readRecord form collects reader
  rw [success] at agrees
  unfold readingRecord
  generalize reader.readRecord form.kind fields = outcome at agrees ⊢
  cases agrees with
  | ok advances behind => exact ⟨_, rfl, advances, behind⟩

theorem readingRecord_of_error
    (collects : fields.Collects form.fields [] form.kind.fieldSizes)
    {fragment : Fragment}
    (failure : form.read reader.unread.bytes = .error fragment) :
    ∃ later, reader.readingRecord form.kind fields answer =
        (answer (.error fragment), later) ∧
      reader.Advances fragment.size later := by
  have agrees := agrees_readRecord form collects reader
  rw [failure] at agrees
  unfold readingRecord
  generalize reader.readRecord form.kind fields = outcome at agrees ⊢
  cases agrees with
  | error advances => exact ⟨_, rfl, advances⟩

theorem readingEvent_of_ok {event : Event}
    (success : Event.read reader.unread.bytes = .ok (event, rest)) :
    ∃ later, reader.readingEvent = (.event (.ok event), later) ∧
      reader.Advances (reader.remaining - rest.length) later ∧
      later.unread.bytes = rest := by
  have agrees := reader.agrees_readEvent
  rw [success] at agrees
  unfold readingEvent
  generalize reader.readEvent = outcome at agrees ⊢
  cases agrees with
  | ok advances behind => exact ⟨_, rfl, advances, behind⟩

theorem readingEvent_of_error {breach : Breach}
    (failure : Event.read reader.unread.bytes = .error breach) :
    ∃ later, reader.readingEvent = (.event (.error breach), later) ∧
      reader.Advances breach.fragment.size later := by
  have agrees := reader.agrees_readEvent
  rw [failure] at agrees
  unfold readingEvent
  generalize reader.readEvent = outcome at agrees ⊢
  cases agrees with
  | error advances => exact ⟨_, rfl, advances⟩

end Answers

end Reader

end SessionCapture
