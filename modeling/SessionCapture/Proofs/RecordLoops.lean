import SessionCapture.Proofs.FieldReads
import SessionCapture.Proofs.WholeRecords

/-!
# The loop over a buffer's records

A buffer's records are read in a loop on a reader that is clipped to the buffer.
Under a stride, every round ends by moving the reader to where the next record
is due, whatever came of this one; without a stride the reader is left where the
record ended.  The loop ends on every reader, and the items that it tells are
those that `recordItems?` finds in the bytes alone.
-/

namespace SessionCapture

/-- How the records of a buffer are read in a loop. -/
structure RecordLoop where
  read : Reader → Reader.Answer × Reader
  /-- The size of every record, if they have one. -/
  stride : Option Nat

def BufferKind.loop? : BufferKind → Option RecordLoop
  | telemetry => some ⟨Reader.readingMovement, some Movement.size⟩
  | action => some ⟨Reader.readingClick, some Click.size⟩
  | event => some ⟨Reader.readingEvent, none⟩
  | unknown _ => none

/-- The items that an answer about a record is told as, and whether the buffer's
other records can still be found. -/
def Reader.Answer.told (index : Nat) : Reader.Answer → List Item × Bool
  | .movement (.ok record) => ([.movement record], true)
  | .click (.ok record) => ([.click record], true)
  | .event (.ok record) => ([.event record], true)
  | .movement (.error fragment) => ([.corrupt fragment], true)
  | .click (.error fragment) => ([.corrupt fragment], true)
  | .event (.error breach) =>
      ([.corrupt breach.fragment, .desync index breach.reason], false)
  | _ => ([], false)

namespace RecordLoop

/-- The reader of the next round, by those before and after a record was
read. -/
def resume (loop : RecordLoop) (start later : Reader) : Reader :=
  match loop.stride with
  | some stride => later.seek (start.position + stride)
  | none => later

/-- What one round tells, and the reader of the next one unless the buffer is
given up. -/
def round (loop : RecordLoop) (index : Nat) (reader : Reader) :
    List Item × Option Reader :=
  let (answer, later) := loop.read reader
  ((answer.told index).1,
    if (answer.told index).2 then some (loop.resume reader later) else none)

section Round

variable {loop : RecordLoop} {index : Nat} {reader later : Reader}
  {answer : Reader.Answer} {items : List Item}

theorem round_of_told (ran : loop.read reader = (answer, later))
    (told : answer.told index = (items, true)) :
    loop.round index reader = (items, some (loop.resume reader later)) := by
  rw [round, ran]
  dsimp only
  rw [told]
  rfl

theorem round_of_gaveUp (ran : loop.read reader = (answer, later))
    (told : answer.told index = (items, false)) :
    loop.round index reader = (items, none) := by
  rw [round, ran]
  dsimp only
  rw [told]
  rfl

end Round

/-- The loop comes to its end, having told items. -/
inductive Runs (loop : RecordLoop) (index : Nat) :
    Reader → List Item → Prop where
  | exhausted {reader : Reader} :
      reader.remaining = 0 → Runs loop index reader []
  | givesUp {reader : Reader} {items : List Item} :
      reader.remaining ≠ 0 → loop.round index reader = (items, none) →
      Runs loop index reader items
  | goesOn {reader next : Reader} {items later : List Item} :
      reader.remaining ≠ 0 → loop.round index reader = (items, some next) →
      Runs loop index next later → Runs loop index reader (items ++ later)

theorem Runs.unique {loop : RecordLoop} {index : Nat} {reader : Reader}
    {left right : List Item} (leftRuns : loop.Runs index reader left)
    (rightRuns : loop.Runs index reader right) : left = right := by
  induction leftRuns generalizing right with
  | exhausted empty =>
      cases rightRuns with
      | exhausted _ => rfl
      | givesUp more _ => exact absurd empty more
      | goesOn more _ _ => exact absurd empty more
  | givesUp more gaveUp =>
      cases rightRuns with
      | exhausted empty => exact absurd empty more
      | givesUp _ alsoGaveUp =>
          rw [gaveUp] at alsoGaveUp
          cases alsoGaveUp
          rfl
      | goesOn _ wentOn _ =>
          rw [gaveUp] at wentOn
          cases wentOn
  | goesOn more wentOn _ induction =>
      cases rightRuns with
      | exhausted empty => exact absurd empty more
      | givesUp _ gaveUp =>
          rw [wentOn] at gaveUp
          cases gaveUp
      | goesOn _ alsoWentOn rest =>
          rw [wentOn] at alsoWentOn
          cases alsoWentOn
          rw [induction rest]

end RecordLoop

/-! ## Records of a fixed size -/

namespace FixedForm

variable {α : Type} (form : FixedForm α) {content : List UInt8}
  {tell : α → Item}

theorem item_of_lt (short : content.length < form.kind.size) :
    form.item tell content =
      .corrupt ⟨form.kind, leadingFields form.kind.fieldSizes content⟩ := by
  rw [item, form.read_of_lt short]

/-- What follows a record's bytes is nothing to it. -/
theorem item_take (content : List UInt8) :
    form.item tell (content.take form.kind.size) = form.item tell content := by
  by_cases enough : form.kind.size ≤ content.length
  · obtain ⟨record, begins⟩ := form.exists_bytes_append enough
    rw [begins, List.take_left' (form.length_bytes record),
      form.item_bytes_append, form.item_bytes]
  · rw [List.take_of_length_le (Nat.le_of_not_le enough)]

end FixedForm

/-- A kind of buffer whose records have a fixed size. -/
structure FixedRecords (α : Type) where
  form : FixedForm α
  buffer : BufferKind
  tell : α → Item
  fieldReads : FieldRead α
  collects : fieldReads.Collects form.fields [] form.kind.fieldSizes
  answer : Except Fragment α → Reader.Answer
  recordItems?_eq : ∀ index content, recordItems? index buffer content =
    some ((pieces form.kind.size content).map (form.item tell))
  loop?_eq : buffer.loop? =
    some ⟨Reader.readingRecord form.kind fieldReads answer,
      some form.kind.size⟩
  told_ok : ∀ index record,
    (answer (.ok record)).told index = ([tell record], true)
  told_error : ∀ index fragment,
    (answer (.error fragment)).told index = ([.corrupt fragment], true)

namespace FixedRecords

def telemetry : FixedRecords Movement where
  form := .movement
  buffer := .telemetry
  tell := .movement
  fieldReads := .movement
  collects := FieldRead.collects_movement
  answer := .movement
  recordItems?_eq _ _ := rfl
  loop?_eq := rfl
  told_ok _ _ := rfl
  told_error _ _ := rfl

def action : FixedRecords Click where
  form := .click
  buffer := .action
  tell := .click
  fieldReads := .click
  collects := FieldRead.collects_click
  answer := .click
  recordItems?_eq _ _ := rfl
  loop?_eq := rfl
  told_ok _ _ := rfl
  told_error _ _ := rfl

variable {α : Type} (records : FixedRecords α)

/-- Reads a record, and answers what came of it. -/
def reading : Reader → Reader.Answer × Reader :=
  Reader.readingRecord records.form.kind records.fieldReads records.answer

/-- One round tells the record at the cursor, or what there is of it, and moves
to where the next one is due. -/
theorem round_eq (index : Nat) (reader : Reader) :
    RecordLoop.round ⟨records.reading, some records.form.kind.size⟩
      index reader =
        ([records.form.item records.tell reader.unread.bytes],
          some (reader.advance records.form.kind.size)) := by
  unfold FixedForm.item
  cases found : records.form.read reader.unread.bytes with
  | ok reached =>
      obtain ⟨record, rest⟩ := reached
      obtain ⟨later, ran, advances, -⟩ :=
        Reader.readingRecord_of_ok records.form records.collects found
      rw [RecordLoop.round_of_told ran (records.told_ok index record)]
      exact congrArg (_, some ·) (advances.seek_eq _)
  | error fragment =>
      obtain ⟨later, ran, advances⟩ :=
        Reader.readingRecord_of_error records.form records.collects found
      rw [RecordLoop.round_of_told ran (records.told_error index fragment)]
      exact congrArg (_, some ·) (advances.seek_eq _)

/-- The loop over records of a fixed size tells the pieces of that size. -/
theorem runs (index : Nat) (reader : Reader) :
    RecordLoop.Runs ⟨records.reading, some records.form.kind.size⟩ index reader
      ((pieces records.form.kind.size reader.unread.bytes).map
        (records.form.item records.tell)) := by
  by_cases empty : reader.unread.bytes = []
  · rw [empty, pieces_nil]
    exact .exhausted (Reader.remaining_eq_zero_iff.mpr empty)
  · have more : reader.remaining ≠ 0 := fun none =>
      empty (Reader.remaining_eq_zero_iff.mp none)
    have rest := runs index (reader.advance records.form.kind.size)
    rw [Reader.bytes_unread_advance] at rest
    rw [pieces_of_ne_nil records.form.kind.size_ne_zero empty, List.map_cons,
      records.form.item_take]
    exact .goesOn more (records.round_eq index reader) rest
termination_by reader.remaining
decreasing_by
  have positive := records.form.kind.size_ne_zero
  rw [Reader.remaining_eq, Reader.remaining_eq,
    Reader.bytes_unread_advance, List.length_drop]
  have count := List.length_pos_iff.mpr empty
  omega

theorem exists_runs {loop : RecordLoop}
    (known : records.buffer.loop? = some loop) (index : Nat)
    (reader : Reader) :
    ∃ items, recordItems? index records.buffer reader.unread.bytes =
        some items ∧ loop.Runs index reader items := by
  cases records.loop?_eq.symm.trans known
  exact ⟨_, records.recordItems?_eq index _, records.runs index reader⟩

end FixedRecords

/-! ## Events -/

namespace Event

/-- An event that is read stands at the front, and the rest follows it. -/
theorem eq_bytes_append_of_read {content rest : List UInt8} {event : Event}
    (success : Event.read content = .ok (event, rest)) :
    content = Wire.bytes event.words ++ rest := by
  by_cases short : content.length < EventHeader.size
  · rw [read_of_lt short] at success
    cases success
  · obtain ⟨header, begins⟩ :=
      FixedForm.eventHeader.exists_bytes_append (Nat.le_of_not_lt short)
    generalize content.drop FixedForm.eventHeader.kind.size = body at begins
    subst begins
    by_cases enough : 2 * header.length.toNat ≤ body.length
    · have whole : (body.take (2 * header.length.toNat)).length % 2 = 0 := by
        rw [List.length_take_of_le enough]
        exact Nat.mul_mod_right 2 _
      have read := read_of_payload_le enough
      change Event.read (Wire.bytes header.words ++ body) = _ at success
      rw [read] at success
      cases success
      change Wire.bytes header.words ++ body = _
      rw [Event.words, Wire.bytes_append, Wire.bytes_words whole,
        List.append_assoc, List.take_append_drop]
    · have read := read_of_payload_lt (Nat.lt_of_not_le enough)
      change Event.read (Wire.bytes header.words ++ body) = _ at success
      rw [read] at success
      cases success

/-- An event is as many words long as its header says. -/
theorem Counted.recordWords_eq {event : Event} (counted : event.Counted) :
    event.header.recordWords = event.words.length := by
  rw [EventHeader.recordWords, counted, Event.words, List.length_append]
  rfl

end Event

/-- The loop over events tells them as they follow one another, up to the first
that is cut short. -/
theorem runs_events (index : Nat) (reader : Reader) :
    RecordLoop.Runs ⟨Reader.readingEvent, none⟩ index reader
      (eventItems index reader.unread.bytes) := by
  by_cases empty : reader.unread.bytes = []
  · rw [empty, eventItems_nil]
    exact .exhausted (Reader.remaining_eq_zero_iff.mpr empty)
  · have more : reader.remaining ≠ 0 := fun none =>
      empty (Reader.remaining_eq_zero_iff.mp none)
    cases found : Event.read reader.unread.bytes with
    | error breach =>
        obtain ⟨later, ran, -⟩ := Reader.readingEvent_of_error found
        rw [eventItems_of_error empty found]
        exact .givesUp more (RecordLoop.round_of_gaveUp ran rfl)
    | ok reached =>
        obtain ⟨event, left⟩ := reached
        obtain ⟨later, ran, -, behind⟩ := Reader.readingEvent_of_ok found
        have rest := runs_events index later
        rw [behind] at rest
        rw [eventItems_of_ok found]
        exact .goesOn more (RecordLoop.round_of_told ran rfl) rest
termination_by reader.remaining
decreasing_by
  rw [Reader.remaining_eq, Reader.remaining_eq, behind]
  exact Event.read_rest_lt found

/-! ## All kinds of buffers -/

namespace RecordLoop

variable {kind : BufferKind} {loop : RecordLoop}

theorem exists_runs (known : kind.loop? = some loop) (index : Nat)
    (reader : Reader) :
    ∃ items, recordItems? index kind reader.unread.bytes = some items ∧
      loop.Runs index reader items := by
  cases kind with
  | telemetry => exact FixedRecords.telemetry.exists_runs known index reader
  | action => exact FixedRecords.action.exists_runs known index reader
  | event =>
      cases known
      exact ⟨_, rfl, runs_events index reader⟩
  | unknown tag => cases known

/-- On every reader the loop comes to its end, with the items that are found in
the unread bytes and no others. -/
theorem runs_iff (known : kind.loop? = some loop) {index : Nat}
    {reader : Reader} {items : List Item} :
    loop.Runs index reader items ↔
      recordItems? index kind reader.unread.bytes = some items := by
  obtain ⟨told, found, runs⟩ := exists_runs known index reader
  rw [found]
  constructor
  · intro other
    rw [runs.unique other]
  · intro same
    cases same
    exact runs

end RecordLoop

end SessionCapture
