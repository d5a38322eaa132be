import Mathlib.Algebra.GroupWithZero.Nat
import SessionCapture.Proofs.EventSequences
import SessionCapture.Proofs.ReaderViews

/-!
# What is reported of a record

A reader that is asked for a record may have too few bytes left for it.  The
number of these bytes decides what is reported: the whole record, or else the
fields that lie wholly within them, and of an event also what it is short of.
The reader moves past all that is reported and no further.
-/

namespace SessionCapture

/-- How many fields of a record lie wholly within `count` bytes, if the record
has more bytes than these.  Its timestamp takes four and every other field
two. -/
def fieldsWithin (count : Nat) : Nat :=
  if count < 4 then 0 else 1 + (count - 4) / 2

namespace RecordKind

theorem fixedFields_pos (kind : RecordKind) : 0 < kind.fixedFields := by
  cases kind <;> decide

theorem length_leadingFields (kind : RecordKind) (content : List UInt8) :
    (leadingFields kind.fieldSizes content).length =
      min kind.fixedFields (fieldsWithin content.length) := by
  have positive := kind.fixedFields_pos
  rw [kind.fieldSizes_eq, leadingFields, fieldsWithin]
  by_cases enough : 4 ≤ content.length
  · rw [if_pos enough, if_neg (Nat.not_lt.mpr enough), List.length_cons,
      leadingFields_replicate, List.length_map, Wire.length_words,
      List.length_take, List.length_drop]
    omega
  · rw [if_neg enough, if_pos (Nat.lt_of_not_le enough), Nat.min_zero]
    rfl

theorem length_leadingFields_of_lt {kind : RecordKind} {content : List UInt8}
    (short : content.length < kind.size) :
    (leadingFields kind.fieldSizes content).length =
      fieldsWithin content.length := by
  have positive := kind.fixedFields_pos
  rw [kind.size_eq] at short
  rw [length_leadingFields]
  apply Nat.min_eq_right
  rw [fieldsWithin]
  split
  · exact Nat.zero_le _
  · omega

theorem length_leadingFields_of_le {kind : RecordKind} {content : List UInt8}
    (enough : kind.size ≤ content.length) :
    (leadingFields kind.fieldSizes content).length = kind.fixedFields := by
  rw [kind.size_eq] at enough
  rw [length_leadingFields]
  apply Nat.min_eq_left
  rw [fieldsWithin, if_neg (by omega)]
  omega

/-- The fields are those of the kind that stand where the reader is and lie
wholly within what it has not read yet, and `later` stands just after them. -/
structure Reaches (kind : RecordKind) (reader : Reader)
    (fields : List UInt32) (later : Reader) : Prop where
  fields_eq : fields = leadingFields kind.fieldSizes reader.unread.bytes
  advances :
    reader.Advances (kind.fieldSizes.take fields.length).sum later

end RecordKind

/-! ## Records of a fixed size -/

namespace FixedRecords

variable {α : Type} (records : FixedRecords α)

/-- What a reader reports of a record of a fixed size, and where it stands
then.  The next record can be found in any case. -/
structure Reported (reader : Reader) (outcome : Reader.Answer × Reader) :
    Prop where
  whole_iff : (∃ record, outcome.1 = records.answer (.ok record)) ↔
    records.form.kind.size ≤ reader.remaining
  whole : records.form.kind.size ≤ reader.remaining →
    ∃ record, outcome.1 = records.answer (.ok record) ∧
      records.form.fields record =
        leadingFields records.form.kind.fieldSizes reader.unread.bytes ∧
      reader.Advances records.form.kind.size outcome.2
  cutShort : reader.remaining < records.form.kind.size →
    ∃ fields, outcome.1 =
        records.answer (.error ⟨records.form.kind, fields⟩) ∧
      fields.length = fieldsWithin reader.remaining ∧
      records.form.kind.Reaches reader fields outcome.2
  resumes : ∀ index, (outcome.1.told index).2 = true

section Reading

variable {records} {reader : Reader}

theorem reading_of_lt (short : reader.remaining < records.form.kind.size) :
    ∃ later, records.reading reader =
        (records.answer (.error ⟨records.form.kind,
          leadingFields records.form.kind.fieldSizes reader.unread.bytes⟩),
          later) ∧
      records.form.kind.Reaches reader
        (leadingFields records.form.kind.fieldSizes reader.unread.bytes)
        later := by
  rw [Reader.remaining_eq] at short
  obtain ⟨later, ran, advances⟩ := Reader.readingRecord_of_error
    records.form records.collects (records.form.read_of_lt short)
  exact ⟨later, ran, rfl, advances⟩

theorem reading_of_le (enough : records.form.kind.size ≤ reader.remaining) :
    ∃ record later, records.reading reader =
        (records.answer (.ok record), later) ∧
      records.form.fields record =
        leadingFields records.form.kind.fieldSizes reader.unread.bytes ∧
      reader.Advances records.form.kind.size later := by
  obtain ⟨record, success, fields⟩ :=
    records.form.read_of_le (reader.remaining_eq ▸ enough)
  obtain ⟨later, ran, advances, -⟩ :=
    Reader.readingRecord_of_ok records.form records.collects success
  rw [List.length_drop, ← Reader.remaining_eq, Nat.sub_sub_self enough]
    at advances
  exact ⟨record, later, ran, fields, advances⟩

end Reading

theorem reported_reading
    (distinct : ∀ record fragment,
      records.answer (.ok record) ≠ records.answer (.error fragment))
    (reader : Reader) :
    records.Reported reader (records.reading reader) := by
  refine ⟨?iff, ?whole, ?cutShort, ?resumes⟩
  case iff =>
    constructor
    · rintro ⟨record, same⟩
      by_contra lacking
      obtain ⟨later, reads, -⟩ := reading_of_lt (Nat.lt_of_not_le lacking)
      rw [reads] at same
      exact distinct record _ same.symm
    · intro enough
      obtain ⟨record, later, reads, -⟩ := reading_of_le enough
      exact ⟨record, congrArg Prod.fst reads⟩
  case whole =>
    intro enough
    obtain ⟨record, later, reads, fields, advances⟩ := reading_of_le enough
    rw [reads]
    exact ⟨record, rfl, fields, advances⟩
  case cutShort =>
    intro short
    obtain ⟨later, reads, reaches⟩ := reading_of_lt short
    rw [reads]
    refine ⟨_, rfl, ?_, reaches⟩
    rw [Reader.remaining_eq] at short ⊢
    exact RecordKind.length_leadingFields_of_lt short
  case resumes =>
    intro index
    rcases Nat.lt_or_ge reader.remaining records.form.kind.size with
      short | enough
    · obtain ⟨later, reads, -⟩ := reading_of_lt short
      rw [reads, records.told_error]
    · obtain ⟨record, later, reads, -⟩ := reading_of_le enough
      rw [reads, records.told_ok]

end FixedRecords

/-! ## Events -/

namespace Event

/-- What a reader reports of an event, and where it stands then.  Only a whole
event tells where the next one can be found. -/
structure Reported (reader : Reader) (outcome : Reader.Answer × Reader) :
    Prop where
  whole_iff : (∃ event, outcome.1 = .event (.ok event)) ↔
    EventHeader.size ≤ reader.remaining ∧
      2 * (declaredLength reader.unread.bytes).toNat ≤
        reader.remaining - EventHeader.size
  whole : EventHeader.size ≤ reader.remaining →
    2 * (declaredLength reader.unread.bytes).toNat ≤
      reader.remaining - EventHeader.size →
    ∃ event, outcome.1 = .event (.ok event) ∧
      Wire.bytes event.words =
        reader.unread.bytes.take (2 * event.header.recordWords) ∧
      event.header.length = declaredLength reader.unread.bytes ∧
      event.payload.length = event.header.length.toNat ∧
      reader.Advances (2 * event.header.recordWords) outcome.2
  headerTruncated : reader.remaining < EventHeader.size →
    ∃ fields, outcome.1 = .event
        (.error ⟨⟨.event, fields⟩, .headerTruncated fields.length⟩) ∧
      fields.length = fieldsWithin reader.remaining ∧
      RecordKind.event.Reaches reader fields outcome.2
  payloadOverrun : EventHeader.size ≤ reader.remaining →
    reader.remaining - EventHeader.size <
      2 * (declaredLength reader.unread.bytes).toNat →
    ∃ fields, outcome.1 = .event
        (.error ⟨⟨.event, fields⟩,
          .payloadOverrun (declaredLength reader.unread.bytes)
            ((reader.remaining - EventHeader.size) / 2)⟩) ∧
      fields.length = RecordKind.event.fixedFields ∧
      fields =
        leadingFields RecordKind.event.fieldSizes reader.unread.bytes ∧
      reader.Advances EventHeader.size outcome.2
  resumes_iff : ∀ index, (outcome.1.told index).2 = true ↔
    ∃ event, outcome.1 = .event (.ok event)

end Event

namespace Reader

section ReadingEvent

variable {reader : Reader}

theorem readingEvent_of_lt (short : reader.remaining < EventHeader.size) :
    let fields :=
      leadingFields RecordKind.event.fieldSizes reader.unread.bytes
    ∃ later, reader.readingEvent =
        (.event (.error ⟨⟨.event, fields⟩, .headerTruncated fields.length⟩),
          later) ∧
      RecordKind.event.Reaches reader fields later := by
  rw [remaining_eq] at short
  obtain ⟨later, ran, advances⟩ :=
    readingEvent_of_error (Event.read_of_lt short)
  exact ⟨later, ran, rfl, advances⟩

theorem readingEvent_of_payload_lt
    (whole : EventHeader.size ≤ reader.remaining)
    (short : reader.remaining - EventHeader.size <
      2 * (Event.declaredLength reader.unread.bytes).toNat) :
    ∃ later, reader.readingEvent =
        (.event (.error
          ⟨⟨.event,
              leadingFields RecordKind.event.fieldSizes reader.unread.bytes⟩,
            .payloadOverrun (Event.declaredLength reader.unread.bytes)
              ((reader.remaining - EventHeader.size) / 2)⟩),
          later) ∧
      reader.Advances EventHeader.size later := by
  rw [remaining_eq] at whole short ⊢
  obtain ⟨later, ran, advances⟩ :=
    readingEvent_of_error (Event.read_of_lt_declared whole short)
  have complete : (leadingFields RecordKind.event.fieldSizes
      reader.unread.bytes).length = RecordKind.event.fixedFields :=
    RecordKind.length_leadingFields_of_le whole
  rw [Fragment.size, complete] at advances
  exact ⟨later, ran, advances⟩

theorem readingEvent_of_payload_le
    (whole : EventHeader.size ≤ reader.remaining)
    (enough : 2 * (Event.declaredLength reader.unread.bytes).toNat ≤
      reader.remaining - EventHeader.size) :
    ∃ (event : Event) (later : Reader),
      reader.readingEvent = (.event (.ok event), later) ∧
      event.Counted ∧
      reader.unread.bytes.take (2 * event.header.recordWords) =
        Wire.bytes event.words ∧
      event.header.length = Event.declaredLength reader.unread.bytes ∧
      reader.Advances (2 * event.header.recordWords) later := by
  rw [remaining_eq] at whole enough
  obtain ⟨event, rest, success, declared⟩ :=
    Event.exists_read_of_declared_le whole enough
  obtain ⟨counted, begins⟩ := Event.read_eq_ok_iff.mp success
  obtain ⟨later, ran, advances, -⟩ := readingEvent_of_ok success
  have size : (Wire.bytes event.words).length =
      2 * event.header.recordWords := by
    rw [Wire.length_bytes, counted.recordWords_eq]
  rw [remaining_eq, begins, List.length_append, Nat.add_sub_cancel, size]
    at advances
  refine ⟨event, later, ran, counted, ?_, declared, advances⟩
  rw [begins, ← size, List.take_left]

theorem exists_event_iff :
    (∃ event, reader.readingEvent.1 = .event (.ok event)) ↔
      EventHeader.size ≤ reader.remaining ∧
        2 * (Event.declaredLength reader.unread.bytes).toNat ≤
          reader.remaining - EventHeader.size := by
  constructor
  · rintro ⟨event, same⟩
    have header : EventHeader.size ≤ reader.remaining := by
      by_contra lacking
      obtain ⟨later, reads, -⟩ :=
        readingEvent_of_lt (Nat.lt_of_not_le lacking)
      rw [reads] at same
      cases same
    refine ⟨header, ?_⟩
    by_contra lacking
    obtain ⟨later, reads, -⟩ :=
      readingEvent_of_payload_lt header (Nat.lt_of_not_le lacking)
    rw [reads] at same
    cases same
  · rintro ⟨header, payload⟩
    obtain ⟨event, later, reads, -⟩ :=
      readingEvent_of_payload_le header payload
    exact ⟨event, congrArg Prod.fst reads⟩

end ReadingEvent

theorem reported_readingEvent (reader : Reader) :
    Event.Reported reader reader.readingEvent := by
  refine ⟨exists_event_iff, ?whole, ?header, ?payload, ?resumes⟩
  case whole =>
    intro header payload
    obtain ⟨event, later, reads, counted, bytes, declared, advances⟩ :=
      readingEvent_of_payload_le header payload
    rw [reads]
    exact ⟨event, rfl, bytes.symm, declared, counted.symm, advances⟩
  case header =>
    intro short
    obtain ⟨later, reads, reaches⟩ := readingEvent_of_lt short
    rw [reads]
    refine ⟨_, rfl, ?_, reaches⟩
    rw [remaining_eq] at short ⊢
    exact RecordKind.length_leadingFields_of_lt short
  case payload =>
    intro header short
    obtain ⟨later, reads, advances⟩ :=
      readingEvent_of_payload_lt header short
    rw [reads]
    refine ⟨_, rfl, ?_, rfl, advances⟩
    rw [remaining_eq] at header
    exact RecordKind.length_leadingFields_of_le header
  case resumes =>
    intro index
    cases found : Event.read reader.unread.bytes with
    | error breach =>
        obtain ⟨later, reads, -⟩ := readingEvent_of_error found
        rw [reads]
        constructor
        · intro resumes
          cases resumes
        · rintro ⟨event, same⟩
          cases same
    | ok reached =>
        obtain ⟨later, reads, -⟩ := readingEvent_of_ok found
        rw [reads]
        exact ⟨fun _ => ⟨reached.1, rfl⟩, fun _ => rfl⟩

/-- Whatever a reader has left, a record is reported whole just if all of its
bytes are there, and else with the fields that are there wholly; the reader has
then moved past what it reports and no further.  An event may be short of its
header or of the payload that its header declares, and the next event is then
out of reach. -/
theorem records_reported_as_readable (reader : Reader) :
    FixedRecords.telemetry.Reported reader reader.readingMovement ∧
      FixedRecords.action.Reported reader reader.readingClick ∧
      Event.Reported reader reader.readingEvent := by
  refine ⟨?movement, ?click, reader.reported_readingEvent⟩
  case movement =>
    exact FixedRecords.telemetry.reported_reading nofun reader
  case click =>
    exact FixedRecords.action.reported_reading nofun reader

/-- Of seven bytes the last one belongs to no field that is read. -/
example :
    (ofBytes 0 [5, 0, 0, 0, 1, 0, 2]).readingMovement =
      (.movement (.error ⟨.movement, [5, 1]⟩),
        (ofBytes 0 [5, 0, 0, 0, 1, 0, 2]).advance 6) := rfl

end Reader

end SessionCapture
