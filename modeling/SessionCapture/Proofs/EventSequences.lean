import SessionCapture.Proofs.OpenedBuffers

/-!
# The events of a buffer

Events are told apart by their own lengths alone, and yet there is just one way
to write a buffer's bytes as whole events and a rest with which no whole event
begins.  An event buffer is decoded in this way.  The rest, if there is any, is
told as one event cut short, together with what it is short of.
-/

namespace SessionCapture

namespace Event

theorem read_eq_ok_iff {content rest : List UInt8} {event : Event} :
    Event.read content = .ok (event, rest) ↔
      event.Counted ∧ content = Wire.bytes event.words ++ rest := by
  constructor
  · intro success
    exact ⟨counted_of_read success, eq_bytes_append_of_read success⟩
  · rintro ⟨counted, rfl⟩
    exact read_bytes_append counted rest

/-- No whole event stands at the front. -/
def NoneBegins (content : List UInt8) : Prop :=
  ∀ (event : Event) (rest : List UInt8), event.Counted →
    content ≠ Wire.bytes event.words ++ rest

/-- `content` is written as whole events one after another and a rest with which
no whole event begins. -/
structure Splits (content : List UInt8) (events : List Event)
    (rest : List UInt8) : Prop where
  counted : ∀ event ∈ events, event.Counted
  content_eq : content = Wire.bytes (events.flatMap Event.words) ++ rest
  noneBegins : NoneBegins rest

theorem exists_splits (content : List UInt8) :
    ∃ events rest, Splits content events rest := by
  cases found : Event.read content with
  | error breach =>
      refine ⟨[], content, nofun, rfl, ?_⟩
      intro event rest counted begins
      rw [read_eq_ok_iff.mpr ⟨counted, begins⟩] at found
      cases found
  | ok reached =>
      obtain ⟨event, left⟩ := reached
      obtain ⟨counted, begins⟩ := read_eq_ok_iff.mp found
      obtain ⟨events, rest, split⟩ := exists_splits left
      refine ⟨event :: events, rest, ?_, ?_, split.noneBegins⟩
      · intro other member
        rcases List.mem_cons.mp member with rfl | later
        · exact counted
        · exact split.counted other later
      · rw [begins, split.content_eq, List.flatMap_cons, Wire.bytes_append,
          List.append_assoc]
termination_by content.length
decreasing_by exact Event.read_rest_lt found

/-- Every event takes at least its header. -/
theorem noneBegins_of_short {rest : List UInt8}
    (short : rest.length < EventHeader.size) : NoneBegins rest := by
  rintro event more counted rfl
  have size : 6 ≤ event.words.length := by
    rw [Event.words, List.length_append]
    exact Nat.le_add_right 6 event.payload.length
  rw [List.length_append, Wire.length_bytes, EventHeader.size] at short
  omega

/-! ## The rest -/

/-- The length that the header at the front states. -/
def declaredLength (rest : List UInt8) : UInt16 :=
  UInt16.ofNat (littleEndian ((rest.drop 10).take 2))

/-- What the rest is short of: a whole header, or the payload that its header
declares. -/
def shortage (rest : List UInt8) : Desync :=
  if rest.length < EventHeader.size then
    .headerTruncated
      (leadingFields RecordKind.event.fieldSizes rest).length
  else
    .payloadOverrun (declaredLength rest)
      ((rest.length - EventHeader.size) / 2)

/-- The event cut short that a rest is told as. -/
def cutShort (rest : List UInt8) : Breach :=
  ⟨⟨.event, leadingFields RecordKind.event.fieldSizes rest⟩, shortage rest⟩

def restItems (index : Nat) (rest : List UInt8) : List Item :=
  if rest = [] then []
  else [.corrupt (cutShort rest).fragment, .desync index (shortage rest)]

def restLines (index : Nat) (rest : List UInt8) : List Line :=
  if rest = [] then []
  else
    [.corrupt ⟨.event, leadingFields RecordKind.event.fieldSizes rest⟩,
      .notice
        s!"Buffer({index}) desynchronized: {(shortage rest).message}"]

theorem declaredLength_bytes_append (header : EventHeader)
    (body : List UInt8) :
    declaredLength (Wire.bytes header.words ++ body) = header.length := by
  have stated : ((Wire.bytes header.words ++ body).drop 10).take 2 =
      [header.length.toUInt8, (header.length / 256).toUInt8] := rfl
  have joined := Wire.joinBytes_split header.length
  rw [declaredLength, stated, littleEndian, littleEndian, littleEndian]
  exact joined

/-- Bytes that are enough for a header begin with one, and it declares how much
is to follow it. -/
theorem exists_header_append {content : List UInt8}
    (whole : EventHeader.size ≤ content.length) :
    ∃ (header : EventHeader) (body : List UInt8),
      content = Wire.bytes header.words ++ body ∧
      body.length = content.length - EventHeader.size ∧
      header.length = declaredLength content ∧
      header.fragment.fields =
        leadingFields RecordKind.event.fieldSizes content := by
  obtain ⟨header, begins⟩ :=
    FixedForm.eventHeader.exists_bytes_append whole
  refine ⟨header, _, begins, List.length_drop, ?_, ?_⟩
  · rw [begins]
    exact (declaredLength_bytes_append header _).symm
  · exact FixedForm.eventHeader.fields_eq_of_bytes_append begins

theorem exists_read_of_declared_le {content : List UInt8}
    (whole : EventHeader.size ≤ content.length)
    (enough : 2 * (declaredLength content).toNat ≤
      content.length - EventHeader.size) :
    ∃ event rest, Event.read content = .ok (event, rest) ∧
      event.header.length = declaredLength content := by
  obtain ⟨header, body, begins, size, declared, -⟩ :=
    exists_header_append whole
  rw [← declared, ← size] at enough
  have success := read_of_payload_le enough
  rw [← begins] at success
  exact ⟨_, _, success, declared⟩

/-- An event that declares a longer payload than there is. -/
theorem read_of_lt_declared {content : List UInt8}
    (whole : EventHeader.size ≤ content.length)
    (short : content.length - EventHeader.size <
      2 * (declaredLength content).toNat) :
    Event.read content =
      .error ⟨⟨.event, leadingFields RecordKind.event.fieldSizes content⟩,
        .payloadOverrun (declaredLength content)
          ((content.length - EventHeader.size) / 2)⟩ := by
  obtain ⟨header, body, begins, size, declared, fields⟩ :=
    exists_header_append whole
  rw [← declared, ← size] at short
  have failure := read_of_payload_lt short
  rw [← begins] at failure
  rw [failure, ← declared, ← size, ← fields]
  rfl

/-- A rest that holds a whole header is short of the payload it declares. -/
theorem available_lt_declared {rest : List UInt8}
    (noneBegins : NoneBegins rest) (whole : EventHeader.size ≤ rest.length) :
    (rest.length - EventHeader.size) / 2 < (declaredLength rest).toNat := by
  by_contra lacking
  obtain ⟨event, more, success, -⟩ :=
    exists_read_of_declared_le whole (by omega)
  obtain ⟨counted, begins⟩ := read_eq_ok_iff.mp success
  exact noneBegins event more counted begins

theorem read_of_noneBegins {rest : List UInt8}
    (noneBegins : NoneBegins rest) :
    Event.read rest = .error (cutShort rest) := by
  by_cases short : rest.length < EventHeader.size
  · rw [read_of_lt short, cutShort, shortage, if_pos short]
  · have whole := Nat.le_of_not_lt short
    have lacking := available_lt_declared noneBegins whole
    rw [read_of_lt_declared whole (by omega), cutShort, shortage,
      if_neg short]

/-! ## The whole buffer -/

namespace Splits

variable {content rest : List UInt8} {events : List Event}

theorem readAll_eq (split : Splits content events rest) :
    Event.readAll content =
      (events, if rest = [] then none else some (cutShort rest)) := by
  obtain ⟨counted, rfl, noneBegins⟩ := split
  induction events with
  | nil =>
      change Event.readAll rest = _
      by_cases empty : rest = []
      · rw [if_pos empty, empty, readAll_nil]
      · rw [if_neg empty,
          readAll_of_error empty (read_of_noneBegins noneBegins)]
  | cons event events induction =>
      have first := counted event List.mem_cons_self
      have later : ∀ other ∈ events, other.Counted := by
        intro other member
        exact counted other (List.mem_cons_of_mem _ member)
      rw [List.flatMap_cons, Wire.bytes_append, List.append_assoc,
        readAll_of_ok (read_bytes_append first _), induction later]

theorem unique (split : Splits content events rest) {others : List Event}
    {otherRest : List UInt8} (other : Splits content others otherRest) :
    events = others ∧ rest = otherRest := by
  have same : events = others := by
    have both := split.readAll_eq.symm.trans other.readAll_eq
    exact congrArg Prod.fst both
  subst same
  have content := split.content_eq.symm.trans other.content_eq
  exact ⟨rfl, List.append_cancel_left content⟩

theorem eventItems_eq (split : Splits content events rest) (index : Nat) :
    eventItems index content = events.map .event ++ restItems index rest := by
  rw [eventItems, split.readAll_eq, restItems]
  by_cases empty : rest = []
  · simp only [empty, if_true]
  · simp only [empty, if_false]
    rfl

end Splits

theorem lines_restItems (human : Bool) (index : Nat) (rest : List UInt8) :
    (restItems index rest).flatMap (Item.lines human) =
      restLines index rest := by
  rw [restItems, restLines]
  split
  · rfl
  · rfl

theorem lines_items (human : Bool) (events : List Event) :
    (events.map Item.event).flatMap (Item.lines human) =
      events.flatMap Event.lines := by
  rw [List.flatMap_map]
  rfl

end Event

namespace BufferHeader

/-- Wherever an input has an event buffer, clipped or not, its content is whole
events and a rest in one way only, and a decode without interpretation tells of
these events in order and then of the rest.  A rest that holds a whole header is
short of the payload that it declares.  The loop over the records ends. -/
theorem event_buffer_split {header : BufferHeader} {format : Format}
    {supported : UInt16} {input : List UInt8} {before after : List Item}
    (opened : header.Opened format supported input before after)
    (tagged : header.tag = 3) (human : Bool) :
    ∃ events rest,
      Event.Splits (header.content input) events rest ∧
      (∀ {others otherRest},
        Event.Splits (header.content input) others otherRest →
          others = events ∧ otherRest = rest) ∧
      header.Tells format ⟨supported, false, human⟩ input before
        (events.flatMap Event.lines ++ Event.restLines header.index rest) ∧
      (EventHeader.size ≤ rest.length →
        (rest.length - EventHeader.size) / 2 <
          (Event.declaredLength rest).toNat) ∧
      RecordLoop.Runs ⟨Reader.readingEvent, none⟩ header.index
        (header.window input)
        (events.map .event ++ Event.restItems header.index rest) := by
  obtain ⟨events, rest, split⟩ := Event.exists_splits (header.content input)
  have items := split.eventItems_eq header.index
  refine ⟨events, rest, split, ?unique, ?tells, ?overrun, ?runs⟩
  case unique =>
    intro others otherRest other
    exact other.unique split
  case tells =>
    have kind : header.kind = .event := by
      rw [BufferHeader.kind, tagged]
      rfl
    have known : recordItems? header.index header.kind
        (header.content input) =
          some (events.map .event ++ Event.restItems header.index rest) := by
      rw [kind, ← items]
      rfl
    have tells : header.Tells format ⟨supported, false, human⟩ input before _ :=
      opened.tells_uninterpreted known
    rw [List.flatMap_append, Event.lines_items, Event.lines_restItems] at tells
    exact tells
  case overrun =>
    exact Event.available_lt_declared split.noneBegins
  case runs =>
    have runs := runs_events header.index (header.window input)
    rw [header.bytes_window, items] at runs
    exact runs

end BufferHeader

theorem BufferFrame.event_known :
    (3 : UInt16) = 1 ∨ (3 : UInt16) = 2 ∨ (3 : UInt16) = 3 :=
  .inr (.inr rfl)

/-- An event of one payload word, and the timestamp of another one that is cut
short. -/
def BufferFrame.cutEvent : BufferFrame where
  tag := 3
  length := 9
  contents := [5, 0, 0, 0, 1, 0, 2, 0, 13, 0, 1, 0, 9, 0, 7, 0, 0, 0]
  known := event_known
  filled := rfl

theorem BufferHeader.event_buffer_split_cutEvent :
    BufferHeader.Tells ⟨0, 14, 3, 9⟩ .bareSection ⟨1, false, false⟩
      (SectionFrame.single .cutEvent).bytes
      [.note (.sectionVersion 1), .note (.sectionId 7),
        .note (.registerCount 0), .note (.bufferCount 1)]
      [.event ⟨5, 1, 2, 13, 1⟩, .data 5 0 9, .corrupt ⟨.event, [7]⟩,
        .notice ("Buffer(0) desynchronized: " ++
          "event header truncated after 1 of 5 fields")] := by
  obtain ⟨events, rest, split, unique, tells, -, -⟩ :=
    event_buffer_split (SectionFrame.opened_single .cutEvent 1) rfl false
  have whole : Event.Splits
      (content ⟨0, 14, 3, 9⟩ (SectionFrame.single .cutEvent).bytes)
      [⟨⟨5, 1, 2, 13, 1⟩, [9]⟩] [7, 0, 0, 0] := by
    refine ⟨?_, by decide, Event.noneBegins_of_short (by decide)⟩
    intro event member
    rw [List.mem_singleton.mp member]
    rfl
  obtain ⟨rfl, rfl⟩ := unique whole
  exact tells

end SessionCapture
