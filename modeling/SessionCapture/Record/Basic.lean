import SessionCapture.Record.Tag
import SessionCapture.Wire.Word

/-!
# Records

The three kinds of record a buffer can hold and the words each is written as.
A movement and a click have a fixed size; an event is a header of six words
followed by as many payload words as the header says.  A fragment holds what
could be read of a record that is cut short.
-/

namespace SessionCapture

structure Movement where
  timestamp : UInt32
  x : UInt16
  y : UInt16
deriving DecidableEq, Repr

structure Click where
  timestamp : UInt32
  x : UInt16
  y : UInt16
  tag : UInt16
  value : UInt16
deriving DecidableEq, Repr

structure EventHeader where
  timestamp : UInt32
  x : UInt16
  y : UInt16
  tag : UInt16
  /-- How many payload words follow. -/
  length : UInt16
deriving DecidableEq, Repr

structure Event where
  header : EventHeader
  payload : List UInt16
deriving DecidableEq, Repr

inductive RecordKind where
  | movement
  | action
  | event
deriving DecidableEq, Repr

namespace RecordKind

/-- Fields of fixed position; for an event, those of its header. -/
def fixedFields : RecordKind → Nat
  | movement => 3
  | action => 5
  | event => 5

def name : RecordKind → String
  | movement => "Movement"
  | action => "Action"
  | event => "Event"

def corruptTag : RecordKind → String
  | movement => "CORRUPT_MOVEMENT"
  | action => "CORRUPT_ACTION"
  | event => "CORRUPT_EVENT"

end RecordKind

/-- The leading fields of a record that could not be read whole, the timestamp
first. -/
structure Fragment where
  kind : RecordKind
  fields : List UInt32
deriving DecidableEq, Repr

namespace Fragment

/-- The fields that lie wholly within `words`.  The timestamp takes two words
and every other field one. -/
def ofWords (kind : RecordKind) : List UInt16 → Fragment
  | low :: high :: rest =>
      ⟨kind, Wire.joinWords low high :: rest.map (·.toUInt32)⟩
  | _ => ⟨kind, []⟩

theorem kind_ofWords (kind : RecordKind) (words : List UInt16) :
    (ofWords kind words).kind = kind := by
  unfold ofWords
  split <;> rfl

def timestamp? (fragment : Fragment) : Option UInt32 :=
  fragment.fields.head?

def isComplete (fragment : Fragment) : Bool :=
  fragment.kind.fixedFields ≤ fragment.fields.length

end Fragment

namespace Movement

/-- Size of a movement in bytes. -/
def size : Nat := 8

def words (movement : Movement) : List UInt16 :=
  Wire.splitDword movement.timestamp ++ [movement.x, movement.y]

end Movement

namespace Click

/-- Size of a click in bytes. -/
def size : Nat := 12

def kind (click : Click) : ClickKind :=
  ClickKind.ofTag click.tag

def words (click : Click) : List UInt16 :=
  Wire.splitDword click.timestamp ++
    [click.x, click.y, click.tag, click.value]

end Click

namespace EventHeader

/-- Size of an event header in bytes. -/
def size : Nat := 12

def kind (header : EventHeader) : EventKind :=
  EventKind.ofTag header.tag

/-- Size of the whole record in words, payload included. -/
def recordWords (header : EventHeader) : Nat :=
  6 + header.length.toNat

def words (header : EventHeader) : List UInt16 :=
  Wire.splitDword header.timestamp ++
    [header.x, header.y, header.tag, header.length]

def fragment (header : EventHeader) : Fragment where
  kind := .event
  fields :=
    [header.timestamp, header.x.toUInt32, header.y.toUInt32,
      header.tag.toUInt32, header.length.toUInt32]

end EventHeader

def Event.words (event : Event) : List UInt16 :=
  event.header.words ++ event.payload

end SessionCapture
