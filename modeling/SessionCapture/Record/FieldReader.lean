import SessionCapture.Record.Read
import SessionCapture.Wire.Reader

/-!
# Reading records field by field

A reader that is asked for a record reads its fields one after another and
remembers each of them, so that a record that is cut short is reported by the
fields before the first one that is lacking.  The reader is left where the last
read left it.
-/

namespace SessionCapture

/-- A reader, and what it has read of a record. -/
structure FieldReader where
  reader : Reader
  fragment : Fragment

/-- Reads of fields one after another, up to the first that fails. -/
abbrev FieldRead (α : Type) : Type :=
  ExceptT Truncation (StateM FieldReader) α

namespace FieldRead

/-- Reads one field and remembers its number. -/
def field {α : Type} (primitive : Span → Except Truncation (α × Span))
    (number : α → UInt32) : FieldRead α :=
  fun state =>
    match state.reader.read primitive with
    | (.ok value, later) =>
        (.ok value, ⟨later, { state.fragment with
          fields := state.fragment.fields ++ [number value] }⟩)
    | (.error truncation, later) =>
        (.error truncation, { state with reader := later })

def word : FieldRead UInt16 :=
  field Span.word (·.toUInt32)

def dword : FieldRead UInt32 :=
  field Span.dword id

def movement : FieldRead Movement :=
  return { timestamp := ← dword, x := ← word, y := ← word }

def click : FieldRead Click :=
  return {
    timestamp := ← dword, x := ← word, y := ← word, tag := ← word
    value := ← word }

def eventHeader : FieldRead EventHeader :=
  return {
    timestamp := ← dword, x := ← word, y := ← word, tag := ← word
    length := ← word }

/-- Reads the fields of a record at a reader that has read none of them. -/
def start {α : Type} (kind : RecordKind) (fields : FieldRead α)
    (reader : Reader) : Except Truncation α × FieldReader :=
  fields.run.run ⟨reader, ⟨kind, []⟩⟩

end FieldRead

namespace Reader

/-- Reads a record that is nothing but its fields. -/
def readRecord {α : Type} (kind : RecordKind) (fields : FieldRead α)
    (reader : Reader) : Except Fragment α × Reader :=
  match fields.start kind reader with
  | (.ok record, later) => (.ok record, later.reader)
  | (.error _, later) => (.error later.fragment, later.reader)

/-- Reads the payload that a header declares. -/
def readPayload (header : EventHeader) (fragment : Fragment)
    (reader : Reader) : Except Breach Event × Reader :=
  let available := reader.remaining / 2
  match reader.read (Span.words header.length.toNat) with
  | (.ok payload, later) => (.ok ⟨header, payload⟩, later)
  | (.error _, later) =>
      (.error ⟨fragment, .payloadOverrun header.length available⟩, later)

/-- Reads the header of an event field by field and then its payload. -/
def readEvent (reader : Reader) : Except Breach Event × Reader :=
  match FieldRead.eventHeader.start .event reader with
  | (.error _, ⟨later, fragment⟩) =>
      (.error ⟨fragment, .headerTruncated fragment.fields.length⟩, later)
  | (.ok header, ⟨later, fragment⟩) => later.readPayload header fragment

end Reader

end SessionCapture
