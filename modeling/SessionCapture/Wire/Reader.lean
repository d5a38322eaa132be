import SessionCapture.Wire.Span

/-!
# Readers

A reader is a position in a byte sequence.  It can be moved, and a window of the
bytes before it can be opened as a reader of its own.  What is read from the
bytes that it has not read yet moves it just as far.
-/

namespace SessionCapture

structure Reader where
  /-- Absolute offset of the first byte. -/
  base : Nat
  bytes : List UInt8
  position : Nat
  position_le : position ≤ bytes.length
deriving DecidableEq, Repr

namespace Reader

def ofBytes (base : Nat) (bytes : List UInt8) : Reader :=
  ⟨base, bytes, 0, Nat.zero_le _⟩

def offset (reader : Reader) : Nat :=
  reader.base + reader.position

/-- What is not yet read. -/
def unread (reader : Reader) : Span :=
  ⟨reader.offset, reader.bytes.drop reader.position⟩

def remaining (reader : Reader) : Nat :=
  reader.bytes.length - reader.position

/-- Moves to a position, or to the end if that comes first. -/
def seek (position : Nat) (reader : Reader) : Reader :=
  ⟨reader.base, reader.bytes, min position reader.bytes.length,
    Nat.min_le_right _ _⟩

def advance (count : Nat) (reader : Reader) : Reader :=
  reader.seek (reader.position + count)

def window (count : Nat) (reader : Reader) : Reader :=
  let span := reader.unread.window count
  ofBytes span.offset span.bytes

/-- Reads, and moves past what was read.  A read that fails moves nothing. -/
def read {α : Type} (primitive : Span → Except Truncation (α × Span))
    (reader : Reader) : Except Truncation α × Reader :=
  match primitive reader.unread with
  | .ok (value, left) =>
      (.ok value, reader.advance (left.offset - reader.offset))
  | .error truncation => (.error truncation, reader)

end Reader

end SessionCapture
