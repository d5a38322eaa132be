import SessionCapture.Record.FixedForm

/-!
# Reading records from the front of a byte sequence

A movement or click that is cut short is reported as a fragment: its size is
known, so reading can go on after it.  An event that is cut short leaves no
boundary to go on from, and is reported together with the reason.  Reading a
record undoes writing it, whatever follows.
-/

namespace SessionCapture

/-- Why the events of a buffer cannot be followed any further. -/
inductive Desync where
  | headerTruncated (fields : Nat)
  | payloadOverrun (declared : UInt16) (available : Nat)
deriving DecidableEq, Repr

structure Breach where
  fragment : Fragment
  reason : Desync
deriving DecidableEq, Repr

def Desync.message : Desync → String
  | headerTruncated fields =>
      s!"event header truncated after {fields} of 5 fields"
  | payloadOverrun declared available =>
      s!"event payload declares {declared} words " ++
        s!"but only {available} remain in the buffer"

def Movement.read : List UInt8 → Except Fragment (Movement × List UInt8) :=
  FixedForm.movement.read

def Click.read : List UInt8 → Except Fragment (Click × List UInt8) :=
  FixedForm.click.read

def EventHeader.read :
    List UInt8 → Except Fragment (EventHeader × List UInt8) :=
  FixedForm.eventHeader.read

def Event.read (bytes : List UInt8) : Except Breach (Event × List UInt8) :=
  match EventHeader.read bytes with
  | .error short => .error ⟨short, .headerTruncated short.fields.length⟩
  | .ok (header, rest) =>
      let size := 2 * header.length.toNat
      let payload := rest.take size
      if payload.length = size then
        .ok (⟨header, Wire.words payload⟩, rest.drop size)
      else
        .error ⟨header.fragment,
          .payloadOverrun header.length (rest.length / 2)⟩

@[simp] theorem Movement.read_bytes_append (movement : Movement)
    (rest : List UInt8) :
    Movement.read (Wire.bytes movement.words ++ rest) =
      .ok (movement, rest) :=
  FixedForm.movement.read_bytes_append movement rest

@[simp] theorem Click.read_bytes_append (click : Click) (rest : List UInt8) :
    Click.read (Wire.bytes click.words ++ rest) = .ok (click, rest) :=
  FixedForm.click.read_bytes_append click rest

@[simp] theorem EventHeader.read_bytes_append (header : EventHeader)
    (rest : List UInt8) :
    EventHeader.read (Wire.bytes header.words ++ rest) = .ok (header, rest) :=
  FixedForm.eventHeader.read_bytes_append header rest

/-- An event reads back if its header counts its payload. -/
theorem Event.read_bytes_append {event : Event}
    (counted : event.header.length.toNat = event.payload.length)
    (rest : List UInt8) :
    Event.read (Wire.bytes event.words ++ rest) = .ok (event, rest) := by
  rw [Event.read, Event.words, Wire.bytes_append, List.append_assoc,
    EventHeader.read_bytes_append]
  simp only [counted, Wire.words_take_bytes_append, Wire.drop_bytes_append]
  rw [if_pos]
  simp

theorem EventHeader.read_rest {bytes rest : List UInt8} {header : EventHeader}
    (success : EventHeader.read bytes = .ok (header, rest)) :
    EventHeader.size ≤ bytes.length ∧ rest = bytes.drop EventHeader.size :=
  FixedForm.eventHeader.read_rest success

/-- Every event takes at least its header from the input. -/
theorem Event.read_rest_lt {bytes rest : List UInt8} {event : Event}
    (success : Event.read bytes = .ok (event, rest)) :
    rest.length < bytes.length := by
  unfold Event.read at success
  split at success
  · cases success
  · next header body found =>
      have ⟨enough, bodyRest⟩ := EventHeader.read_rest found
      dsimp only at success
      split at success
      · simp only [Except.ok.injEq, Prod.mk.injEq] at success
        rw [← success.2, bodyRest]
        simp only [List.length_drop, EventHeader.size] at enough ⊢
        omega
      · cases success

end SessionCapture
