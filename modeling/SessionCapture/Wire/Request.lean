import SessionCapture.Record.FieldReader

/-!
# Requests to readers

Readers are opened one from another.  A request is answered by the one that was
opened last, and moves it, closes it or opens another one.
-/

namespace SessionCapture

namespace Reader

/-- What is asked of a reader. -/
inductive Request where
  | word
  | dword
  /-- The bytes of the words are counted by 64 bits; see `Span.words`. -/
  | words (count : Nat)
  | take (count : Nat)
  | skip (count : Nat)
  | seek (position : Nat)
  | window (count : Nat)
  | close
  | movement
  | click
  | event
deriving DecidableEq, Repr

inductive Answer where
  | word (value : UInt16)
  | dword (value : UInt32)
  | words (values : List UInt16)
  | bytes (values : List UInt8)
  | done
  | truncated (truncation : Truncation)
  | movement (outcome : Except Fragment Movement)
  | click (outcome : Except Fragment Click)
  | event (outcome : Except Breach Event)

/-- Answers a request to read. -/
def reading {α : Type} (primitive : Span → Except Truncation (α × Span))
    (answer : α → Answer) (reader : Reader) : Answer × Reader :=
  match reader.read primitive with
  | (.ok value, later) => (answer value, later)
  | (.error truncation, later) => (.truncated truncation, later)

/-- Answers a request for a record that is nothing but its fields. -/
def readingRecord {α : Type} (kind : RecordKind) (fields : FieldRead α)
    (answer : Except Fragment α → Answer) (reader : Reader) :
    Answer × Reader :=
  let (outcome, later) := reader.readRecord kind fields
  (answer outcome, later)

def readingMovement : Reader → Answer × Reader :=
  readingRecord .movement .movement .movement

def readingClick : Reader → Answer × Reader :=
  readingRecord .action .click .click

def readingEvent (reader : Reader) : Answer × Reader :=
  let (outcome, later) := reader.readEvent
  (.event outcome, later)

/-- Readers opened one from another, the last one on top. -/
structure Stack where
  top : Reader
  below : List Reader
deriving DecidableEq, Repr

namespace Stack

def onTop (stack : Stack) (outcome : Answer × Reader) : Answer × Stack :=
  (outcome.1, { stack with top := outcome.2 })

/-- The reader at the bottom is never closed. -/
def step (stack : Stack) : Request → Answer × Stack
  | .word => stack.onTop (stack.top.reading Span.word .word)
  | .dword => stack.onTop (stack.top.reading Span.dword .dword)
  | .words count => stack.onTop (stack.top.reading (Span.words count) .words)
  | .take count => stack.onTop (stack.top.reading (Span.take count) .bytes)
  | .skip count =>
      stack.onTop (stack.top.reading
        (fun span => (span.skip count).map fun left => ((), left))
        fun _ => .done)
  | .seek position => (.done, { stack with top := stack.top.seek position })
  | .window count =>
      (.done, ⟨stack.top.window count, stack.top :: stack.below⟩)
  | .close =>
      match stack.below with
      | [] => (.done, stack)
      | next :: rest => (.done, ⟨next, rest⟩)
  | .movement => stack.onTop stack.top.readingMovement
  | .click => stack.onTop stack.top.readingClick
  | .event => stack.onTop stack.top.readingEvent

/-- The answers to requests made in order, each with the stack after it. -/
def run (stack : Stack) : List Request → List (Answer × Stack)
  | [] => []
  | request :: rest =>
      let answered := stack.step request
      answered :: run answered.2 rest

end Stack

end Reader

end SessionCapture
