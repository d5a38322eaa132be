import SessionCapture.Decode

/-!
# Sinks

Lines are handed one by one to whatever receives them, and the report follows.
A receiver that fails ends the matter: nothing is handed to it afterwards.
-/

namespace SessionCapture

/-- Hands the lines of a transcript to `emit` and yields the report. -/
def Transcript.emitTo {m : Type → Type} [Monad m] (emit : Line → m Unit)
    (transcript : Transcript) : m Report := do
  transcript.lines.forM emit
  return transcript.report

inductive SinkError where
  | brokenPipe
deriving DecidableEq, Repr

def SinkError.message : SinkError → String
  | brokenPipe => "closed"

/-- A sink with room for so many more lines. -/
structure LimitedSink where
  room : Nat
  held : Array Line
deriving DecidableEq, Repr

namespace LimitedSink

def emit (line : Line) : ExceptT SinkError (StateM LimitedSink) Unit := do
  let sink ← get
  match sink.room with
  | 0 => throw .brokenPipe
  | room + 1 => set (⟨room, sink.held.push line⟩ : LimitedSink)

/-- What becomes of a transcript handed to a sink with room for `limit` lines,
and the lines the sink holds in the end. -/
def receive (limit : Nat) (transcript : Transcript) :
    Except SinkError Report × List Line :=
  let (result, sink) := (transcript.emitTo emit).run.run ⟨limit, #[]⟩
  (result, sink.held.toList)

end LimitedSink

end SessionCapture
