import SessionCapture.Container.Capture
import SessionCapture.Output.Presentation

/-!
# Decoding

A decode walks its input and presents what the walk met.  It always ends in a
report: a fatal condition is told in the last line and in the report, and so is
the number of bytes after the last section.
-/

namespace SessionCapture

structure Transcript where
  lines : List Line
  report : Report
deriving DecidableEq, Repr

namespace Transcript

def stopped (shown : Presentation) (fatal : Fatal) : Transcript where
  lines := shown.lines ++
    [.notice s!"Error reading file(s): {fatal.message}"]
  report := { shown.counts with fatal := some fatal }

def finished (shown : Presentation) (trailing : Nat) : Transcript where
  lines := shown.lines ++
    if trailing = 0 then []
    else [.notice s!"{trailing} bytes left unprocessed in the input file"]
  report := { shown.counts with trailingBytes := some trailing }

end Transcript

/-- Every decode starts with the built-in vocabularies and nothing known. -/
def decode (format : Format) (options : Options) (input : List UInt8) :
    Transcript :=
  let trace := format.trace options.supportedVersion input
  let shown :=
    Presentation.ofItems options (.fresh .builtin) trace.items
  match shown.fatal, trace.result with
  | some fatal, _ => .stopped shown fatal
  | none, .error fatal => .stopped shown fatal
  | none, .ok left => .finished shown left.remaining

/-- Decodes under options that make sense. -/
def decodeChecked (format : Format) (options : Options)
    (input : List UInt8) : Except OptionsError Transcript := do
  options.validate
  return decode format options input

end SessionCapture
