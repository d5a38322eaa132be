import SessionCapture.Decode

/-!
# The two commands

One decodes a capture file in full, the other a bare section without
interpretation.  How a decode ends does not change the exit code.
-/

namespace SessionCapture

inductive Command where
  | decodeCapture
  | decodeSection
deriving DecidableEq, Repr

/-- What a command is given to decode. -/
inductive CommandInput where
  | file (contents : List UInt8)
  | unreadableFile
  | standardInput (contents : List UInt8)
deriving DecidableEq, Repr

structure CommandOutcome where
  exitCode : UInt32
  output : String
deriving DecidableEq, Repr

namespace Command

def usage : String :=
  "Usage: attrib-decode <DATA_FILENAME>\n"

def decoding (format : Format) (options : Options) (input : List UInt8) :
    CommandOutcome :=
  ⟨0, Line.written (decode format options input).lines⟩

/-- A capture is only read from a file, a section from standard input too. -/
def run : Command → CommandInput → CommandOutcome
  | _, .unreadableFile => ⟨1, ""⟩
  | .decodeCapture, .file contents => decoding .capture .full contents
  | .decodeCapture, .standardInput _ => ⟨0, usage⟩
  | .decodeSection, .file contents => decoding .bareSection .raw contents
  | .decodeSection, .standardInput contents =>
      decoding .bareSection .raw contents

end Command

end SessionCapture
