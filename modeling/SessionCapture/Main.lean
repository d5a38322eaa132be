import SessionCapture.Command

/-!
# Command line

`decode [FILE]` decodes a capture file and `section [FILE]` a bare section, read
from standard input when no file is named.
-/

namespace SessionCapture

def readFile (path : String) : IO CommandInput := do
  try
    let contents ← IO.FS.readBinFile path
    return .file contents.toList
  catch _ =>
    IO.eprintln s!"failed to read {path}"
    return .unreadableFile

partial def readRest (stream : IO.FS.Stream) (contents : ByteArray) :
    IO ByteArray := do
  let more ← stream.read 65536
  if more.isEmpty then
    return contents
  else
    readRest stream (contents ++ more)

def readStandardInput : IO CommandInput := do
  let contents ← readRest (← IO.getStdin) .empty
  return .standardInput contents.toList

def finish (outcome : CommandOutcome) : IO UInt32 := do
  IO.print outcome.output
  return outcome.exitCode

end SessionCapture

open SessionCapture in
def main : List String → IO UInt32
  | ["decode"] => finish (Command.decodeCapture.run (.standardInput []))
  | ["decode", path] => do
      finish (Command.decodeCapture.run (← readFile path))
  | ["section"] => do
      finish (Command.decodeSection.run (← readStandardInput))
  | ["section", path] => do
      finish (Command.decodeSection.run (← readFile path))
  | _ => do
      IO.eprintln "expected decode or section, and at most one file"
      return 2
