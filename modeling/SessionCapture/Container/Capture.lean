import SessionCapture.Container.Buffer
import SessionCapture.Container.Walk

/-!
# Sections and captures

A capture is a file header and the sections it counts.  A section is a header,
registers and buffers, each counted in the stream.  A buffer's declared length
alone says where the next one starts, whatever its records look like.
-/

namespace SessionCapture

/-- One bare section, or a file header followed by sections. -/
inductive Format where
  | capture
  | bareSection
deriving DecidableEq, Repr

/-- Size in bytes of a buffer's records, as declared by its length. -/
def bufferSize (length : UInt32) : Nat :=
  2 * length.toNat

namespace Walk

def ofRecords (index : Nat) (tag : UInt16) (region : List UInt8) : Walk Unit :=
  match recordItems? index (BufferKind.ofTag tag) region with
  | some items => emit items
  | none => stop (.unknownBufferType index tag)

def ofBuffer (index : Nat) : Walk Unit := do
  note (.bufferOffset index (← peek Span.offset))
  let tag ← word
  note (.bufferTag index tag)
  let length ← dword
  note (.bufferLength index length)
  ofRecords index tag (← peek (Span.window (bufferSize length))).bytes
  skip (bufferSize length)
  emit [.bufferEnd]

def ofRegister (index : Nat) : Walk Unit := do
  note (.register index (← word))

def ofSection : Walk Unit := do
  note (.sectionVersion (← word))
  let _reserved ← word
  note (.sectionId (← word))
  let registers ← dword
  note (.registerCount registers)
  times registers.toNat ofRegister
  let buffers ← dword
  note (.bufferCount buffers)
  times buffers.toNat ofBuffer
  emit [.sectionEnd]

/-- The version comes first, and nothing else is read under another version. -/
def ofCapture (supported : UInt16) : Walk Unit := do
  let version ← word
  note (.fileVersion version)
  if version = supported then
    let _reserved ← word
    note (.sessionId (← word))
    let sections ← dword
    note (.sectionCount sections)
    times sections.toNat fun _ => ofSection
  else
    stop (.versionMismatch version supported)

end Walk

def Format.walk (format : Format) (supported : UInt16) : Walk Unit :=
  match format with
  | .capture => .ofCapture supported
  | .bareSection => .ofSection

/-- The items of a whole input, and the bytes after its last section. -/
def Format.trace (format : Format) (supported : UInt16)
    (input : List UInt8) : Trace Span :=
  (·.2) <$> (format.walk supported).run ⟨0, input⟩

end SessionCapture
