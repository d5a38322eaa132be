import SessionCapture.Numeral
import SessionCapture.Wire.Span

/-!
# Conditions that end a decode
-/

namespace SessionCapture

inductive Fatal where
  | versionMismatch (found supported : UInt16)
  | unknownBufferType (index : Nat) (tag : UInt16)
  | unknownEventType (tag : UInt16) (timestamp : UInt32)
  | truncated (truncation : Truncation)
deriving DecidableEq, Repr

def Truncation.message (truncation : Truncation) : String :=
  s!"truncated input at offset 0x{Numeral.hex 1 truncation.offset}: " ++
    s!"needed {truncation.needed} bytes, {truncation.available} available"

def Fatal.message : Fatal → String
  | versionMismatch found supported =>
      s!"version mismatch: file declares {found}, decoder supports {supported}"
  | unknownBufferType index tag =>
      s!"unknown buffer type {tag} (buffer {index})"
  | unknownEventType tag timestamp =>
      s!"unknown event type {tag} at timestamp {timestamp}"
  | truncated truncation => truncation.message

end SessionCapture
