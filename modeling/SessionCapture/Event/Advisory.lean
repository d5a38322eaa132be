import SessionCapture.Grid.Render
import SessionCapture.Record.Tag

/-!
# What can be wrong with an event

An advisory takes the place of output that an event could not give; the event
itself is sound.  A payload error says that the payload does not have the shape
its event type asks for.
-/

namespace SessionCapture

inductive Advisory where
  | unknownUiType (uiType : String)
  | incompatibleVocabulary (uiType : String) (keySize valSize : UInt16)
  | unconfigured
  | unresolvedDigit (digit : UInt16)
  | secretKeyOutOfRange (entry key keySize : UInt16)
  | grid (error : GridError)
  | invalidUtf8
deriving DecidableEq, Repr

def Advisory.message : Advisory → String
  | unknownUiType _ => "uiType not found in keyVal lookup tables."
  | incompatibleVocabulary uiType keySize valSize =>
      s!"uiType {uiType} vocabulary does not cover " ++
        s!"keySize {keySize} and valSize {valSize}."
  | unconfigured =>
      "Decoder not configured: no usable controller reset has been seen."
  | unresolvedDigit digit =>
      s!"Digit {digit} has no entry in the current challenge."
  | secretKeyOutOfRange entry key keySize =>
      s!"Secret entry {entry} decodes to key {key}, outside keySize {keySize}."
  | grid error => error.message
  | invalidUtf8 => "UTF-8 Decoding Error!"

inductive PayloadError where
  | missing (field : String)
  | unterminated (field : String)
  | notAByte (field : String) (word : UInt16)
  | invalidUtf8 (field : String)
  | zero (field : String)
  | ragged (words : Nat) (keySize : UInt16)
deriving DecidableEq, Repr

def PayloadError.message : PayloadError → String
  | missing field => s!"{field} is missing"
  | unterminated field => s!"{field} is not terminated by a line feed"
  | notAByte field word => s!"{field} holds word {word}, which is not a byte"
  | invalidUtf8 field => s!"{field} is not valid UTF-8"
  | zero field => s!"{field} must be non-zero"
  | ragged words keySize =>
      s!"challenge of {words} words is not a multiple of keySize {keySize}"

inductive InterpretError where
  | unknownEventType (tag : UInt16)
  | malformed (kind : EventKind) (error : PayloadError)
deriving DecidableEq, Repr

def InterpretError.message : InterpretError → String
  | unknownEventType tag => s!"unknown event type {tag}"
  | malformed kind error =>
      s!"malformed {kind.name} payload: {error.message}"

end SessionCapture
