/-!
# Decode options
-/

namespace SessionCapture

structure Options where
  /-- The file format version that is read. -/
  supportedVersion : UInt16
  /-- Whether events are interpreted; if not, no event type is fatal. -/
  interpretEvents : Bool
  /-- Whether movements and clicks are described. -/
  humanLines : Bool
deriving DecidableEq, Repr

inductive OptionsError where
  | zeroVersion
deriving DecidableEq, Repr

def OptionsError.message : OptionsError → String
  | zeroVersion => "supported_version must be non-zero"

namespace Options

/-- The version that captures are written in. -/
def formatVersion : UInt16 := 1

def full : Options :=
  ⟨formatVersion, true, true⟩

def raw : Options :=
  ⟨formatVersion, false, false⟩

/-- No capture is written with version zero. -/
def validate (options : Options) : Except OptionsError Unit :=
  if options.supportedVersion = 0 then
    .error .zeroVersion
  else
    .ok ()

end Options

end SessionCapture
