import SessionCapture.Event.Context
import SessionCapture.Wire.Text

/-!
# The payload of a controller reset

Key size, value size, two texts each ended by a line feed, the width of the
challenge, and seventeen layout words that are reported but not used.  Words
after those are ignored.  A payload is refused at its first field that cannot be
read.
-/

namespace SessionCapture

structure ControlReset where
  layout : Layout
  uiType : String
  challengeMode : String
  geometry : List UInt16
deriving DecidableEq, Repr

namespace ControlReset

def geometryNames : List String :=
  ["challengeChallengeDimY", "challengeChallengeResX", "challengeChallengeResY",
    "challengeResponseDimX", "challengeResponseDimY", "challengeResponseResX",
    "challengeResponseResY", "secretChallengeDimX", "secretChallengeDimY",
    "secretChallengeResX", "secretChallengeResY", "secretResponseDimX",
    "secretResponseDimY", "secretResponseResX", "secretResponseResY",
    "secretSizeMin", "secretSizeMax"]

/-- The geometry that controllers announce unless told otherwise. -/
def defaultGeometry : List UInt16 :=
  [3, 300, 300, 3, 1, 300, 100, 3, 1, 300, 100, 3, 1, 300, 100, 4, 4]

def lineFeed : UInt16 := 10

abbrev Parser : Type → Type :=
  StateT (List UInt16) (Except PayloadError)

namespace Parser

def word (field : String) : Parser UInt16
  | word :: rest => .ok (word, rest)
  | [] => .error (.missing field)

def nonZero (field : String) : Parser UInt16 := do
  let value ← word field
  if value = 0 then
    throw (.zero field)
  else
    return value

/-- Text up to a line feed, which is consumed with it. -/
def line (field : String) : Parser String := fun words =>
  match words.span (· ≠ lineFeed) with
  | (_, []) => .error (.unterminated field)
  | (body, _ :: rest) =>
      match Text.read body with
      | .ok text => .ok (text, rest)
      | .error (.notAByte word) => .error (.notAByte field word)
      | .error .invalidUtf8 => .error (.invalidUtf8 field)

def reset : Parser ControlReset := do
  let keySize ← nonZero "keySize"
  let valSize ← nonZero "valSize"
  let uiType ← line "uiType"
  let challengeMode ← line "challengeMode"
  let gridX ← nonZero "challengeChallengeDimX"
  let geometry ← geometryNames.mapM word
  return ⟨⟨keySize, valSize, gridX⟩, uiType, challengeMode, geometry⟩

end Parser

def parse (payload : List UInt16) : Except PayloadError ControlReset :=
  (Parser.reset.run payload).map (·.1)

/-- The payload that states the given parameters. -/
def payload (reset : ControlReset) : List UInt16 :=
  [reset.layout.keySize, reset.layout.valSize] ++
    Text.words reset.uiType ++ [lineFeed] ++
    Text.words reset.challengeMode ++ [lineFeed] ++
    [reset.layout.gridX] ++ reset.geometry

/-- The parameters as lines of text. -/
def report (reset : ControlReset) : List String :=
  [s!"keySize = {reset.layout.keySize}",
    s!"valSize = {reset.layout.valSize}",
    s!"uiType = {reset.uiType}",
    s!"challengeMode = {reset.challengeMode}",
    s!"challengeChallengeDimX = {reset.layout.gridX}"] ++
  (geometryNames.zip reset.geometry).map fun (name, value) =>
    s!"{name} = {value}"

end ControlReset

end SessionCapture
