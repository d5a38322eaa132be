import SessionCapture.Event.Advisory

/-!
# What earlier events establish for later ones

A controller reset chooses a layout and a vocabulary.  When the vocabulary is
known and covers the layout the context is configured, and grids can be drawn;
otherwise only the layout is known.  A challenge leaves its digits behind, to be
looked up by the responses to it.
-/

namespace SessionCapture

structure Layout where
  /-- Attributes of a digit. -/
  keySize : UInt16
  /-- Values of an attribute, the absent one left out. -/
  valSize : UInt16
  /-- Digits in a visual row of a challenge. -/
  gridX : UInt16
deriving DecidableEq, Repr

/-- A layout and a vocabulary for it.  The width of a cell is computed once,
when these are chosen. -/
structure Configuration where
  layout : Layout
  vocabulary : Vocabulary
  cellWidth : Nat
  cellWidth_eq :
    cellWidth = vocabulary.cellWidth layout.keySize layout.valSize
deriving DecidableEq, Repr

namespace Configuration

def of (layout : Layout) (vocabulary : Vocabulary) : Configuration where
  layout := layout
  vocabulary := vocabulary
  cellWidth := vocabulary.cellWidth layout.keySize layout.valSize
  cellWidth_eq := rfl

def keySize (configuration : Configuration) : Nat :=
  configuration.layout.keySize.toNat

def grid (configuration : Configuration) : Grid where
  vocabulary := configuration.vocabulary
  keySize := configuration.keySize
  cellWidth := configuration.cellWidth

end Configuration

inductive ContextState where
  | unconfigured
  | layoutOnly (layout : Layout)
  | configured (configuration : Configuration)
deriving DecidableEq, Repr

structure Context where
  registry : Registry
  state : ContextState
  /-- The attribute tuples of the challenge's digits, digit zero first. -/
  challenge : Array (List UInt16)
deriving DecidableEq, Repr

namespace Context

def fresh (registry : Registry) : Context :=
  ⟨registry, .unconfigured, #[]⟩

def isConfigured (context : Context) : Bool :=
  match context.state with
  | .configured _ => true
  | _ => false

def configuration (context : Context) : Except Advisory Configuration :=
  match context.state with
  | .configured configuration => .ok configuration
  | _ => .error .unconfigured

/-- The state that a reset to `layout` and `uiType` leads to, and why it is not
a configured one. -/
def stateAfterReset (registry : Registry) (layout : Layout) (uiType : String) :
    ContextState × Option Advisory :=
  match registry.get? uiType with
  | none => (.layoutOnly layout, some (.unknownUiType uiType))
  | some vocabulary =>
      if vocabulary.covers layout.keySize layout.valSize then
        (.configured (.of layout vocabulary), none)
      else
        (.layoutOnly layout,
          some (.incompatibleVocabulary uiType layout.keySize layout.valSize))

/-- The layout always takes effect, and the challenge is forgotten. -/
def reset (context : Context) (layout : Layout) (uiType : String) :
    Context × Option Advisory :=
  let (state, advisory) := stateAfterReset context.registry layout uiType
  (⟨context.registry, state, #[]⟩, advisory)

/-- Cells that do not fill a last tuple are dropped. -/
def storeChallenge (context : Context) (cells : List UInt16) (keySize : Nat) :
    Context :=
  { context with challenge := (wholePieces keySize cells).toArray }

def challengeDigit? (context : Context) (digit : UInt16) :
    Option (List UInt16) :=
  context.challenge[digit.toNat]?

end Context

end SessionCapture
