import SessionCapture.Event.ControlReset
import SessionCapture.Record.Basic

/-!
# Interpreting events

Each event type gives its payload a meaning, told in remarks, and two of them
change the context: a controller reset, and a challenge that can be drawn up in
tuples.  An event that cannot be interpreted leaves the context as it was.
-/

namespace SessionCapture

inductive Remark where
  | text (shown : String)
  | note (advisory : Advisory)
deriving DecidableEq, Repr

namespace Remark

def isNote : Remark → Bool
  | .text _ => false
  | .note _ => true

def message : Remark → String
  | .text shown => shown
  | .note advisory => advisory.message

end Remark

/-- The lines of a grid, or the reason why there are none. -/
def gridRemarks (drawn : Except Advisory (List String)) : List Remark :=
  match drawn with
  | .ok lines => lines.map .text
  | .error advisory => [.note advisory]

namespace Configuration

def render (configuration : Configuration) (cells : List UInt16)
    (columns : Nat) : Except Advisory (List String) :=
  (configuration.grid.render cells columns).mapError .grid

/-- The tuple of a secret entry, which stands for one value of one key; the
other attributes are absent. -/
def secretTuple (configuration : Configuration) (entry : UInt16) :
    Except Advisory (List UInt16) :=
  let layout := configuration.layout
  let key := entry / layout.valSize
  if layout.keySize ≤ key then
    .error (.secretKeyOutOfRange entry key layout.keySize)
  else
    .ok ((List.replicate layout.keySize.toNat 0).set key.toNat
      (entry % layout.valSize + 1))

/-- A secret is one row of digits. -/
def secretGrid (configuration : Configuration) (entries : List UInt16) :
    Except Advisory (List String) := do
  let tuples ← entries.mapM configuration.secretTuple
  configuration.render tuples.flatten entries.length

end Configuration

namespace Context

def resolveDigit (context : Context) (digit : UInt16) :
    Except Advisory (List UInt16) :=
  match context.challengeDigit? digit with
  | some tuple => .ok tuple
  | none => .error (.unresolvedDigit digit)

def secretGrid (context : Context) (entries : List UInt16) :
    Except Advisory (List String) := do
  let configuration ← context.configuration
  configuration.secretGrid entries

/-- A response is one row of the challenge's digits. -/
def responseGrid (context : Context) (digits : List UInt16) :
    Except Advisory (List String) := do
  let configuration ← context.configuration
  let tuples ← digits.mapM context.resolveDigit
  configuration.render tuples.flatten digits.length

/-- Whether a flag word says valid or correct. -/
def holds (flag : UInt16) : Bool :=
  flag = 1

def newSecret (context : Context) :
    List UInt16 → Except PayloadError (List Remark)
  | [] => .error (.missing "validity flag")
  | flag :: entries =>
      let validity := if holds flag then "Valid" else "Invalid"
      .ok (.text s!"{validity} secret generated:" ::
        gridRemarks (context.secretGrid entries))

def submit (context : Context) :
    List UInt16 → Except PayloadError (List Remark)
  | [] => .error (.missing "correctness flag")
  | flag :: digits =>
      let verdict := if holds flag then "Correct" else "Incorrect"
      .ok (.text s!"{verdict} response submitted:" ::
        gridRemarks (context.responseGrid digits))

/-- The challenge is kept even if it cannot be drawn. -/
def newChallenge (context : Context) (cells : List UInt16) :
    Except PayloadError (List Remark × Context) :=
  let heading := Remark.text "Valid challenge generated:"
  match context.configuration with
  | .error advisory => .ok ([heading, .note advisory], context)
  | .ok configuration =>
      if cells.length % configuration.keySize = 0 then
        let drawn := configuration.render cells
          configuration.layout.gridX.toNat
        .ok (heading :: gridRemarks drawn,
          context.storeChallenge cells configuration.keySize)
      else
        .error (.ragged cells.length configuration.layout.keySize)

def controlReset (context : Context) (payload : List UInt16) :
    Except PayloadError (List Remark × Context) := do
  let reset ← ControlReset.parse payload
  let (context, advisory) := context.reset reset.layout reset.uiType
  return (.text "System reset with controller parameters:" ::
    reset.report.map .text ++ advisory.toList.map .note, context)

end Context

/-- Form data is text that ends in a line feed, one field to a line. -/
def formData (payload : List UInt16) : List Remark :=
  .text "Form data:" ::
    match Text.read payload with
    | .ok text =>
        (Text.splitLines text.toList.dropLast).map fun line =>
          .text (String.ofList line)
    | .error _ => [.note .invalidUtf8]

def timeSync : List UInt16 → Except PayloadError (List Remark)
  | low :: high :: _ =>
      .ok [.text "Time Sync :", .text s!"{Wire.joinWords low high}"]
  | _ => .error (.missing "sync time")

namespace Context

def interpret (context : Context) (kind : EventKind) (payload : List UInt16) :
    Except InterpretError (List Remark × Context) :=
  let unchanged (remarks : List Remark) := (remarks, context)
  let checked (outcome : Except PayloadError (List Remark × Context)) :=
    outcome.mapError (.malformed kind)
  match kind with
  | .error => .ok (unchanged [.text "Error event."])
  | .newSecret => checked ((context.newSecret payload).map unchanged)
  | .newChallenge => checked (context.newChallenge payload)
  | .submit => checked ((context.submit payload).map unchanged)
  | .responseClear => .ok (unchanged [.text "Response cleared."])
  | .activation => .ok (unchanged [.text "Telemeter activated."])
  | .deactivation => .ok (unchanged [.text "Telemeter deactivated."])
  | .activationChange =>
      .ok (unchanged [.text "Telemeter activation state change."])
  | .otherData => .ok (unchanged (formData payload))
  | .timeSync => checked ((timeSync payload).map unchanged)
  | .controlReset => checked (context.controlReset payload)
  | .unknown tag => .error (.unknownEventType tag)

/-- The outcome of an event and the context after it. -/
def step (context : Context) (kind : EventKind) (payload : List UInt16) :
    Except InterpretError (List Remark) × Context :=
  match context.interpret kind payload with
  | .ok (remarks, next) => (.ok remarks, next)
  | .error error => (.error error, context)

/-- The outcomes of events in order, each with the context after it. -/
def run (context : Context) :
    List (EventKind × List UInt16) →
      List (Except InterpretError (List Remark) × Context)
  | [] => []
  | (kind, payload) :: rest =>
      let stepped := context.step kind payload
      stepped :: run stepped.2 rest

end Context

end SessionCapture
