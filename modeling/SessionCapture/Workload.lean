import SessionCapture.Container.Plan
import SessionCapture.Event.ControlReset
import SessionCapture.Pieces

/-!
# Generated captures

Captures of any size for measuring: a session of rounds, a long stream of
movements, and a stream of records that are mostly cut short or malformed.
-/

namespace SessionCapture

namespace Workload

/-- An event at the place where generated events happen. -/
def eventAt (timestamp : UInt32) (kind : EventKind) (payload : List UInt16) :
    Event where
  header := ⟨timestamp, 7, 9, kind.tag, payload.length.toUInt16⟩
  payload := payload

def controlReset (keySize valSize : UInt16) (uiType challengeMode : String)
    (gridX : UInt16) : ControlReset where
  layout := ⟨keySize, valSize, gridX⟩
  uiType := uiType
  challengeMode := challengeMode
  geometry := ControlReset.defaultGeometry

/-- When a round of a session begins. -/
def roundStart (round : Nat) : UInt32 :=
  (1000 + 100 * round).toUInt32

def roundMovements (round : Nat) : List Movement :=
  (List.range 10).map fun step =>
    ⟨roundStart round + step.toUInt32, (3 * step).toUInt16,
      (2 * step).toUInt16⟩

/-- The digit that a round clicks and submits. -/
def roundDigit (round : Nat) : UInt16 :=
  (round % 3).toUInt16

def roundClick (round : Nat) : Click :=
  ⟨roundStart round + 50, 40, 60, 1, roundDigit round⟩

def roundEvents (round : Nat) : List Event :=
  [eventAt (roundStart round) .newChallenge [1, 2, 3, 4, 5, 6, 7, 8, 9],
    eventAt (roundStart round + 60) .submit [1, roundDigit round]]

def session (rounds : UInt16) : CapturePlan :=
  let numbers := List.range rounds.toNat
  let reset := eventAt 0 .controlReset
    (controlReset 3 9 "grid" "random" 3).payload
  let form := eventAt 9999 .otherData (Text.words "age=42\nhand=right\n")
  { sections :=
      [{ id := 1
         registers := [rounds, rounds, 0, 0, 0]
         buffers :=
          [.telemetry (numbers.flatMap roundMovements),
            .actions (numbers.map roundClick),
            .events (reset :: numbers.flatMap roundEvents ++ [form])] }] }

def sample (number : Nat) : Movement :=
  let timestamp := (16 * number).toUInt32
  ⟨timestamp, (timestamp % 1920).toUInt16, (timestamp % 1080).toUInt16⟩

/-- A stream of movements in buffers of at most 4096. -/
def telemetry (samples : Nat) : CapturePlan :=
  let movements := (List.range samples).map sample
  { sections :=
      [{ id := 1, buffers := (pieces 4096 movements).map .telemetry }] }

/-- Clicks that end in a piece of one more, and time syncs of one word. -/
def corrupt (records : UInt16) : CapturePlan :=
  let numbers := (List.range records.toNat).map Nat.toUInt16
  let timestamp (number : UInt16) := number.toUInt32 * 10
  let clicks := numbers.map fun number =>
    Click.mk (timestamp number) number number 1 (number % 9)
  let actions := BufferPlan.actions clicks
  let events := BufferPlan.events <| numbers.map fun number =>
    eventAt (timestamp number) .timeSync [number]
  { sections :=
      [{ id := 1
         buffers :=
          [{ actions with words := actions.words ++ [1, 0, 2] }, events] }] }

end Workload

end SessionCapture
