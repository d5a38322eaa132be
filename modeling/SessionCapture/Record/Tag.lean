/-!
# Tag words

The words that say what a buffer, a click or an event is.  A tag that has no
meaning is kept as it was written, so that `tag` undoes `ofTag` on every word.
-/

namespace SessionCapture

inductive BufferKind where
  | telemetry
  | action
  | event
  | unknown (tag : UInt16)
deriving DecidableEq, Repr

inductive ClickKind where
  | error
  | digit
  | other
  | unknown (tag : UInt16)
deriving DecidableEq, Repr

inductive EventKind where
  | error
  | newSecret
  | newChallenge
  | submit
  | responseClear
  | activation
  | deactivation
  | activationChange
  | otherData
  | timeSync
  | controlReset
  | unknown (tag : UInt16)
deriving DecidableEq, Repr

/-- What the session keeps in the first registers of a section. -/
inductive RegisterKind where
  | total
  | ack
  | ackRun
  | nak
  | nakRun
deriving DecidableEq, Repr

private def unknownName (tag : UInt16) : String :=
  s!"Unknown({tag.toNat})"

namespace BufferKind

def ofTag (tag : UInt16) : BufferKind :=
  match tag.toNat with
  | 1 => .telemetry
  | 2 => .action
  | 3 => .event
  | _ => .unknown tag

def tag : BufferKind → UInt16
  | telemetry => 1
  | action => 2
  | event => 3
  | unknown tag => tag

def name : BufferKind → String
  | telemetry => "Telemetry"
  | action => "Action"
  | event => "Event"
  | unknown tag => unknownName tag

end BufferKind

namespace ClickKind

def ofTag (tag : UInt16) : ClickKind :=
  match tag.toNat with
  | 0 => .error
  | 1 => .digit
  | 2 => .other
  | _ => .unknown tag

def tag : ClickKind → UInt16
  | error => 0
  | digit => 1
  | other => 2
  | unknown tag => tag

def name : ClickKind → String
  | error => "Error"
  | digit => "Digit"
  | other => "Other"
  | unknown tag => unknownName tag

end ClickKind

namespace EventKind

def ofTag (tag : UInt16) : EventKind :=
  match tag.toNat with
  | 0 => .error
  | 11 => .newSecret
  | 12 => .newChallenge
  | 13 => .submit
  | 14 => .responseClear
  | 42 => .activation
  | 43 => .deactivation
  | 44 => .activationChange
  | 45 => .otherData
  | 46 => .timeSync
  | 47 => .controlReset
  | _ => .unknown tag

def tag : EventKind → UInt16
  | error => 0
  | newSecret => 11
  | newChallenge => 12
  | submit => 13
  | responseClear => 14
  | activation => 42
  | deactivation => 43
  | activationChange => 44
  | otherData => 45
  | timeSync => 46
  | controlReset => 47
  | unknown tag => tag

def name : EventKind → String
  | error => "Error"
  | newSecret => "NewSecret"
  | newChallenge => "NewChallenge"
  | submit => "Submit"
  | responseClear => "ResponseClear"
  | activation => "Activation"
  | deactivation => "Deactivation"
  | activationChange => "ActivationChange"
  | otherData => "OtherData"
  | timeSync => "TimeSync"
  | controlReset => "ControlReset"
  | unknown tag => unknownName tag

end EventKind

namespace RegisterKind

def ofIndex? : Nat → Option RegisterKind
  | 0 => some .total
  | 1 => some .ack
  | 2 => some .ackRun
  | 3 => some .nak
  | 4 => some .nakRun
  | _ => none

def name : RegisterKind → String
  | total => "Total"
  | ack => "Ack"
  | ackRun => "AckRun"
  | nak => "Nak"
  | nakRun => "NakRun"

end RegisterKind

@[simp] theorem BufferKind.tag_ofTag (tag : UInt16) :
    (BufferKind.ofTag tag).tag = tag := by
  unfold BufferKind.ofTag
  split <;> simp_all [BufferKind.tag, ← UInt16.toNat_inj]

@[simp] theorem ClickKind.tag_ofTag (tag : UInt16) :
    (ClickKind.ofTag tag).tag = tag := by
  unfold ClickKind.ofTag
  split <;> simp_all [ClickKind.tag, ← UInt16.toNat_inj]

@[simp] theorem EventKind.tag_ofTag (tag : UInt16) :
    (EventKind.ofTag tag).tag = tag := by
  unfold EventKind.ofTag
  split <;> simp_all [EventKind.tag, ← UInt16.toNat_inj]

end SessionCapture
