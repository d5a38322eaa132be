import SessionCapture.Record.Basic

/-!
# Writing captures

A plan says what to write.  Counts and lengths are those of the contents, as far
as their fields can hold them, unless the plan declares others.
-/

namespace SessionCapture

structure BufferPlan where
  tag : UInt16
  words : List UInt16
  /-- The length to declare in place of the number of words. -/
  declaredWords : Option UInt32 := none
deriving DecidableEq, Repr

structure SectionPlan where
  id : UInt16
  version : UInt16 := 1
  registers : List UInt16 := []
  buffers : List BufferPlan := []
deriving DecidableEq, Repr

structure CapturePlan where
  version : UInt16 := 1
  sessionId : UInt16 := 1
  sections : List SectionPlan := []
  /-- The section count to declare in place of the number of sections. -/
  declaredSections : Option UInt32 := none
  /-- What follows the last section. -/
  trailing : List UInt8 := []
deriving DecidableEq, Repr

namespace BufferPlan

def telemetry (movements : List Movement) : BufferPlan where
  tag := BufferKind.telemetry.tag
  words := movements.flatMap Movement.words

def actions (clicks : List Click) : BufferPlan where
  tag := BufferKind.action.tag
  words := clicks.flatMap Click.words

def events (events : List Event) : BufferPlan where
  tag := BufferKind.event.tag
  words := events.flatMap Event.words

def length (plan : BufferPlan) : UInt32 :=
  plan.declaredWords.getD plan.words.length.toUInt32

def bytes (plan : BufferPlan) : List UInt8 :=
  Wire.bytes (plan.tag :: Wire.splitDword plan.length ++ plan.words)

end BufferPlan

namespace SectionPlan

def header (plan : SectionPlan) : List UInt16 :=
  [plan.version, 0, plan.id] ++
    Wire.splitDword plan.registers.length.toUInt32 ++ plan.registers ++
    Wire.splitDword plan.buffers.length.toUInt32

def bytes (plan : SectionPlan) : List UInt8 :=
  Wire.bytes plan.header ++ plan.buffers.flatMap BufferPlan.bytes

end SectionPlan

namespace CapturePlan

def sectionCount (plan : CapturePlan) : UInt32 :=
  plan.declaredSections.getD plan.sections.length.toUInt32

def header (plan : CapturePlan) : List UInt16 :=
  [plan.version, 0, plan.sessionId] ++ Wire.splitDword plan.sectionCount

def bytes (plan : CapturePlan) : List UInt8 :=
  Wire.bytes plan.header ++ plan.sections.flatMap SectionPlan.bytes ++
    plan.trailing

end CapturePlan

end SessionCapture
