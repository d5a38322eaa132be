import SessionCapture.Fatal

/-!
# What a decode saw and how it ended
-/

namespace SessionCapture

/-- Sections and buffers are counted in 32 bits, and so modulo `2 ^ 32`.  The
other counters have 64 bits, and no input has bytes enough to exhaust these. -/
structure Counts where
  /-- Sections walked to their end. -/
  sections : UInt32 := 0
  /-- Buffers walked to their declared end. -/
  buffers : UInt32 := 0
  movements : Nat := 0
  clicks : Nat := 0
  events : Nat := 0
  corruptRecords : Nat := 0
  desyncedBuffers : UInt32 := 0
  advisories : Nat := 0
deriving DecidableEq, Repr

namespace Counts

instance : Add Counts where
  add left right :=
    { sections := left.sections + right.sections
      buffers := left.buffers + right.buffers
      movements := left.movements + right.movements
      clicks := left.clicks + right.clicks
      events := left.events + right.events
      corruptRecords := left.corruptRecords + right.corruptRecords
      desyncedBuffers := left.desyncedBuffers + right.desyncedBuffers
      advisories := left.advisories + right.advisories }

instance : Zero Counts where
  zero := {}

theorem add_def (left right : Counts) :
    left + right =
      ⟨left.sections + right.sections, left.buffers + right.buffers,
        left.movements + right.movements, left.clicks + right.clicks,
        left.events + right.events,
        left.corruptRecords + right.corruptRecords,
        left.desyncedBuffers + right.desyncedBuffers,
        left.advisories + right.advisories⟩ := rfl

@[simp] theorem zero_add (counts : Counts) : 0 + counts = counts := by
  change ({} : Counts) + counts = counts
  simp [add_def]

@[simp] theorem add_zero (counts : Counts) : counts + 0 = counts := by
  change counts + ({} : Counts) = counts
  simp [add_def]

theorem add_assoc (first second third : Counts) :
    first + second + third = first + (second + third) := by
  simp [add_def, Nat.add_assoc, UInt32.add_assoc]

end Counts

structure Report extends Counts where
  /-- Bytes after the last section, if the decode came that far. -/
  trailingBytes : Option Nat := none
  fatal : Option Fatal := none
deriving DecidableEq, Repr

namespace Report

def isComplete (report : Report) : Bool :=
  report.fatal.isNone

def records (report : Report) : Nat :=
  report.movements + report.clicks + report.events

def summary (report : Report) : String :=
  let counted :=
    s!"{report.sections} sections, {report.buffers} buffers, " ++
      s!"{report.records} records ({report.corruptRecords} corrupt), " ++
      s!"{report.desyncedBuffers} desynced buffers, " ++
      s!"{report.advisories} advisories"
  match report.fatal, report.trailingBytes with
  | some fatal, _ => s!"{counted}; stopped: {fatal.message}"
  | none, some (count + 1) => s!"{counted}; {count + 1} trailing bytes"
  | none, _ => counted

end Report

end SessionCapture
