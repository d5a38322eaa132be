import SessionCapture.Proofs.Recordings
import SessionCapture.Proofs.ReportedLines

/-!
# Records that count as corrupt

A report counts as records all that were read whole, and as corrupt both those
that were cut short and the events that the interpreter finds malformed.  The
latter are counted twice, so that the two numbers are not of separate records.
-/

namespace SessionCapture

/-- Whether an item is a record that was read whole. -/
def Item.isWhole : Item → Bool
  | .movement _ | .click _ | .event _ => true
  | _ => false

namespace Showing

variable (options : Options) (showing : Showing)

/-- Whether a line says that what is shown is corrupt. -/
def isCorrupt : Bool :=
  (showing.lines options).any Line.isCorrupt

/-- A record that was read whole and is not said to be corrupt. -/
def isSound : Bool :=
  showing.item.isWhole && !showing.isCorrupt options

/-- A record that was read whole and is said to be corrupt all the same. -/
def isMalformed : Bool :=
  showing.item.isWhole && showing.isCorrupt options

/-- What is said to be corrupt because it was not read whole. -/
def isCutShort : Bool :=
  !showing.item.isWhole && showing.isCorrupt options

end Showing

namespace Counts

/-- The records counted, of all kinds. -/
def records (counts : Counts) : Nat :=
  counts.movements + counts.clicks + counts.events

theorem Counter.records : Counter Counts.records id where
  zero := rfl
  add left right := by
    simp only [Counts.records, add_def]
    omega
  ofNat_add _ _ := rfl

end Counts

/-! ## One item -/

namespace Presentation

/-- An outcome adds no records, and at most one that is corrupt. -/
theorem records_ofOutcome (header : EventHeader)
    (outcome : Except InterpretError (List Remark)) :
    (ofOutcome header outcome).counts.movements = 0 ∧
      (ofOutcome header outcome).counts.clicks = 0 ∧
      (ofOutcome header outcome).counts.corruptRecords ≤ 1 := by
  match outcome with
  | .ok remarks => exact ⟨rfl, rfl, Nat.zero_le 1⟩
  | .error (.malformed kind error) => exact ⟨rfl, rfl, Nat.le_refl 1⟩
  | .error (.unknownEventType tag) => exact ⟨rfl, rfl, Nat.zero_le 1⟩

theorem records_ofEvent (options : Options) (context : Context)
    (event : Event) :
    (ofEvent options context event).1.counts.movements = 0 ∧
      (ofEvent options context event).1.counts.clicks = 0 ∧
      (ofEvent options context event).1.counts.events = 1 ∧
      (ofEvent options context event).1.counts.corruptRecords ≤ 1 := by
  unfold ofEvent
  split
  · obtain ⟨movements, clicks, corrupt⟩ := records_ofOutcome event.header
      (context.step event.header.kind event.payload).1
    exact ⟨movements, clicks, rfl, corrupt⟩
  · exact ⟨rfl, rfl, rfl, Nat.zero_le 1⟩

/-- The interpreter says of no other event that it is corrupt. -/
theorem malformed_of_corruptRecords {header : EventHeader}
    {outcome : Except InterpretError (List Remark)}
    (corrupt : (ofOutcome header outcome).counts.corruptRecords = 1) :
    ∃ kind error, outcome = .error (.malformed kind error) := by
  match outcome with
  | .ok remarks => cases corrupt
  | .error (.malformed kind error) => exact ⟨kind, error, rfl⟩
  | .error (.unknownEventType tag) => cases corrupt

end Presentation

namespace Showing

variable {options : Options}

theorem records_counts (showing : Showing) :
    (showing.counts options).records =
      if showing.item.isWhole then 1 else 0 := by
  obtain ⟨context, item⟩ := showing
  cases item with
  | event event =>
      obtain ⟨movements, clicks, events, _⟩ :=
        Presentation.records_ofEvent options context event
      change (Presentation.ofEvent options context event).1.counts.movements +
        (Presentation.ofEvent options context event).1.counts.clicks +
          (Presentation.ofEvent options context event).1.counts.events = 1
      omega
  | _ => rfl

theorem corruptRecords_counts_le (options : Options) (showing : Showing) :
    (showing.counts options).corruptRecords ≤ 1 := by
  obtain ⟨context, item⟩ := showing
  cases item with
  | event event =>
      exact (Presentation.records_ofEvent options context event).2.2.2
  | corrupt fragment => exact Nat.le_refl 1
  | _ => exact Nat.zero_le 1

/-- One corrupt record is counted where a line says so. -/
theorem corruptRecords_counts (showing : Showing) :
    (showing.counts options).corruptRecords =
      if showing.isCorrupt options then 1 else 0 := by
  have told := Presentation.tally_ofItem options showing.context showing.item
  have counted : (showing.lines options).countP Line.isCorrupt =
      (showing.counts options).corruptRecords :=
    congrArg Counts.corruptRecords told
  have most := showing.corruptRecords_counts_le options
  rw [← counted] at most ⊢
  cases corrupt : showing.isCorrupt options with
  | true =>
      obtain ⟨line, member, own⟩ := List.any_eq_true.mp corrupt
      have least := List.countP_pos_iff.mpr ⟨line, member, own⟩
      exact Nat.le_antisymm most least
  | false =>
      apply List.countP_eq_zero.mpr
      exact List.any_eq_false.mp corrupt

theorem isCorrupt_iff {showing : Showing} :
    showing.isCorrupt options = true ↔
      (showing.counts options).corruptRecords = 1 := by
  rw [corruptRecords_counts]
  cases showing.isCorrupt options with
  | true => exact iff_of_true rfl rfl
  | false => exact iff_of_false nofun nofun

/-- A whole record is said to be corrupt if and only if it is an event that the
interpreter, if asked, finds malformed. -/
theorem isMalformed_iff {showing : Showing} :
    showing.isMalformed options = true ↔
      options.interpretEvents = true ∧
      ∃ event kind error, showing.item = .event event ∧
        (showing.context.step event.header.kind event.payload).1 =
          .error (.malformed kind error) := by
  rw [isMalformed, Bool.and_eq_true, isCorrupt_iff]
  obtain ⟨context, item⟩ := showing
  constructor
  · rintro ⟨whole, corrupt⟩
    cases item with
    | event event =>
        change (Presentation.ofEvent options context
          event).1.counts.corruptRecords = 1 at corrupt
        unfold Presentation.ofEvent at corrupt
        split at corrupt
        · next asked =>
            obtain ⟨kind, error, outcome⟩ :=
              Presentation.malformed_of_corruptRecords corrupt
            exact ⟨asked, event, kind, error, rfl, outcome⟩
        · cases corrupt
    | movement movement => cases corrupt
    | click click => cases corrupt
    | _ => cases whole
  · rintro ⟨asked, event, kind, error, rfl, outcome⟩
    refine ⟨rfl, ?_⟩
    change (Presentation.ofEvent options context
      event).1.counts.corruptRecords = 1
    unfold Presentation.ofEvent
    rw [if_pos asked]
    dsimp only
    rw [outcome]
    rfl

/-- The records read whole are sound or malformed, and what is said to be
corrupt is malformed or cut short. -/
theorem countP_sorts (options : Options) (shown : List Showing) :
    shown.countP (·.item.isWhole) =
        shown.countP (isSound options) + shown.countP (isMalformed options) ∧
      shown.countP (isCorrupt options) =
        shown.countP (isMalformed options) +
          shown.countP (isCutShort options) := by
  induction shown with
  | nil => exact ⟨rfl, rfl⟩
  | cons showing shown induction =>
      cases whole : showing.item.isWhole <;>
        cases corrupt : showing.isCorrupt options <;>
        simp only [List.countP_cons, isSound, isMalformed, isCutShort, whole,
          corrupt, Bool.and_true, Bool.and_false, Bool.not_true,
          Bool.not_false, if_true, Bool.false_eq_true, if_false] <;>
        omega

end Showing

/-! ## The whole report -/

/-- A report counts as records all that were read whole, and as corrupt those
read whole but malformed and those cut short.  So a malformed event is counted
as both, and no other record is. -/
theorem records_overlap_corrupt (format : Format) (options : Options)
    (input : List UInt8) :
    let transcript := decode format options input
    let shown := decodeShowings format options input
    let sound := shown.countP (Showing.isSound options)
    let malformed := shown.countP (Showing.isMalformed options)
    let cutShort := shown.countP (Showing.isCutShort options)
    transcript.report.records = sound + malformed ∧
    transcript.report.corruptRecords = malformed + cutShort ∧
    (∀ showing : Showing, showing.isMalformed options = true ↔
      options.interpretEvents = true ∧
      ∃ event kind error, showing.item = .event event ∧
        (showing.context.step event.header.kind event.payload).1 =
          .error (.malformed kind error)) ∧
    ∃ result, transcript.lines =
      shown.flatMap (Showing.lines options) ++ Transcript.closing result := by
  intro transcript shown sound malformed cutShort
  obtain ⟨whole, corrupt⟩ := Showing.countP_sorts options shown
  have counts : transcript.report.toCounts = (Presentation.ofItems options
      (.fresh .builtin) (format.trace options.supportedVersion
        input).items).counts := by
    unfold transcript
    rw [decode_eq_ofResult, Transcript.counts_ofResult]
  refine ⟨?records, ?corrupt, fun _ => Showing.isMalformed_iff,
    exists_lines_decode format options input⟩
  case records =>
    change transcript.report.toCounts.records = _
    rw [counts, ← whole]
    exact count_ofItems .records Showing.records_counts
  case corrupt =>
    rw [counts, ← corrupt]
    exact count_ofItems .corruptRecords Showing.corruptRecords_counts

/-- A time is to be set, but the payload holds only half of it. -/
def RecordedEvent.halfTimeSync : RecordedEvent where
  timestamp := 10
  x := 7
  y := 9
  tag := 46
  payload := [1]
  payloadFits := by decide

def RecordedBuffer.halfTimeSync : RecordedBuffer where
  records := .event [.halfTimeSync]
  wordsFit := by decide

def Recording.halfTimeSync : Recording where
  version := 1
  sessionId := 1
  sections :=
    [{ version := 1
       id := 0
       registers := []
       buffers := [.halfTimeSync]
       registersFit := Nat.two_pow_pos 32
       buffersFit := by decide }]
  trailing := []
  sectionsFit := by decide

/-- The one record is corrupt, and counted as a record. -/
theorem corrupt_record_counted :
    let input := Recording.halfTimeSync.plan.bytes
    let report := (decode .capture .full input).report
    let shown := decodeShowings .capture .full input
    report.records = 1 ∧ report.corruptRecords = 1 ∧
    shown.countP (Showing.isSound .full) = 0 := by
  have items : Recording.halfTimeSync.frame.items =
      [.note (.fileVersion 1), .note (.sessionId 1), .note (.sectionCount 1),
        .note (.sectionVersion 1), .note (.sectionId 0),
        .note (.registerCount 0), .note (.bufferCount 1),
        .note (.bufferOffset 0 24), .note (.bufferTag 0 3),
        .note (.bufferLength 0 7), .event ⟨⟨10, 7, 9, 46, 1⟩, [1]⟩,
        .bufferEnd, .sectionEnd] := by
    have records := RecordedBuffer.records_frame 0 .halfTimeSync
    change [_, _, _, _, _, _, _, _, _, _] ++ (((BufferFrame.records 0 _ ++
      [.bufferEnd]) ++ []) ++ [.sectionEnd] ++ []) = _
    rw [records]
    rfl
  have walked : Format.capture.trace Options.full.supportedVersion
      Recording.halfTimeSync.plan.bytes = ⟨_, .ok ⟨_, []⟩⟩ :=
    Recording.halfTimeSync.trace_plan
  rw [items] at walked
  intro input report shown
  unfold report shown decodeShowings input
  rw [decode_eq_ofResult, walked]
  exact ⟨rfl, rfl, rfl⟩

end SessionCapture
