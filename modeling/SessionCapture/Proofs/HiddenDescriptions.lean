import SessionCapture.Proofs.ReachedContexts
import SessionCapture.Proofs.SectionCounts

/-!
# Descriptions of movements and clicks

A decode may describe movements, clicks and clicks that are cut short, each on a
line of its own right after theirs.  Asking for no descriptions takes these
lines away and changes nothing else: what events mean is still told, in the same
place, and the report is the same.
-/

namespace SessionCapture

namespace Line

def isHuman : Line → Bool
  | .human _ _ => true
  | _ => false

/-- Whether a line is that of a movement, of a click, or of a click cut short.
-/
def isDescribed : Line → Bool
  | .movement _ => true
  | .click _ => true
  | .corrupt fragment => fragment.kind = .action
  | _ => false

end Line

/-- The lines without the human ones that directly follow a line that can be
described.  The first line follows such a line if `described` says so. -/
def withoutDescriptionsAfter (described : Bool) : List Line → List Line
  | [] => []
  | line :: rest =>
      let later := withoutDescriptionsAfter line.isDescribed rest
      if described && line.isHuman then later else line :: later

def withoutDescriptions (lines : List Line) : List Line :=
  withoutDescriptionsAfter false lines

theorem withoutDescriptionsAfter_cons {line : Line}
    (notHuman : line.isHuman = false) (described : Bool) (rest : List Line) :
    withoutDescriptionsAfter described (line :: rest) =
      line :: withoutDescriptionsAfter line.isDescribed rest := by
  simp [withoutDescriptionsAfter, notHuman]

/-- Whether the lines that follow start after a line that can be described is
decided by the last of the lines before them. -/
theorem exists_withoutDescriptionsAfter_append (described : Bool)
    (front : List Line) :
    ∃ last, ∀ back,
      withoutDescriptionsAfter described (front ++ back) =
        withoutDescriptionsAfter described front ++
          withoutDescriptionsAfter last back := by
  induction front generalizing described with
  | nil => exact ⟨described, fun _ => rfl⟩
  | cons line front induction =>
      obtain ⟨last, split⟩ := induction line.isDescribed
      refine ⟨last, ?_⟩
      intro back
      rw [List.cons_append, withoutDescriptionsAfter,
        withoutDescriptionsAfter, split]
      split
      · rfl
      · rfl

theorem withoutDescriptionsAfter_false {lines : List Line}
    (plain : ∀ line ∈ lines, line.isDescribed = false) :
    withoutDescriptionsAfter false lines = lines := by
  induction lines with
  | nil => rfl
  | cons line rest induction =>
      obtain ⟨first, later⟩ := List.forall_mem_cons.mp plain
      rw [withoutDescriptionsAfter, first, induction later]
      rfl

/-- The brief lines are the full ones without descriptions, whatever stands
before them. -/
def Hides (full brief : List Line) : Prop :=
  ∀ described, withoutDescriptionsAfter described full = brief

namespace Hides

variable {full brief later laterBrief : List Line} {line : Line}

theorem nil : Hides [] [] :=
  fun _ => rfl

theorem append (first : Hides full brief) (rest : Hides later laterBrief) :
    Hides (full ++ later) (brief ++ laterBrief) := by
  intro described
  obtain ⟨last, split⟩ :=
    exists_withoutDescriptionsAfter_append described full
  rw [split, first, rest]

/-- Lines that are not described, and do not begin with a human one. -/
theorem of_plain (notHuman : line.isHuman = false)
    (plain : ∀ other ∈ line :: later, other.isDescribed = false) :
    Hides (line :: later) (line :: later) := by
  intro described
  obtain ⟨own, rest⟩ := List.forall_mem_cons.mp plain
  rw [withoutDescriptionsAfter_cons notHuman, own,
    withoutDescriptionsAfter_false rest]

theorem single (notHuman : line.isHuman = false) : Hides [line] [line] := by
  intro described
  rw [withoutDescriptionsAfter_cons notHuman]
  rfl

theorem description (notHuman : line.isHuman = false)
    (isDescribed : line.isDescribed = true) (timestamp : Option UInt32)
    (text : String) :
    Hides [line, .human timestamp text] [line] := by
  intro described
  rw [withoutDescriptionsAfter_cons notHuman, isDescribed]
  rfl

end Hides

namespace Presentation

/-- The brief presentation shows the full one's lines without descriptions, and
counts and ends alike. -/
structure Hides (full brief : Presentation) : Prop where
  lines : SessionCapture.Hides full.lines brief.lines
  counts : full.counts = brief.counts
  fatal : full.fatal = brief.fatal

variable {full brief later laterBrief : Presentation}

theorem Hides.followedBy (first : full.Hides brief)
    (rest : later.Hides laterBrief) :
    (full.followedBy later).Hides (brief.followedBy laterBrief) := by
  cases stopped : brief.fatal with
  | some fatal =>
      have alsoStopped := first.fatal.trans stopped
      simp only [Presentation.followedBy, stopped, alsoStopped]
      exact first
  | none =>
      have goesOn := first.fatal.trans stopped
      simp only [Presentation.followedBy, stopped, goesOn]
      constructor
      · exact first.lines.append rest.lines
      · exact congrArg₂ (· + ·) first.counts rest.counts
      · exact rest.fatal

/-- A record's own line, with its description or without. -/
theorem hides_record {own : Line} (notHuman : own.isHuman = false)
    (isDescribed : own.isDescribed = true) (timestamp : Option UInt32)
    (text : String) (counts : Counts) :
    Hides ⟨[own, .human timestamp text], counts, none⟩
      ⟨[own], counts, none⟩ :=
  ⟨.description notHuman isDescribed timestamp text, rfl, rfl⟩

theorem isDescribed_event (event : Event) :
    ∀ line ∈ event.lines, line.isDescribed = false := by
  intro line member
  rcases List.mem_cons.mp member with rfl | data
  · rfl
  · obtain ⟨_, _, rfl⟩ := List.mem_map.mp data
    rfl

theorem isDescribed_ofOutcome (header : EventHeader)
    (outcome : Except InterpretError (List Remark)) :
    ∀ line ∈ (ofOutcome header outcome).lines, line.isDescribed = false := by
  intro line member
  cases outcome with
  | ok remarks =>
      obtain ⟨_, _, rfl⟩ := List.mem_map.mp member
      rfl
  | error error =>
      cases error with
      | malformed kind reason =>
          cases List.mem_singleton.mp member
          rfl
      | unknownEventType tag => cases member

variable (options : Options) (context : Context)

/-- What is told of an event is told in either case. -/
theorem hides_ofEvent (event : Event) :
    (ofEvent { options with humanLines := true } context event).1.Hides
      (ofEvent { options with humanLines := false } context event).1 := by
  refine ⟨?_, rfl, rfl⟩
  change SessionCapture.Hides (ofEvent options context event).1.lines
    (ofEvent options context event).1.lines
  rw [lines_ofEvent]
  apply SessionCapture.Hides.of_plain rfl
  intro line member
  change line ∈ event.lines ++ _ at member
  rcases List.mem_append.mp member with own | meaning
  · exact isDescribed_event event line own
  · split at meaning
    · exact isDescribed_ofOutcome event.header _ line meaning
    · cases meaning

theorem hides_ofItem (item : Item) :
    (ofItem { options with humanLines := true } context item).1.Hides
      (ofItem { options with humanLines := false } context item).1 := by
  cases item with
  | note note => exact ⟨.single rfl, rfl, rfl⟩
  | movement movement => exact hides_record rfl rfl _ _ _
  | click click => exact hides_record rfl rfl _ _ _
  | event event => exact hides_ofEvent options context event
  | corrupt fragment =>
      by_cases action : fragment.kind = .action
      · have described : Line.isDescribed (.corrupt fragment) = true :=
          decide_eq_true action
        have full : ofCorrupt { options with humanLines := true } fragment =
            ⟨[.corrupt fragment,
              .human fragment.timestamp? "Corrupted action."],
              { corruptRecords := 1 }, none⟩ := by
          simp [ofCorrupt, action]
        have brief : ofCorrupt { options with humanLines := false } fragment =
            ⟨[.corrupt fragment], { corruptRecords := 1 }, none⟩ := by
          simp [ofCorrupt]
        change (ofCorrupt _ fragment).Hides (ofCorrupt _ fragment)
        rw [full, brief]
        exact hides_record rfl described _ _ _
      · have alone (human : Bool) :
            ofCorrupt { options with humanLines := human } fragment =
              ⟨[.corrupt fragment], { corruptRecords := 1 }, none⟩ := by
          simp [ofCorrupt, action]
        change (ofCorrupt _ fragment).Hides (ofCorrupt _ fragment)
        rw [alone, alone]
        exact ⟨.single rfl, rfl, rfl⟩
  | desync buffer reason => exact ⟨.single rfl, rfl, rfl⟩
  | bufferEnd => exact ⟨.nil, rfl, rfl⟩
  | sectionEnd => exact ⟨.nil, rfl, rfl⟩

/-- Descriptions do not touch the context. -/
theorem next_ofItem (human : Bool) (item : Item) :
    (ofItem { options with humanLines := human } context item).2 =
      (ofItem options context item).2 := by
  cases item <;> rfl

theorem hides_ofItems (items : List Item) :
    (ofItems { options with humanLines := true } context items).Hides
      (ofItems { options with humanLines := false } context items) := by
  induction items generalizing context with
  | nil => exact ⟨.nil, rfl, rfl⟩
  | cons item items induction =>
      rw [ofItems_cons, ofItems_cons, next_ofItem options context true,
        next_ofItem options context false]
      apply Hides.followedBy
      · exact hides_ofItem options context item
      · exact induction _

end Presentation

namespace Transcript

theorem report_ofResult {full brief : Presentation}
    (counts : full.counts = brief.counts) (result : Except Fatal Span) :
    (ofResult full result).report = (ofResult brief result).report := by
  cases result with
  | error fatal => simp only [ofResult, stopped, counts]
  | ok left => simp only [ofResult, finished, counts]

theorem hides_closing (result : Except Fatal Span) :
    Hides (closing result) (closing result) := by
  cases result with
  | error fatal => exact .single rfl
  | ok left =>
      rw [closing]
      split
      · exact .nil
      · exact .single rfl

end Transcript

/-- Two decodes that differ in whether movements and clicks are described have
the same report, and the lines of the brief one are those of the full one
without the human lines right after a movement, a click or a click cut short. -/
theorem brief_lines_lack_descriptions (format : Format) (options : Options)
    (input : List UInt8) :
    let full := decode format { options with humanLines := true } input
    let brief := decode format { options with humanLines := false } input
    brief.report = full.report ∧
      brief.lines = withoutDescriptions full.lines := by
  intro full brief
  let trace := format.trace options.supportedVersion input
  let shown (human : Bool) := Presentation.ofItems
    { options with humanLines := human } (.fresh .builtin) trace.items
  have hides : (shown true).Hides (shown false) :=
    Presentation.hides_ofItems options _ trace.items
  have ending : (shown true).ending trace.result =
      (shown false).ending trace.result := by
    rw [Presentation.ending, Presentation.ending, hides.fatal]
  have fullEnds : full =
      .ofResult (shown true) ((shown true).ending trace.result) :=
    decode_eq_ofResult format _ input
  have briefEnds : brief =
      .ofResult (shown false) ((shown false).ending trace.result) :=
    decode_eq_ofResult format _ input
  rw [fullEnds, briefEnds, ending]
  constructor
  · symm
    exact Transcript.report_ofResult hides.counts _
  · rw [Transcript.lines_ofResult, Transcript.lines_ofResult]
    exact (hides.lines.append (Transcript.hides_closing _) false).symm

end SessionCapture
