import Mathlib.Data.Set.Function
import SessionCapture.Proofs.RemarkTexts

/-!
# The written text tells the lines

Every line of a decode is legible, whatever the input holds.  So each line can
be read back from its text, and all lines from the text that is written for
them: two decodes that write the same have emitted the same.
-/

namespace SessionCapture

theorem Movement.singleLine_description (movement : Movement) :
    SingleLine movement.description := by
  unfold description
  simp +decide

theorem Click.singleLine_description (click : Click) :
    SingleLine click.description := by
  unfold description
  split <;> simp +decide

theorem Desync.singleLine_message (reason : Desync) :
    SingleLine reason.message := by
  unfold message
  cases reason <;> simp +decide

namespace Presentation

variable {options : Options} {context : Context}

theorem legible_ofOutcome {header : EventHeader}
    {outcome : Except InterpretError (List Remark)}
    (plain : ∀ remarks, outcome = .ok remarks → SingleLines remarks) :
    ∀ line ∈ (ofOutcome header outcome).lines, line.Legible := by
  intro line member
  match outcome with
  | .ok remarks =>
      obtain ⟨remark, among, rfl⟩ := List.mem_map.mp member
      exact plain remarks rfl remark among
  | .error (.malformed kind error) =>
      cases List.mem_singleton.mp member
      trivial
  | .error (.unknownEventType tag) => cases member

theorem legible_ofEvent {registry : Registry} (plain : registry.SingleLine)
    (reached : context.Reached registry) (event : Event) :
    ∀ line ∈ (ofEvent options context event).1.lines, line.Legible := by
  have data : ∀ line ∈ event.lines, line.Legible := by
    intro line member
    rcases List.mem_cons.mp member with rfl | word
    · trivial
    · obtain ⟨_, _, rfl⟩ := List.mem_map.mp word
      trivial
  have told : ∀ remarks,
      (context.step event.header.kind event.payload).1 = .ok remarks →
        SingleLines remarks := by
    intro remarks outcome
    unfold Context.step at outcome
    split at outcome
    · next success =>
        cases outcome
        exact Context.singleLines_interpret plain reached success
    · cases outcome
  rw [lines_ofEvent, List.forall_mem_append]
  refine ⟨data, ?_⟩
  split
  · exact legible_ofOutcome told
  · exact nofun

/-- A record's line, with or without a description. -/
theorem legible_described (record : Line) {description : Line}
    (recorded : record.Legible) (plain : description.Legible)
    (described : Prop) [Decidable described] :
    ∀ line ∈ record :: if described then [description] else [],
      line.Legible := by
  rw [List.forall_mem_cons]
  refine ⟨recorded, ?_⟩
  split
  · exact List.forall_mem_singleton.mpr plain
  · exact nofun

/-- Every line of an item is legible. -/
theorem legible_ofItem {registry : Registry} (plain : registry.SingleLine)
    (reached : context.Reached registry) (item : Item) :
    ∀ line ∈ (ofItem options context item).1.lines, line.Legible := by
  cases item with
  | note found =>
      exact List.forall_mem_singleton.mpr (found.notMem_text (.inr rfl))
  | movement movement =>
      have plain : (Line.human (some movement.timestamp)
          movement.description).Legible := movement.singleLine_description
      exact legible_described (.movement movement) trivial plain _
  | click click =>
      have plain : (Line.human (some click.timestamp)
          click.description).Legible := click.singleLine_description
      exact legible_described (.click click) trivial plain _
  | event event => exact legible_ofEvent plain reached event
  | corrupt fragment =>
      have plain : (Line.human fragment.timestamp?
          "Corrupted action.").Legible := by
        cases fragment.timestamp? with
        | none => rfl
        | some timestamp =>
            change SingleLine _
            decide
      exact legible_described (.corrupt fragment) trivial plain _
  | desync buffer reason =>
      refine List.forall_mem_singleton.mpr (?_ : SingleLine _)
      simp +decide [reason.singleLine_message]
  | bufferEnd => exact nofun
  | sectionEnd => exact nofun

end Presentation

theorem Transcript.legible_closing (result : Except Fatal Span) :
    ∀ line ∈ closing result, line.Legible := by
  intro line member
  obtain ⟨text, rfl⟩ := exists_notice_of_mem_closing member
  exact notMem_closing (.inr rfl) member

/-- A line that some decode emits. -/
def Line.Emitted (line : Line) : Prop :=
  ∃ format options input, line ∈ (decode format options input).lines

theorem legible_decode (format : Format) (options : Options)
    (input : List UInt8) :
    ∀ line ∈ (decode format options input).lines, line.Legible :=
  forall_mem_lines_decode
    (fun _ reached item =>
      Presentation.legible_ofItem Registry.singleLine_builtin reached item)
    Transcript.legible_closing format input

theorem Line.Emitted.legible {line : Line} (emitted : line.Emitted) :
    line.Legible := by
  obtain ⟨format, options, input, member⟩ := emitted
  exact legible_decode format options input line member

/-- The text of a decode tells its lines: no emitted line is broken by a line
feed, emitted lines with the same text are the same, and decodes that are
written the same have the same lines. -/
theorem written_text_lossless :
    (∀ line : Line, line.Emitted → '\n' ∉ line.text.toList) ∧
    Set.InjOn Line.text {line | line.Emitted} ∧
    ∀ (format otherFormat : Format) (options otherOptions : Options)
      (input otherInput : List UInt8),
      let lines := (decode format options input).lines
      let otherLines := (decode otherFormat otherOptions otherInput).lines
      Line.written lines = Line.written otherLines ↔ lines = otherLines := by
  refine ⟨?unbroken, ?injective, ?written⟩
  case unbroken =>
    intro line emitted
    exact Line.singleLine_text emitted.legible
  case injective =>
    intro line emitted other alsoEmitted same
    have found := Line.read?_text (Line.Emitted.legible emitted)
    rw [same, Line.read?_text (Line.Emitted.legible alsoEmitted)] at found
    exact (Option.some.inj found).symm
  case written =>
    intro format otherFormat options otherOptions input otherInput lines
      otherLines
    constructor
    · intro same
      have found := Line.readWritten?_written
        (legible_decode format options input)
      rw [same, Line.readWritten?_written
        (legible_decode otherFormat otherOptions otherInput)] at found
      exact (Option.some.inj found).symm
    · intro same
      rw [same]

/-- A section of one byte, read with and without interpretation. -/
theorem written_text_lossless_truncated :
    let told := Line.notice
      ("Error reading file(s): truncated input at offset 0x0: " ++
        "needed 2 bytes, 1 available")
    '\n' ∉ told.text.toList ∧
    (decode .bareSection .full [7]).lines =
      (decode .bareSection .raw [8]).lines := by
  intro told
  obtain ⟨unbroken, _, written⟩ := written_text_lossless
  refine ⟨unbroken told ⟨.bareSection, .full, [7], ?_⟩, ?_⟩
  · decide
  · apply (written .bareSection .bareSection .full .raw [7] [8]).mp
    decide

end SessionCapture
