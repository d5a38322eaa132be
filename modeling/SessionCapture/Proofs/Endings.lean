import SessionCapture.Proofs.Notices
import SessionCapture.Proofs.ReachedContexts
import SessionCapture.Proofs.SectionCounts

/-!
# How a decode ends

Every decode ends in one of two ways, which its report tells apart: it is
stopped by a fatal condition, or it is left with so many bytes.  The last line
tells of the condition, or of the bytes if there are any, and no line before it
looks like such a line.  What is met on the way is told in notices that begin
with other letters.
-/

namespace SessionCapture

namespace Line

/-- The line says why a decode was stopped. -/
def TellsFatal (line : Line) : Prop :=
  ∃ reason, line = .notice ("Error reading file(s): " ++ reason)

/-- The line says how many bytes were left. -/
def TellsLeftover (line : Line) : Prop :=
  ∃ count : Nat,
    line = .notice s!"{count} bytes left unprocessed in the input file"

/-- The letters that notices of what is met begin with. -/
def initials : List Char :=
  ['B', 'F', 'R', 'S']

/-- The line may be shown on the way: if it is a notice, it begins as one. -/
def OnTheWay : Line → Prop
  | .notice text => ∃ letter ∈ initials, text.toList.head? = some letter
  | _ => True

theorem head?_fatal (reason : String) :
    ("Error reading file(s): " ++ reason).toList.head? = some 'E' := by
  simp

theorem head?_leftover {letter : Char} (noDigit : Numeral.NoDigit letter)
    (noSpace : letter ≠ ' ') (count : Nat) :
    s!"{count} bytes left unprocessed in the input file".toList.head? ≠
      some letter := by
  intro begins
  have absent := Numeral.notMem_nat noDigit count
  simp only [toString_string, String.toList_append] at begins
  cases digits : (toString count).toList with
  | nil =>
      rw [digits] at begins
      simp [Ne.symm noSpace] at begins
  | cons digit rest =>
      rw [digits] at begins absent
      have same : digit = letter := by simpa using begins
      exact absent (same ▸ List.mem_cons_self)

theorem OnTheWay.not_tellsFatal {line : Line} (onTheWay : line.OnTheWay) :
    ¬ line.TellsFatal := by
  rintro ⟨reason, rfl⟩
  obtain ⟨letter, initial, begins⟩ := onTheWay
  cases (head?_fatal reason).symm.trans begins
  simp [initials] at initial

theorem OnTheWay.not_tellsLeftover {line : Line} (onTheWay : line.OnTheWay) :
    ¬ line.TellsLeftover := by
  rintro ⟨count, rfl⟩
  obtain ⟨letter, initial, begins⟩ := onTheWay
  have plain : ∀ letter ∈ initials,
      Numeral.NoDigit letter ∧ letter ≠ ' ' := by
    simp [initials, Numeral.NoDigit]
  obtain ⟨noDigit, noSpace⟩ := plain letter initial
  exact head?_leftover noDigit noSpace count begins

theorem not_tellsFatal_of_leftover (count : Nat) :
    ¬ TellsFatal
      (.notice s!"{count} bytes left unprocessed in the input file") := by
  rintro ⟨reason, same⟩
  have begins := head?_fatal reason
  rw [← Line.notice.inj same] at begins
  exact head?_leftover (by decide) (by decide) count begins

end Line

/-! ## What is shown on the way -/

theorem Note.onTheWay (found : Note) : (Line.notice found.text).OnTheWay := by
  unfold Line.OnTheWay Note.text
  cases found <;> simp [Line.initials]

namespace Presentation

variable {options : Options} {context : Context} {text : String}

theorem notice_notMem_ofOutcome (header : EventHeader)
    (outcome : Except InterpretError (List Remark)) :
    .notice text ∉ (ofOutcome header outcome).lines := by
  match outcome with
  | .ok remarks => simp [ofOutcome]
  | .error (.malformed kind error) => simp [ofOutcome]
  | .error (.unknownEventType tag) => simp [ofOutcome]

theorem notice_notMem_ofEvent (event : Event) :
    .notice text ∉ (ofEvent options context event).1.lines := by
  rw [lines_ofEvent, List.mem_append, not_or]
  constructor
  · simp [Event.lines]
  · split
    · exact notice_notMem_ofOutcome _ _
    · exact List.not_mem_nil

/-- The notices of items are those of notes and of buffers that events cannot be
followed in. -/
theorem notice_of_ofItem {item : Item}
    (member : .notice text ∈ (ofItem options context item).1.lines) :
    (∃ found, item = .note found ∧ text = found.text) ∨
      ∃ buffer reason, item = .desync buffer reason ∧
        text = s!"Buffer({buffer}) desynchronized: {reason.message}" := by
  cases item with
  | note found =>
      left
      exact ⟨found, rfl, Line.notice.inj (List.mem_singleton.mp member)⟩
  | desync buffer reason =>
      right
      exact ⟨buffer, reason, rfl,
        Line.notice.inj (List.mem_singleton.mp member)⟩
  | event event => exact absurd member (notice_notMem_ofEvent event)
  | movement movement => simp [ofItem, ofMovement] at member
  | click click => simp [ofItem, ofClick] at member
  | corrupt fragment => simp [ofItem, ofCorrupt] at member
  | bufferEnd => cases member
  | sectionEnd => cases member

theorem onTheWay_ofItem {item : Item} {line : Line}
    (member : line ∈ (ofItem options context item).1.lines) :
    line.OnTheWay := by
  cases line with
  | notice text =>
      rcases notice_of_ofItem member with
        ⟨found, _, rfl⟩ | ⟨buffer, reason, _, rfl⟩
      · exact found.onTheWay
      · simp [Line.OnTheWay, Line.initials]
  | _ => trivial

theorem onTheWay_ofItems (options : Options) (items : List Item) :
    ∀ line ∈ (ofItems options (.fresh .builtin) items).lines,
      line.OnTheWay := by
  apply forall_mem_lines (fun _ _ _ _ _ member => onTheWay_ofItem member)
  exact .fresh .builtin

end Presentation

/-- Every decode ends in one of two ways.  Either it is stopped, and its last
line alone says why; or no line says so, and the last one alone says how many
bytes were left, if there were any.  It is not stopped if and only if it walked
all the sections that its input declares. -/
theorem decode_ends_one_way (format : Format) (options : Options)
    (input : List UInt8) :
    let transcript := decode format options input
    let report := transcript.report
    (match report.fatal, report.trailingBytes with
      | some fatal, none => ∃ earlier,
          transcript.lines = earlier ++
            [.notice s!"Error reading file(s): {fatal.message}"] ∧
          ∀ line ∈ earlier, ¬ line.TellsFatal ∧ ¬ line.TellsLeftover
      | none, some count => ∃ shown,
          transcript.lines = shown ++
            (if count = 0 then [] else [.notice
              s!"{count} bytes left unprocessed in the input file"]) ∧
          (∀ line ∈ shown, ¬ line.TellsLeftover) ∧
          ∀ line ∈ transcript.lines, ¬ line.TellsFatal
      | _, _ => False) ∧
    match format.declaredSections? options.supportedVersion input with
    | some count => report.fatal = none ↔ report.sections.toNat = count
    | none => report.fatal ≠ none ∧ report.sections = 0 := by
  intro transcript report
  refine ⟨?_, sections_decode format options input⟩
  have onTheWay := Presentation.onTheWay_ofItems options
    (format.trace options.supportedVersion input).items
  unfold report transcript
  rw [decode_eq_ofResult]
  generalize Presentation.ofItems options (.fresh .builtin)
    (format.trace options.supportedVersion input).items = shown at onTheWay ⊢
  cases shown.ending
      (format.trace options.supportedVersion input).result with
  | error fatal =>
      refine ⟨shown.lines, rfl, ?_⟩
      intro line member
      exact ⟨(onTheWay line member).not_tellsFatal,
        (onTheWay line member).not_tellsLeftover⟩
  | ok left =>
      refine ⟨shown.lines, rfl, ?leftover, ?fatal⟩
      case leftover =>
        intro line member
        exact (onTheWay line member).not_tellsLeftover
      case fatal =>
        intro line member
        rcases List.mem_append.mp member with shownLine | last
        · exact (onTheWay line shownLine).not_tellsFatal
        · split at last
          · cases last
          · rw [List.mem_singleton.mp last]
            exact Line.not_tellsFatal_of_leftover _

end SessionCapture
