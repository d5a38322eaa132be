import SessionCapture.Proofs.Frames
import SessionCapture.Proofs.Notices

/-!
# Which inputs are accepted

Decoding without interpretation ends well exactly on the bytes of a frame of the
supported version.  The frame is then the only one with these bytes, and the
structural lines of the transcript are its notes.
-/

namespace SessionCapture

/-- The trace of a frame's bytes: what the frame holds, and its rest left. -/
theorem Format.trace_frame (frame : CaptureFrame) :
    Format.capture.trace frame.version frame.bytes =
      ⟨frame.items,
        .ok ⟨CaptureFrame.headerSize +
          (frame.sections.flatMap SectionFrame.bytes).length, frame.rest⟩⟩ := by
  have ran : (Format.capture.walk frame.version).run ⟨0, frame.bytes⟩ = _ :=
    Walk.run_ofCapture_frame frame
  rw [Format.trace_eq, ran]
  rfl

theorem Walk.Reaches.of_frame (frame : CaptureFrame) :
    ∃ left, (Format.capture.walk frame.version).Reaches ⟨0, frame.bytes⟩ ()
      left := by
  have ran := run_ofCapture_frame frame
  exact ⟨_, congrArg Trace.result ran⟩

theorem fatal_uninterpreted_iff_frame (supported : UInt16) (human : Bool)
    (input : List UInt8) :
    (decode .capture ⟨supported, false, human⟩ input).report.fatal = none ↔
      ∃ frame : CaptureFrame,
        frame.version = supported ∧ frame.bytes = input := by
  rw [fatal_uninterpreted]
  constructor
  · rintro ⟨left, reached⟩
    obtain ⟨frame, version, same⟩ := reached.exists_captureFrame
    exact ⟨frame, version, same.symm⟩
  · rintro ⟨frame, rfl, rfl⟩
    exact Walk.Reaches.of_frame frame

theorem decode_frame (human : Bool) (frame : CaptureFrame) :
    decode .capture ⟨frame.version, false, human⟩ frame.bytes =
      .finished (.raw human frame.items) frame.rest.length := by
  rw [decode_uninterpreted, Format.trace_frame]
  rfl

theorem structural_lines_frame (human : Bool) (frame : CaptureFrame) :
    (decode .capture ⟨frame.version, false, human⟩ frame.bytes).lines.filter
        Line.isStructural =
      frame.notes.map (fun found => .notice found.text) ++
        Transcript.leftover frame.rest := by
  rw [structural_lines_uninterpreted, Format.trace_frame, frame.notes_items,
    Transcript.closing_ok]

/-- An input is accepted if and only if it is the bytes of a frame of the
supported version.  No other frame has the same bytes; the notes of the frame
are told in order, and its rest is what is left. -/
theorem accepts_exactly_frames (human : Bool) :
    (∀ (supported : UInt16) (input : List UInt8),
      (decode .capture ⟨supported, false, human⟩ input).report.fatal = none ↔
        ∃ frame : CaptureFrame,
          frame.version = supported ∧ frame.bytes = input) ∧
    Function.Injective CaptureFrame.bytes ∧
    ∀ frame : CaptureFrame,
      (decode .capture ⟨frame.version, false, human⟩ frame.bytes).lines.filter
          Line.isStructural =
        frame.notes.map (fun found => .notice found.text) ++
          Transcript.leftover frame.rest ∧
      (decode .capture ⟨frame.version, false, human⟩
          frame.bytes).report.trailingBytes =
        some frame.rest.length := by
  refine ⟨?accepted, ?unique, ?told⟩
  case accepted =>
    intro supported input
    exact fatal_uninterpreted_iff_frame supported human input
  case unique =>
    intro left right same
    exact CaptureFrame.bytes_injective same
  case told =>
    intro frame
    constructor
    · exact structural_lines_frame human frame
    · rw [decode_frame]
      rfl

end SessionCapture
