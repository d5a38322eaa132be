import SessionCapture.Proofs.Acceptance
import SessionCapture.Proofs.StatedOffsets

/-!
# A capture is its sections, one after another

After its file header a capture is decoded as bare sections are, each from the
bytes that the one before it left, up to the first that is stopped.  The
transcripts follow one another with offsets counted from the start of the file,
and their counts add up.
-/

namespace SessionCapture

namespace Transcript

/-- The transcript of an input, as it reads for the same input `distance` bytes
further on. -/
def displaced (distance : Nat) (transcript : Transcript) : Transcript where
  lines := transcript.lines.map (Line.displaced distance)
  report :=
    { transcript.report with
      fatal := transcript.report.fatal.map (Fatal.displaced distance) }

/-- The lines but for the one that tells how many bytes were left. -/
def withoutLeftover (transcript : Transcript) : List Line :=
  match transcript.report.trailingBytes with
  | some (_ + 1) => transcript.lines.dropLast
  | _ => transcript.lines

/-- So many sections decoded one after another, from `position` in a file on:
each as a bare section from what the one before it left, and none after one that
is stopped. -/
def ofSections (options : Options) :
    (count position : Nat) → (unread : List UInt8) → Transcript
  | 0, _, unread =>
      ⟨leftover unread, { trailingBytes := some unread.length }⟩
  | count + 1, position, unread =>
      let first := (decode .bareSection options unread).displaced position
      match first.report.trailingBytes with
      | none => first
      | some left =>
          let size := unread.length - left
          let later :=
            ofSections options count (position + size) (unread.drop size)
          { lines := first.withoutLeftover ++ later.lines
            report :=
              { later.report with
                toCounts := first.report.toCounts + later.report.toCounts } }

section OfSections

variable {options : Options} {unread : List UInt8}

theorem ofSections_of_stopped
    (stopped : (decode .bareSection options unread).report.trailingBytes = none)
    (count position : Nat) :
    ofSections options (count + 1) position unread =
      (decode .bareSection options unread).displaced position := by
  simp only [ofSections, displaced, stopped]

theorem ofSections_of_finished {left : Nat}
    (finished : (decode .bareSection options unread).report.trailingBytes =
      some left)
    (count position : Nat) :
    let first := (decode .bareSection options unread).displaced position
    let size := unread.length - left
    let later := ofSections options count (position + size) (unread.drop size)
    ofSections options (count + 1) position unread =
      { lines := first.withoutLeftover ++ later.lines
        report :=
          { later.report with
            toCounts := first.report.toCounts + later.report.toCounts } } := by
  simp only [ofSections, displaced, finished]

end OfSections

end Transcript

/-! ## One section -/

/-- A section that is walked to its end leaves the end of its span. -/
theorem Walk.Reaches.left_ofSection {span left : Span}
    (reached : ofSection.Reaches span () left) :
    ∃ size, left = span.drop size ∧ size + left.remaining = span.remaining := by
  obtain ⟨frame, begins⟩ := reached.exists_sectionFrame
  obtain ⟨offset, content⟩ := span
  obtain ⟨leftOffset, leftBytes⟩ := left
  have begins : content = frame.bytes ++ leftBytes := begins
  subst begins
  rw [Reaches, run_ofSection_frame] at reached
  cases reached
  refine ⟨frame.bytes.length, ?_, ?_⟩
  · simp [Span.drop]
  · simp [Span.remaining]

namespace Presentation

variable (human : Bool)

theorem raw_displaced (distance : Nat) (items : List Item) :
    raw human (items.map (Item.displaced distance)) =
      ⟨(raw human items).lines.map (Line.displaced distance),
        (raw human items).counts, none⟩ := by
  have counts (item : Item) :
      (item.displaced distance).counts = item.counts := by
    cases item <;> rfl
  simp only [raw, List.flatMap_map, List.map_map, List.map_flatMap,
    Item.lines_displaced, Function.comp_def, counts]

theorem raw_append (front back : List Item) :
    raw human (front ++ back) =
      ⟨(raw human front).lines ++ (raw human back).lines,
        (raw human front).counts + (raw human back).counts, none⟩ := by
  simp only [raw, List.flatMap_append, List.map_append, List.sum_append]

end Presentation

namespace Transcript

variable (human : Bool)

theorem displaced_stopped (distance : Nat) (items : List Item)
    (fatal : Fatal) :
    (stopped (.raw human items) fatal).displaced distance =
      stopped (.raw human (items.map (Item.displaced distance)))
        (fatal.displaced distance) := by
  have last := Line.displaced_fatal distance fatal
  rw [Presentation.raw_displaced, stopped, displaced, stopped, ← last,
    List.map_append]
  rfl

theorem withoutLeftover_finished (distance : Nat) (items : List Item)
    (trailing : Nat) :
    ((finished (.raw human items) trailing).displaced
        distance).withoutLeftover =
      (Presentation.raw human
        (items.map (Item.displaced distance))).lines := by
  rw [Presentation.raw_displaced]
  cases trailing with
  | zero => simp [withoutLeftover, displaced, finished]
  | succ trailing => simp [withoutLeftover, displaced, finished]

/-- What is shown first comes before the rest of a transcript. -/
theorem ofResult_append (lines : List Line) (counts : Counts)
    (shown : Presentation) (result : Except Fatal Span) :
    ofResult ⟨lines ++ shown.lines, counts + shown.counts, none⟩ result =
      { lines := lines ++ (ofResult shown result).lines
        report :=
          { (ofResult shown result).report with
            toCounts := counts + (ofResult shown result).report.toCounts } } := by
  cases result with
  | ok left =>
      simp only [ofResult, finished, List.append_assoc]
  | error fatal =>
      simp only [ofResult, stopped, List.append_assoc]

end Transcript

theorem decode_bareSection (supported : UInt16) (human : Bool)
    (unread : List UInt8) :
    decode .bareSection ⟨supported, false, human⟩ unread =
      .ofResult (.raw human (Walk.ofSection.run ⟨0, unread⟩).items)
        ((Walk.ofSection.run ⟨0, unread⟩).result.map (·.2)) := by
  rw [decode_uninterpreted, Format.trace_eq]
  rfl

/-! ## One section after another -/

/-- Sections decoded one by one are told as a walk of so many sections tells
them. -/
theorem Transcript.ofSections_eq (supported : UInt16) (human : Bool)
    (index count position : Nat) (unread : List UInt8) :
    let trace :=
      (Walk.timesFrom index count fun _ => .ofSection).run ⟨position, unread⟩
    ofSections ⟨supported, false, human⟩ count position unread =
      ofResult (.raw human trace.items) (trace.result.map (·.2)) := by
  induction count generalizing index position unread with
  | zero =>
      intro trace
      have last := closing_ok position unread
      rw [ofSections, ← last]
      rfl
  | succ count induction =>
      intro trace
      have first := decode_bareSection supported human unread
      have here := Walk.Displaces.carries.ofSection position ⟨0, unread⟩
      have place : Span.displaced position ⟨0, unread⟩ =
          ⟨position, unread⟩ := by
        rw [Span.displaced, Nat.zero_add]
      rw [place] at here
      unfold trace
      rw [Walk.timesFrom_succ]
      cases ran : Walk.ofSection.run ⟨0, unread⟩ with
      | mk items result =>
          rw [ran] at first here
          cases result with
          | error fatal =>
              rw [Walk.run_bind_of_error here, ofSections_of_stopped, first]
              · exact displaced_stopped human position items fatal
              · rw [first]
                rfl
          | ok reached =>
              obtain ⟨⟨⟩, left⟩ := reached
              obtain ⟨size, rfl, whole⟩ :=
                Walk.Reaches.left_ofSection (congrArg Trace.result ran)
              have later :=
                induction (index + 1) (position + size) (unread.drop size)
              have next : (Span.drop size ⟨0, unread⟩).displaced position =
                  ⟨position + size, unread.drop size⟩ := by
                simp [Span.displaced, Span.drop, Nat.add_comm]
              have taken : unread.length -
                  (Span.drop size ⟨0, unread⟩).remaining = size :=
                Nat.sub_eq_of_eq_add whole.symm
              have own := withoutLeftover_finished human position items
                (Span.drop size ⟨0, unread⟩).remaining
              have finished : (decode .bareSection ⟨supported, false, human⟩
                  unread).report.trailingBytes =
                    some (Span.drop size ⟨0, unread⟩).remaining := by
                rw [first]
                rfl
              rw [Walk.run_bind_of_ok here, next,
                ofSections_of_finished finished, taken, later, first]
              change Transcript.mk (((Transcript.finished _ _).displaced
                position).withoutLeftover ++ _) _ = _
              rw [own, Trace.items_after, Trace.result_after,
                Presentation.raw_append, ofResult_append,
                Presentation.raw_displaced]
              rfl

/-- After a file header of the supported version the sections are walked. -/
theorem Walk.run_ofCapture_header (supported reserved sessionId : UInt16)
    (count : UInt32) (sections : List UInt8) :
    (ofCapture supported).run ⟨0, Wire.bytes
        ([supported, reserved, sessionId] ++ Wire.splitDword count) ++
          sections⟩ =
      ((times count.toNat fun _ => ofSection).run
        ⟨CaptureFrame.headerSize, sections⟩).after
          [.note (.fileVersion supported), .note (.sessionId sessionId),
            .note (.sectionCount count)] := by
  simp only [Wire.bytes_append, Wire.bytes_cons_cons, List.append_assoc]
  simp only [ofCapture, run_word_bind, run_note_bind, if_true, run_dword_bind]
  rfl

/-- A capture is decoded as its sections are, one after another.  After the
three lines of the file header come their lines and after these, if none is
stopped, the line that tells of bytes left after the last one. -/
theorem capture_section_by_section (supported reserved sessionId : UInt16)
    (count : UInt32) (human : Bool) (sections : List UInt8) :
    let header := Wire.bytes
      ([supported, reserved, sessionId] ++ Wire.splitDword count)
    let told := Transcript.ofSections ⟨supported, false, human⟩ count.toNat
      header.length sections
    decode .capture ⟨supported, false, human⟩ (header ++ sections) =
      { lines :=
          [.notice s!"File Format Version:{supported}",
            .notice s!"Session ID:{sessionId}",
            .notice s!"Section Count:{count}"] ++ told.lines
        report := told.report } := by
  intro header told
  have walked := Walk.run_ofCapture_header supported reserved sessionId count
    sections
  have iterated : told = _ := Transcript.ofSections_eq supported human 0
    count.toNat header.length sections
  rw [decode_uninterpreted, Format.trace_eq]
  change Transcript.ofResult (.raw human ((Walk.ofCapture supported).run
    ⟨0, header ++ sections⟩).items) (((Walk.ofCapture supported).run
      ⟨0, header ++ sections⟩).result.map (·.2)) = _
  have uncounted : (Presentation.raw human [.note (.fileVersion supported),
      .note (.sessionId sessionId), .note (.sectionCount count)]).counts = 0 :=
    rfl
  rw [walked, iterated, Trace.items_after, Trace.result_after,
    Presentation.raw_append, Transcript.ofResult_append, uncounted,
    Counts.zero_add]
  rfl

end SessionCapture
