import SessionCapture.Proofs.Showings
import SessionCapture.Proofs.TraceItems

/-!
# Counting sections

A walk of so many sections that comes to its end has met as many section ends.
If a fatal condition stops it, it has met fewer, and so it has before any of its
events, as every event lies within a section.  Hence a decode that is stopped,
by the walk or by an event that is not known, has counted fewer sections than
its input declares.
-/

namespace SessionCapture

/-- A trace that comes to its end has met so many section ends, and fewer than
`bound` if it is stopped or has an event still to meet. -/
structure Trace.Sections {α : Type} (met bound : Nat) (trace : Trace α) :
    Prop where
  complete : ∀ {value}, trace.result = .ok value →
    trace.items.count .sectionEnd = met
  stopped : ∀ {fatal}, trace.result = .error fatal →
    trace.items.count .sectionEnd < bound
  beforeEvent : ∀ {before event later},
    trace.items = before ++ .event event :: later →
      before.count .sectionEnd < bound

/-- An element of two lists put together is in the first or in the second. -/
theorem exists_of_append_eq {α : Type} {front back before later : List α}
    {item : α} (same : front ++ back = before ++ item :: later) :
    (∃ rest, front = before ++ item :: rest) ∨
      ∃ between, before = front ++ between ∧
        back = between ++ item :: later := by
  rcases List.append_eq_append_iff.mp same with
    ⟨between, rfl, rfl⟩ | ⟨rest, rfl, split⟩
  · exact .inr ⟨between, rfl, rfl⟩
  · cases rest with
    | nil => exact .inr ⟨[], by simp, by simpa using split.symm⟩
    | cons first rest =>
        cases split
        exact .inl ⟨rest, rfl⟩

namespace Trace

variable {α : Type} {met bound : Nat} {trace : Trace α}

theorem Sections.mono {larger : Nat} (sections_ : trace.Sections met bound)
    (least : bound ≤ larger) : trace.Sections met larger where
  complete := sections_.complete
  stopped ended := Nat.lt_of_lt_of_le (sections_.stopped ended) least
  beforeEvent found :=
    Nat.lt_of_lt_of_le (sections_.beforeEvent found) least

/-- A trace without section ends. -/
theorem Sections.of_quiet (quiet : .sectionEnd ∉ trace.items) :
    trace.Sections 0 1 := by
  have none : trace.items.count .sectionEnd = 0 := List.count_eq_zero.mpr quiet
  constructor
  · intro value _
    exact none
  · intro fatal _
    rw [none]
    exact Nat.zero_lt_one
  · intro before event later found
    rw [found, List.count_append] at none
    omega

/-- Items met before a trace count first. -/
theorem Sections.after {items : List Item} {earlier : Nat}
    (sections_ : trace.Sections met bound)
    (counted : items.count .sectionEnd = earlier)
    (early : ∀ {before event later},
      items = before ++ .event event :: later →
        before.count .sectionEnd < earlier + bound) :
    (trace.after items).Sections (earlier + met) (earlier + bound) := by
  constructor
  · intro value ended
    rw [items_after, List.count_append, counted, sections_.complete ended]
  · intro fatal ended
    rw [items_after, List.count_append, counted]
    exact Nat.add_lt_add_left (sections_.stopped ended) earlier
  · intro before event later found
    rcases exists_of_append_eq found with
      ⟨rest, within⟩ | ⟨between, rfl, late⟩
    · exact early within
    · rw [List.count_append, counted]
      exact Nat.add_lt_add_left (sections_.beforeEvent late) earlier

end Trace

namespace Walk

variable {α β : Type} {bound met : Nat}

/-- The traces of a walk, on any span, have so many section ends. -/
def Sections (met bound : Nat) (walk : Walk α) : Prop :=
  ∀ span, (walk.run span).Sections met bound

theorem Sections.mono {walk : Walk α} {larger : Nat}
    (sections_ : Sections met bound walk) (least : bound ≤ larger) :
    Sections met larger walk := by
  intro span
  exact (sections_ span).mono least

theorem Sections.pure (value : α) :
    Sections 0 0 (Pure.pure value : Walk α) := by
  intro span
  constructor
  · intro reached _
    rfl
  · intro fatal ended
    cases ended
  · intro before event later found
    simp at found

theorem Sections.quiet {walk : Walk α}
    (quiet : walk.Meets (· ≠ .sectionEnd)) : Sections 0 1 walk := by
  intro span
  apply Trace.Sections.of_quiet
  intro member
  exact quiet span .sectionEnd member rfl

theorem Sections.emit_end : Sections 1 1 (emit [.sectionEnd]) := by
  intro span
  constructor
  · intro reached _
    rfl
  · intro fatal ended
    cases ended
  · intro before event later found
    cases before with
    | nil => cases found
    | cons first before => simp at found

theorem Sections.bind {walk : Walk α} {next : α → Walk β}
    {later laterBound : Nat}
    (first : Sections met (met + laterBound) walk)
    (rest : ∀ value, Sections later laterBound (next value)) :
    Sections (met + later) (met + laterBound) (walk >>= next) := by
  intro span
  have begins := first span
  cases ran : walk.run span with
  | mk items result =>
      rw [ran] at begins
      cases result with
      | error fatal =>
          rw [run_bind_of_error ran]
          constructor
          · intro value ended
            cases ended
          · intro found ended
            exact begins.stopped rfl
          · exact begins.beforeEvent
      | ok reached =>
          rw [run_bind_of_ok ran]
          have counted : items.count .sectionEnd = met := begins.complete rfl
          exact (rest reached.1 reached.2).after counted begins.beforeEvent

/-- What follows a walk without section ends has all the section ends. -/
theorem Sections.quiet_bind {walk : Walk α} {next : α → Walk β}
    (quiet : walk.Meets (· ≠ .sectionEnd))
    (rest : ∀ value, Sections met 1 (next value)) :
    Sections met 1 (walk >>= next) := by
  have whole := (Sections.quiet quiet).bind rest
  rwa [Nat.zero_add] at whole

theorem Sections.timesFrom {step : Nat → Walk Unit}
    (each : ∀ index, Sections 1 1 (step index)) (index count : Nat) :
    Sections count count (timesFrom index count step) := by
  induction count generalizing index with
  | zero => exact .pure ()
  | succ count induction =>
      rw [timesFrom_succ, Nat.add_comm]
      have first := (each index).mono (Nat.le_add_right 1 count)
      exact first.bind fun _ => induction (index + 1)

/-- A section has one end, and no event after it. -/
theorem Sections.ofSection : Sections 1 1 ofSection := by
  have records {index : Nat} {kind : BufferKind} {region : List UInt8}
      {items : List Item}
      (known : recordItems? index kind region = some items) :
      ∀ item ∈ items, item ≠ .sectionEnd := by
    rintro item member rfl
    cases isRecord_of_mem_recordItems? known _ member
  have quiet : sectionBody.Meets (· ≠ .sectionEnd) :=
    (Meets.carriesBody nofun records fun _ => nofun).sectionBody
  rw [ofSection_eq_body]
  exact .quiet_bind quiet fun _ => .emit_end

end Walk

/-! ## What the header declares -/

/-- The number of sections that an input declares: one if it is a bare section,
and else as its file header says, if that is complete and has the version that
is read. -/
def Format.declaredSections? (supported : UInt16) (input : List UInt8) :
    Format → Option Nat
  | .bareSection => some 1
  | .capture =>
      match Wire.words (input.take 10) with
      | [version, _, _, low, high] =>
          if version = supported then some (Wire.joinWords low high).toNat
          else none
      | _ => none

theorem Format.declaredSections?_of_short {supported : UInt16}
    {input : List UInt8} (short : input.length < 10) :
    Format.capture.declaredSections? supported input = none := by
  unfold declaredSections?
  dsimp only
  split
  · next found =>
      have count := congrArg List.length found
      simp only [Wire.length_words, List.length_take, List.length_cons,
        List.length_nil] at count
      omega
  · rfl

namespace Walk

variable {supported : UInt16} {input : List UInt8}

theorem run_word_bind_of_short {β : Type} {offset : Nat}
    (short : input.length < 2) (next : UInt16 → Walk β) :
    (word >>= next).run ⟨offset, input⟩ =
      ⟨[], .error (.truncated ⟨offset, 2, input.length⟩)⟩ :=
  run_bind_of_error (run_word_of_short short)

theorem run_dword_bind_of_short {β : Type} {offset : Nat}
    (short : input.length < 4) (next : UInt32 → Walk β) :
    (dword >>= next).run ⟨offset, input⟩ =
      ⟨[], .error (.truncated ⟨offset, 4, input.length⟩)⟩ :=
  run_bind_of_error (run_dword_of_short short)

/-- A file header that is cut short stops the walk inside it. -/
theorem run_ofCapture_of_short (short : input.length < 10) :
    ∃ (notes : List Note) (fatal : Fatal),
      (ofCapture supported).run ⟨0, input⟩ =
        ⟨notes.map .note, .error fatal⟩ := by
  by_cases noVersion : input.length < 2
  · exact ⟨[], _, run_word_bind_of_short noVersion _⟩
  obtain ⟨version, input, rfl⟩ :=
    Wire.exists_word_append (Nat.not_lt.mp noVersion)
  rw [ofCapture, run_word_bind, run_note_bind]
  by_cases same : version = supported
  · rw [if_pos same]
    by_cases noReserved : input.length < 2
    · rw [run_word_bind_of_short noReserved]
      exact ⟨[.fileVersion version], _, rfl⟩
    obtain ⟨reserved, input, rfl⟩ :=
      Wire.exists_word_append (Nat.not_lt.mp noReserved)
    rw [run_word_bind]
    by_cases noId : input.length < 2
    · rw [run_word_bind_of_short noId]
      exact ⟨[.fileVersion version], _, rfl⟩
    obtain ⟨id, input, rfl⟩ := Wire.exists_word_append (Nat.not_lt.mp noId)
    have noCount : input.length < 4 := by
      simp only [List.length_append, Wire.length_bytes, List.length_cons,
        List.length_nil] at short
      omega
    rw [run_word_bind, run_note_bind, run_dword_bind_of_short noCount]
    exact ⟨[.fileVersion version, .sessionId id], _, rfl⟩
  · rw [if_neg same]
    exact ⟨[.fileVersion version], _, rfl⟩

/-- A capture's walk meets the notes of the file header, and then the sections
that the header declares; if it declares none, the walk stops. -/
theorem exists_run_ofCapture (supported : UInt16) (input : List UInt8) :
    ∃ notes : List Note,
      match Format.capture.declaredSections? supported input with
      | some count => ∃ left,
          (ofCapture supported).run ⟨0, input⟩ =
            ((times count fun _ => ofSection).run left).after
              (notes.map .note)
      | none => ∃ fatal,
          (ofCapture supported).run ⟨0, input⟩ =
            ⟨notes.map .note, .error fatal⟩ := by
  by_cases short : input.length < 10
  · rw [Format.declaredSections?_of_short short]
    exact run_ofCapture_of_short short
  obtain ⟨written, rest, count, rfl⟩ :=
    Wire.exists_bytes_append (by omega : 2 * 5 ≤ input.length)
  match written, count with
  | [version, reserved, id, low, high], _ =>
      have words := Wire.words_take_bytes_append
        [version, reserved, id, low, high] rest
      change Wire.words (List.take 10 _) = _ at words
      have header : Wire.bytes [version, reserved, id, low, high] =
          Wire.bytes [version] ++ (Wire.bytes [reserved] ++
            (Wire.bytes [id] ++
              Wire.bytes (Wire.splitDword (Wire.joinWords low high)))) := by
        rw [Wire.splitDword_joinWords]
        rfl
      simp only [Format.declaredSections?, words]
      rw [header]
      simp only [List.append_assoc]
      rw [ofCapture, run_word_bind, run_note_bind]
      by_cases same : version = supported
      · rw [if_pos same, if_pos same, run_word_bind, run_word_bind,
          run_note_bind, run_dword_bind, run_note_bind]
        exact ⟨[.fileVersion version, .sessionId id,
          .sectionCount (Wire.joinWords low high)], _, rfl⟩
      · rw [if_neg same, if_neg same]
        exact ⟨[.fileVersion version], _, rfl⟩

end Walk

theorem Trace.Sections.map {α β : Type} {met bound : Nat} {trace : Trace α}
    (sections_ : trace.Sections met bound) (change : α → β) :
    (change <$> trace).Sections met bound := by
  rw [Trace.map_eq]
  constructor
  · intro value ended
    cases reached : trace.result with
    | ok found => exact sections_.complete reached
    | error fatal =>
        rw [reached] at ended
        cases ended
  · intro fatal ended
    cases reached : trace.result with
    | ok found =>
        rw [reached] at ended
        cases ended
    | error found => exact sections_.stopped reached
  · exact sections_.beforeEvent

theorem Trace.Sections.after_notes {α : Type} {met bound : Nat}
    {trace : Trace α} (sections_ : trace.Sections met bound)
    (notes : List Note) :
    (trace.after (notes.map .note)).Sections met bound := by
  have counted : (notes.map Item.note).count .sectionEnd = 0 :=
    List.count_eq_zero.mpr (by simp)
  have whole := sections_.after counted fun {before event later} found => by
    have member : Item.event event ∈ notes.map .note := by simp [found]
    simp at member
  rwa [Nat.zero_add, Nat.zero_add] at whole

/-- The section ends in a trace are those that the input declares. -/
theorem Format.sections_trace (format : Format) (supported : UInt16)
    (input : List UInt8) :
    match format.declaredSections? supported input with
    | some count => (format.trace supported input).Sections count count
    | none => ∃ (notes : List Note) (fatal : Fatal),
        format.trace supported input = ⟨notes.map .note, .error fatal⟩ := by
  cases format with
  | bareSection => exact (Walk.Sections.ofSection ⟨0, input⟩).map _
  | capture =>
      obtain ⟨notes, ran⟩ := Walk.exists_run_ofCapture supported input
      split
      · next count declared =>
          rw [declared] at ran
          obtain ⟨left, ran⟩ := ran
          have sections_ :=
            Walk.Sections.timesFrom (fun _ => .ofSection) 0 count left
          change ((·.2) <$> (Walk.ofCapture supported).run
            ⟨0, input⟩).Sections count count
          rw [ran]
          exact (sections_.after_notes notes).map _
      · next undeclared =>
          rw [undeclared] at ran
          obtain ⟨fatal, ran⟩ := ran
          refine ⟨notes, fatal, ?_⟩
          change (·.2) <$> (Walk.ofCapture supported).run ⟨0, input⟩ = _
          rw [ran]
          rfl

namespace Presentation

variable {options : Options} {context : Context}

theorem ends_ofOutcome (header : EventHeader)
    (outcome : Except InterpretError (List Remark)) :
    (ofOutcome header outcome).counts.sections = 0 ∧
      (ofOutcome header outcome).counts.buffers = 0 := by
  match outcome with
  | .ok remarks => exact ⟨rfl, rfl⟩
  | .error (.malformed kind error) => exact ⟨rfl, rfl⟩
  | .error (.unknownEventType tag) => exact ⟨rfl, rfl⟩

/-- Sections and buffers are counted at their ends. -/
theorem ends_ofItem (options : Options) (context : Context) (item : Item) :
    (ofItem options context item).1.counts.sections =
        .ofNat ([item].count .sectionEnd) ∧
      (ofItem options context item).1.counts.buffers =
        .ofNat ([item].count .bufferEnd) := by
  cases item with
  | event event =>
      change (ofEvent options context event).1.counts.sections = 0 ∧
        (ofEvent options context event).1.counts.buffers = 0
      unfold ofEvent
      split
      · exact ends_ofOutcome _ _
      · exact ⟨rfl, rfl⟩
  | _ => exact ⟨rfl, rfl⟩

variable (items : List Item)

theorem sections_ofItems :
    (ofItems options context items).counts.sections =
      .ofNat (((showings options context items).map Showing.item).count
        .sectionEnd) :=
  count_items .sections fun context item => (ends_ofItem options context item).1

theorem buffers_ofItems :
    (ofItems options context items).counts.buffers =
      .ofNat (((showings options context items).map Showing.item).count
        .bufferEnd) :=
  count_items .buffers fun context item => (ends_ofItem options context item).2

end Presentation

/-- A decode presents its items and ends as the presentation or the walk does. -/
theorem decode_eq_ofResult (format : Format) (options : Options)
    (input : List UInt8) :
    let trace := format.trace options.supportedVersion input
    let shown := Presentation.ofItems options (.fresh .builtin) trace.items
    decode format options input =
      .ofResult shown (shown.ending trace.result) := by
  intro trace shown
  unfold decode Presentation.ending
  cases stopped : shown.fatal with
  | some fatal =>
      unfold shown trace at stopped
      simp only [stopped]
      rfl
  | none =>
      unfold shown trace at stopped
      simp only [stopped]
      cases trace.result <;> rfl

theorem Transcript.fatal_ofResult (shown : Presentation)
    (result : Except Fatal Span) :
    (ofResult shown result).report.fatal = none ↔
      ∃ left, result = .ok left := by
  cases result with
  | ok left => exact iff_of_true rfl ⟨left, rfl⟩
  | error fatal => exact iff_of_false nofun nofun

theorem Transcript.sections_ofResult (shown : Presentation)
    (result : Except Fatal Span) :
    (ofResult shown result).report.sections = shown.counts.sections := by
  rw [counts_ofResult]

theorem Format.declaredSections?_lt {format : Format} {supported : UInt16}
    {input : List UInt8} {count : Nat}
    (declared : format.declaredSections? supported input = some count) :
    count < 2 ^ 32 := by
  unfold declaredSections? at declared
  split at declared
  · cases declared
    decide
  · split at declared
    · split at declared
      · cases declared
        exact UInt32.toNat_lt _
      · cases declared
    · cases declared

/-- A decode is not stopped if and only if it has shown the ends of all the
sections that its input declares, and it never shows more. -/
theorem sectionEnds_decodeShowings (format : Format) (options : Options)
    (input : List UInt8) :
    let fatal := (decode format options input).report.fatal
    let ends := ((decodeShowings format options input).map
      Showing.item).count .sectionEnd
    match format.declaredSections? options.supportedVersion input with
    | some count => (fatal = none ↔ ends = count) ∧ ends ≤ count
    | none => fatal ≠ none ∧ ends = 0 := by
  have traced := format.sections_trace options.supportedVersion input
  obtain ⟨later, split, ending⟩ := exists_not_shown options (.fresh .builtin)
    (format.trace options.supportedVersion input).items
  intro fatal ends
  unfold fatal ends decodeShowings
  generalize (showings options (.fresh .builtin)
    (format.trace options.supportedVersion input).items).map Showing.item =
      shown at split ending ⊢
  rw [decode_eq_ofResult]
  simp only [ne_eq, Transcript.fatal_ofResult, Presentation.ending]
  cases declared :
      format.declaredSections? options.supportedVersion input with
  | none =>
      rw [declared] at traced
      obtain ⟨notes, fatal, traced⟩ := traced
      rw [traced] at split ⊢
      constructor
      · rintro ⟨left, ended⟩
        split at ended
        · cases ended
        · cases ended
      · apply List.count_eq_zero.mpr
        intro member
        have among : Item.sectionEnd ∈ notes.map Item.note := by
          change notes.map Item.note = _ at split
          rw [split]
          exact List.mem_append_left later member
        simp at among
  | some count =>
      rw [declared] at traced
      split at ending
      · next unstopped =>
          -- the walk alone decides
          rw [ending, List.append_nil] at split
          simp only [unstopped]
          rw [← split]
          cases ended :
              (format.trace options.supportedVersion input).result with
          | ok left =>
              have all := traced.complete ended
              exact ⟨iff_of_true ⟨left, rfl⟩ all, Nat.le_of_eq all⟩
          | error fatal =>
              have few := traced.stopped ended
              exact ⟨iff_of_false nofun (Nat.ne_of_lt few), Nat.le_of_lt few⟩
      · next fatal stopped =>
          -- the event that stopped the presentation lies before some end
          obtain ⟨before, event, rfl⟩ := ending
          rw [List.append_assoc] at split
          have few : (before ++ [Item.event event]).count .sectionEnd <
              count := by
            rw [List.count_append]
            exact traced.beforeEvent split
          simp only [stopped]
          exact ⟨iff_of_false nofun (Nat.ne_of_lt few), Nat.le_of_lt few⟩

/-- A decode is not stopped if and only if it has counted all the sections that
its input declares.  An input that declares none is not decoded. -/
theorem sections_decode (format : Format) (options : Options)
    (input : List UInt8) :
    let report := (decode format options input).report
    match format.declaredSections? options.supportedVersion input with
    | some count => report.fatal = none ↔ report.sections.toNat = count
    | none => report.fatal ≠ none ∧ report.sections = 0 := by
  intro report
  have shown := sectionEnds_decodeShowings format options input
  have counted : report.sections = .ofNat
      (((decodeShowings format options input).map Showing.item).count
        .sectionEnd) := by
    unfold report
    rw [decode_eq_ofResult, Transcript.sections_ofResult]
    exact Presentation.sections_ofItems _
  cases declared :
      format.declaredSections? options.supportedVersion input with
  | none =>
      rw [declared] at shown
      refine ⟨shown.1, ?_⟩
      rw [counted, shown.2]
      rfl
  | some count =>
      rw [declared] at shown
      have fits := Nat.lt_of_le_of_lt shown.2
        (Format.declaredSections?_lt declared)
      dsimp only
      rw [counted, UInt32.toNat_ofNat_of_lt' fits]
      exact shown.1

end SessionCapture
