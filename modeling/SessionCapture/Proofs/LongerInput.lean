import SessionCapture.Proofs.Frames
import SessionCapture.Proofs.LeadingFields
import SessionCapture.Proofs.RawPresentation

/-!
# Longer input takes nothing back

What a decode has told of some bytes, it tells of any longer input that begins
with them.  Only the end may change: the last record met, if the input stopped
inside it, and the line that closes the transcript.  `Retains` says this of
items, `Walk.Steady` of a walk, and a walk is steady if each of its steps is.
-/

namespace SessionCapture

/-! ## Records at the end of the input -/

/-- What the record at the end of an input can be told as if the input stops
inside it. -/
inductive CutShort : List Item → Prop where
  | nothing : CutShort []
  | fragment (fragment : Fragment) : CutShort [.corrupt fragment]
  | event {fragment : Fragment} (buffer : Nat) (reason : Desync) :
      fragment.kind = .event →
      CutShort [.corrupt fragment, .desync buffer reason]

/-- The items of a shorter input are met in a longer one too, but for a record
cut short at their end. -/
def Retains (short long : List Item) : Prop :=
  ∃ kept cut, short = kept ++ cut ∧ kept <+: long ∧ CutShort cut

namespace Retains

variable {short long : List Item}

theorem of_begins (kept : short <+: long) : Retains short long :=
  ⟨short, [], (List.append_nil short).symm, kept, .nothing⟩

theorem append_left (before : List Item) (retained : Retains short long) :
    Retains (before ++ short) (before ++ long) := by
  obtain ⟨kept, cut, rfl, begins, last⟩ := retained
  refine ⟨before ++ kept, cut, ?_, ?_, last⟩
  · rw [List.append_assoc]
  · exact (List.prefix_append_right_inj before).mpr begins

theorem append_right (retained : Retains short long) (later : List Item) :
    Retains short (long ++ later) := by
  obtain ⟨kept, cut, same, begins, last⟩ := retained
  exact ⟨kept, cut, same, begins.trans (List.prefix_append long later), last⟩

end Retains

theorem FixedForm.item_of_short {α : Type} (form : FixedForm α)
    {tell : α → Item} {content : List UInt8}
    (short : content.length < form.kind.size) :
    ∃ fragment, form.item tell content = .corrupt fragment := by
  rw [item, form.read_of_short short]
  exact ⟨_, rfl⟩

/-- Records of a fixed size: only the piece at the end can be short. -/
theorem Retains.of_pieces {size : Nat} {item : List UInt8 → Item}
    (positive : size ≠ 0)
    (cutShort : ∀ {content : List UInt8}, content.length < size →
      ∃ fragment, item content = .corrupt fragment)
    (content more : List UInt8) :
    Retains ((pieces size content).map item)
      ((pieces size (content ++ more)).map item) := by
  let whole := content.length - content.length % size
  have below : whole ≤ content.length := Nat.sub_le _ _
  have divides : (content.take whole).length % size = 0 := by
    rw [List.length_take_of_le below]
    exact Nat.mod_eq_zero_of_dvd (Nat.dvd_sub_mod content.length)
  have short : (content.drop whole).length < size := by
    have bound := Nat.mod_lt content.length (Nat.pos_of_ne_zero positive)
    have remainder := Nat.mod_le content.length size
    rw [List.length_drop]
    omega
  have split : content = content.take whole ++ content.drop whole :=
    (List.take_append_drop whole content).symm
  refine ⟨(pieces size (content.take whole)).map item,
    (pieces size (content.drop whole)).map item, ?same, ?begins, ?last⟩
  case same =>
    rw [← List.map_append, ← pieces_append positive divides, ← split]
  case begins =>
    have longer : content ++ more =
        content.take whole ++ (content.drop whole ++ more) := by
      rw [← List.append_assoc, ← split]
    rw [longer, pieces_append positive divides, List.map_append]
    exact List.prefix_append _ _
  case last =>
    by_cases empty : content.drop whole = []
    · rw [empty, pieces_nil]
      exact .nothing
    · obtain ⟨fragment, told⟩ := cutShort short
      rw [pieces_of_length_le empty (Nat.le_of_lt short), List.map_singleton,
        told]
      exact .fragment fragment

theorem FixedForm.read_append {α : Type} (form : FixedForm α)
    {content rest : List UInt8} {record : α}
    (success : form.read content = .ok (record, rest)) (more : List UInt8) :
    form.read (content ++ more) = .ok (record, rest ++ more) := by
  obtain ⟨enough, rfl⟩ := form.read_rest success
  obtain ⟨first, begins⟩ := form.exists_bytes_append enough
  have whole := form.read_bytes_append first (content.drop form.kind.size)
  rw [← begins, success] at whole
  cases whole
  rw [begins, List.append_assoc, form.read_bytes_append, ← begins]

/-- An event that is read whole is read whole whatever follows it. -/
theorem Event.read_append {content rest : List UInt8} {event : Event}
    (success : Event.read content = .ok (event, rest)) (more : List UInt8) :
    Event.read (content ++ more) = .ok (event, rest ++ more) := by
  unfold Event.read at success ⊢
  cases found : EventHeader.read content with
  | error short =>
      rw [found] at success
      cases success
  | ok reached =>
      obtain ⟨header, body⟩ := reached
      rw [found] at success
      rw [EventHeader.read, FixedForm.eventHeader.read_append found more]
      dsimp only at success ⊢
      split at success
      · next whole =>
          have enough : 2 * header.length.toNat ≤ body.length := by
            rw [List.length_take] at whole
            omega
          cases success
          rw [List.take_append_of_le_length enough,
            List.drop_append_of_le_length enough, if_pos whole]
      · cases success

theorem Event.readAll_isPrefix_append (content more : List UInt8) :
    (Event.readAll content).1 <+: (Event.readAll (content ++ more)).1 := by
  by_cases empty : content = []
  · rw [empty, Event.readAll_nil]
    exact List.nil_prefix
  · cases found : Event.read content with
    | error breach =>
        rw [Event.readAll_of_error empty found]
        exact List.nil_prefix
    | ok reached =>
        obtain ⟨event, rest⟩ := reached
        rw [Event.readAll_of_ok found,
          Event.readAll_of_ok (Event.read_append found more)]
        apply (List.prefix_cons_inj event).mpr
        exact Event.readAll_isPrefix_append rest more
termination_by content.length
decreasing_by exact Event.read_rest_lt found

theorem Event.kind_of_read_error {content : List UInt8} {breach : Breach}
    (failure : Event.read content = .error breach) :
    breach.fragment.kind = .event := by
  unfold Event.read at failure
  split at failure
  · next short found =>
      cases failure
      exact FixedForm.eventHeader.kind_of_read_error found
  · dsimp only at failure
    split at failure
    · cases failure
    · cases failure
      rfl

theorem Event.kind_of_readAll {content : List UInt8} {breach : Breach}
    (breached : (Event.readAll content).2 = some breach) :
    breach.fragment.kind = .event := by
  by_cases empty : content = []
  · rw [empty, Event.readAll_nil] at breached
    cases breached
  · cases found : Event.read content with
    | error first =>
        rw [Event.readAll_of_error empty found] at breached
        cases breached
        exact Event.kind_of_read_error found
    | ok reached =>
        obtain ⟨event, rest⟩ := reached
        rw [Event.readAll_of_ok found] at breached
        exact Event.kind_of_readAll breached
termination_by content.length
decreasing_by exact Event.read_rest_lt found

theorem Retains.of_events (buffer : Nat) (content more : List UInt8) :
    Retains (eventItems buffer content)
      (eventItems buffer (content ++ more)) := by
  have begins := Event.readAll_isPrefix_append content more
  cases found : Event.readAll content with
  | mk events breach =>
      cases longer : Event.readAll (content ++ more) with
      | mk longerEvents longerBreach =>
          rw [found, longer] at begins
          simp only [eventItems, found, longer]
          refine ⟨events.map .event, _, rfl, ?begins, ?last⟩
          case begins =>
            exact (begins.map Item.event).trans (List.prefix_append _ _)
          case last =>
            cases breach with
            | none => exact .nothing
            | some breach =>
                have breached : (Event.readAll content).2 = some breach :=
                  congrArg Prod.snd found
                exact .event buffer breach.reason
                  (Event.kind_of_readAll breached)

/-- Whether the records of a buffer are told depends on its kind alone. -/
theorem recordItems?_append {buffer : Nat} {kind : BufferKind}
    {content : List UInt8} {items : List Item}
    (known : recordItems? buffer kind content = some items)
    (more : List UInt8) :
    ∃ longer, recordItems? buffer kind (content ++ more) = some longer ∧
      Retains items longer := by
  cases kind with
  | telemetry =>
      cases known
      exact ⟨_, rfl, .of_pieces (by decide)
        FixedForm.movement.item_of_short _ _⟩
  | action =>
      cases known
      exact ⟨_, rfl, .of_pieces (by decide)
        FixedForm.click.item_of_short _ _⟩
  | event =>
      cases known
      exact ⟨_, rfl, .of_events buffer content more⟩
  | unknown tag => cases known

/-! ## Steady walks -/

/-- The span with more bytes at its end. -/
def Span.extend (more : List UInt8) (span : Span) : Span :=
  ⟨span.offset, span.bytes ++ more⟩

namespace Walk

variable {α β : Type}

/-- A walk that comes to its end on a span does the same on a longer one, and
otherwise has met nothing that it does not meet there, except at the end. -/
structure Steady (walk : Walk α) : Prop where
  reaches : ∀ {span left : Span} {items : List Item} {value : α},
    walk.run span = ⟨items, .ok (value, left)⟩ → ∀ more,
      walk.run (span.extend more) = ⟨items, .ok (value, left.extend more)⟩
  retains : ∀ {span : Span} {items : List Item} {fatal : Fatal},
    walk.run span = ⟨items, .error fatal⟩ → ∀ more,
      Retains items (walk.run (span.extend more)).items

theorem Steady.pure (value : α) : Steady (Pure.pure value : Walk α) := by
  constructor
  · intro span left items reached ran more
    cases ran
    rfl
  · intro span items fatal ran
    cases ran

theorem Steady.emit (items : List Item) : Steady (emit items) := by
  constructor
  · intro span left met value ran more
    cases ran
    rfl
  · intro span met fatal ran
    cases ran

theorem Steady.stop (fatal : Fatal) : Steady (stop fatal : Walk α) := by
  constructor
  · intro span left items value ran
    cases ran
  · intro span items found ran more
    cases ran
    exact .of_begins List.nil_prefix

theorem Steady.offset : Steady (peek Span.offset) := by
  constructor
  · intro span left items value ran more
    cases ran
    rfl
  · intro span items fatal ran
    cases ran

/-- A reader that reads the same from a longer span, and leaves more. -/
theorem Steady.read {reader : Span → Except Truncation (α × Span)}
    (extends_ : ∀ {span left : Span} {value : α},
      reader span = .ok (value, left) → ∀ more,
        reader (span.extend more) = .ok (value, left.extend more)) :
    Steady (read reader) := by
  constructor
  · intro span left items value ran more
    cases found : reader span with
    | error truncation =>
        rw [run_read_of_error found] at ran
        cases ran
    | ok reached =>
        rw [run_read_of_ok found] at ran
        cases ran
        exact run_read_of_ok (extends_ found more)
  · intro span items fatal ran more
    cases found : reader span with
    | error truncation =>
        rw [run_read_of_error found] at ran
        cases ran
        exact .of_begins List.nil_prefix
    | ok reached =>
        rw [run_read_of_ok found] at ran
        cases ran

theorem Steady.bind {walk : Walk α} {next : α → Walk β} (first : Steady walk)
    (later : ∀ value, Steady (next value)) : Steady (walk >>= next) := by
  constructor
  · intro span left items value ran more
    cases reached : walk.run span with
    | mk met result =>
        cases result with
        | error fatal =>
            rw [run_bind_of_error reached] at ran
            cases ran
        | ok middle =>
            rw [run_bind_of_ok reached] at ran
            rw [run_bind_of_ok (first.reaches reached more)]
            cases rest : (next middle.1).run middle.2 with
            | mk rested result =>
                rw [rest] at ran
                cases ran
                rw [(later middle.1).reaches rest more]
                rfl
  · intro span items fatal ran more
    cases reached : walk.run span with
    | mk met result =>
        cases result with
        | error found =>
            rw [run_bind_of_error reached] at ran
            cases ran
            have retained := first.retains reached more
            cases longer : walk.run (span.extend more) with
            | mk longerMet longerResult =>
                rw [longer] at retained
                cases longerResult with
                | error other =>
                    rw [run_bind_of_error longer]
                    exact retained
                | ok middle =>
                    rw [run_bind_of_ok longer]
                    exact retained.append_right _
        | ok middle =>
            rw [run_bind_of_ok reached] at ran
            rw [run_bind_of_ok (first.reaches reached more)]
            cases rest : (next middle.1).run middle.2 with
            | mk rested result =>
                rw [rest] at ran
                cases ran
                exact ((later middle.1).retains rest more).append_left met

theorem Steady.word : Steady word := by
  apply Steady.read
  intro span left value success more
  obtain ⟨offset, content⟩ := span
  unfold Span.word at success
  split at success
  · next low high rest begins =>
      cases success
      cases begins
      rfl
  · cases success

theorem Steady.dword : Steady dword := by
  apply Steady.read
  intro span left value success more
  obtain ⟨offset, content⟩ := span
  unfold Span.dword at success
  split at success
  · next begins =>
      cases success
      cases begins
      rfl
  · cases success

/-! ## Buffers, sections and captures -/

theorem Steady.ofRegion (index : Nat) (tag : UInt16) (size : Nat) :
    Steady (ofRegion index tag size) := by
  constructor
  · intro span left items value ran more
    have became := regionTrace index tag size span
    rw [ran] at became
    cases became with
    | passed known enough =>
        have sameWindow : (span.extend more).window size = span.window size :=
          congrArg (Span.mk span.offset)
            (List.take_append_of_le_length enough)
        have longer : size ≤ (span.extend more).remaining := by
          apply Nat.le_trans enough
          exact (List.prefix_append span.bytes more).length_le
        have sameLeft : (span.extend more).drop size =
            (span.drop size).extend more :=
          congrArg (Span.mk (span.offset + size))
            (List.drop_append_of_le_length enough)
        rw [run_ofRegion_of_le longer (sameWindow.symm ▸ known), sameLeft]
  · intro span items fatal ran more
    have became := regionTrace index tag size span
    rw [ran] at became
    cases became with
    | unknown _ => exact .of_begins List.nil_prefix
    | cutOff known _ =>
        have window : ((span.extend more).window size).bytes =
            (span.window size).bytes ++
              more.take (size - span.bytes.length) := by
          change (span.bytes ++ more).take size = span.bytes.take size ++ _
          rw [List.take_append]
        obtain ⟨longer, alsoKnown, retained⟩ := recordItems?_append known
          (more.take (size - span.bytes.length))
        rw [← window] at alsoKnown
        obtain ⟨later, met⟩ := exists_items_ofRegion alsoKnown
        rw [met]
        exact retained.append_right later

theorem Steady.keeps : Keeps fun _ walk => Steady walk where
  pure := .pure
  bind := .bind
  word := .word
  dword := .dword
  note _ := .emit _

theorem Steady.ofBuffer (index : Nat) : Steady (ofBuffer index) := by
  have offset (index : Nat) : Steady (announce index) :=
    .bind .offset fun _ => .emit _
  have buffer := Steady.keeps.carriesBuffer offset (fun _ _ => .emit _)
    (fun _ _ => .emit _) .ofRegion
  exact buffer.ofBuffer index

theorem Steady.carries : Carries fun _ _ _ walk => Steady walk :=
  Steady.keeps.carries .ofBuffer (.emit _) fun _ _ => .stop _

end Walk

theorem Format.retains_trace (format : Format) (supported : UInt16)
    (input more : List UInt8) :
    Retains (format.trace supported input).items
      (format.trace supported (input ++ more)).items := by
  have steady := Walk.Steady.carries.ofFormat format supported
  have longItems : (format.trace supported (input ++ more)).items =
      ((format.walk supported).run (Span.extend more ⟨0, input⟩)).items := by
    rw [Format.trace_eq]
    rfl
  rw [Format.trace_eq, longItems]
  cases ran : (format.walk supported).run ⟨0, input⟩ with
  | mk items result =>
      cases result with
      | ok reached =>
          rw [steady.reaches ran more]
          exact .of_begins List.prefix_rfl
      | error fatal => exact steady.retains ran more

/-! ## Presenting retained items -/

namespace Presentation

/-- The context that items leave behind. -/
def contextAfter (options : Options) (context : Context) (items : List Item) :
    Context :=
  items.foldl (fun context item => (ofItem options context item).2) context

theorem followedBy_assoc (first second third : Presentation) :
    (first.followedBy second).followedBy third =
      first.followedBy (second.followedBy third) := by
  obtain ⟨lines, counts, fatal⟩ := first
  obtain ⟨secondLines, secondCounts, secondFatal⟩ := second
  cases fatal with
  | some fatal => rfl
  | none =>
      cases secondFatal with
      | some fatal => rfl
      | none => simp [followedBy, Counts.add_assoc]

theorem ofItems_append (options : Options) (context : Context)
    (front back : List Item) :
    ofItems options context (front ++ back) =
      followedBy (ofItems options context front)
        (ofItems options (contextAfter options context front) back) := by
  induction front generalizing context with
  | nil => simp [followedBy, contextAfter]
  | cons item front induction =>
      rw [List.cons_append, ofItems_cons, induction, ofItems_cons,
        followedBy_assoc]
      rfl

end Presentation

/-- The lines that tell of a record cut short. -/
inductive CutRecord : List Line → Prop where
  | nothing : CutRecord []
  | fragment (fragment : Fragment) : CutRecord [.corrupt fragment]
  | action {fragment : Fragment} :
      fragment.kind = .action →
      CutRecord [.corrupt fragment,
        .human fragment.timestamp? "Corrupted action."]
  | event {fragment : Fragment} (buffer : Nat) (reason : Desync) :
      fragment.kind = .event →
      CutRecord [.corrupt fragment,
        .notice s!"Buffer({buffer}) desynchronized: {reason.message}"]

theorem Presentation.lines_cutShort {items : List Item}
    (cut : CutShort items) (options : Options) (context : Context) :
    CutRecord (ofItems options context items).lines := by
  cases cut with
  | nothing => exact .nothing
  | fragment fragment =>
      by_cases described : fragment.kind = .action ∧ options.humanLines
      · have lines : (ofItems options context [.corrupt fragment]).lines =
            [.corrupt fragment,
              .human fragment.timestamp? "Corrupted action."] := by
          simp [ofItems_cons, followedBy, ofItem, ofCorrupt, described]
        rw [lines]
        exact .action described.1
      · have lines : (ofItems options context [.corrupt fragment]).lines =
            [.corrupt fragment] := by
          simp [ofItems_cons, followedBy, ofItem, ofCorrupt, described]
        rw [lines]
        exact .fragment fragment
  | @event fragment buffer reason kind =>
      have lines : (ofItems options context
          [.corrupt fragment, .desync buffer reason]).lines =
            [.corrupt fragment, .notice
              s!"Buffer({buffer}) desynchronized: {reason.message}"] := by
        simp [ofItems_cons, followedBy, ofItem, ofCorrupt, ofDesync, kind]
      rw [lines]
      exact .event buffer reason kind

/-! ## The whole transcript -/

/-- What more input may take back: the lines of a record cut short, and the line
that closes the transcript. -/
def Provisional (lines : List Line) : Prop :=
  ∃ cut result, lines = cut ++ Transcript.closing result ∧ CutRecord cut

theorem CutRecord.length_le {lines : List Line} (cut : CutRecord lines) :
    lines.length ≤ 2 := by
  cases cut <;> simp

theorem Transcript.length_closing (result : Except Fatal Span) :
    (closing result).length ≤ 1 := by
  unfold closing
  split
  · exact Nat.le_refl 1
  · split
    · exact Nat.zero_le 1
    · exact Nat.le_refl 1

theorem Provisional.length_le {lines : List Line}
    (provisional : Provisional lines) : lines.length ≤ 3 := by
  obtain ⟨cut, result, rfl, record⟩ := provisional
  rw [List.length_append]
  exact Nat.add_le_add record.length_le (Transcript.length_closing result)

/-- The result that decides the closing line: what stopped the presentation, or
else the result of the walk. -/
def Presentation.ending (shown : Presentation) (result : Except Fatal Span) :
    Except Fatal Span :=
  match shown.fatal with
  | some fatal => .error fatal
  | none => result

theorem lines_decode (format : Format) (options : Options)
    (input : List UInt8) :
    let trace := format.trace options.supportedVersion input
    let shown := Presentation.ofItems options (.fresh .builtin) trace.items
    (decode format options input).lines =
      shown.lines ++ Transcript.closing (shown.ending trace.result) := by
  intro trace shown
  unfold decode Presentation.ending
  cases stopped : shown.fatal with
  | some fatal =>
      unfold shown trace at stopped
      simp only [stopped]
      rfl
  | none =>
      unfold shown trace at stopped
      simp only [stopped]
      cases trace.result <;> rfl

/-- Decoding more bytes takes back no line, except for at most three at the end:
those of a record that the shorter input cut short, and the closing line. -/
theorem longer_input_retains_lines (format : Format) (options : Options)
    (input more : List UInt8) :
    ∃ kept withdrawn,
      (decode format options input).lines = kept ++ withdrawn ∧
      withdrawn.length ≤ 3 ∧
      Provisional withdrawn ∧
      kept <+: (decode format options (input ++ more)).lines := by
  obtain ⟨items, cut, short, ⟨later, long⟩, cutShort⟩ :=
    format.retains_trace options.supportedVersion input more
  rw [lines_decode, lines_decode, short, ← long, Presentation.ofItems_append,
    Presentation.ofItems_append]
  generalize Presentation.contextAfter options (.fresh .builtin) items = context
  cases Presentation.ofItems options (.fresh .builtin) items with
  | mk lines counts stopped =>
      cases stopped with
      | some fatal =>
          -- both transcripts end where the kept items were stopped
          have provisional : Provisional (Transcript.closing (.error fatal)) :=
            ⟨[], .error fatal, rfl, .nothing⟩
          exact ⟨lines, _, rfl, provisional.length_le, provisional,
            List.prefix_append _ _⟩
      | none =>
          have record := Presentation.lines_cutShort cutShort options context
          have provisional (result : Except Fatal Span) : Provisional
              ((Presentation.ofItems options context cut).lines ++
                Transcript.closing result) :=
            ⟨_, result, rfl, record⟩
          refine ⟨lines, _, List.append_assoc _ _ _, (provisional _).length_le,
            provisional _, ?_⟩
          simp only [Presentation.followedBy, List.append_assoc]
          exact List.prefix_append _ _

end SessionCapture
