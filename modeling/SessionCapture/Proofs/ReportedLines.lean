import SessionCapture.Proofs.Budgets
import SessionCapture.Proofs.Endings
import SessionCapture.Proofs.Passages
import SessionCapture.Proofs.Places
import SessionCapture.Proofs.Showings

/-!
# The report counts the lines

What a report counts can be counted again on the lines of the transcript, also
if the decode was stopped: records and desynchronized buffers each have a line
of their own.  Of buffers only the length is stated, before their records, so
that the buffer in which a decode was stopped may have its line and not be
counted.
-/

namespace SessionCapture

namespace Line

def isMovement : Line → Bool
  | .movement _ => true
  | _ => false

def isClick : Line → Bool
  | .click _ => true
  | _ => false

def isData : Line → Bool
  | .data _ _ _ => true
  | _ => false

def isCorrupt : Line → Bool
  | .corrupt _ => true
  | _ => false

/-- Whether a line says that a buffer is desynchronized. -/
def tellsDesync : Line → Bool
  | .notice text => decide ("desynchronized".toList <:+: text.toList)
  | _ => false

/-- Whether a line states the length of a buffer. -/
def statesLength : Line → Bool
  | .notice text =>
      decide ("Buffer(".toList <+: text.toList ∧
        ") Length:".toList <:+: text.toList)
  | _ => false

/-- Records and desynchronized buffers, counted on lines. -/
def tally (lines : List Line) : Counts where
  movements := lines.countP isMovement
  clicks := lines.countP isClick
  events := lines.countP isEvent
  corruptRecords := lines.countP isCorrupt
  desyncedBuffers := .ofNat (lines.countP tellsDesync)

end Line

/-- The counts that have a line of their own. -/
def Counts.lined (counts : Counts) : Counts :=
  { counts with sections := 0, buffers := 0, advisories := 0 }

/-- Neither an event line nor a payload word. -/
def Line.OutsideEvents (line : Line) : Prop :=
  line.isEvent = false ∧ line.isData = false

/-- An event line comes with as many payload words as it says, in order and
under its timestamp.  There are no payload words elsewhere. -/
def Passage.InOrder : Passage → Prop
  | .plain line => line.OutsideEvents
  | .event header data => ∃ payload : List UInt16,
      payload.length = header.length.toNat ∧
      data = payload.mapIdx fun index word =>
        .data header.timestamp index word

/-! ## Records and desynchronized buffers -/

namespace Line

theorem tally_append (front back : List Line) :
    tally (front ++ back) = tally front + tally back := by
  simp only [tally, Counts.add_def, List.countP_append, Nat.zero_add,
    UInt32.zero_add, UInt32.ofNat_add]

/-- Lines that are not counted add nothing. -/
theorem tally_of_forall {lines : List Line}
    (uncounted : ∀ line ∈ lines, tally [line] = 0) : tally lines = 0 := by
  induction lines with
  | nil => rfl
  | cons line lines induction =>
      have later : tally lines = 0 := by
        apply induction
        intro other member
        exact uncounted other (List.mem_cons_of_mem line member)
      rw [← List.singleton_append, tally_append, later,
        uncounted line List.mem_cons_self]
      rfl

theorem tellsDesync_notice (text : String) :
    tellsDesync (.notice text) = !isStructural (.notice text) := by
  rw [isStructural_notice, Bool.not_not]
  rfl

theorem not_tellsDesync_of_structural {text : String}
    (structural : isStructural (.notice text) = true) :
    tellsDesync (.notice text) = false := by
  rw [tellsDesync_notice, structural]
  rfl

theorem tally_of_structural {text : String}
    (structural : isStructural (.notice text) = true) :
    tally [.notice text] = 0 := by
  simp only [tally, List.countP_singleton,
    not_tellsDesync_of_structural structural]
  rfl

theorem tellsDesync_desync (buffer : Nat) (reason : Desync) :
    tellsDesync (.notice
      s!"Buffer({buffer}) desynchronized: {reason.message}") = true := by
  rw [tellsDesync_notice, isStructural_desync]
  rfl

theorem tally_desync (buffer : Nat) (reason : Desync) :
    tally [.notice s!"Buffer({buffer}) desynchronized: {reason.message}"] =
      { desyncedBuffers := 1 } := by
  simp only [tally, List.countP_singleton, tellsDesync_desync]
  rfl

/-- A record's own line may be followed by one that describes it. -/
theorem tally_described {own : Line} {timestamp : Option UInt32}
    {text : String} {asked : Prop} [Decidable asked] :
    tally (own :: if asked then [.human timestamp text] else []) =
      tally [own] := by
  split
  · rw [← List.singleton_append, tally_append]
    exact Counts.add_zero _
  · rfl

theorem tally_event (event : Event) :
    tally event.lines = { events := 1 } := by
  have data : tally event.dataLines = 0 := by
    apply tally_of_forall
    intro line member
    rcases List.mem_map.mp member with ⟨⟨word, index⟩, _, rfl⟩
    rfl
  rw [event.lines_eq, ← List.singleton_append, tally_append, data]
  rfl

end Line

namespace Presentation

theorem tally_ofOutcome (header : EventHeader)
    (outcome : Except InterpretError (List Remark)) :
    Line.tally (ofOutcome header outcome).lines =
      (ofOutcome header outcome).counts.lined := by
  match outcome with
  | .ok remarks =>
      apply Line.tally_of_forall
      intro line member
      rcases List.mem_map.mp member with ⟨remark, _, rfl⟩
      rfl
  | .error (.malformed kind error) => rfl
  | .error (.unknownEventType tag) => rfl

theorem event_add_counts_ofOutcome (header : EventHeader)
    (outcome : Except InterpretError (List Remark)) :
    ({ events := 1 } : Counts) + (ofOutcome header outcome).counts =
      { (ofOutcome header outcome).counts with events := 1 } := by
  match outcome with
  | .ok remarks =>
      simp only [ofOutcome, Counts.add_def, Nat.zero_add, Nat.add_zero,
        UInt32.zero_add]
  | .error (.malformed kind error) => rfl
  | .error (.unknownEventType tag) => rfl

variable (options : Options) (context : Context)

theorem tally_ofEvent (event : Event) :
    Line.tally (ofEvent options context event).1.lines =
      (ofEvent options context event).1.counts.lined := by
  unfold ofEvent
  split
  · have meaning := tally_ofOutcome event.header
      (context.step event.header.kind event.payload).1
    dsimp only
    rw [Line.tally_append, Line.tally_event, meaning,
      ← event_add_counts_ofOutcome]
    rfl
  · exact Line.tally_event event

theorem tally_ofItem (item : Item) :
    Line.tally (ofItem options context item).1.lines =
      (ofItem options context item).1.counts.lined := by
  cases item with
  | note found => exact Line.tally_of_structural (Line.isStructural_note found)
  | desync buffer reason => exact Line.tally_desync buffer reason
  | event event => exact tally_ofEvent options context event
  | movement movement => exact Line.tally_described
  | click click => exact Line.tally_described
  | corrupt fragment => exact Line.tally_described
  | bufferEnd => rfl
  | sectionEnd => rfl

theorem tally_ofItems (items : List Item) :
    Line.tally (ofItems options context items).lines =
      (ofItems options context items).counts.lined := by
  induction items generalizing context with
  | nil => rfl
  | cons item items induction =>
      have first := tally_ofItem options context item
      rw [ofItems_cons, followedBy]
      split
      · exact first
      · rw [Line.tally_append, first, induction]
        rfl

end Presentation

theorem Transcript.exists_structural_of_mem_closing
    {result : Except Fatal Span} {line : Line}
    (member : line ∈ closing result) :
    ∃ text, line = .notice text ∧ Line.isStructural (.notice text) = true := by
  rcases exists_notice_of_mem_closing member with ⟨text, rfl⟩
  exact ⟨text, rfl,
    Line.isStructural_of_z_notMem (notMem_closing (.inl rfl) member)⟩

theorem Transcript.tally_closing (result : Except Fatal Span) :
    Line.tally (closing result) = 0 := by
  apply Line.tally_of_forall
  intro line member
  obtain ⟨text, rfl, structural⟩ := exists_structural_of_mem_closing member
  exact Line.tally_of_structural structural

theorem Transcript.tellsDesync_closing (result : Except Fatal Span) :
    (closing result).countP Line.tellsDesync = 0 := by
  apply List.countP_eq_zero.mpr
  intro line member tells
  obtain ⟨text, rfl, structural⟩ := exists_structural_of_mem_closing member
  cases (Line.not_tellsDesync_of_structural structural).symm.trans tells

theorem tally_decode (format : Format) (options : Options)
    (input : List UInt8) :
    Line.tally (decode format options input).lines =
      (decode format options input).report.toCounts.lined := by
  rw [decode_eq_ofResult, Transcript.lines_ofResult,
    Transcript.counts_ofResult, Line.tally_append, Transcript.tally_closing,
    Presentation.tally_ofItems]
  exact Counts.add_zero _

/-! ## Lengths of buffers -/

/-- The letter L stands in no note but that of a buffer's length. -/
theorem Note.notMem_text_of_other {found : Note}
    (other : (Item.note found).opensBuffer = false) :
    'L' ∉ found.text.toList := by
  have noDigit : Numeral.NoDigit 'L' := by decide
  unfold Note.text
  cases found with
  | bufferLength index words => cases other
  | _ =>
      simp only [toString_string, String.toList_append, List.mem_append,
        not_or, Numeral.notMem_nat noDigit, Numeral.notMem_word noDigit,
        Numeral.notMem_dword noDigit, Numeral.notMem_hex noDigit,
        not_false_eq_true, and_true]
      decide

theorem Desync.notMem_text (buffer : Nat) (reason : Desync) :
    'L' ∉ s!"Buffer({buffer}) desynchronized: {reason.message}".toList := by
  have noDigit : Numeral.NoDigit 'L' := by decide
  unfold Desync.message
  cases reason <;>
    simp only [toString_string, String.toList_append, List.mem_append,
      not_or, Numeral.notMem_nat noDigit, Numeral.notMem_word noDigit,
      not_false_eq_true, and_true] <;>
    decide

namespace Line

theorem statesLength_notice (text : String) :
    statesLength (.notice text) =
      decide ("Buffer(".toList <+: text.toList ∧
        ") Length:".toList <:+: text.toList) := by
  unfold statesLength
  rfl

theorem statesLength_of_notMem {text : String} (absent : 'L' ∉ text.toList) :
    statesLength (.notice text) = false := by
  rw [statesLength_notice]
  apply decide_eq_false
  rintro ⟨_, mark⟩
  exact absent (mark.subset (by decide))

theorem statesLength_note (found : Note) :
    statesLength (.notice found.text) = (Item.note found).opensBuffer := by
  cases opens : (Item.note found).opensBuffer with
  | false => exact statesLength_of_notMem (Note.notMem_text_of_other opens)
  | true =>
      cases found with
      | bufferLength index words =>
          rw [statesLength_notice]
          apply decide_eq_true
          change "Buffer(".toList <+: ("Buffer(" ++ toString index ++
              ") Length:" ++ toString words).toList ∧
            ") Length:".toList <:+: ("Buffer(" ++ toString index ++
              ") Length:" ++ toString words).toList
          simp only [String.toList_append, List.append_assoc]
          exact ⟨List.prefix_append _ _,
            (List.infix_append' _ _ _).trans (List.suffix_append _ _).isInfix⟩
      | _ => cases opens

theorem onTheWay_of_statesLength {line : Line}
    (states : line.statesLength = true) : line.OnTheWay := by
  cases line with
  | notice text =>
      rw [statesLength_notice] at states
      obtain ⟨⟨rest, begins⟩, _⟩ := of_decide_eq_true states
      refine ⟨'B', by decide, ?_⟩
      rw [← begins]
      rfl
  | _ => trivial

end Line

namespace Transcript

variable {result : Except Fatal Span}

theorem tells_of_mem_closing {line : Line} (member : line ∈ closing result) :
    line.TellsFatal ∨ line.TellsLeftover := by
  cases result with
  | error fatal =>
      left
      exact ⟨fatal.message, List.mem_singleton.mp member⟩
  | ok left =>
      right
      unfold closing at member
      dsimp only at member
      split at member
      · cases member
      · exact ⟨left.remaining, List.mem_singleton.mp member⟩

theorem statesLength_closing :
    (closing result).countP Line.statesLength = 0 := by
  apply List.countP_eq_zero.mpr
  intro line member states
  have onTheWay := Line.onTheWay_of_statesLength states
  rcases tells_of_mem_closing member with fatal | leftover
  · exact onTheWay.not_tellsFatal fatal
  · exact onTheWay.not_tellsLeftover leftover

end Transcript

namespace Presentation

variable {options : Options} {context : Context}

/-- The line of a buffer's length is that of the note that opens it. -/
theorem opensBuffer_of_statesLength {item : Item} {line : Line}
    (member : line ∈ (ofItem options context item).1.lines)
    (states : line.statesLength = true) : item.opensBuffer = true := by
  cases line with
  | notice text =>
      rcases notice_of_ofItem member with
        ⟨found, rfl, rfl⟩ | ⟨buffer, reason, rfl, rfl⟩
      · exact (Line.statesLength_note found).symm.trans states
      · have silent :=
          Line.statesLength_of_notMem (Desync.notMem_text buffer reason)
        cases silent.symm.trans states
  | _ => cases states

theorem statesLength_ofItem (item : Item) :
    (ofItem options context item).1.lines.countP Line.statesLength =
      if item.opensBuffer then 1 else 0 := by
  cases opens : item.opensBuffer with
  | true =>
      cases item with
      | note found =>
          have states := Line.statesLength_note found
          exact List.countP_eq_length.mpr
            (List.forall_mem_singleton.mpr (states.trans opens))
      | _ => cases opens
  | false =>
      apply List.countP_eq_zero.mpr
      intro line member states
      cases opens.symm.trans (opensBuffer_of_statesLength member states)

theorem desync_of_tellsDesync {item : Item} {line : Line}
    (member : line ∈ (ofItem options context item).1.lines)
    (tells : line.tellsDesync = true) :
    ∃ buffer reason, item = .desync buffer reason := by
  cases line with
  | notice text =>
      rcases notice_of_ofItem member with
        ⟨found, rfl, rfl⟩ | ⟨buffer, reason, rfl, rfl⟩
      · rw [Line.tellsDesync_notice, Line.isStructural_note] at tells
        cases tells
      · exact ⟨buffer, reason, rfl⟩
  | _ => cases tells

theorem tellsDesync_ofItem (item : Item) :
    (ofItem options context item).1.lines.countP Line.tellsDesync =
      if item.isDesync then 1 else 0 := by
  cases desync : item.isDesync with
  | true =>
      cases item with
      | desync buffer reason =>
          exact List.countP_eq_length.mpr (List.forall_mem_singleton.mpr
            (Line.tellsDesync_desync buffer reason))
      | _ => cases desync
  | false =>
      apply List.countP_eq_zero.mpr
      intro line member tells
      obtain ⟨buffer, reason, rfl⟩ := desync_of_tellsDesync member tells
      cases desync

end Presentation

/-- Lines of a sort that one item of a sort has, and no other item, are as many
as there are such items. -/
theorem countP_showings {options : Options} {sort : Line → Bool}
    {kind : Item → Bool}
    (each : ∀ context item,
      (Presentation.ofItem options context item).1.lines.countP sort =
        if kind item then 1 else 0)
    (shown : List Showing) :
    (shown.flatMap (Showing.lines options)).countP sort =
      (shown.map Showing.item).countP kind := by
  induction shown with
  | nil => rfl
  | cons showing shown induction =>
      have own : (showing.lines options).countP sort = _ :=
        each showing.context showing.item
      rw [List.flatMap_cons, List.countP_append, own, induction,
        List.map_cons, List.countP_cons, Nat.add_comm]

/-! ## Desynchronized buffers -/

/-- A line shown by showings is shown by one of them. -/
theorem exists_showing {options : Options} {shown : List Showing}
    {before after : List Line} {line : Line}
    (same : shown.flatMap (Showing.lines options) =
      before ++ line :: after) :
    ∃ earlier showing later inner rest,
      shown = earlier ++ showing :: later ∧
      showing.lines options = inner ++ line :: rest ∧
      before = earlier.flatMap (Showing.lines options) ++ inner := by
  induction shown generalizing before with
  | nil => simp at same
  | cons first shown induction =>
      rw [List.flatMap_cons] at same
      rcases exists_of_append_eq same with
        ⟨rest, own⟩ | ⟨between, rfl, late⟩
      · exact ⟨[], first, shown, before, rest, rfl, own, rfl⟩
      · obtain ⟨earlier, showing, later, inner, rest, rfl, own, rfl⟩ :=
          induction late
        refine ⟨first :: earlier, showing, later, inner, rest, rfl, own, ?_⟩
        rw [List.flatMap_cons, List.append_assoc]

/-- What is shown of an event that is cut short is one line. -/
theorem Showing.lines_breach {options : Options} {showing : Showing}
    {fragment : Fragment} (corrupt : showing.item = .corrupt fragment)
    (event : fragment.kind = .event) :
    showing.lines options = [.corrupt fragment] := by
  obtain ⟨context, item⟩ := showing
  subst corrupt
  change (Presentation.ofCorrupt options fragment).lines = _
  unfold Presentation.ofCorrupt
  have noAction : ¬ (fragment.kind = .action ∧ options.humanLines) := by
    rw [event]
    rintro ⟨⟨⟩, _⟩
  dsimp only
  rw [if_neg noAction]

/-- Where items stand in order, a line that tells of a desynchronized buffer
follows the line of an event that is cut short. -/
theorem exists_corrupt_line {options : Options} {shown : List Showing}
    {place : Place} {before after : List Line} {line : Line}
    (stand : Place.outside.after (shown.map Showing.item) = some place)
    (same : shown.flatMap (Showing.lines options) = before ++ line :: after)
    (tells : line.tellsDesync = true) :
    ∃ earlier fragment, before = earlier ++ [.corrupt fragment] ∧
      fragment.kind = .event := by
  obtain ⟨first, ⟨context, item⟩, rest, inner, outer, rfl, own, rfl⟩ :=
    exists_showing same
  have member : line ∈ (Presentation.ofItem options context item).1.lines := by
    change line ∈ Showing.lines options ⟨context, item⟩
    rw [own]
    exact List.mem_append_right inner List.mem_cons_self
  obtain ⟨buffer, reason, rfl⟩ :=
    Presentation.desync_of_tellsDesync member tells
  have alone : inner = [] := by
    cases inner with
    | nil => rfl
    | cons head inner =>
        have none := (List.cons.inj own).2
        simp at none
  subst alone
  rw [List.map_append, List.map_cons] at stand
  obtain ⟨items, fragment, front, event⟩ :=
    Place.exists_corrupt_before_desync stand
  obtain ⟨earlier, lastShown, rfl, _, last⟩ := List.map_eq_append_iff.mp front
  obtain ⟨breach, rfl, corrupt⟩ := List.map_eq_singleton_iff.mp last
  refine ⟨earlier.flatMap (Showing.lines options), fragment, ?_, event⟩
  rw [List.append_nil, List.flatMap_append, List.flatMap_singleton,
    Showing.lines_breach corrupt event]

/-! ## Payload words -/

/-- Every passage of the lines is in order. -/
def AllInOrder (lines : List Line) : Prop :=
  ∀ passage ∈ passages lines, passage.InOrder

namespace AllInOrder

variable {rest : List Line}

theorem plain_append {plain : List Line}
    (outside : ∀ line ∈ plain, line.OutsideEvents)
    (inOrder : AllInOrder rest) : AllInOrder (plain ++ rest) := by
  have noEvent : ∀ line ∈ plain, line.isEvent = false := by
    intro line member
    exact (outside line member).1
  unfold AllInOrder
  rw [passages_plain_append noEvent]
  intro passage member
  rcases List.mem_append.mp member with among | later
  · rcases List.mem_map.mp among with ⟨line, own, rfl⟩
    exact outside line own
  · exact inOrder passage later

theorem event_append {event : Event} (counted : event.Counted)
    (inOrder : AllInOrder rest) : AllInOrder (event.lines ++ rest) := by
  unfold AllInOrder
  rw [passages_event_append counted]
  intro passage member
  rcases List.mem_cons.mp member with rfl | later
  · refine ⟨event.payload, counted.symm, ?_⟩
    rw [List.mapIdx_eq_zipIdx_map]
    rfl
  · exact inOrder passage later

variable {options : Options}

theorem outcome_append (header : EventHeader)
    (outcome : Except InterpretError (List Remark))
    (inOrder : AllInOrder rest) :
    AllInOrder ((Presentation.ofOutcome header outcome).lines ++ rest) := by
  apply plain_append _ inOrder
  match outcome with
  | .ok remarks =>
      intro line member
      rcases List.mem_map.mp member with ⟨remark, _, rfl⟩
      exact ⟨rfl, rfl⟩
  | .error (.malformed kind error) =>
      exact List.forall_mem_singleton.mpr ⟨rfl, rfl⟩
  | .error (.unknownEventType tag) => exact nofun

theorem item_append {context : Context} {item : Item}
    (counted : ∀ event, item = .event event → event.Counted)
    (inOrder : AllInOrder rest) :
    AllInOrder
      ((Presentation.ofItem options context item).1.lines ++ rest) := by
  cases item with
  | event event =>
      change AllInOrder
        ((Presentation.ofEvent options context event).1.lines ++ rest)
      rw [Presentation.lines_ofEvent, List.append_assoc]
      apply event_append (counted event rfl)
      split
      · exact outcome_append _ _ inOrder
      · exact inOrder
  | note found =>
      exact plain_append (List.forall_mem_singleton.mpr ⟨rfl, rfl⟩) inOrder
  | desync buffer reason =>
      exact plain_append (List.forall_mem_singleton.mpr ⟨rfl, rfl⟩) inOrder
  | movement movement =>
      exact plain_append (Item.forall_mem_described ⟨rfl, rfl⟩ ⟨rfl, rfl⟩)
        inOrder
  | click click =>
      exact plain_append (Item.forall_mem_described ⟨rfl, rfl⟩ ⟨rfl, rfl⟩)
        inOrder
  | corrupt fragment =>
      exact plain_append (Item.forall_mem_described ⟨rfl, rfl⟩ ⟨rfl, rfl⟩)
        inOrder
  | bufferEnd => exact inOrder
  | sectionEnd => exact inOrder

theorem showings_append {shown : List Showing}
    (counted : ∀ event, .event event ∈ shown.map Showing.item → event.Counted)
    (inOrder : AllInOrder rest) :
    AllInOrder (shown.flatMap (Showing.lines options) ++ rest) := by
  induction shown with
  | nil => exact inOrder
  | cons showing shown induction =>
      rw [List.flatMap_cons, List.append_assoc]
      apply item_append
      · intro event own
        apply counted
        rw [List.map_cons, own]
        exact List.mem_cons_self
      · apply induction
        intro event member
        exact counted event (List.mem_cons_of_mem _ member)

theorem closing (result : Except Fatal Span) :
    AllInOrder (Transcript.closing result) := by
  have outside : ∀ line ∈ Transcript.closing result, line.OutsideEvents := by
    intro line member
    rcases Transcript.exists_notice_of_mem_closing member with ⟨text, rfl⟩
    exact ⟨rfl, rfl⟩
  have nothing : AllInOrder [] := by
    unfold AllInOrder
    rw [passages]
    intro passage impossible
    cases impossible
  have whole := plain_append outside nothing
  rwa [List.append_nil] at whole

end AllInOrder

/-! ## The whole report -/

section Decode

variable (format : Format) (options : Options) (input : List UInt8)

theorem exists_lines_decode :
    ∃ result, (decode format options input).lines =
      (decodeShowings format options input).flatMap (Showing.lines options) ++
        Transcript.closing result := by
  rw [lines_decode, (ofItems_eq_showings options _ _).1]
  exact ⟨_, rfl⟩

/-- The items that a decode shows can stand in their order. -/
theorem exists_after_showings :
    ∃ later place,
      (format.trace options.supportedVersion input).items =
        (decodeShowings format options input).map Showing.item ++ later ∧
      Place.outside.after
        ((decodeShowings format options input).map Showing.item) =
          some place ∧
      ((decode format options input).report.fatal = none →
        place = .outside) := by
  obtain ⟨later, items, all⟩ := exists_not_shown options (.fresh .builtin)
    (format.trace options.supportedVersion input).items
  obtain ⟨last, stand, complete⟩ :=
    format.leads_trace options.supportedVersion input
  rw [items] at stand
  obtain ⟨place, shown, rest⟩ := Place.exists_of_after_append stand
  refine ⟨later, place, items, shown, ?_⟩
  rw [decode_eq_ofResult, Transcript.fatal_ofResult, Presentation.ending]
  rintro ⟨left, ended⟩
  split at ended
  · cases ended
  · next goesOn =>
      -- nothing stopped the presentation, so that all items were shown
      rw [goesOn] at all
      subst all
      cases rest
      exact complete left ended

variable {format options input}

theorem corrupt_before_desync {before after : List Line} {line : Line}
    (same : (decode format options input).lines = before ++ line :: after)
    (tells : line.tellsDesync = true) :
    ∃ earlier fragment, before = earlier ++ [.corrupt fragment] ∧
      fragment.kind = .event := by
  obtain ⟨result, lines⟩ := exists_lines_decode format options input
  obtain ⟨_, place, _, stand, _⟩ :=
    exists_after_showings format options input
  rcases exists_of_append_eq (lines.symm.trans same) with
    ⟨rest, shown⟩ | ⟨between, _, closing⟩
  · exact exists_corrupt_line stand shown tells
  · have member : line ∈ Transcript.closing result := by
      rw [closing]
      exact List.mem_append_right between List.mem_cons_self
    exact absurd tells
      (List.countP_eq_zero.mp (Transcript.tellsDesync_closing result) _ member)

theorem allInOrder_decode :
    AllInOrder (decode format options input).lines := by
  obtain ⟨result, lines⟩ := exists_lines_decode format options input
  obtain ⟨later, _, items, _⟩ := exists_after_showings format options input
  rw [lines]
  apply AllInOrder.showings_append _ (.closing result)
  intro event shown
  have met : .event event ∈
      (format.trace options.supportedVersion input).items := by
    rw [items]
    exact List.mem_append_left later shown
  exact Format.counted_of_mem_items met

theorem tellsDesync_le_statesLength :
    (decode format options input).lines.countP Line.tellsDesync ≤
      (decode format options input).lines.countP Line.statesLength := by
  obtain ⟨result, lines⟩ := exists_lines_decode format options input
  obtain ⟨_, place, _, stand, _⟩ :=
    exists_after_showings format options input
  have bound := Place.unbroken_after stand
  rw [lines, List.countP_append, List.countP_append,
    Transcript.statesLength_closing, Transcript.tellsDesync_closing,
    countP_showings fun _ => Presentation.statesLength_ofItem,
    countP_showings fun _ => Presentation.tellsDesync_ofItem]
  exact Nat.le_trans (Nat.le_add_right _ _) bound

end Decode

/-- As many buffers are ended as lengths are stated, or one less if the decode
was stopped. -/
theorem exists_ended (format : Format) (options : Options)
    (input : List UInt8) :
    let report := (decode format options input).report
    let stated := (decode format options input).lines.countP Line.statesLength
    ∃ ended ≤ stated, report.buffers = .ofNat ended ∧
      (ended = stated ∨ ended + 1 = stated) ∧
      (report.fatal = none → ended = stated) := by
  intro report stated
  obtain ⟨result, lines⟩ := exists_lines_decode format options input
  obtain ⟨_, place, _, stand, complete⟩ :=
    exists_after_showings format options input
  let shown := (decodeShowings format options input).map Showing.item
  have balance : stated = shown.count .bufferEnd + place.opened := by
    unfold stated
    rw [lines, List.countP_append, Transcript.statesLength_closing,
      countP_showings fun _ => Presentation.statesLength_ofItem]
    exact Place.opened_after stand
  have counted : report.buffers = .ofNat (shown.count .bufferEnd) := by
    unfold report
    rw [decode_eq_ofResult, Transcript.counts_ofResult]
    exact Presentation.buffers_ofItems _
  refine ⟨shown.count .bufferEnd, Nat.le.intro balance.symm, counted, ?_, ?_⟩
  · cases place with
    | outside => exact .inl balance.symm
    | inside | atBreach | abandoned => exact .inr balance.symm
  · intro unstopped
    rw [complete unstopped] at balance
    exact balance.symm

/-! ## Room for buffers -/

/-- A buffer whose length is told has a header of six bytes. -/
def Item.headerSize (item : Item) : Nat :=
  if item.opensBuffer then 6 else 0

theorem Item.sum_headerSize (items : List Item) :
    (items.map headerSize).sum = 6 * items.countP opensBuffer := by
  induction items with
  | nil => rfl
  | cons item items induction =>
      rw [List.map_cons, List.sum_cons, induction, List.countP_cons, headerSize]
      split <;> omega

/-- When a buffer's length is told, the first two bytes of its header were read
before. -/
def headerCredit : Walk.Stage → Nat
  | .tagged => 2
  | _ => 0

theorem headerBudget : Budget Item.headerSize 1 headerCredit where
  outside := by
    intro found outside
    cases found with
    | bufferLength index words => cases outside
    | _ => exact Nat.zero_le _
  bufferCount _ := (by decide : 0 + 0 ≤ 0 + 1 * 4)
  offset _ _ := (by decide : 0 + 0 ≤ 0)
  tag _ _ := (by decide : 0 + 2 ≤ 0 + 1 * 2)
  length _ _ := (by decide : 6 + 0 ≤ 2 + 1 * 4)
  records := by
    intro index kind region items known
    have none : items.countP Item.opensBuffer = 0 := by
      apply List.countP_eq_zero.mpr
      intro item member opens
      have record := isRecord_of_mem_recordItems? known item member
      cases item with
      | note found => cases record
      | _ => cases opens
    rw [Item.sum_headerSize, none]
    exact Nat.zero_le _
  bufferEnd := by decide
  sectionEnd := by decide

theorem six_mul_statesLength_le (format : Format) (options : Options)
    (input : List UInt8) :
    6 * (decode format options input).lines.countP Line.statesLength ≤
      input.length := by
  obtain ⟨result, lines⟩ := exists_lines_decode format options input
  obtain ⟨later, _, items, _⟩ := exists_after_showings format options input
  have room := headerBudget.sum_trace_le format options.supportedVersion input
  rw [items, Item.sum_headerSize, List.countP_append] at room
  change 6 * (_ + _) ≤ 1 * input.length + 0 at room
  rw [lines, List.countP_append, Transcript.statesLength_closing,
    countP_showings fun _ => Presentation.statesLength_ofItem]
  omega

/-- A report agrees with the lines of its transcript.  Records and
desynchronized buffers are counted as they have lines.  A buffer is said to be
desynchronized right after an event that is cut short, and every event line has
its payload words after it.  Buffers are counted as their lengths are stated,
but for the last one if the decode was stopped in it.  Counters of 32 bits start
again at `2 ^ 32`, which no input of less than `6 * 2 ^ 32` bytes makes them
do. -/
theorem report_agrees_with_lines (format : Format) (options : Options)
    (input : List UInt8) :
    let report := (decode format options input).report
    let lines := (decode format options input).lines
    let desynced := lines.countP Line.tellsDesync
    let stated := lines.countP Line.statesLength
    (report.movements = lines.countP Line.isMovement ∧
      report.clicks = lines.countP Line.isClick ∧
      report.events = lines.countP Line.isEvent ∧
      report.corruptRecords = lines.countP Line.isCorrupt ∧
      report.desyncedBuffers = .ofNat desynced) ∧
    (∀ before line after, lines = before ++ line :: after →
      line.tellsDesync = true →
        ∃ earlier fragment, before = earlier ++ [.corrupt fragment] ∧
          fragment.kind = .event) ∧
    (∀ passage ∈ passages lines, passage.InOrder) ∧
    (match report.fatal with
    | none => report.buffers = .ofNat stated
    | some _ =>
        report.buffers = .ofNat stated ∨ report.buffers + 1 = .ofNat stated) ∧
    (desynced ≤ stated ∧ 6 * stated ≤ input.length) ∧
    (stated < 2 ^ 32 →
      report.desyncedBuffers.toNat = desynced ∧
      match report.fatal with
      | none => report.buffers.toNat = stated
      | some _ =>
          report.buffers.toNat = stated ∨
          report.buffers.toNat + 1 = stated) := by
  intro report lines desynced stated
  have counted := tally_decode format options input
  have desyncs : report.desyncedBuffers = .ofNat desynced :=
    (congrArg Counts.desyncedBuffers counted).symm
  have few : desynced ≤ stated := tellsDesync_le_statesLength
  obtain ⟨ended, most, buffers, balance, complete⟩ :
    ∃ ended ≤ stated, report.buffers = .ofNat ended ∧
      (ended = stated ∨ ended + 1 = stated) ∧
      (report.fatal = none → ended = stated) :=
    exists_ended format options input
  refine ⟨⟨?movements, ?clicks, ?events, ?corrupt, desyncs⟩, ?order,
    allInOrder_decode, ?buffers, ⟨few, ?room⟩, ?exact⟩
  case movements => exact (congrArg Counts.movements counted).symm
  case clicks => exact (congrArg Counts.clicks counted).symm
  case events => exact (congrArg Counts.events counted).symm
  case corrupt => exact (congrArg Counts.corruptRecords counted).symm
  case order =>
    intro before line after same tells
    exact corrupt_before_desync same tells
  case buffers =>
    rw [buffers, ← UInt32.ofNat_one, ← UInt32.ofNat_add]
    cases stopped : report.fatal with
    | none => exact congrArg UInt32.ofNat (complete stopped)
    | some fatal =>
        exact balance.imp (congrArg UInt32.ofNat) (congrArg UInt32.ofNat)
  case room => exact six_mul_statesLength_le format options input
  case exact =>
    intro below
    have endedExact : report.buffers.toNat = ended := by
      rw [buffers]
      exact UInt32.toNat_ofNat_of_lt (Nat.lt_of_le_of_lt most below)
    constructor
    · rw [desyncs]
      exact UInt32.toNat_ofNat_of_lt (Nat.lt_of_le_of_lt few below)
    · rw [endedExact]
      cases stopped : report.fatal with
      | none => exact complete stopped
      | some fatal => exact balance

end SessionCapture
