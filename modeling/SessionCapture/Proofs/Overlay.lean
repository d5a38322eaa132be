import SessionCapture.Proofs.Passages

/-!
# Interpretation adds to a transcript

The events of a transcript without interpretation, given to one interpreter in
order, determine the transcript with interpretation: what the interpreter says
of an event is put after the event's data lines, and nothing else changes.  The
first event of an unknown type ends the transcript instead.
-/

namespace SessionCapture

/-- What an interpreter makes of an event. -/
abbrev Outcome := Except InterpretError (List Remark)

namespace Outcome

def isMalformed : Outcome → Bool
  | .error (.malformed _ _) => true
  | _ => false

def remarks : Outcome → List Remark
  | .ok remarks => remarks
  | .error _ => []

/-- The lines put after the event with this header. -/
def lines (header : EventHeader) : Outcome → List Line
  | .ok remarks =>
      remarks.map fun remark =>
        .human (some header.timestamp) remark.message
  | .error (.malformed _ _) =>
      [.corrupt ⟨.event,
        [header.timestamp, header.x.toUInt32, header.y.toUInt32,
          header.tag.toUInt32, header.length.toUInt32]⟩]
  | .error (.unknownEventType _) => []

/-- What outcomes add to the counts. -/
def counts (outcomes : List Outcome) : Counts where
  corruptRecords := outcomes.countP isMalformed
  advisories := (outcomes.flatMap remarks).countP Remark.isNote

theorem counts_cons (outcome : Outcome) (rest : List Outcome) :
    counts (outcome :: rest) = counts [outcome] + counts rest := by
  simp only [counts, Counts.add_def, List.countP_cons, List.countP_nil,
    List.flatMap_cons, List.flatMap_nil, List.append_nil, List.countP_append,
    Nat.zero_add, Nat.add_comm, UInt32.add_zero]

end Outcome

namespace Event

def isUnknown (event : Event) : Bool :=
  match event.header.kind with
  | .unknown _ => true
  | _ => false

/-- What one interpreter makes of events given to it in order. -/
def outcomes (context : Context) (events : List Event) : List Outcome :=
  (context.run (events.map fun event =>
    (event.header.kind, event.payload))).map (·.1)

end Event

/-- What a fresh interpreter makes of the events of a transcript. -/
def Transcript.outcomes (transcript : Transcript) : List Outcome :=
  Event.outcomes (.fresh .builtin) transcript.events

/-- The lines of passages, with what is put after each event. -/
def overlay : List Passage → List Outcome → List Line
  | [], _ => []
  | .plain line :: rest, outcomes => line :: overlay rest outcomes
  | .event header data :: rest, [] => .event header :: data ++ overlay rest []
  | .event header data :: rest, outcome :: outcomes =>
      .event header :: data ++ (Outcome.lines header outcome ++
        overlay rest outcomes)

/-- The passages through the first event of an unknown type. -/
def throughUnknown : List Passage → List Passage
  | [] => []
  | passage :: rest =>
      if passage.event?.any Event.isUnknown then [passage]
      else passage :: throughUnknown rest

/-! ## Interpreting one event -/

namespace Context

/-- Only the event type decides whether an event is of an unknown type. -/
theorem interpret_eq_unknown_iff {context : Context} {kind : EventKind}
    {payload : List UInt16} {tag : UInt16} :
    context.interpret kind payload = .error (.unknownEventType tag) ↔
      kind = .unknown tag := by
  have checked (outcome : Except PayloadError (List Remark × Context)) :
      outcome.mapError (InterpretError.malformed kind) ≠
        .error (.unknownEventType tag) := by
    cases outcome <;> exact nofun
  constructor
  · intro unknown
    cases kind with
    | unknown found =>
        cases unknown
        rfl
    | newSecret => exact absurd unknown (checked _)
    | newChallenge => exact absurd unknown (checked _)
    | submit => exact absurd unknown (checked _)
    | timeSync => exact absurd unknown (checked _)
    | controlReset => exact absurd unknown (checked _)
    | _ => cases unknown
  · rintro rfl
    rfl

theorem step_ne_unknown {context : Context} {kind : EventKind}
    (known : ∀ tag, kind ≠ .unknown tag) (payload : List UInt16)
    (tag : UInt16) :
    (context.step kind payload).1 ≠ .error (.unknownEventType tag) := by
  intro unknown
  unfold step at unknown
  cases found : context.interpret kind payload with
  | ok reached =>
      rw [found] at unknown
      cases unknown
  | error error =>
      rw [found] at unknown
      cases unknown
      exact known tag (interpret_eq_unknown_iff.mp found)

end Context

namespace Event

variable {event : Event}

theorem kind_of_isUnknown (unknown : event.isUnknown = true) :
    event.header.kind = .unknown event.header.tag := by
  unfold isUnknown at unknown
  split at unknown
  · next tag found =>
      have same : event.header.kind.tag = event.header.tag :=
        EventKind.tag_ofTag event.header.tag
      rw [found] at same
      cases same
      exact found
  · cases unknown

theorem step_of_isUnknown (unknown : event.isUnknown = true)
    (context : Context) :
    context.step event.header.kind event.payload =
      (.error (.unknownEventType event.header.tag), context) := by
  rw [kind_of_isUnknown unknown]
  rfl

theorem outcomes_cons (context : Context) (rest : List Event) :
    outcomes context (event :: rest) =
      (context.step event.header.kind event.payload).1 ::
        outcomes (context.step event.header.kind event.payload).2 rest := rfl

end Event

namespace Presentation

/-- An item that is no event is shown as it is without interpretation. -/
theorem ofItem_of_noEvent {supported : UInt16} {human : Bool}
    {context : Context} {item : Item} (noEvent : item.event? = none) :
    ofItem ⟨supported, true, human⟩ context item =
      (⟨item.lines human, item.counts, none⟩, context) := by
  cases item with
  | event event => cases noEvent
  | _ => rfl

theorem ofItem_of_unknown {supported : UInt16} {human : Bool} {event : Event}
    (unknown : event.isUnknown = true) (context : Context) :
    ofItem ⟨supported, true, human⟩ context (.event event) =
      (⟨event.lines, { events := 1 },
        some (.unknownEventType event.header.tag event.header.timestamp)⟩,
        context) := by
  change ofEvent ⟨supported, true, human⟩ context event = _
  rw [ofEvent, Event.step_of_isUnknown unknown]
  change (Presentation.mk (event.lines ++ []) _ _, context) = _
  rw [List.append_nil]
  rfl

theorem ofItem_of_known {supported : UInt16} {human : Bool} {event : Event}
    (known : event.isUnknown = false) (context : Context) :
    ofItem ⟨supported, true, human⟩ context (.event event) =
      (⟨event.lines ++ Outcome.lines event.header
            (context.step event.header.kind event.payload).1,
          (Item.event event).counts + Outcome.counts
            [(context.step event.header.kind event.payload).1],
          none⟩,
        (context.step event.header.kind event.payload).2) := by
  have notUnknown : ∀ tag, event.header.kind ≠ .unknown tag := by
    intro tag same
    rw [Event.isUnknown, same] at known
    cases known
  have different := context.step_ne_unknown notUnknown event.payload
  change ofEvent ⟨supported, true, human⟩ context event = _
  rw [ofEvent, if_pos rfl]
  cases stepped : context.step event.header.kind event.payload with
  | mk outcome next =>
      rw [stepped] at different
      cases outcome with
      | ok remarks =>
          have counts : ({ events := 1
                           advisories := remarks.countP Remark.isNote } :
              Counts) =
              (Item.event event).counts + Outcome.counts [.ok remarks] := by
            change _ = ({ events := 1 } : Counts) + _
            simp only [Outcome.counts, Counts.add_def, List.flatMap_cons,
              List.flatMap_nil, List.append_nil, Outcome.remarks,
              List.countP_cons, List.countP_nil, Outcome.isMalformed,
              Nat.zero_add, Nat.add_zero, UInt32.add_zero, Bool.false_eq_true,
              if_false]
          rw [← counts]
          rfl
      | error error =>
          cases error with
          | malformed kind reason => rfl
          | unknownEventType tag => exact absurd rfl (different tag)

end Presentation

/-! ## Cutting and overlaying -/

theorem throughUnknown_plain_append (plain : List Line)
    (rest : List Passage) :
    throughUnknown (plain.map .plain ++ rest) =
      plain.map .plain ++ throughUnknown rest := by
  induction plain with
  | nil => rfl
  | cons line plain induction =>
      rw [List.map_cons, List.cons_append, throughUnknown, induction]
      rfl

theorem overlay_plain_append (plain : List Line) (rest : List Passage)
    (outcomes : List Outcome) :
    overlay (plain.map .plain ++ rest) outcomes =
      plain ++ overlay rest outcomes := by
  induction plain with
  | nil => rfl
  | cons line plain induction =>
      rw [List.map_cons, List.cons_append, overlay, induction]
      rfl

theorem throughUnknown_event (event : Event) (rest : List Passage) :
    throughUnknown (.event event.header event.dataLines :: rest) =
      if event.isUnknown then [.event event.header event.dataLines]
      else .event event.header event.dataLines :: throughUnknown rest := by
  rw [throughUnknown, Passage.event?_dataLines]
  rfl

/-- Passages without an event of an unknown type are all kept. -/
theorem throughUnknown_of_known {cut : List Passage}
    (known : (cut.filterMap Passage.event?).find? Event.isUnknown = none) :
    throughUnknown cut = cut := by
  induction cut with
  | nil => rfl
  | cons passage rest induction =>
      cases found : passage.event? with
      | none =>
          rw [List.filterMap_cons_none found] at known
          rw [throughUnknown, found, induction known]
          rfl
      | some event =>
          rw [List.filterMap_cons_some found, List.find?_cons] at known
          cases unknown : event.isUnknown with
          | true =>
              rw [unknown] at known
              cases known
          | false =>
              rw [unknown] at known
              rw [throughUnknown, found, induction known]
              exact if_neg (by rw [Option.any_some, unknown]; exact nofun)

namespace Presentation

variable {supported : UInt16} {human : Bool}

/-- The lines shown are those without interpretation, overlaid up to the first
event of an unknown type; `tail` is what comes after the items' lines. -/
theorem lines_interpreted (context : Context) (items : List Item)
    (tail : List Line) :
    overlay
        (throughUnknown
          (items.flatMap (Item.passages human) ++ tail.map .plain))
        (Event.outcomes context (items.filterMap Item.event?)) =
      (ofItems ⟨supported, true, human⟩ context items).lines ++
        if (ofItems ⟨supported, true, human⟩ context items).fatal = none then
          tail
        else [] := by
  induction items using Item.events_induction generalizing context with
  | nil =>
      have kept := throughUnknown_plain_append tail []
      have shown := overlay_plain_append tail [] []
      rw [List.append_nil] at kept shown
      rw [List.flatMap_nil, List.nil_append, kept, ofItems_nil]
      change overlay (tail.map .plain ++ []) [] = tail
      rw [List.append_nil, shown]
      exact List.append_nil tail
  | event event induction =>
      rw [List.flatMap_cons, List.append_assoc, ofItems_cons,
        Item.event?_event_cons, Event.outcomes_cons, Item.passages,
        List.singleton_append, throughUnknown_event]
      cases unknown : event.isUnknown with
      | true =>
          rw [ofItem_of_unknown unknown, if_pos rfl, overlay,
            Event.step_of_isUnknown unknown, event.lines_eq]
          rfl
      | false =>
          rw [ofItem_of_known unknown, if_neg Bool.false_ne_true, overlay,
            induction, followedBy, event.lines_eq]
          simp only [List.append_assoc, List.cons_append]
  | other noEvent induction =>
      rw [List.flatMap_cons, List.append_assoc, ofItems_cons,
        List.filterMap_cons_none noEvent, Item.passages_of_noEvent noEvent,
        throughUnknown_plain_append, overlay_plain_append, induction,
        ofItem_of_noEvent noEvent, followedBy, List.append_assoc]

theorem fatal_interpreted (context : Context) (items : List Item) :
    (ofItems ⟨supported, true, human⟩ context items).fatal =
      ((items.filterMap Item.event?).find? Event.isUnknown).map fun event =>
        .unknownEventType event.header.tag event.header.timestamp := by
  induction items using Item.events_induction generalizing context with
  | nil => rfl
  | event event induction =>
      rw [ofItems_cons, Item.event?_event_cons, List.find?_cons]
      cases unknown : event.isUnknown with
      | true =>
          rw [ofItem_of_unknown unknown]
          rfl
      | false =>
          rw [ofItem_of_known unknown]
          exact induction _
  | other noEvent induction =>
      rw [ofItems_cons, List.filterMap_cons_none noEvent,
        ofItem_of_noEvent noEvent, ← induction context]
      rfl

/-- Where no event is of an unknown type, interpretation adds to the counts only
what the outcomes add. -/
theorem counts_interpreted (context : Context) (items : List Item)
    (known : (items.filterMap Item.event?).find? Event.isUnknown = none) :
    (ofItems ⟨supported, true, human⟩ context items).counts =
      (items.map Item.counts).sum +
        Outcome.counts
          (Event.outcomes context (items.filterMap Item.event?)) := by
  induction items using Item.events_induction generalizing context with
  | nil => rfl
  | event event induction =>
      rw [Item.event?_event_cons, List.find?_cons] at known
      cases unknown : event.isUnknown with
      | true =>
          rw [unknown] at known
          cases known
      | false =>
          rw [unknown] at known
          rw [ofItems_cons, ofItem_of_known unknown, followedBy,
            induction _ known, Item.event?_event_cons, Event.outcomes_cons,
            Outcome.counts_cons _ (Event.outcomes _ _), List.map_cons,
            List.sum_cons]
          exact add_add_add_comm (Item.counts _) _ _ _
  | other noEvent induction =>
      rw [List.filterMap_cons_none noEvent] at known ⊢
      rw [ofItems_cons, ofItem_of_noEvent noEvent, followedBy, List.map_cons,
        List.sum_cons, induction _ known, Counts.add_assoc]

end Presentation

/-! ## The whole transcript -/

section Transcript

variable (format : Format) (supported : UInt16) (human : Bool)
  (input : List UInt8)

/-- What an interpreting decode shows before its closing line. -/
def interpretedItems : Presentation :=
  .ofItems ⟨supported, true, human⟩ (.fresh .builtin)
    (format.trace supported input).items

variable {format supported human input}

theorem decode_of_stopped {fatal : Fatal}
    (stopped : (interpretedItems format supported human input).fatal =
      some fatal) :
    decode format ⟨supported, true, human⟩ input =
      .stopped (interpretedItems format supported human input) fatal := by
  unfold interpretedItems at stopped
  unfold decode
  simp only [stopped]
  rfl

theorem decode_of_notStopped
    (goesOn : (interpretedItems format supported human input).fatal = none) :
    decode format ⟨supported, true, human⟩ input =
      .ofResult (interpretedItems format supported human input)
        (format.trace supported input).result := by
  unfold interpretedItems at goesOn
  unfold decode
  simp only [goesOn]
  cases (format.trace supported input).result <;> rfl

theorem lines_interpretedItems :
    overlay
        (throughUnknown
          (passages (decode format ⟨supported, false, human⟩ input).lines))
        (decode format ⟨supported, false, human⟩ input).outcomes =
      (interpretedItems format supported human input).lines ++
        if (interpretedItems format supported human input).fatal = none then
          Transcript.closing (format.trace supported input).result
        else [] := by
  rw [Transcript.outcomes, events_uninterpreted, passages_uninterpreted]
  exact Presentation.lines_interpreted _ _ _

theorem fatal_interpretedItems :
    (interpretedItems format supported human input).fatal =
      ((decode format ⟨supported, false, human⟩ input).events.find?
        Event.isUnknown).map fun event =>
          .unknownEventType event.header.tag event.header.timestamp := by
  rw [events_uninterpreted]
  exact Presentation.fatal_interpreted _ _

theorem report_interpretedItems
    (known : (decode format ⟨supported, false, human⟩ input).events.find?
      Event.isUnknown = none) :
    (Transcript.ofResult (interpretedItems format supported human input)
        (format.trace supported input).result).report =
      { (decode format ⟨supported, false, human⟩ input).report with
        corruptRecords :=
          (decode format ⟨supported, false, human⟩
              input).report.corruptRecords +
            (decode format ⟨supported, false, human⟩
              input).outcomes.countP Outcome.isMalformed
        advisories :=
          ((decode format ⟨supported, false, human⟩
            input).outcomes.flatMap Outcome.remarks).countP
              Remark.isNote } := by
  rw [events_uninterpreted] at known
  have shown : (interpretedItems format supported human input).counts =
      ((format.trace supported input).items.map Item.counts).sum +
        Outcome.counts
          (decode format ⟨supported, false, human⟩ input).outcomes := by
    rw [Transcript.outcomes, events_uninterpreted]
    exact Presentation.counts_interpreted _ _ known
  have noAdvisory :=
    Item.advisories_counts (format.trace supported input).items
  rw [Counts.add_def, noAdvisory] at shown
  simp only [Outcome.counts, Nat.add_zero, Nat.zero_add, UInt32.add_zero]
    at shown
  cases ended : (format.trace supported input).result with
  | error fatal =>
      change (⟨(interpretedItems format supported human input).counts, none,
        some fatal⟩ : Report) = _
      rw [shown, decode_uninterpreted, ended]
      rfl
  | ok left =>
      change (⟨(interpretedItems format supported human input).counts,
        some left.remaining, none⟩ : Report) = _
      rw [shown, decode_uninterpreted, ended]
      rfl

end Transcript

/-- How a transcript ends at an event of an unknown type. -/
def unknownTypeText (tag : UInt16) (timestamp : UInt32) : String :=
  s!"Error reading file(s): unknown event type {tag} at timestamp {timestamp}"

private theorem unknownTypeText_eq (tag : UInt16) (timestamp : UInt32) :
    unknownTypeText tag timestamp = "Error reading file(s): " ++
      (Fatal.unknownEventType tag timestamp).message := by
  have split : "Error reading file(s): unknown event type " =
      "Error reading file(s): " ++ "unknown event type " := by decide
  change "Error reading file(s): unknown event type " ++ toString tag ++
    " at timestamp " ++ toString timestamp =
      "Error reading file(s): " ++ ("unknown event type " ++ toString tag ++
        " at timestamp " ++ toString timestamp)
  rw [split]
  simp only [String.append_assoc]

/-- Interpretation only adds to a transcript.  If no event of the transcript
without interpretation is of an unknown type, its lines are overlaid with what a
fresh interpreter makes of its events, and the report counts malformed events as
corrupt records and notes as advisories.  Otherwise the overlaid lines end with
the first event of an unknown type, and one line names it. -/
theorem interpretation_overlays (format : Format) (supported : UInt16)
    (human : Bool) (input : List UInt8) :
    let plain := decode format ⟨supported, false, human⟩ input
    let interpreted := decode format ⟨supported, true, human⟩ input
    match plain.events.find? Event.isUnknown with
    | none =>
        interpreted.lines = overlay (passages plain.lines) plain.outcomes ∧
        interpreted.report =
          { plain.report with
            corruptRecords := plain.report.corruptRecords +
              plain.outcomes.countP Outcome.isMalformed
            advisories :=
              (plain.outcomes.flatMap Outcome.remarks).countP
                Remark.isNote }
    | some event =>
        interpreted.lines =
          overlay (throughUnknown (passages plain.lines)) plain.outcomes ++
            [.notice
              (unknownTypeText event.header.tag event.header.timestamp)] ∧
        interpreted.report.fatal = some
          (.unknownEventType event.header.tag event.header.timestamp) ∧
        interpreted.report.trailingBytes = none := by
  intro plain interpreted
  have lines : overlay (throughUnknown (passages plain.lines))
      plain.outcomes = _ := lines_interpretedItems
  have fatal : (interpretedItems format supported human input).fatal =
      (plain.events.find? Event.isUnknown).map fun event =>
        .unknownEventType event.header.tag event.header.timestamp :=
    fatal_interpretedItems
  cases found : plain.events.find? Event.isUnknown with
  | none =>
      rw [found, Option.map_none] at fatal
      have ended : interpreted = _ := decode_of_notStopped fatal
      rw [throughUnknown_of_known found, fatal] at lines
      constructor
      · rw [lines, ended]
        exact Transcript.lines_ofResult _ _
      · rw [ended]
        exact report_interpretedItems found
  | some event =>
      rw [found, Option.map_some] at fatal
      have ended : interpreted = _ := decode_of_stopped fatal
      rw [fatal, if_neg (Option.some_ne_none _), List.append_nil] at lines
      refine ⟨?lines, ?fatal, ?trailing⟩
      case lines =>
        rw [lines, ended, unknownTypeText_eq]
        rfl
      case fatal =>
        rw [ended]
        rfl
      case trailing =>
        rw [ended]
        rfl

end SessionCapture
