import SessionCapture.Container.Item
import SessionCapture.Event.Interpret
import SessionCapture.Output.Line
import SessionCapture.Output.Options
import SessionCapture.Output.Report

/-!
# Presenting the items of a walk

Each item is shown as lines and counted.  Events are interpreted on the way, in
a context that the events before them have left.  An event type that is not
known stops an interpreting presentation.
-/

namespace SessionCapture

/-- Lines shown, what they count, and the condition that stopped them. -/
structure Presentation where
  lines : List Line
  counts : Counts
  fatal : Option Fatal
deriving DecidableEq, Repr

def Movement.description (movement : Movement) : String :=
  s!"Mouse moved to relative page location (x={movement.x}, y={movement.y})."

def Click.description (click : Click) : String :=
  match click.kind with
  | .error => s!"Error action with data={click.value}."
  | .digit => s!"Challenge digit {click.value.toNat + 1} was selected."
  | .other => s!"Click at relative page location (x={click.x}, y={click.y})."
  | .unknown _ => "Unknown action."

/-- An event's line and those of its payload. -/
def Event.lines (event : Event) : List Line :=
  .event event.header ::
    event.payload.zipIdx.map fun (word, index) =>
      .data event.header.timestamp index word

namespace Presentation

def ofMovement (options : Options) (movement : Movement) : Presentation :=
  let human := Line.human (some movement.timestamp) movement.description
  ⟨.movement movement :: if options.humanLines then [human] else [],
    { movements := 1 }, none⟩

def ofClick (options : Options) (click : Click) : Presentation :=
  let human := Line.human (some click.timestamp) click.description
  ⟨.click click :: if options.humanLines then [human] else [],
    { clicks := 1 }, none⟩

def ofCorrupt (options : Options) (fragment : Fragment) : Presentation :=
  let human := Line.human fragment.timestamp? "Corrupted action."
  ⟨.corrupt fragment ::
      if fragment.kind = .action ∧ options.humanLines then [human] else [],
    { corruptRecords := 1 }, none⟩

def ofDesync (buffer : Nat) (reason : Desync) : Presentation :=
  ⟨[.notice s!"Buffer({buffer}) desynchronized: {reason.message}"],
    { desyncedBuffers := 1 }, none⟩

/-- What an event's meaning adds to its lines. -/
def ofOutcome (header : EventHeader) :
    Except InterpretError (List Remark) → Presentation
  | .ok remarks =>
      ⟨remarks.map fun remark =>
          .human (some header.timestamp) remark.message,
        { advisories := remarks.countP Remark.isNote }, none⟩
  | .error (.malformed _ _) =>
      ⟨[.corrupt header.fragment], { corruptRecords := 1 }, none⟩
  | .error (.unknownEventType tag) =>
      ⟨[], {}, some (.unknownEventType tag header.timestamp)⟩

def ofEvent (options : Options) (context : Context) (event : Event) :
    Presentation × Context :=
  if options.interpretEvents then
    let (outcome, next) := context.step event.header.kind event.payload
    let meaning := ofOutcome event.header outcome
    (⟨event.lines ++ meaning.lines, { meaning.counts with events := 1 },
      meaning.fatal⟩, next)
  else
    (⟨event.lines, { events := 1 }, none⟩, context)

def ofItem (options : Options) (context : Context) :
    Item → Presentation × Context
  | .note note => (⟨[.notice note.text], {}, none⟩, context)
  | .movement movement => (ofMovement options movement, context)
  | .click click => (ofClick options click, context)
  | .event event => ofEvent options context event
  | .corrupt fragment => (ofCorrupt options fragment, context)
  | .desync buffer reason => (ofDesync buffer reason, context)
  | .bufferEnd => (⟨[], { buffers := 1 }, none⟩, context)
  | .sectionEnd => (⟨[], { sections := 1 }, none⟩, context)

/-- One presentation after another, unless the first one stopped. -/
def followedBy (first rest : Presentation) : Presentation :=
  match first.fatal with
  | some _ => first
  | none =>
      ⟨first.lines ++ rest.lines, first.counts + rest.counts, rest.fatal⟩

private def ofItemsOnto (options : Options) :
    List Item → Context → List Line → Counts → Presentation
  | [], _, lines, counts => ⟨lines.reverse, counts, none⟩
  | item :: rest, context, lines, counts =>
      let (shown, next) := ofItem options context item
      let lines := shown.lines.reverse ++ lines
      let counts := counts + shown.counts
      match shown.fatal with
      | some fatal => ⟨lines.reverse, counts, some fatal⟩
      | none => ofItemsOnto options rest next lines counts

def ofItems (options : Options) (context : Context) (items : List Item) :
    Presentation :=
  ofItemsOnto options items context [] 0

private theorem ofItemsOnto_eq (options : Options) (items : List Item)
    (context : Context) (lines : List Line) (counts : Counts) :
    ofItemsOnto options items context lines counts =
      followedBy ⟨lines.reverse, counts, none⟩
        (ofItems options context items) := by
  induction items generalizing context lines counts with
  | nil => simp [ofItems, ofItemsOnto, followedBy]
  | cons item items induction =>
      rw [ofItems]
      simp only [ofItemsOnto]
      split
      · simp [followedBy]
      · rw [induction, induction _ (_ ++ [])]
        simp [followedBy, Counts.add_assoc]

@[simp] theorem ofItems_nil (options : Options) (context : Context) :
    ofItems options context [] = ⟨[], 0, none⟩ := rfl

theorem ofItems_cons (options : Options) (context : Context) (item : Item)
    (items : List Item) :
    ofItems options context (item :: items) =
      followedBy (ofItem options context item).1
        (ofItems options (ofItem options context item).2 items) := by
  rw [ofItems]
  simp only [ofItemsOnto]
  split
  · next fatal stopped =>
      simp only [followedBy, stopped, List.append_nil, List.reverse_reverse,
        Counts.zero_add]
      rw [← stopped]
  · next continued =>
      rw [ofItemsOnto_eq]
      simp [followedBy, continued]

end Presentation

end SessionCapture
