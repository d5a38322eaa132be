import SessionCapture.Proofs.RawPresentation
import SessionCapture.Proofs.TraceItems

/-!
# Passages of a transcript

The lines of a transcript cut up: an event line together with the data lines
that its header counts, and every other line by itself.  In a transcript without
interpretation the events found in this way are the events met by the walk, with
their payloads.
-/

namespace SessionCapture

inductive Passage where
  | plain (line : Line)
  | event (header : EventHeader) (data : List Line)

/-- The payload word that a data line states. -/
def Line.word? : Line → Option UInt16
  | .data _ _ word => some word
  | _ => none

namespace Passage

/-- The event that a passage tells of, its payload read off the data lines. -/
def event? : Passage → Option Event
  | .plain _ => none
  | .event header data => some ⟨header, data.filterMap Line.word?⟩

end Passage

def passages : List Line → List Passage
  | [] => []
  | .event header :: rest =>
      .event header (rest.take header.length.toNat) ::
        passages (rest.drop header.length.toNat)
  | line :: rest => .plain line :: passages rest
termination_by lines => lines.length
decreasing_by
  · simp only [List.length_drop, List.length_cons]
    omega
  · simp only [List.length_cons]
    omega

namespace Line

def isEvent : Line → Bool
  | .event _ => true
  | _ => false

end Line

theorem passages_plain_append {plain : List Line}
    (noEvent : ∀ line ∈ plain, line.isEvent = false) (rest : List Line) :
    passages (plain ++ rest) = plain.map .plain ++ passages rest := by
  induction plain with
  | nil => rfl
  | cons line plain induction =>
      have first := noEvent line List.mem_cons_self
      have later : ∀ line ∈ plain, line.isEvent = false := by
        intro line member
        exact noEvent line (List.mem_cons_of_mem _ member)
      rw [List.cons_append, List.map_cons, List.cons_append, ← induction later]
      cases line with
      | event header => cases first
      | _ => rw [passages]; exact nofun

namespace Event

def dataLines (event : Event) : List Line :=
  event.payload.zipIdx.map fun (word, index) =>
    .data event.header.timestamp index word

theorem lines_eq (event : Event) :
    event.lines = .event event.header :: event.dataLines := rfl

theorem word?_dataLines (event : Event) :
    event.dataLines.filterMap Line.word? = event.payload := by
  rw [dataLines, List.filterMap_map]
  change event.payload.zipIdx.filterMap (some ∘ Prod.fst) = event.payload
  rw [List.filterMap_eq_map, List.zipIdx_map_fst]

theorem length_dataLines (event : Event) :
    event.dataLines.length = event.payload.length := by
  rw [dataLines, List.length_map, List.length_zipIdx]

end Event

theorem passages_event_append {event : Event} (counted : event.Counted)
    (rest : List Line) :
    passages (event.lines ++ rest) =
      .event event.header event.dataLines :: passages rest := by
  have size : event.dataLines.length = event.header.length.toNat := by
    rw [event.length_dataLines]
    exact counted.symm
  rw [event.lines_eq, List.cons_append, passages, List.take_left' size,
    List.drop_left' size]

/-! ## Passages of items -/

namespace Item

def event? : Item → Option Event
  | .event found => some found
  | _ => none

theorem event?_event_cons (event : Event) (items : List Item) :
    (Item.event event :: items).filterMap event? =
      event :: items.filterMap event? := rfl

/-- Proves a property of all items one by one, events apart from the others. -/
theorem events_induction {motive : List Item → Prop} (nil : motive [])
    (event : ∀ event {items}, motive items → motive (.event event :: items))
    (other : ∀ {item items}, item.event? = none → motive items →
      motive (item :: items)) (items : List Item) : motive items := by
  induction items with
  | nil => exact nil
  | cons item items induction =>
      cases item with
      | event found => exact event found induction
      | _ => exact other rfl induction

/-- What an item's lines are cut into. -/
def passages (human : Bool) : Item → List Passage
  | .event found => [.event found.header found.dataLines]
  | item => (item.lines human).map .plain

/-- A record's own line may be followed by one that describes it. -/
theorem forall_mem_described {property : Line → Prop} {own described : Line}
    {asked : Prop} [Decidable asked] (first : property own)
    (second : property described) :
    ∀ line ∈ own :: (if asked then [described] else []), property line := by
  intro line member
  rcases List.mem_cons.mp member with rfl | rest
  · exact first
  · split at rest
    · rw [List.mem_singleton.mp rest]
      exact second
    · cases rest

theorem isEvent_lines {human : Bool} {item : Item}
    (noEvent : item.event? = none) :
    ∀ line ∈ item.lines human, line.isEvent = false := by
  cases item with
  | event found => cases noEvent
  | note found =>
      intro line member
      rw [List.mem_singleton.mp member]
      rfl
  | movement movement => exact forall_mem_described rfl rfl
  | click click => exact forall_mem_described rfl rfl
  | corrupt fragment => exact forall_mem_described rfl rfl
  | desync buffer reason =>
      intro line member
      rw [List.mem_singleton.mp member]
      rfl
  | bufferEnd => exact nofun
  | sectionEnd => exact nofun

theorem passages_of_noEvent {human : Bool} {item : Item}
    (noEvent : item.event? = none) :
    item.passages human = (item.lines human).map .plain := by
  cases item with
  | event found => cases noEvent
  | _ => rfl

end Item

/-- The lines of items are cut into the items' passages. -/
theorem passages_items_append {human : Bool} {items : List Item}
    (counted : ∀ event, .event event ∈ items → event.Counted)
    (rest : List Line) :
    passages (items.flatMap (Item.lines human) ++ rest) =
      items.flatMap (Item.passages human) ++ passages rest := by
  induction items using Item.events_induction with
  | nil => rfl
  | @event event items induction =>
      have later : ∀ other, .event other ∈ items → other.Counted := by
        intro other member
        exact counted other (List.mem_cons_of_mem _ member)
      rw [List.flatMap_cons, List.append_assoc, List.flatMap_cons,
        List.append_assoc, ← induction later]
      exact passages_event_append (counted event List.mem_cons_self) _
  | @other item items noEvent induction =>
      have later : ∀ event, .event event ∈ items → event.Counted := by
        intro event member
        exact counted event (List.mem_cons_of_mem _ member)
      rw [List.flatMap_cons, List.append_assoc, List.flatMap_cons,
        List.append_assoc, ← induction later,
        passages_plain_append (Item.isEvent_lines noEvent),
        Item.passages_of_noEvent noEvent]

theorem Passage.event?_plain (lines : List Line) :
    (lines.map .plain).filterMap Passage.event? = [] := by
  rw [List.filterMap_eq_nil_iff]
  intro passage member
  obtain ⟨line, _, rfl⟩ := List.mem_map.mp member
  rfl

theorem Passage.event?_dataLines (event : Event) :
    (Passage.event event.header event.dataLines).event? = some event := by
  rw [event?, event.word?_dataLines]

theorem Item.event?_passages (human : Bool) (items : List Item) :
    (items.flatMap (Item.passages human)).filterMap Passage.event? =
      items.filterMap Item.event? := by
  induction items using Item.events_induction with
  | nil => rfl
  | event event induction =>
      rw [List.flatMap_cons, List.filterMap_append, induction, passages,
        List.filterMap_cons_some (Passage.event?_dataLines event)]
      rfl
  | other noEvent induction =>
      rw [List.flatMap_cons, List.filterMap_append, induction,
        passages_of_noEvent noEvent, Passage.event?_plain,
        List.filterMap_cons_none noEvent]
      rfl

theorem Transcript.isEvent_closing (result : Except Fatal Span) :
    ∀ line ∈ closing result, line.isEvent = false := by
  intro line member
  cases result with
  | error fatal =>
      rw [List.mem_singleton.mp member]
      rfl
  | ok left =>
      unfold closing at member
      dsimp only at member
      split at member
      · cases member
      · rw [List.mem_singleton.mp member]
        rfl

/-- The passages of a transcript without interpretation. -/
theorem passages_uninterpreted (format : Format) (supported : UInt16)
    (human : Bool) (input : List UInt8) :
    passages (decode format ⟨supported, false, human⟩ input).lines =
      (format.trace supported input).items.flatMap (Item.passages human) ++
        (Transcript.closing (format.trace supported input).result).map
          .plain := by
  have closing := passages_plain_append (Transcript.isEvent_closing
    (format.trace supported input).result) []
  rw [List.append_nil, passages, List.append_nil] at closing
  rw [decode_uninterpreted, Transcript.lines_ofResult, ← closing]
  apply passages_items_append
  intro event member
  exact Format.counted_of_mem_items member

/-- The events that the lines of a transcript tell of. -/
def Transcript.events (transcript : Transcript) : List Event :=
  (passages transcript.lines).filterMap Passage.event?

/-- The events found in a transcript without interpretation are those met. -/
theorem events_uninterpreted (format : Format) (supported : UInt16)
    (human : Bool) (input : List UInt8) :
    (decode format ⟨supported, false, human⟩ input).events =
      (format.trace supported input).items.filterMap Item.event? := by
  rw [Transcript.events, passages_uninterpreted, List.filterMap_append,
    Item.event?_passages, Passage.event?_plain, List.append_nil]

end SessionCapture
