import SessionCapture.Container.Plan
import SessionCapture.Proofs.RecordItems
import SessionCapture.Proofs.WordBytes

/-!
# Buffers of whole records

A buffer that was written as whole records holds these records and nothing else.
Records of a fixed size are the pieces of that size; events follow one another,
each as long as its header says.
-/

namespace SessionCapture

/-- Writings of one size are the pieces of that size of what they make up. -/
theorem pieces_bytes_flatMap {α : Type} {size : Nat} (positive : size ≠ 0)
    {form : α → List UInt16}
    (sized : ∀ element, (Wire.bytes (form element)).length = size)
    (elements : List α) :
    pieces size (Wire.bytes (elements.flatMap form)) =
      elements.map fun element => Wire.bytes (form element) := by
  induction elements with
  | nil => exact pieces_nil size
  | cons element elements induction =>
      rw [List.flatMap_cons, Wire.bytes_append]
      have nonempty : Wire.bytes (form element) ++
          Wire.bytes (elements.flatMap form) ≠ [] := by
        intro empty
        have blank := (List.append_eq_nil_iff.mp empty).1
        have count := sized element
        rw [blank] at count
        exact positive count.symm
      rw [pieces_of_ne_nil positive nonempty, List.take_left' (sized element),
        List.drop_left' (sized element), induction, List.map_cons]

theorem FixedForm.items_bytes {α : Type} (form : FixedForm α)
    (tell : α → Item) (records : List α) :
    (pieces form.kind.size (Wire.bytes (records.flatMap form.words))).map
        (form.item tell) =
      records.map tell := by
  rw [pieces_bytes_flatMap form.kind.size_ne_zero form.length_bytes,
    List.map_map]
  apply List.map_congr_left
  intro record _
  exact form.item_bytes tell record

theorem movementItems_bytes (movements : List Movement) :
    movementItems (Wire.bytes (movements.flatMap Movement.words)) =
      movements.map .movement :=
  FixedForm.movement.items_bytes .movement movements

theorem clickItems_bytes (clicks : List Click) :
    clickItems (Wire.bytes (clicks.flatMap Click.words)) =
      clicks.map .click :=
  FixedForm.click.items_bytes .click clicks

theorem Event.readAll_bytes {events : List Event}
    (counted : ∀ event ∈ events, event.Counted) :
    Event.readAll (Wire.bytes (events.flatMap Event.words)) =
      (events, none) := by
  induction events with
  | nil => exact Event.readAll_nil
  | cons event events induction =>
      have first := counted event List.mem_cons_self
      have later : ∀ other ∈ events, other.Counted := by
        intro other member
        exact counted other (List.mem_cons_of_mem _ member)
      rw [List.flatMap_cons, Wire.bytes_append,
        Event.readAll_of_ok (Event.read_bytes_append first _),
        induction later]

theorem eventItems_bytes {events : List Event} (buffer : Nat)
    (counted : ∀ event ∈ events, event.Counted) :
    eventItems buffer (Wire.bytes (events.flatMap Event.words)) =
      events.map .event := by
  rw [eventItems, Event.readAll_bytes counted]
  exact List.append_nil _

end SessionCapture
