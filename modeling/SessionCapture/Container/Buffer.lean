import SessionCapture.Container.Item
import SessionCapture.Pieces

/-!
# The records of a buffer

The bytes between a buffer's header and its declared end, as items.  Movements
and clicks are found at multiples of their size, whatever lies between.  Events
follow one another, and the first one that is cut short ends the buffer's
records.
-/

namespace SessionCapture

namespace FixedForm

variable {α : Type} (form : FixedForm α)

/-- The item that a record's bytes are told as. -/
def item (tell : α → Item) (bytes : List UInt8) : Item :=
  match form.read bytes with
  | .ok (record, _) => tell record
  | .error fragment => .corrupt fragment

theorem item_bytes_append (tell : α → Item) (record : α)
    (rest : List UInt8) :
    form.item tell (Wire.bytes (form.words record) ++ rest) =
      tell record := by
  rw [item, form.read_bytes_append]

theorem item_bytes (tell : α → Item) (record : α) :
    form.item tell (Wire.bytes (form.words record)) = tell record := by
  have alone := form.item_bytes_append tell record []
  rw [List.append_nil] at alone
  exact alone

/-- Bytes are told as a record of their kind, or as a fragment of one. -/
theorem item_cases (tell : α → Item) (bytes : List UInt8) :
    (∃ record, form.item tell bytes = tell record) ∨
      ∃ fragment, fragment.kind = form.kind ∧
        form.item tell bytes = .corrupt fragment := by
  unfold item
  split
  · exact .inl ⟨_, rfl⟩
  · next fragment failure =>
      exact .inr ⟨fragment, form.kind_of_read_error failure, rfl⟩

end FixedForm

def Movement.item : List UInt8 → Item :=
  FixedForm.movement.item .movement

def Click.item : List UInt8 → Item :=
  FixedForm.click.item .click

def movementItems (bytes : List UInt8) : List Item :=
  (pieces Movement.size bytes).map Movement.item

def clickItems (bytes : List UInt8) : List Item :=
  (pieces Click.size bytes).map Click.item

namespace Event

private def readAllOnto (bytes : List UInt8) (done : List Event) :
    List Event × Option Breach :=
  if bytes = [] then
    (done.reverse, none)
  else
    match _success : Event.read bytes with
    | .ok (event, rest) => readAllOnto rest (event :: done)
    | .error breach => (done.reverse, some breach)
termination_by bytes.length
decreasing_by exact Event.read_rest_lt _success

/-- The events at the front of `bytes`, as many as there are, and what is wrong
with the bytes after them if there are any. -/
def readAll (bytes : List UInt8) : List Event × Option Breach :=
  readAllOnto bytes []

private theorem readAllOnto_eq (bytes : List UInt8) (done base : List Event) :
    readAllOnto bytes (done ++ base) =
      (base.reverse ++ (readAllOnto bytes done).1,
        (readAllOnto bytes done).2) := by
  fun_induction readAllOnto bytes done with
  | case1 done => rw [readAllOnto]; simp
  | case2 bytes done nonempty event rest success induction =>
      rw [readAllOnto, if_neg nonempty]
      split <;> simp_all
  | case3 bytes done nonempty breach failure =>
      rw [readAllOnto, if_neg nonempty]
      split <;> simp_all

@[simp] theorem readAll_nil : readAll [] = ([], none) := by
  rw [readAll, readAllOnto]
  simp

theorem readAll_of_ok {bytes rest : List UInt8} {event : Event}
    (success : Event.read bytes = .ok (event, rest)) :
    readAll bytes = (event :: (readAll rest).1, (readAll rest).2) := by
  have nonempty : bytes ≠ [] := by
    have shorter := Event.read_rest_lt success
    exact List.ne_nil_of_length_pos (by omega)
  rw [readAll, readAllOnto, if_neg nonempty]
  split
  · next found _ matched =>
      rw [success] at matched
      cases matched
      exact readAllOnto_eq rest [] [event]
  · next matched =>
      rw [success] at matched
      cases matched

theorem readAll_of_error {bytes : List UInt8} {breach : Breach}
    (nonempty : bytes ≠ []) (failure : Event.read bytes = .error breach) :
    readAll bytes = ([], some breach) := by
  rw [readAll, readAllOnto, if_neg nonempty]
  split
  · next matched =>
      rw [failure] at matched
      cases matched
  · next matched =>
      rw [failure] at matched
      cases matched
      rfl

end Event

def eventItems (buffer : Nat) (bytes : List UInt8) : List Item :=
  let (events, breach) := Event.readAll bytes
  events.map .event ++
    match breach with
    | none => []
    | some breach => [.corrupt breach.fragment, .desync buffer breach.reason]

/-- The items of a buffer's records, if its kind is known. -/
def recordItems? (buffer : Nat) (kind : BufferKind) (bytes : List UInt8) :
    Option (List Item) :=
  match kind with
  | .telemetry => some (movementItems bytes)
  | .action => some (clickItems bytes)
  | .event => some (eventItems buffer bytes)
  | .unknown _ => none

end SessionCapture
