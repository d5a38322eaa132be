import SessionCapture.Container.Buffer

/-!
# Items of records

What the bytes of a buffer's records can be told as, whatever they are: items
that tell of a record, among them no event with more or fewer payload words than
its header says.  Whether they are told at all depends on the tag alone.
-/

namespace SessionCapture

namespace Item

/-- Whether an item tells of a record, whole or cut short; the others tell of
the container. -/
def isRecord : Item → Bool
  | .movement _ | .click _ | .event _ | .corrupt _ | .desync _ _ => true
  | _ => false

theorem note?_of_isRecord {item : Item} (record : item.isRecord = true) :
    item.note? = none := by
  cases item with
  | note found => cases record
  | _ => rfl

theorem filterMap_note?_of_isRecord {items : List Item}
    (records : ∀ item ∈ items, item.isRecord = true) :
    items.filterMap note? = [] := by
  rw [List.filterMap_eq_nil_iff]
  intro item member
  exact note?_of_isRecord (records item member)

end Item

/-! ## Events are counted -/

/-- The header of an event counts its payload. -/
def Event.Counted (event : Event) : Prop :=
  event.header.length.toNat = event.payload.length

theorem Event.counted_of_read {content rest : List UInt8} {event : Event}
    (success : Event.read content = .ok (event, rest)) : event.Counted := by
  unfold Event.read at success
  split at success
  · cases success
  · next header body found =>
      dsimp only at success
      split at success
      · next whole =>
          cases success
          change header.length.toNat = (Wire.words _).length
          rw [Wire.length_words, whole]
          omega
      · cases success

theorem Event.counted_of_mem_readAll {content : List UInt8} {event : Event}
    (member : event ∈ (Event.readAll content).1) : event.Counted := by
  by_cases empty : content = []
  · rw [empty, Event.readAll_nil] at member
    cases member
  · cases found : Event.read content with
    | error breach =>
        rw [Event.readAll_of_error empty found] at member
        cases member
    | ok reached =>
        obtain ⟨first, rest⟩ := reached
        rw [Event.readAll_of_ok found] at member
        rcases List.mem_cons.mp member with rfl | later
        · exact Event.counted_of_read found
        · exact Event.counted_of_mem_readAll later
termination_by content.length
decreasing_by exact Event.read_rest_lt found

/-! ## One event after another -/

theorem eventItems_nil (buffer : Nat) : eventItems buffer [] = [] := by
  simp [eventItems]

theorem eventItems_of_ok {buffer : Nat} {region rest : List UInt8}
    {event : Event} (success : Event.read region = .ok (event, rest)) :
    eventItems buffer region = .event event :: eventItems buffer rest := by
  simp [eventItems, Event.readAll_of_ok success]

theorem eventItems_of_error {buffer : Nat} {region : List UInt8}
    {breach : Breach} (nonempty : region ≠ [])
    (failure : Event.read region = .error breach) :
    eventItems buffer region =
      [.corrupt breach.fragment, .desync buffer breach.reason] := by
  simp [eventItems, Event.readAll_of_error nonempty failure]

/-! ## What records are told as -/

/-- An item that tells of a record, and that is counted if it is an event. -/
structure Item.OfRecord (item : Item) : Prop where
  isRecord : item.isRecord = true
  counted : ∀ {event}, item = .event event → event.Counted

private theorem FixedForm.ofRecord_item {α : Type} (form : FixedForm α)
    (tell : α → Item) (whole : ∀ record, (tell record).OfRecord)
    (region : List UInt8) : (form.item tell region).OfRecord := by
  rcases form.item_cases tell region with ⟨record, told⟩ | ⟨_, _, told⟩
  · exact told ▸ whole record
  · exact told ▸ ⟨rfl, nofun⟩

private theorem ofRecord_of_mem_eventItems {buffer : Nat}
    {region : List UInt8} {item : Item}
    (member : item ∈ eventItems buffer region) : item.OfRecord := by
  cases found : Event.readAll region with
  | mk events breach =>
      simp only [eventItems, found] at member
      rcases List.mem_append.mp member with whole | lost
      · obtain ⟨event, among, rfl⟩ := List.mem_map.mp whole
        refine ⟨rfl, ?_⟩
        rintro _ ⟨⟩
        apply Event.counted_of_mem_readAll
        rw [found]
        exact among
      · cases breach with
        | none => cases lost
        | some breach =>
            rcases List.mem_cons.mp lost with rfl | desync
            · exact ⟨rfl, nofun⟩
            · rw [List.mem_singleton.mp desync]
              exact ⟨rfl, nofun⟩

theorem ofRecord_of_mem_recordItems? {buffer : Nat} {kind : BufferKind}
    {region : List UInt8} {items : List Item}
    (found : recordItems? buffer kind region = some items) :
    ∀ item ∈ items, item.OfRecord := by
  intro item member
  cases kind with
  | telemetry =>
      cases found
      obtain ⟨piece, _, rfl⟩ := List.mem_map.mp member
      exact FixedForm.movement.ofRecord_item .movement
        (fun _ => ⟨rfl, nofun⟩) piece
  | action =>
      cases found
      obtain ⟨piece, _, rfl⟩ := List.mem_map.mp member
      exact FixedForm.click.ofRecord_item .click
        (fun _ => ⟨rfl, nofun⟩) piece
  | event =>
      cases found
      exact ofRecord_of_mem_eventItems member
  | unknown tag => cases found

theorem isRecord_of_mem_recordItems? {buffer : Nat} {kind : BufferKind}
    {region : List UInt8} {items : List Item}
    (found : recordItems? buffer kind region = some items) :
    ∀ item ∈ items, item.isRecord = true := by
  intro item member
  exact (ofRecord_of_mem_recordItems? found item member).isRecord

/-- A buffer's records can be read if and only if its tag is one of three. -/
theorem recordItems?_isSome_iff {index : Nat} {tag : UInt16}
    {region : List UInt8} :
    (recordItems? index (BufferKind.ofTag tag) region).isSome ↔
      tag = 1 ∨ tag = 2 ∨ tag = 3 := by
  simp only [← UInt16.toNat_inj, BufferKind.ofTag]
  split <;> simp_all [recordItems?]

end SessionCapture
