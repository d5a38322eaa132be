import Mathlib.Algebra.Order.BigOperators.Group.List
import Mathlib.Algebra.Order.Group.Nat
import SessionCapture.Proofs.Budgets
import SessionCapture.Proofs.RemarkCounts

/-!
# How many lines a decode can emit

Every line is paid for by bytes of the input, two lines by each byte.  The lines
of a record are paid for by its own bytes, whatever an event means.  The line
that announces a buffer comes before any of its bytes are read and is paid for
in advance, by the header of the section.  So nothing that an input declares
makes a decode emit more than two lines for each byte that is there, and one
that tells how it ended.
-/

namespace SessionCapture

namespace Item

/-- At most so many lines tell of an item. -/
def weight : Item → Nat
  | .note _ => 1
  | .movement _ => 2
  | .click _ => 2
  | .event found => 2 * (EventHeader.size + 2 * found.payload.length)
  | .corrupt fragment => if fragment.kind = .event then 1 else 2
  | .desync _ _ => 1
  | .bufferEnd => 0
  | .sectionEnd => 0

theorem weight_corrupt_le (fragment : Fragment) :
    (Item.corrupt fragment).weight ≤ 2 := by
  simp only [weight]
  split <;> decide

theorem sum_weight_le {items : List Item}
    (light : ∀ item ∈ items, item.weight ≤ 2) :
    (items.map weight).sum ≤ 2 * items.length := by
  have bound : ∀ lines ∈ items.map weight, lines ≤ 2 :=
    List.forall_mem_map.mpr light
  have total := List.sum_le_card_nsmul (items.map weight) 2 bound
  rwa [List.length_map, Nat.nsmul_eq_mul, Nat.mul_comm] at total

end Item

/-! ## Lines of an item -/

namespace Presentation

variable {options : Options} {registry : Registry} {context : Context}

theorem length_lines_ofEvent (narrow : registry.Narrow)
    (reached : context.Reached registry) (event : Event) :
    (ofEvent options context event).1.lines.length ≤
      (Item.event event).weight := by
  have own : event.lines.length = event.payload.length + 1 := by
    simp [Event.lines]
  have meaning : (ofOutcome event.header
      (context.step event.header.kind event.payload).1).lines.length ≤
        23 + 3 * event.payload.length := by
    unfold Context.step
    split
    · next remarks next success =>
        have told := Context.length_interpret_le narrow reached success
        change (remarks.map _).length ≤ _
        rwa [List.length_map]
    · next error _ =>
        cases error with
        | unknownEventType tag => exact Nat.zero_le _
        | malformed kind error =>
            change 1 ≤ _
            omega
  rw [lines_ofEvent, List.length_append, own]
  simp only [Item.weight, EventHeader.size]
  split
  · omega
  · simp only [List.length_nil]
    omega

theorem length_lines_ofItem (narrow : registry.Narrow)
    (reached : context.Reached registry) (item : Item) :
    (ofItem options context item).1.lines.length ≤ item.weight := by
  cases item with
  | event event => exact length_lines_ofEvent narrow reached event
  | movement movement =>
      change (_ :: ite _ _ _ : List Line).length ≤ 2
      split <;> simp
  | click click =>
      change (_ :: ite _ _ _ : List Line).length ≤ 2
      split <;> simp
  | corrupt fragment =>
      change (_ :: ite _ _ _ : List Line).length ≤ ite _ _ _
      split <;> split <;> simp_all
  | note found => exact Nat.le_refl 1
  | desync buffer reason => exact Nat.le_refl 1
  | bufferEnd => exact Nat.le_refl 0
  | sectionEnd => exact Nat.le_refl 0

theorem length_lines_ofItems (options : Options) (narrow : registry.Narrow)
    (reached : context.Reached registry) (items : List Item) :
    (ofItems options context items).lines.length ≤
      (items.map Item.weight).sum := by
  induction items generalizing context with
  | nil => exact Nat.le_refl 0
  | cons item items induction =>
      have first : (ofItem options context item).1.lines.length ≤ _ :=
        length_lines_ofItem narrow reached item
      have later := induction (reached.ofItem options item)
      rw [ofItems_cons, lines_followedBy, List.length_append, List.map_cons,
        List.sum_cons]
      split
      · omega
      · rw [List.length_nil]
        omega

end Presentation

/-! ## Records pay for their lines -/

theorem Event.length_of_read {region rest : List UInt8} {event : Event}
    (success : Event.read region = .ok (event, rest)) :
    region.length =
      EventHeader.size + 2 * event.payload.length + rest.length := by
  have counted := Event.counted_of_read success
  unfold Event.read at success
  split at success
  · cases success
  · next header body found =>
      obtain ⟨enough, bodyRest⟩ := EventHeader.read_rest found
      dsimp only at success
      split at success
      · next whole =>
          cases success
          change header.length.toNat = _ at counted
          rw [List.length_take] at whole
          have after := congrArg List.length bodyRest
          rw [List.length_drop] at after ⊢
          omega
      · cases success

theorem sum_weight_eventItems_le (buffer : Nat) (region : List UInt8) :
    ((eventItems buffer region).map Item.weight).sum ≤ 2 * region.length := by
  by_cases empty : region = []
  · rw [empty, eventItems_nil]
    exact Nat.le_refl 0
  · cases found : Event.read region with
    | ok reached =>
        obtain ⟨event, rest⟩ := reached
        have taken := Event.length_of_read found
        have later := sum_weight_eventItems_le buffer rest
        rw [eventItems_of_ok found, List.map_cons, List.sum_cons]
        change 2 * (EventHeader.size + 2 * event.payload.length) + _ ≤ _
        omega
    | error breach =>
        have some := List.length_pos_iff.mpr empty
        rw [eventItems_of_error empty found]
        simp only [List.map_cons, List.map_nil, List.sum_cons, List.sum_nil,
          Item.weight, Event.kind_of_read_error found, if_pos]
        omega
termination_by region.length
decreasing_by exact Event.read_rest_lt found

/-- Each piece of a region is told by an item of two lines at most. -/
theorem sum_weight_pieces_le {size : Nat} (positive : size ≠ 0)
    {item : List UInt8 → Item} (light : ∀ piece, (item piece).weight ≤ 2)
    (region : List UInt8) :
    (((pieces size region).map item).map Item.weight).sum ≤
      2 * region.length := by
  have few : (pieces size region).length ≤ region.length := by
    apply length_pieces_le positive
    exact Nat.le_mul_of_pos_left _ (Nat.pos_of_ne_zero positive)
  have bound : (((pieces size region).map item).map Item.weight).sum ≤
      2 * ((pieces size region).map item).length :=
    Item.sum_weight_le (by simp [light])
  rw [List.length_map] at bound
  omega

theorem FixedForm.weight_item_le {α : Type} (form : FixedForm α)
    {tell : α → Item} (light : ∀ record, (tell record).weight ≤ 2)
    (piece : List UInt8) : (form.item tell piece).weight ≤ 2 := by
  rcases form.item_cases tell piece with ⟨record, told⟩ | ⟨_, _, told⟩
  · exact told ▸ light record
  · exact told ▸ Item.weight_corrupt_le _

theorem sum_weight_recordItems?_le {buffer : Nat} {kind : BufferKind}
    {region : List UInt8} {items : List Item}
    (known : recordItems? buffer kind region = some items) :
    (items.map Item.weight).sum ≤ 2 * region.length := by
  cases kind with
  | telemetry =>
      cases known
      apply sum_weight_pieces_le (by decide)
      exact FixedForm.movement.weight_item_le fun _ => Nat.le_refl 2
  | action =>
      cases known
      apply sum_weight_pieces_le (by decide)
      exact FixedForm.click.weight_item_le fun _ => Nat.le_refl 2
  | event =>
      cases known
      exact sum_weight_eventItems_le buffer region
  | unknown tag => cases known

/-! ## Inputs pay for their lines -/

/-- Among the buffers of a section one line is paid for in advance: the one that
announces the next buffer. -/
def lineCredit : Walk.Stage → Nat
  | .buffers | .region => 1
  | .between | .announced | .tagged => 0

/-- Two lines for each byte pay for all lines. -/
theorem lineBudget : Budget Item.weight 2 lineCredit where
  outside _ := (by decide : 1 ≤ 2 * 2)
  bufferCount _ := (by decide : 1 + 1 ≤ 0 + 2 * 4)
  offset _ _ := (by decide : 1 + 0 ≤ 1)
  tag _ _ := (by decide : 1 + 0 ≤ 0 + 2 * 2)
  length _ _ := (by decide : 1 + 1 ≤ 0 + 2 * 4)
  records := sum_weight_recordItems?_le
  bufferEnd := by decide
  sectionEnd := by decide

/-- Whatever an input declares, its decode emits at most two lines for each
byte, and one. -/
theorem length_lines_decode_le (format : Format) (options : Options)
    (input : List UInt8) :
    (decode format options input).lines.length ≤ 2 * input.length + 1 := by
  have shown := Presentation.length_lines_ofItems options
    Registry.narrow_builtin (.fresh .builtin)
    (format.trace options.supportedVersion input).items
  have paid := lineBudget.sum_trace_le format options.supportedVersion input
  rw [lines_decode, List.length_append]
  exact Nat.add_le_add (Nat.le_trans shown paid) (Transcript.length_closing _)

/-- No bytes are left to pay for the last line. -/
example : (decode .bareSection .full []).lines.length = 1 := by decide

end SessionCapture
