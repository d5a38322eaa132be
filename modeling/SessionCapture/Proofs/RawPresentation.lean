import Mathlib.Algebra.BigOperators.Group.List.Basic
import SessionCapture.Decode
import SessionCapture.Proofs.Walks

/-!
# Presentation without interpretation

When events are not interpreted, what an item shows depends on the item alone.
The lines of a decode are those of the items one after another, its counts are
their sum, and nothing but the walk can stop it.
-/

namespace SessionCapture

instance : AddCommMonoid Counts where
  add_assoc := Counts.add_assoc
  zero_add := Counts.zero_add
  add_zero := Counts.add_zero
  add_comm left right := by
    simp only [Counts.add_def, Nat.add_comm, UInt32.add_comm]
  nsmul := nsmulRec

namespace Item

/-- What an item shows when events are not interpreted. -/
def shown (human : Bool) (item : Item) : Presentation :=
  (Presentation.ofItem ⟨0, false, human⟩ (.fresh .empty) item).1

def lines (human : Bool) (item : Item) : List Line :=
  (item.shown human).lines

def counts (item : Item) : Counts :=
  (item.shown false).counts

@[simp] theorem lines_note (human : Bool) (found : Note) :
    lines human (.note found) = [.notice found.text] := rfl

@[simp] theorem lines_event (human : Bool) (event : Event) :
    lines human (.event event) = event.lines := rfl

@[simp] theorem lines_desync (human : Bool) (buffer : Nat) (reason : Desync) :
    lines human (.desync buffer reason) =
      [.notice s!"Buffer({buffer}) desynchronized: {reason.message}"] := rfl

@[simp] theorem lines_bufferEnd (human : Bool) :
    lines human .bufferEnd = [] := rfl

@[simp] theorem lines_sectionEnd (human : Bool) :
    lines human .sectionEnd = [] := rfl

end Item

namespace Presentation

/-- What items show one after another when events are not interpreted. -/
def raw (human : Bool) (items : List Item) : Presentation :=
  ⟨items.flatMap (Item.lines human), (items.map Item.counts).sum, none⟩

theorem ofItem_uninterpreted (supported : UInt16) (human : Bool)
    (context : Context) (item : Item) :
    ofItem ⟨supported, false, human⟩ context item =
      (⟨item.lines human, item.counts, none⟩, context) := by
  cases item <;> rfl

theorem ofItems_uninterpreted (supported : UInt16) (human : Bool)
    (context : Context) (items : List Item) :
    ofItems ⟨supported, false, human⟩ context items = raw human items := by
  induction items with
  | nil => rfl
  | cons item items induction =>
      rw [ofItems_cons, ofItem_uninterpreted, induction]
      simp only [followedBy, raw, List.flatMap_cons, List.map_cons,
        List.sum_cons]

end Presentation

namespace Transcript

/-- The line that closes a transcript, if there is one. -/
def closing : Except Fatal Span → List Line
  | .error fatal => [.notice s!"Error reading file(s): {fatal.message}"]
  | .ok left =>
      if left.remaining = 0 then []
      else
        [.notice s!"{left.remaining} bytes left unprocessed in the input file"]

/-- The line that tells of bytes after the last section, if there are any. -/
def leftover (rest : List UInt8) : List Line :=
  if rest = [] then []
  else [.notice s!"{rest.length} bytes left unprocessed in the input file"]

theorem closing_ok (offset : Nat) (rest : List UInt8) :
    closing (.ok ⟨offset, rest⟩) = leftover rest := by
  unfold closing leftover
  simp only [Span.remaining, List.length_eq_zero_iff]

/-- How a transcript ends, by the result of the walk. -/
def ofResult (shown : Presentation) : Except Fatal Span → Transcript
  | .error fatal => .stopped shown fatal
  | .ok left => .finished shown left.remaining

theorem lines_ofResult (shown : Presentation) (result : Except Fatal Span) :
    (ofResult shown result).lines = shown.lines ++ closing result := by
  cases result <;> rfl

end Transcript

theorem decode_uninterpreted (format : Format) (supported : UInt16)
    (human : Bool) (input : List UInt8) :
    decode format ⟨supported, false, human⟩ input =
      .ofResult (.raw human (format.trace supported input).items)
        (format.trace supported input).result := by
  unfold decode
  simp only [Presentation.ofItems_uninterpreted]
  cases (format.trace supported input).result <;> rfl

/-- The walk alone decides how a decode without interpretation ends. -/
theorem fatal_uninterpreted (format : Format) (supported : UInt16)
    (human : Bool) (input : List UInt8) :
    (decode format ⟨supported, false, human⟩ input).report.fatal = none ↔
      ∃ left, (format.walk supported).Reaches ⟨0, input⟩ () left := by
  rw [decode_uninterpreted, Format.trace_eq]
  unfold Walk.Reaches
  cases ((format.walk supported).run ⟨0, input⟩).result with
  | ok reached =>
      constructor
      · intro _
        exact ⟨reached.2, rfl⟩
      · intro _
        rfl
  | error fatal =>
      constructor
      · intro impossible
        cases impossible
      · rintro ⟨_, impossible⟩
        cases impossible

/-! ## What is counted -/

/-- A count that adds up in an arithmetic of its own. -/
structure Counts.Counter {α : Type} [Add α] (count : Counts → α)
    (ofNat : Nat → α) : Prop where
  zero : count 0 = ofNat 0
  add : ∀ left right, count (left + right) = count left + count right
  ofNat_add : ∀ left right,
    ofNat (left + right) = ofNat left + ofNat right

namespace Counts

theorem Counter.sections : Counter Counts.sections UInt32.ofNat :=
  ⟨rfl, fun _ _ => rfl, UInt32.ofNat_add⟩

theorem Counter.buffers : Counter Counts.buffers UInt32.ofNat :=
  ⟨rfl, fun _ _ => rfl, UInt32.ofNat_add⟩

theorem Counter.advisories : Counter Counts.advisories id :=
  ⟨rfl, fun _ _ => rfl, fun _ _ => rfl⟩

theorem Counter.corruptRecords : Counter Counts.corruptRecords id :=
  ⟨rfl, fun _ _ => rfl, fun _ _ => rfl⟩

/-- A count to which each element of one sort adds one, and no other element
anything, is the number of elements of that sort. -/
theorem Counter.sum_eq_countP {α β : Type} [Add α] {count : Counts → α}
    {ofNat : Nat → α} (counter : Counter count ofNat) {part : β → Counts}
    {sort : β → Bool}
    (each : ∀ element,
      count (part element) = ofNat (if sort element then 1 else 0))
    (elements : List β) :
    count (elements.map part).sum = ofNat (elements.countP sort) := by
  induction elements with
  | nil => exact counter.zero
  | cons element elements induction =>
      rw [List.map_cons, List.sum_cons, counter.add, each, induction,
        List.countP_cons, Nat.add_comm, counter.ofNat_add]

end Counts

namespace Item

theorem sections_counts (items : List Item) :
    (items.map counts).sum.sections = .ofNat (items.count .sectionEnd) :=
  Counts.Counter.sections.sum_eq_countP
    (fun item => by cases item <;> rfl) items

theorem buffers_counts (items : List Item) :
    (items.map counts).sum.buffers = .ofNat (items.count .bufferEnd) :=
  Counts.Counter.buffers.sum_eq_countP
    (fun item => by cases item <;> rfl) items

/-- Without interpretation there are no advisories. -/
theorem advisories_counts (items : List Item) :
    (items.map counts).sum.advisories = 0 := by
  have none : (items.map counts).sum.advisories =
      items.countP fun _ => false :=
    Counts.Counter.advisories.sum_eq_countP
      (fun item => by cases item <;> rfl) items
  rw [none]
  exact congrFun List.countP_false items

end Item

theorem Transcript.counts_ofResult (shown : Presentation)
    (result : Except Fatal Span) :
    (ofResult shown result).report.toCounts = shown.counts := by
  cases result <;> rfl

theorem counts_uninterpreted (format : Format) (supported : UInt16)
    (human : Bool) (input : List UInt8) :
    (decode format ⟨supported, false, human⟩ input).report.toCounts =
      ((format.trace supported input).items.map Item.counts).sum := by
  rw [decode_uninterpreted, Transcript.counts_ofResult]
  rfl

theorem sections_uninterpreted (format : Format) (supported : UInt16)
    (human : Bool) (input : List UInt8) :
    (decode format ⟨supported, false, human⟩ input).report.sections =
      .ofNat ((format.trace supported input).items.count .sectionEnd) := by
  rw [counts_uninterpreted, Item.sections_counts]

theorem buffers_uninterpreted (format : Format) (supported : UInt16)
    (human : Bool) (input : List UInt8) :
    (decode format ⟨supported, false, human⟩ input).report.buffers =
      .ofNat ((format.trace supported input).items.count .bufferEnd) := by
  rw [counts_uninterpreted, Item.buffers_counts]

end SessionCapture
