import SessionCapture.Proofs.LongerInput

/-!
# What is shown item by item

A presentation is made of what is shown of single items, each in the context
that the events before it have left, and nothing is shown after an item that
stops it.
-/

namespace SessionCapture

/-- An item together with the context in which it is shown. -/
structure Showing where
  context : Context
  item : Item

namespace Showing

variable (options : Options)

def shown (showing : Showing) : Presentation :=
  (Presentation.ofItem options showing.context showing.item).1

def lines (showing : Showing) : List Line :=
  (showing.shown options).lines

def counts (showing : Showing) : Counts :=
  (showing.shown options).counts

end Showing

/-- Only an event stops a presentation. -/
theorem Presentation.exists_event_of_fatal {options : Options}
    {context : Context} {item : Item} {fatal : Fatal}
    (stopped : (ofItem options context item).1.fatal = some fatal) :
    ∃ event, item = .event event := by
  cases item with
  | event event => exact ⟨event, rfl⟩
  | _ => cases stopped

/-- The items shown from a context on: all of them, or those through the first
that stops the presentation. -/
def showings (options : Options) : Context → List Item → List Showing
  | _, [] => []
  | context, item :: rest =>
      ⟨context, item⟩ ::
        match (Presentation.ofItem options context item).1.fatal with
        | some _ => []
        | none =>
            showings options (Presentation.ofItem options context item).2 rest

section Showings

variable {options : Options} {context : Context}

theorem showings_of_stopped {item : Item} {fatal : Fatal}
    (stopped : (Presentation.ofItem options context item).1.fatal = some fatal)
    (rest : List Item) :
    showings options context (item :: rest) = [⟨context, item⟩] := by
  rw [showings, stopped]

theorem showings_of_goesOn {item : Item}
    (goesOn : (Presentation.ofItem options context item).1.fatal = none)
    (rest : List Item) :
    showings options context (item :: rest) =
      ⟨context, item⟩ ::
        showings options (Presentation.ofItem options context item).2 rest := by
  rw [showings, goesOn]

variable (options context) (items : List Item)

/-- The lines and counts of a presentation are those of its showings. -/
theorem ofItems_eq_showings :
    (Presentation.ofItems options context items).lines =
        (showings options context items).flatMap (Showing.lines options) ∧
      (Presentation.ofItems options context items).counts =
        ((showings options context items).map (Showing.counts options)).sum := by
  induction items generalizing context with
  | nil => exact ⟨rfl, rfl⟩
  | cons item items induction =>
      rw [Presentation.ofItems_cons, Presentation.followedBy]
      cases ended : (Presentation.ofItem options context item).1.fatal with
      | some fatal =>
          rw [showings_of_stopped ended, List.flatMap_singleton,
            List.map_singleton, List.sum_singleton]
          exact ⟨rfl, rfl⟩
      | none =>
          obtain ⟨lines, counts⟩ :=
            induction (Presentation.ofItem options context item).2
          rw [showings_of_goesOn ended, List.flatMap_cons, List.map_cons,
            List.sum_cons, ← lines, ← counts]
          exact ⟨rfl, rfl⟩

/-- The items shown come first among the items.  They are all of them, or the
last of them is an event that stops the presentation. -/
theorem exists_not_shown :
    ∃ later, items = (showings options context items).map Showing.item ++ later ∧
      match (Presentation.ofItems options context items).fatal with
      | none => later = []
      | some _ => ∃ before event,
          (showings options context items).map Showing.item =
            before ++ [.event event] := by
  induction items generalizing context with
  | nil => exact ⟨[], rfl, rfl⟩
  | cons item items induction =>
      rw [Presentation.ofItems_cons, Presentation.followedBy]
      cases ended : (Presentation.ofItem options context item).1.fatal with
      | some fatal =>
          obtain ⟨event, rfl⟩ := Presentation.exists_event_of_fatal ended
          rw [showings_of_stopped ended]
          refine ⟨items, rfl, ?_⟩
          dsimp only
          rw [ended]
          exact ⟨[], event, rfl⟩
      | none =>
          obtain ⟨later, split, ending⟩ :=
            induction (Presentation.ofItem options context item).2
          rw [showings_of_goesOn ended]
          refine ⟨later, congrArg (item :: ·) split, ?_⟩
          dsimp only
          split at ending
          · exact ending
          · obtain ⟨before, event, last⟩ := ending
            exact ⟨item :: before, event, congrArg (item :: ·) last⟩

variable {options context items}

section Counter

variable {α : Type} [Add α] {count : Counts → α} {ofNat : Nat → α}

/-- What each showing of one sort, and no other, adds one to is the number of
showings of that sort. -/
theorem count_ofItems (counter : Counts.Counter count ofNat)
    {sort : Showing → Bool}
    (each : ∀ showing : Showing,
      count (showing.counts options) = ofNat (if sort showing then 1 else 0)) :
    count (Presentation.ofItems options context items).counts =
      ofNat ((showings options context items).countP sort) := by
  rw [(ofItems_eq_showings options context items).2]
  exact counter.sum_eq_countP each _

/-- What one item adds one to, and no other item anything, is the number of
times that item is shown. -/
theorem count_items (counter : Counts.Counter count ofNat) {kind : Item}
    (each : ∀ context item,
      count (Presentation.ofItem options context item).1.counts =
        ofNat ([item].count kind)) :
    count (Presentation.ofItems options context items).counts =
      ofNat (((showings options context items).map Showing.item).count
        kind) := by
  rw [List.count, List.countP_map]
  apply count_ofItems counter
  intro showing
  exact (each showing.context showing.item).trans
    (congrArg ofNat List.count_singleton)

end Counter

end Showings

/-- The items that a decode shows. -/
def decodeShowings (format : Format) (options : Options)
    (input : List UInt8) : List Showing :=
  showings options (.fresh .builtin)
    (format.trace options.supportedVersion input).items

end SessionCapture
