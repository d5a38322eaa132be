import Mathlib.Data.List.Induction
import SessionCapture.Event.Interpret

/-!
# What a context remembers

A context depends on two of the events it was given: the last controller reset
that could be read, and the last challenge after it that splits into tuples of
the key size.  What one event does to a context is said once, for events that
state a reset, events that state such a challenge, and all others; the history
is then followed from its last event.
-/

namespace SessionCapture

/-- An event as an interpreter is given it. -/
abbrev EventInput : Type :=
  EventKind × List UInt16

namespace EventInput

/-- The reset that an event states, if it is one and can be read. -/
def reset? : EventInput → Option ControlReset
  | (.controlReset, payload) => (ControlReset.parse payload).toOption
  | _ => none

/-- The cells of a challenge that splits into tuples of `size`. -/
def challenge? (size : Nat) : EventInput → Option (List UInt16)
  | (.newChallenge, cells) =>
      if cells.length % size = 0 then some cells else none
  | _ => none

theorem reset?_eq_some_iff {event : EventInput} {reset : ControlReset} :
    event.reset? = some reset ↔
      ∃ payload, event = (.controlReset, payload) ∧
        ControlReset.parse payload = .ok reset := by
  constructor
  · intro stated
    obtain ⟨kind, payload⟩ := event
    cases kind with
    | controlReset =>
        refine ⟨payload, rfl, ?_⟩
        change (ControlReset.parse payload).toOption = some reset at stated
        cases parsed : ControlReset.parse payload with
        | ok found =>
            rw [parsed] at stated
            cases stated
            rfl
        | error error =>
            rw [parsed] at stated
            cases stated
    | _ => cases stated
  · rintro ⟨payload, rfl, parsed⟩
    change (ControlReset.parse payload).toOption = some reset
    rw [parsed]
    rfl

theorem challenge?_eq_some_iff {event : EventInput} {size : Nat}
    {cells : List UInt16} :
    event.challenge? size = some cells ↔
      event = (.newChallenge, cells) ∧ cells.length % size = 0 := by
  constructor
  · intro stated
    obtain ⟨kind, payload⟩ := event
    cases kind with
    | newChallenge =>
        change (if payload.length % size = 0 then some payload else none) =
          some cells at stated
        by_cases whole : payload.length % size = 0
        · rw [if_pos whole] at stated
          cases stated
          exact ⟨rfl, whole⟩
        · rw [if_neg whole] at stated
          cases stated
    | _ => cases stated
  · rintro ⟨rfl, whole⟩
    exact if_pos whole

end EventInput

/-! ## The relevant part of a history -/

/-- The last reset among events, and the events after it. -/
def lastReset? : List EventInput → Option (ControlReset × List EventInput)
  | [] => none
  | event :: later =>
      (lastReset? later).or (event.reset?.map fun reset => (reset, later))

/-- The last challenge among events that splits into tuples of `size`. -/
def lastChallenge? (size : Nat) (events : List EventInput) :
    Option (List UInt16) :=
  (events.filterMap (EventInput.challenge? size)).getLast?

theorem lastReset?_eq_none_iff {events : List EventInput} :
    lastReset? events = none ↔ ∀ event ∈ events, event.reset? = none := by
  induction events with
  | nil => simp [lastReset?]
  | cons event later induction =>
      rw [lastReset?, Option.or_eq_none_iff, Option.map_eq_none_iff, induction,
        List.forall_mem_cons, and_comm]

theorem lastReset?_eq_some_iff {events later : List EventInput}
    {reset : ControlReset} :
    lastReset? events = some (reset, later) ↔
      ∃ earlier event, events = earlier ++ event :: later ∧
        event.reset? = some reset ∧
        ∀ other ∈ later, other.reset? = none := by
  induction events with
  | nil =>
      constructor
      · intro found
        cases found
      · rintro ⟨earlier, event, impossible, _⟩
        cases earlier <;> cases impossible
  | cons first rest induction =>
      rw [lastReset?, Option.or_eq_some_iff, induction]
      constructor
      · rintro (⟨earlier, event, rfl, stated, none⟩ | ⟨absent, here⟩)
        · exact ⟨first :: earlier, event, rfl, stated, none⟩
        · obtain ⟨found, stated, same⟩ := Option.map_eq_some_iff.mp here
          cases same
          exact ⟨[], first, rfl, stated, lastReset?_eq_none_iff.mp absent⟩
      · rintro ⟨earlier, event, same, stated, none⟩
        cases earlier with
        | nil =>
            cases same
            right
            refine ⟨lastReset?_eq_none_iff.mpr none, ?_⟩
            rw [stated]
            rfl
        | cons _ earlier =>
            cases same
            left
            exact ⟨earlier, event, rfl, stated, none⟩

theorem lastReset?_append_of_some {event : EventInput} {reset : ControlReset}
    (stated : event.reset? = some reset) (events : List EventInput) :
    lastReset? (events ++ [event]) = some (reset, []) := by
  apply lastReset?_eq_some_iff.mpr
  exact ⟨events, event, rfl, stated, nofun⟩

theorem lastReset?_append_of_none {event : EventInput}
    (other : event.reset? = none) (events : List EventInput) :
    lastReset? (events ++ [event]) =
      (lastReset? events).map fun (reset, later) =>
        (reset, later ++ [event]) := by
  induction events with
  | nil => simp [lastReset?, other]
  | cons first events induction =>
      rw [List.cons_append, lastReset?, induction, lastReset?]
      cases lastReset? events with
      | some found => rfl
      | none => cases first.reset? <;> rfl

theorem lastChallenge?_append (size : Nat) (events : List EventInput)
    (event : EventInput) :
    lastChallenge? size (events ++ [event]) =
      (event.challenge? size).or (lastChallenge? size events) := by
  unfold lastChallenge?
  rw [List.filterMap_append, List.getLast?_append]
  cases stated : event.challenge? size with
  | none => simp [stated]
  | some cells => simp [stated]

theorem whole_of_lastChallenge? {size : Nat} {events : List EventInput}
    {cells : List UInt16} (last : lastChallenge? size events = some cells) :
    cells.length % size = 0 := by
  have member := List.mem_of_getLast? last
  obtain ⟨event, _, stated⟩ := List.mem_filterMap.mp member
  exact (EventInput.challenge?_eq_some_iff.mp stated).2

/-- Without such a challenge there are no cells, which split as well. -/
theorem whole_getD_lastChallenge? (size : Nat) (events : List EventInput) :
    ((lastChallenge? size events).getD []).length % size = 0 := by
  cases last : lastChallenge? size events with
  | none => exact Nat.zero_mod size
  | some cells => exact whole_of_lastChallenge? last

/-! ## What one event does to a context -/

namespace Context

/-- The context that events leave behind. -/
def after (context : Context) (events : List EventInput) : Context :=
  events.foldl (fun context event => (context.step event.1 event.2).2) context

theorem after_append_singleton (context : Context) (events : List EventInput)
    (event : EventInput) :
    context.after (events ++ [event]) =
      ((context.after events).step event.1 event.2).2 := by
  rw [after, List.foldl_append]
  rfl

/-- The context after a run is the one beside its last outcome. -/
theorem after_eq_getLast?_run (context : Context) (events : List EventInput) :
    context.after events =
      (((context.run events).getLast?).map (·.2)).getD context := by
  induction events generalizing context with
  | nil => rfl
  | cons event later induction =>
      obtain ⟨kind, payload⟩ := event
      change (context.step kind payload).2.after later = _
      rw [induction, run, List.getLast?_cons]
      cases (run (context.step kind payload).2 later).getLast? <;> rfl

section Step

variable {context : Context} {configuration : Configuration}
  {event : EventInput}

theorem configuration_of_configured
    (configured : context.state = .configured configuration) :
    context.configuration = .ok configuration := by
  rw [Context.configuration, configured]

theorem step_of_reset {reset : ControlReset}
    (stated : event.reset? = some reset) :
    (context.step event.1 event.2).2 =
      (context.reset reset.layout reset.uiType).1 := by
  obtain ⟨payload, rfl, parsed⟩ := EventInput.reset?_eq_some_iff.mp stated
  simp only [step, interpret, controlReset, parsed]
  rfl

theorem step_of_challenge {cells : List UInt16}
    (configured : context.state = .configured configuration)
    (stated : event.challenge? configuration.keySize = some cells) :
    (context.step event.1 event.2).2 =
      { context with
        challenge := (pieces configuration.keySize cells).toArray } := by
  obtain ⟨rfl, whole⟩ := EventInput.challenge?_eq_some_iff.mp stated
  have known := configuration_of_configured configured
  simp only [step, interpret, newChallenge, known, if_pos whole,
    storeChallenge, wholePieces_eq_pieces whole]
  rfl

/-- An event that is only told of leaves the context as it was. -/
theorem step_of_told {kind : EventKind} {payload : List UInt16}
    {outcome : Except PayloadError (List Remark)}
    (told : context.interpret kind payload =
      (outcome.map (·, context)).mapError (.malformed kind)) :
    (context.step kind payload).2 = context := by
  rw [step, told]
  cases outcome <;> rfl

/-- Every other event leaves the context as it was. -/
theorem step_of_other (noReset : event.reset? = none)
    (noChallenge : ∀ configuration,
      context.state = .configured configuration →
        event.challenge? configuration.keySize = none) :
    (context.step event.1 event.2).2 = context := by
  obtain ⟨kind, payload⟩ := event
  cases kind with
  | newSecret => exact step_of_told rfl
  | submit => exact step_of_told rfl
  | timeSync => exact step_of_told rfl
  | controlReset =>
      cases parsed : ControlReset.parse payload with
      | ok reset =>
          have stated : EventInput.reset? (.controlReset, payload) =
              some reset :=
            EventInput.reset?_eq_some_iff.mpr ⟨payload, rfl, parsed⟩
          rw [stated] at noReset
          cases noReset
      | error error =>
          simp only [step, interpret, Context.controlReset, parsed]
          rfl
  | newChallenge =>
      cases state : context.state with
      | configured configuration =>
          have known := configuration_of_configured state
          have ragged : payload.length % configuration.keySize ≠ 0 := by
            intro whole
            have stated := EventInput.challenge?_eq_some_iff.mpr
              ⟨rfl, whole⟩
            rw [noChallenge configuration state] at stated
            cases stated
          simp only [step, interpret, Context.newChallenge, known,
            if_neg ragged]
          rfl
      | unconfigured =>
          have unknown : context.configuration = .error .unconfigured := by
            rw [Context.configuration, state]
          simp only [step, interpret, Context.newChallenge, unknown]
          rfl
      | layoutOnly layout =>
          have unknown : context.configuration = .error .unconfigured := by
            rw [Context.configuration, state]
          simp only [step, interpret, Context.newChallenge, unknown]
          rfl
  | _ => rfl

end Step

end Context

/-- The vocabulary that a reset asks for, if it is registered and covers the
layout. -/
def Registry.covering? (registry : Registry) (reset : ControlReset) :
    Option Vocabulary :=
  (registry.get? reset.uiType).filter fun vocabulary =>
    vocabulary.covers reset.layout.keySize reset.layout.valSize

namespace Context

theorem stateAfterReset_of_refused {registry : Registry}
    {reset : ControlReset} (refused : registry.covering? reset = none) :
    (stateAfterReset registry reset.layout reset.uiType).1 =
      .layoutOnly reset.layout := by
  unfold Registry.covering? at refused
  unfold stateAfterReset
  cases found : registry.get? reset.uiType with
  | none => rfl
  | some vocabulary =>
      rw [found, Option.filter_eq_none_iff] at refused
      exact congrArg Prod.fst (if_neg (refused vocabulary rfl))

theorem stateAfterReset_of_covered {registry : Registry}
    {reset : ControlReset} {vocabulary : Vocabulary}
    (covered : registry.covering? reset = some vocabulary) :
    (stateAfterReset registry reset.layout reset.uiType).1 =
      .configured (.of reset.layout vocabulary) := by
  obtain ⟨found, covers⟩ := Option.filter_eq_some_iff.mp covered
  unfold stateAfterReset
  rw [found]
  exact congrArg Prod.fst (if_pos covers)

/-- What there is to remember of a history. -/
def remembered (registry : Registry) (events : List EventInput) : Context :=
  match lastReset? events with
  | none => fresh registry
  | some (reset, later) =>
      match registry.covering? reset with
      | none => ⟨registry, .layoutOnly reset.layout, #[]⟩
      | some vocabulary =>
          let keySize := reset.layout.keySize.toNat
          let cells := (lastChallenge? keySize later).getD []
          ⟨registry, .configured (.of reset.layout vocabulary),
            (pieces keySize cells).toArray⟩

section Remembered

variable {registry : Registry} {events later : List EventInput}
  {reset : ControlReset} {vocabulary : Vocabulary}

theorem remembered_of_noReset (noReset : lastReset? events = none) :
    remembered registry events = fresh registry := by
  rw [remembered, noReset]

theorem remembered_of_refused (last : lastReset? events = some (reset, later))
    (refused : registry.covering? reset = none) :
    remembered registry events =
      ⟨registry, .layoutOnly reset.layout, #[]⟩ := by
  simp only [remembered, last, refused]

theorem remembered_of_covered (last : lastReset? events = some (reset, later))
    (covered : registry.covering? reset = some vocabulary) :
    remembered registry events =
      ⟨registry, .configured (.of reset.layout vocabulary),
        (pieces reset.layout.keySize.toNat
          ((lastChallenge? reset.layout.keySize.toNat later).getD
            [])).toArray⟩ := by
  simp only [remembered, last, covered]

theorem registry_remembered (registry : Registry)
    (events : List EventInput) :
    (remembered registry events).registry = registry := by
  unfold remembered
  split
  · rfl
  · split <;> rfl

theorem reset_eq_remembered {event : EventInput} {context : Context}
    (stated : event.reset? = some reset) :
    (context.reset reset.layout reset.uiType).1 =
      remembered context.registry (events ++ [event]) := by
  have last := lastReset?_append_of_some stated events
  cases covering : context.registry.covering? reset with
  | none =>
      rw [remembered_of_refused last covering,
        ← stateAfterReset_of_refused covering]
      rfl
  | some vocabulary =>
      rw [remembered_of_covered last covering,
        ← stateAfterReset_of_covered covering]
      change _ = Context.mk _ _ (pieces _ []).toArray
      rw [pieces_nil]
      rfl

/-- An event that states no reset leaves what is remembered, or replaces the
challenge. -/
theorem step_remembered {event : EventInput} (other : event.reset? = none) :
    ((remembered registry events).step event.1 event.2).2 =
      remembered registry (events ++ [event]) := by
  have last := lastReset?_append_of_none other events
  cases found : lastReset? events with
  | none =>
      rw [found] at last
      rw [remembered_of_noReset found, remembered_of_noReset last]
      exact step_of_other other nofun
  | some reached =>
      obtain ⟨reset, later⟩ := reached
      rw [found] at last
      cases covering : registry.covering? reset with
      | none =>
          rw [remembered_of_refused found covering,
            remembered_of_refused last covering]
          exact step_of_other other nofun
      | some vocabulary =>
          rw [remembered_of_covered found covering,
            remembered_of_covered last covering, lastChallenge?_append]
          cases stated : event.challenge? reset.layout.keySize.toNat with
          | some cells =>
              let configuration : Configuration := .of reset.layout vocabulary
              have split : event.challenge? configuration.keySize =
                some cells := stated
              rw [step_of_challenge rfl split]
              rfl
          | none =>
              apply step_of_other other
              rintro _ ⟨⟩
              exact stated

end Remembered

/-- The context after events is what there is to remember of them. -/
theorem after_fresh (registry : Registry) (events : List EventInput) :
    (fresh registry).after events = remembered registry events := by
  induction events using List.reverseRecOn with
  | nil => rfl
  | append_singleton events event induction =>
      rw [after_append_singleton, induction]
      cases stated : event.reset? with
      | some reset =>
          rw [step_of_reset stated, reset_eq_remembered stated,
            registry_remembered]
      | none => exact step_remembered stated

section Reached

variable {registry : Registry} {events : List EventInput}
  {configuration : Configuration}

/-- A configuration comes from the last reset. -/
theorem reset_of_reached
    (reached : ((fresh registry).after events).state =
      .configured configuration) :
    ∃ reset later vocabulary, lastReset? events = some (reset, later) ∧
      registry.covering? reset = some vocabulary ∧
      configuration = .of reset.layout vocabulary := by
  rw [after_fresh] at reached
  cases last : lastReset? events with
  | none =>
      rw [remembered_of_noReset last] at reached
      cases reached
  | some found =>
      obtain ⟨reset, later⟩ := found
      cases covering : registry.covering? reset with
      | none =>
          rw [remembered_of_refused last covering] at reached
          cases reached
      | some vocabulary =>
          rw [remembered_of_covered last covering] at reached
          cases reached
          exact ⟨reset, later, vocabulary, rfl, covering, rfl⟩

theorem length_of_mem_challenge
    (reached : ((fresh registry).after events).state =
      .configured configuration) :
    ∀ tuple ∈ ((fresh registry).after events).challenge,
      tuple.length = configuration.keySize := by
  obtain ⟨reset, later, vocabulary, last, covering, rfl⟩ :=
    reset_of_reached reached
  rw [after_fresh, remembered_of_covered last covering]
  intro tuple member
  exact length_of_mem_pieces (whole_getD_lastChallenge? _ later) tuple
    (List.mem_toArray.mp member)

end Reached

/-- The context of a fresh interpreter is decided by the last reset it could
read and the last challenge after it that splits into tuples.  Without a reset
it is unconfigured; with one that no vocabulary covers it knows the layout
alone; otherwise it is configured, and its tuples are the challenge's. -/
theorem context_from_history (registry : Registry)
    (events : List EventInput) :
    let context := (fresh registry).after events
    match lastReset? events with
    | none => context.state = .unconfigured ∧ context.challenge = #[]
    | some (reset, later) =>
        let layout := reset.layout
        match (registry.get? reset.uiType).filter fun vocabulary =>
            vocabulary.covers layout.keySize layout.valSize with
        | none => context.state = .layoutOnly layout ∧ context.challenge = #[]
        | some vocabulary =>
            let configuration : Configuration := .of layout vocabulary
            context.state = .configured configuration ∧
            configuration.cellWidth =
              vocabulary.cellWidth layout.keySize layout.valSize ∧
            (match lastChallenge? layout.keySize.toNat later with
              | none => context.challenge = #[]
              | some cells =>
                  context.challenge.toList =
                    pieces layout.keySize.toNat cells) ∧
            ∀ tuple ∈ context.challenge,
              tuple.length = layout.keySize.toNat := by
  intro context
  have same : context = remembered registry events :=
    after_fresh registry events
  split
  · next noReset =>
      rw [same, remembered_of_noReset noReset]
      exact ⟨rfl, rfl⟩
  · next reset later last =>
      dsimp only
      split
      · next refused =>
          rw [same, remembered_of_refused last refused]
          exact ⟨rfl, rfl⟩
      · next vocabulary covered =>
          rw [same, remembered_of_covered last covered]
          refine ⟨rfl, rfl, ?challenge, ?tuples⟩
          case challenge =>
            cases lastChallenge? reset.layout.keySize.toNat later with
            | none => exact congrArg List.toArray (pieces_nil _)
            | some cells => rfl
          case tuples =>
            intro tuple member
            exact length_of_mem_pieces (whole_getD_lastChallenge? _ later)
              tuple (List.mem_toArray.mp member)

end Context

end SessionCapture
