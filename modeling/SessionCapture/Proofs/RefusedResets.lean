import SessionCapture.Proofs.History

/-!
# Resets that are refused

A reset is refused if its vocabulary is not registered or does not cover its
layout.  It takes back everything that was established before it: no later event
can tell the interpreter from a new one, although the layout of the refused
reset is kept.  Until a reset is accepted, challenges, secrets and responses are
told that the interpreter is not configured.
-/

namespace SessionCapture

namespace Context

variable {context left right : Context}

/-! ## Answers without a configuration -/

theorem configuration_of_unconfigured
    (unconfigured : context.isConfigured = false) :
    context.configuration = .error .unconfigured := by
  rw [configuration]
  rw [isConfigured] at unconfigured
  cases state : context.state with
  | configured configuration =>
      rw [state] at unconfigured
      cases unconfigured
  | _ => rfl

theorem step_newChallenge_of_unconfigured
    (unconfigured : context.isConfigured = false) (cells : List UInt16) :
    context.step .newChallenge cells =
      (.ok [.text "Valid challenge generated:", .note .unconfigured],
        context) := by
  have unknown := configuration_of_unconfigured unconfigured
  simp only [step, interpret, newChallenge, unknown]
  rfl

theorem newSecret_of_unconfigured
    (unconfigured : context.isConfigured = false) (flag : UInt16)
    (entries : List UInt16) :
    context.newSecret (flag :: entries) =
      .ok [.text (if flag = 1 then "Valid secret generated:"
          else "Invalid secret generated:"), .note .unconfigured] := by
  have unknown := configuration_of_unconfigured unconfigured
  have undrawn : context.secretGrid entries = .error .unconfigured := by
    rw [secretGrid, unknown]
    rfl
  by_cases valid : flag = 1
  · rw [newSecret, undrawn, valid]
    decide
  · have invalid : holds flag = false := decide_eq_false valid
    rw [newSecret, undrawn, invalid, if_neg valid]
    decide

theorem submit_of_unconfigured
    (unconfigured : context.isConfigured = false) (flag : UInt16)
    (digits : List UInt16) :
    context.submit (flag :: digits) =
      .ok [.text (if flag = 1 then "Correct response submitted:"
          else "Incorrect response submitted:"), .note .unconfigured] := by
  have unknown := configuration_of_unconfigured unconfigured
  have undrawn : context.responseGrid digits = .error .unconfigured := by
    rw [responseGrid, unknown]
    rfl
  by_cases correct : flag = 1
  · rw [submit, undrawn, correct]
    decide
  · have incorrect : holds flag = false := decide_eq_false correct
    rw [submit, undrawn, incorrect, if_neg correct]
    decide

/-- The outcome of an event that is only told of. -/
theorem outcome_of_told {kind : EventKind} {payload : List UInt16}
    {outcome : Except PayloadError (List Remark)}
    (told : context.interpret kind payload =
      (outcome.map (·, context)).mapError (.malformed kind)) :
    (context.step kind payload).1 = outcome.mapError (.malformed kind) := by
  rw [step, told]
  cases outcome <;> rfl

theorem outcome_newSecret (payload : List UInt16) :
    (context.step .newSecret payload).1 =
      (context.newSecret payload).mapError (.malformed .newSecret) :=
  outcome_of_told rfl

theorem outcome_submit (payload : List UInt16) :
    (context.step .submit payload).1 =
      (context.submit payload).mapError (.malformed .submit) :=
  outcome_of_told rfl

/-! ## Contexts that no later event can tell apart -/

/-- They are the same, or they know the same vocabularies and neither of them is
configured. -/
def Alike (left right : Context) : Prop :=
  left = right ∨
    left.registry = right.registry ∧ left.isConfigured = false ∧
      right.isConfigured = false

/-- Without a configuration an outcome depends on the registry alone. -/
theorem outcome_of_unconfigured (registry : left.registry = right.registry)
    (leftUnconfigured : left.isConfigured = false)
    (rightUnconfigured : right.isConfigured = false) (kind : EventKind)
    (payload : List UInt16) :
    (left.step kind payload).1 = (right.step kind payload).1 := by
  cases kind with
  | newSecret =>
      have same : left.newSecret payload = right.newSecret payload := by
        cases payload with
        | nil => rfl
        | cons flag entries =>
            rw [newSecret_of_unconfigured leftUnconfigured,
              newSecret_of_unconfigured rightUnconfigured]
      rw [outcome_newSecret, outcome_newSecret, same]
  | newChallenge =>
      rw [step_newChallenge_of_unconfigured leftUnconfigured,
        step_newChallenge_of_unconfigured rightUnconfigured]
  | submit =>
      have same : left.submit payload = right.submit payload := by
        cases payload with
        | nil => rfl
        | cons flag digits =>
            rw [submit_of_unconfigured leftUnconfigured,
              submit_of_unconfigured rightUnconfigured]
      rw [outcome_submit, outcome_submit, same]
  | timeSync =>
      exact (outcome_of_told rfl).trans (outcome_of_told rfl).symm
  | controlReset =>
      simp only [step, interpret, controlReset]
      cases ControlReset.parse payload with
      | error error => rfl
      | ok reset =>
          change Except.ok (_ ++ List.map _ (Option.toList
            (stateAfterReset left.registry _ _).2)) = _
          rw [registry]
          rfl
  | _ => rfl

/-- Without a configuration an event that states no reset changes nothing. -/
theorem step_of_unconfigured (unconfigured : context.isConfigured = false)
    {event : EventInput} (other : event.reset? = none) :
    (context.step event.1 event.2).2 = context := by
  apply step_of_other other
  intro configuration configured
  rw [isConfigured, configured] at unconfigured
  cases unconfigured

theorem Alike.step (alike : Alike left right) (event : EventInput) :
    (left.step event.1 event.2).1 = (right.step event.1 event.2).1 ∧
      Alike (left.step event.1 event.2).2 (right.step event.1 event.2).2 := by
  rcases alike with rfl | ⟨registry, leftUnconfigured, rightUnconfigured⟩
  · exact ⟨rfl, .inl rfl⟩
  · refine ⟨outcome_of_unconfigured registry leftUnconfigured
      rightUnconfigured event.1 event.2, ?_⟩
    cases stated : event.reset? with
    | some reset =>
        left
        rw [step_of_reset stated, step_of_reset stated, Context.reset,
          Context.reset, registry]
    | none =>
        right
        rw [step_of_unconfigured leftUnconfigured stated,
          step_of_unconfigured rightUnconfigured stated]
        exact ⟨registry, leftUnconfigured, rightUnconfigured⟩

theorem Alike.run (alike : Alike left right) (events : List EventInput) :
    (left.run events).map (·.1) = (right.run events).map (·.1) := by
  induction events generalizing left right with
  | nil => rfl
  | cons event later induction =>
      obtain ⟨outcome, next⟩ := alike.step event
      have rest := induction next
      change (left.step event.1 event.2).1 :: _ =
        (right.step event.1 event.2).1 :: _
      rw [outcome]
      exact congrArg (_ :: ·) rest

/-! ## After a refused reset -/

theorem registry_after (registry : Registry) (events : List EventInput) :
    ((fresh registry).after events).registry = registry := by
  rw [after_fresh]
  exact registry_remembered registry events

theorem isConfigured_of_layoutOnly {layout : Layout}
    (state : context.state = .layoutOnly layout) :
    context.isConfigured = false := by
  rw [isConfigured, state]

theorem isConfigured_of_refused {event : EventInput} {reset : ControlReset}
    (stated : event.reset? = some reset)
    (refused : context.registry.covering? reset = none) :
    (context.step event.1 event.2).2.isConfigured = false ∧
      (context.step event.1 event.2).2.registry = context.registry := by
  rw [step_of_reset stated]
  refine ⟨?_, rfl⟩
  exact isConfigured_of_layoutOnly (stateAfterReset_of_refused refused)

/-- No event but an accepted reset configures a context. -/
theorem isConfigured_after {registry : Registry}
    (known : context.registry = registry)
    (unconfigured : context.isConfigured = false) {events : List EventInput}
    (refused : ∀ event ∈ events, ∀ reset, event.reset? = some reset →
      registry.covering? reset = none) :
    (context.after events).isConfigured = false := by
  induction events generalizing context with
  | nil => exact unconfigured
  | cons event later induction =>
      change ((context.step event.1 event.2).2.after later).isConfigured =
        false
      obtain ⟨here, rest⟩ := List.forall_mem_cons.mp refused
      cases stated : event.reset? with
      | some reset =>
          have turned := here reset stated
          rw [← known] at turned
          obtain ⟨next, same⟩ := isConfigured_of_refused stated turned
          exact induction (same.trans known) next rest
      | none =>
          rw [step_of_unconfigured unconfigured stated]
          exact induction known unconfigured rest

/-- After a refused reset every later event has the outcome that it has with a
new interpreter.  Until a reset is accepted, challenges, secrets and responses
have a heading and the note that the interpreter is not configured. -/
theorem refused_reset_starts_anew {registry : Registry}
    {payload : List UInt16} {reset : ControlReset}
    (history : List EventInput)
    (parsed : ControlReset.parse payload = .ok reset)
    (refused : registry.covering? reset = none) :
    let context := (fresh registry).after
      (history ++ [(.controlReset, payload)])
    (∀ later, (context.run later).map (·.1) =
      ((fresh registry).run later).map (·.1)) ∧
    ∀ later : List EventInput,
      (∀ event ∈ later, ∀ next, event.reset? = some next →
        registry.covering? next = none) →
      let reached := context.after later
      (∀ cells, (reached.step .newChallenge cells).1 =
        .ok [.text "Valid challenge generated:", .note .unconfigured]) ∧
      (∀ flag entries, (reached.step .newSecret (flag :: entries)).1 =
        .ok [.text (if flag = 1 then "Valid secret generated:"
          else "Invalid secret generated:"), .note .unconfigured]) ∧
      ∀ flag digits, (reached.step .submit (flag :: digits)).1 =
        .ok [.text (if flag = 1 then "Correct response submitted:"
          else "Incorrect response submitted:"), .note .unconfigured] := by
  intro context
  have stated : EventInput.reset? (.controlReset, payload) = some reset :=
    EventInput.reset?_eq_some_iff.mpr ⟨payload, rfl, parsed⟩
  have before : ((fresh registry).after history).registry = registry :=
    registry_after registry history
  have turned : ((fresh registry).after history).registry.covering? reset =
      none := by
    rw [before]
    exact refused
  obtain ⟨unconfigured, same⟩ := isConfigured_of_refused stated turned
  rw [← after_append_singleton] at unconfigured same
  have known : context.registry = registry := same.trans before
  constructor
  · intro later
    have alike : context.Alike (fresh registry) :=
      .inr ⟨known, unconfigured, rfl⟩
    exact alike.run later
  · intro later none reached
    have still : reached.isConfigured = false :=
      isConfigured_after known unconfigured none
    refine ⟨?challenge, ?secret, ?response⟩
    case challenge =>
      intro cells
      rw [step_newChallenge_of_unconfigured still]
    case secret =>
      intro flag entries
      rw [outcome_newSecret, newSecret_of_unconfigured still]
      rfl
    case response =>
      intro flag digits
      rw [outcome_submit, submit_of_unconfigured still]
      rfl

/-- A reset to so many of the attributes of drawn figures. -/
def figures (keySize : UInt16) : ControlReset :=
  ⟨⟨keySize, 9, 1⟩, "grid", "random", ControlReset.defaultGeometry⟩

/-- Figures have three attributes, so a reset to four is refused, and the
challenge before it is forgotten. -/
theorem four_attributes_start_anew :
    let history : List EventInput :=
      [(.controlReset, (figures 3).payload), (.newChallenge, [2, 4, 6])]
    let context := (fresh .builtin).after
      (history ++ [(.controlReset, (figures 4).payload)])
    let later : List EventInput :=
      [(.submit, [1, 0]), (.controlReset, (figures 3).payload),
        (.newSecret, [1, 4])]
    ControlReset.parse (figures 4).payload = .ok (figures 4) ∧
    Registry.builtin.covering? (figures 4) = none ∧
    (context.run later).map (·.1) =
      ((fresh .builtin).run later).map (·.1) ∧
    (context.step .submit [1, 0]).1 =
      .ok [.text "Correct response submitted:", .note .unconfigured] := by
  intro history context later
  have parsed : ControlReset.parse (figures 4).payload = .ok (figures 4) := by
    decide
  have refused : Registry.builtin.covering? (figures 4) = none := by
    decide
  obtain ⟨alike, told⟩ := refused_reset_starts_anew history parsed refused
  obtain ⟨_, _, response⟩ := told [] nofun
  exact ⟨parsed, refused, alike later, response 1 [0]⟩

end Context

end SessionCapture
