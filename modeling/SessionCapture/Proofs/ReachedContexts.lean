import SessionCapture.Proofs.Configurations
import SessionCapture.Proofs.LongerInput

/-!
# Contexts on the way of a decode

Every item of a decode is presented in a context that events lead to from a
fresh one.  What is known of such contexts is collected here, and what holds of
the lines of each item in any of them holds of the lines of all items.
-/

namespace SessionCapture

namespace Context

theorem state_of_configuration {context : Context}
    {configuration : Configuration}
    (known : context.configuration = .ok configuration) :
    context.state = .configured configuration := by
  unfold Context.configuration at known
  split at known
  · next state =>
      cases known
      exact state
  · cases known

/-- Events lead to the context from a fresh one. -/
def Reached (registry : Registry) (context : Context) : Prop :=
  ∃ events, (fresh registry).after events = context

namespace Reached

variable {registry : Registry} {context : Context}
  {configuration : Configuration}

theorem fresh (registry : Registry) :
    (Context.fresh registry).Reached registry :=
  ⟨[], rfl⟩

theorem step (reached : context.Reached registry) (kind : EventKind)
    (payload : List UInt16) :
    (context.step kind payload).2.Reached registry := by
  obtain ⟨events, rfl⟩ := reached
  refine ⟨events ++ [(kind, payload)], ?_⟩
  exact after_append_singleton _ events (kind, payload)

theorem ofItem (reached : context.Reached registry) (options : Options)
    (item : Item) :
    (Presentation.ofItem options context item).2.Reached registry := by
  cases item with
  | event event =>
      change (Presentation.ofEvent options context event).2.Reached registry
      unfold Presentation.ofEvent
      split
      · exact reached.step event.header.kind event.payload
      · exact reached
  | _ => exact reached

theorem usable (reached : context.Reached registry)
    (configured : context.state = .configured configuration) :
    configuration.Usable := by
  obtain ⟨events, rfl⟩ := reached
  exact usable_of_reached configured

theorem vocabulary_mem (reached : context.Reached registry)
    (configured : context.state = .configured configuration) :
    configuration.vocabulary ∈ registry.vocabularies := by
  obtain ⟨events, rfl⟩ := reached
  obtain ⟨reset, _, vocabulary, _, covering, rfl⟩ :=
    reset_of_reached configured
  exact List.mem_of_find?_eq_some (Option.filter_eq_some_iff.mp covering).1

end Reached

end Context

namespace Presentation

variable {options : Options} {registry : Registry} {context : Context}
  {items : List Item}

/-- What is shown after a first presentation is all of the second or nothing of
it. -/
theorem lines_followedBy (first rest : Presentation) :
    (first.followedBy rest).lines =
      first.lines ++ if first.fatal = none then rest.lines else [] := by
  unfold followedBy
  cases found : first.fatal <;> simp

/-- An event's lines come first, and what it means after them. -/
theorem lines_ofEvent (options : Options) (context : Context)
    (event : Event) :
    (ofEvent options context event).1.lines =
      event.lines ++
        if options.interpretEvents then
          (ofOutcome event.header
            (context.step event.header.kind event.payload).1).lines
        else [] := by
  unfold ofEvent
  split
  · rfl
  · exact (List.append_nil _).symm

theorem forall_mem_lines {property : Line → Prop}
    (each : ∀ context, context.Reached registry → ∀ item ∈ items,
      ∀ line ∈ (ofItem options context item).1.lines, property line)
    (reached : context.Reached registry) :
    ∀ line ∈ (ofItems options context items).lines, property line := by
  induction items generalizing context with
  | nil => simp
  | cons item items induction =>
      have first := each context reached item List.mem_cons_self
      have later := induction
        (fun context reached other member =>
          each context reached other (List.mem_cons_of_mem item member))
        (reached.ofItem options item)
      rw [ofItems_cons, lines_followedBy]
      intro line member
      rcases List.mem_append.mp member with here | after
      · exact first line here
      · split at after
        · exact later line after
        · cases after

end Presentation

/-- What holds of the lines of every item, in any context on the way, and of
closing lines holds of all lines of a decode. -/
theorem forall_mem_lines_decode {property : Line → Prop} {options : Options}
    (each : ∀ context, context.Reached .builtin → ∀ item,
      ∀ line ∈ (Presentation.ofItem options context item).1.lines,
        property line)
    (closing : ∀ result, ∀ line ∈ Transcript.closing result, property line)
    (format : Format) (input : List UInt8) :
    ∀ line ∈ (decode format options input).lines, property line := by
  rw [lines_decode]
  intro line member
  rcases List.mem_append.mp member with shown | last
  · refine Presentation.forall_mem_lines ?_ (.fresh .builtin) line shown
    intro context reached item _
    exact each context reached item
  · exact closing _ line last

end SessionCapture
