import SessionCapture.Proofs.History

/-!
# Interpreting with a context kept in place

An interpreter may keep its context in place and change it while it works on an
event.  If it then fails, whatever it has changed by then stays changed.  The
two events that change a context do so only after everything that can fail, so
for every event this comes to the same as `Context.step`: a failing event leaves
the context as it found it.
-/

namespace SessionCapture

/-- Steps on a context kept in place.  What they have changed stays changed if
they fail. -/
abbrev InPlace (ε : Type) : Type → Type :=
  ExceptT ε (StateM Context)

namespace Context

theorem step_fst (context : Context) (kind : EventKind)
    (payload : List UInt16) :
    (context.step kind payload).1 =
      (context.interpret kind payload).map (·.1) := by
  rw [step]
  cases context.interpret kind payload <;> rfl

/-- Only resets and challenges can change a context. -/
theorem step_of_stateless {kind : EventKind} (context : Context)
    (noReset : kind ≠ .controlReset) (noChallenge : kind ≠ .newChallenge)
    (payload : List UInt16) :
    (context.step kind payload).2 = context := by
  have unreset : EventInput.reset? (kind, payload) = none := by
    cases kind with
    | controlReset => exact absurd rfl noReset
    | _ => rfl
  have unchallenged (size : Nat) :
      EventInput.challenge? size (kind, payload) = none := by
    cases kind with
    | newChallenge => exact absurd rfl noChallenge
    | _ => rfl
  apply step_of_other unreset
  intro configuration _
  exact unchallenged configuration.keySize

end Context

namespace InPlace

variable {ε α : Type}

/-- How steps end, and the context they leave. -/
def outcome (steps : InPlace ε α) (context : Context) :
    Except ε α × Context :=
  (steps.run.run context).run

/-- An answer that is read off the context. -/
def look (answer : Context → Except ε α) : InPlace ε α := do
  let context ← get
  match answer context with
  | .ok value => return value
  | .error error => throw error

def enter (state : ContextState) : InPlace ε Unit :=
  modify fun context => { context with state }

/-- The challenge is forgotten before the vocabulary is looked up. -/
def reset (layout : Layout) (uiType : String) :
    InPlace ε (Option Advisory) := do
  modify fun context => { context with challenge := #[] }
  match (← get).registry.get? uiType with
  | none =>
      enter (.layoutOnly layout)
      return some (.unknownUiType uiType)
  | some vocabulary =>
      if vocabulary.covers layout.keySize layout.valSize then
        enter (.configured (.of layout vocabulary))
        return none
      else
        enter (.layoutOnly layout)
        return some
          (.incompatibleVocabulary uiType layout.keySize layout.valSize)

def controlReset (payload : List UInt16) :
    InPlace PayloadError (List Remark) := do
  let found ← look fun _ => ControlReset.parse payload
  let advisory ← reset found.layout found.uiType
  return .text "System reset with controller parameters:" ::
    found.report.map .text ++ advisory.toList.map .note

def newChallenge (cells : List UInt16) :
    InPlace PayloadError (List Remark) := do
  let heading := Remark.text "Valid challenge generated:"
  match (← get).configuration with
  | .error advisory => return [heading, .note advisory]
  | .ok configuration =>
      if cells.length % configuration.keySize ≠ 0 then
        throw (.ragged cells.length configuration.layout.keySize)
      let drawn := configuration.render cells configuration.layout.gridX.toNat
      modify fun context =>
        context.storeChallenge cells configuration.keySize
      return heading :: gridRemarks drawn

/-- All other events only look at the context. -/
def interpret (kind : EventKind) (payload : List UInt16) :
    InPlace InterpretError (List Remark) :=
  match kind with
  | .newChallenge => (newChallenge payload).adapt (.malformed kind)
  | .controlReset => (controlReset payload).adapt (.malformed kind)
  | _ => look fun context => (context.interpret kind payload).map (·.1)

/-- What becomes of events one after another, and the context after them. -/
def answers (events : List EventInput) (context : Context) :
    List (Except InterpretError (List Remark)) × Context :=
  ((events.mapM fun event => (interpret event.1 event.2).run).run context).run

theorem answers_cons (event : EventInput) (later : List EventInput)
    (context : Context) :
    answers (event :: later) context =
      ((outcome (interpret event.1 event.2) context).1 ::
          (answers later (outcome (interpret event.1 event.2) context).2).1,
        (answers later (outcome (interpret event.1 event.2) context).2).2) := by
  rw [answers, List.mapM_cons]
  rfl

/-! ## What the steps come to -/

section Outcomes

variable {β ε' : Type}

theorem outcome_bind (steps : InPlace ε α) (next : α → InPlace ε β)
    (context : Context) :
    outcome (steps >>= next) context =
      match outcome steps context with
      | (.ok value, left) => outcome (next value) left
      | (.error error, left) => (.error error, left) := by
  simp only [outcome, ExceptT.run_bind, StateT.run_bind, Id.run_bind]
  cases (steps.run.run context).run with
  | mk result left => cases result <;> rfl

theorem outcome_get (context : Context) :
    outcome (get : InPlace ε Context) context = (.ok context, context) := rfl

theorem outcome_modify (change : Context → Context)
    (context : Context) :
    outcome (modify change : InPlace ε Unit) context =
      (.ok (), change context) := rfl

theorem outcome_adapt (change : ε → ε') (steps : InPlace ε α)
    (context : Context) :
    outcome (steps.adapt change) context =
      ((outcome steps context).1.mapError change,
        (outcome steps context).2) := rfl

theorem outcome_look (answer : Context → Except ε α)
    (context : Context) :
    outcome (look answer) context = (answer context, context) := by
  simp only [look, outcome_bind, outcome_get]
  cases answer context <;> rfl

/-- A result and the context it leaves: the next one, or if it is a failure the
one there was. -/
def settle (context : Context) :
    Except ε (α × Context) → Except ε α × Context
  | .ok (value, next) => (.ok value, next)
  | .error error => (.error error, context)

theorem settle_mapError (context : Context) (change : ε → ε')
    (result : Except ε (α × Context)) :
    ((settle context result).1.mapError change, (settle context result).2) =
      settle context (result.mapError change) := by
  cases result <;> rfl

theorem step_eq_settle (kind : EventKind) (payload : List UInt16)
    (context : Context) :
    context.step kind payload =
      settle context (context.interpret kind payload) := by
  rw [Context.step]
  cases context.interpret kind payload <;> rfl

theorem outcome_reset (layout : Layout) (uiType : String)
    (context : Context) :
    outcome (reset layout uiType : InPlace ε (Option Advisory)) context =
      (.ok (context.reset layout uiType).2,
        (context.reset layout uiType).1) := by
  simp only [reset, outcome_bind, outcome_modify, outcome_get, Context.reset,
    Context.stateAfterReset]
  cases context.registry.get? uiType with
  | none => rfl
  | some vocabulary =>
      by_cases covers : vocabulary.covers layout.keySize layout.valSize
      · simp only [if_pos covers]
        rfl
      · simp only [if_neg covers]
        rfl

theorem outcome_controlReset (payload : List UInt16) (context : Context) :
    outcome (controlReset payload) context =
      settle context (context.controlReset payload) := by
  simp only [controlReset, outcome_bind, outcome_look, Context.controlReset]
  cases ControlReset.parse payload with
  | error error => rfl
  | ok found =>
      simp only [outcome_reset]
      rfl

theorem outcome_newChallenge (cells : List UInt16) (context : Context) :
    outcome (newChallenge cells) context =
      settle context (context.newChallenge cells) := by
  simp only [newChallenge, outcome_bind, outcome_get, Context.newChallenge]
  cases context.configuration with
  | error advisory => rfl
  | ok configuration =>
      by_cases whole : cells.length % configuration.keySize = 0
      · simp only [if_pos whole]
        rw [if_neg (not_not_intro whole)]
        rfl
      · simp only [if_neg whole]
        rw [if_pos whole]
        rfl

theorem outcome_interpret_of_stateless {kind : EventKind}
    (noReset : kind ≠ .controlReset) (noChallenge : kind ≠ .newChallenge)
    (payload : List UInt16) (context : Context) :
    outcome (interpret kind payload) context = context.step kind payload := by
  have looks : interpret kind payload =
      look fun context => (context.interpret kind payload).map (·.1) := by
    cases kind with
    | controlReset => exact absurd rfl noReset
    | newChallenge => exact absurd rfl noChallenge
    | _ => rfl
  have kept : (context.step kind payload).2 = context :=
    context.step_of_stateless noReset noChallenge payload
  rw [looks, outcome_look]
  apply Prod.ext
  · exact (context.step_fst kind payload).symm
  · exact kept.symm

/-- Interpreting in place is interpreting: in particular, an event that fails
leaves the context as it was. -/
theorem outcome_interpret (kind : EventKind) (payload : List UInt16)
    (context : Context) :
    outcome (interpret kind payload) context = context.step kind payload := by
  cases kind with
  | newChallenge =>
      rw [step_eq_settle, interpret, outcome_adapt, outcome_newChallenge]
      exact settle_mapError context _ (context.newChallenge payload)
  | controlReset =>
      rw [step_eq_settle, interpret, outcome_adapt, outcome_controlReset]
      exact settle_mapError context _ (context.controlReset payload)
  | _ => apply outcome_interpret_of_stateless <;> exact nofun

/-- Answering events in place is running them. -/
theorem answers_eq_run (events : List EventInput) (context : Context) :
    answers events context =
      ((context.run events).map (·.1), context.after events) := by
  induction events generalizing context with
  | nil => rfl
  | cons event later induction =>
      obtain ⟨kind, payload⟩ := event
      rw [answers_cons, outcome_interpret, induction]
      rfl

end Outcomes

end InPlace

end SessionCapture
