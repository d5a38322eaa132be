import SessionCapture.Container.Item
import SessionCapture.Fatal

/-!
# Walking a container

A trace is the items met up to where a computation came, together with its
result.  What was met before a fatal condition stays in the trace.  A walk reads
a span from the front, leaving a trace.
-/

namespace SessionCapture

structure Trace (α : Type) where
  items : List Item
  result : Except Fatal α

namespace Trace

protected def pure {α : Type} (value : α) : Trace α :=
  ⟨[], .ok value⟩

protected def bind {α β : Type} (trace : Trace α) (next : α → Trace β) :
    Trace β :=
  match trace.result with
  | .ok value =>
      let rest := next value
      ⟨trace.items ++ rest.items, rest.result⟩
  | .error fatal => ⟨trace.items, .error fatal⟩

instance : Monad Trace where
  pure := Trace.pure
  bind := Trace.bind

instance : LawfulMonad Trace := LawfulMonad.mk' Trace
  (by
    intro α trace
    obtain ⟨items, result⟩ := trace
    cases result <;> simp [Functor.map, Trace.bind, Trace.pure])
  (by
    intro α β value next
    simp [Bind.bind, Pure.pure, Trace.bind, Trace.pure])
  (by
    intro α β γ trace next last
    obtain ⟨items, result⟩ := trace
    cases result with
    | error fatal => rfl
    | ok value =>
        simp only [Bind.bind, Trace.bind]
        cases (next value).result <;> simp)

end Trace

def Walk (α : Type) : Type :=
  StateT Span Trace α

namespace Walk

instance : Monad Walk :=
  inferInstanceAs (Monad (StateT Span Trace))

instance : LawfulMonad Walk :=
  inferInstanceAs (LawfulMonad (StateT Span Trace))

def run {α : Type} (walk : Walk α) (span : Span) : Trace (α × Span) :=
  StateT.run walk span

def emit (items : List Item) : Walk Unit :=
  fun span => ⟨items, .ok ((), span)⟩

def note (note : Note) : Walk Unit :=
  emit [.note note]

def stop {α : Type} (fatal : Fatal) : Walk α :=
  fun _ => ⟨[], .error fatal⟩

/-- Looks at what is unread without consuming it. -/
def peek {α : Type} (look : Span → α) : Walk α :=
  fun span => ⟨[], .ok (look span, span)⟩

def read {α : Type} (reader : Span → Except Truncation (α × Span)) : Walk α :=
  fun span =>
    match reader span with
    | .ok (value, left) => ⟨[], .ok (value, left)⟩
    | .error truncation => ⟨[], .error (.truncated truncation)⟩

def word : Walk UInt16 :=
  read Span.word

def dword : Walk UInt32 :=
  read Span.dword

def skip (count : Nat) : Walk Unit :=
  read fun span => (span.skip count).map fun left => ((), left)

private def timesOnto (step : Nat → Walk Unit) :
    Nat → Nat → Span → List Item → Trace (Unit × Span)
  | 0, _, span, met => ⟨met.reverse, .ok ((), span)⟩
  | count + 1, index, span, met =>
      let first := (step index).run span
      match first.result with
      | .ok ((), left) =>
          timesOnto step count (index + 1) left (first.items.reverse ++ met)
      | .error fatal => ⟨met.reverse ++ first.items, .error fatal⟩

/-- Takes `count` steps, the first of which is given the number `index`. -/
def timesFrom (index count : Nat) (step : Nat → Walk Unit) : Walk Unit :=
  fun span => timesOnto step count index span []

def times (count : Nat) (step : Nat → Walk Unit) : Walk Unit :=
  timesFrom 0 count step

private theorem timesOnto_eq (step : Nat → Walk Unit) (count index : Nat)
    (span : Span) (met : List Item) :
    timesOnto step count index span met =
      ⟨met.reverse ++ (timesOnto step count index span []).items,
        (timesOnto step count index span []).result⟩ := by
  induction count generalizing index span met with
  | zero => simp [timesOnto]
  | succ count induction =>
      simp only [timesOnto]
      split
      · next left _ =>
          rw [induction _ left (_ ++ met), induction _ left (_ ++ [])]
          simp
      · simp

@[simp] theorem timesFrom_zero (index : Nat) (step : Nat → Walk Unit) :
    timesFrom index 0 step = pure () := rfl

theorem timesFrom_succ (index count : Nat) (step : Nat → Walk Unit) :
    timesFrom index (count + 1) step =
      (do step index; timesFrom (index + 1) count step) := by
  funext span
  change timesOnto step (count + 1) index span [] =
    Trace.bind ((step index).run span)
      (fun result => timesOnto step count (index + 1) result.2 [])
  simp only [timesOnto, Trace.bind]
  cases ((step index).run span).result with
  | ok result =>
      simp only
      rw [timesOnto_eq]
      simp
  | error fatal => rfl

end Walk

end SessionCapture
