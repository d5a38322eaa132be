import SessionCapture.Output.Sink
import SessionCapture.Proofs.SectionCounts

/-!
# Decoding while handing lines over

A decode can hand each line to its receiver as soon as it has read what the line
tells.  If the receiver fails, the decode is given up in the middle of whatever
it was doing, and if a fatal condition stops it, it still hands over the line
that says so.  For every receiver this comes to the same as collecting a
transcript first and handing that over.
-/

namespace SessionCapture

/-- Steps of such a decode.  A step goes on with what is unread and the context,
or it is stopped; what was counted stays.  The receiver acts in `m`. -/
def Live (m : Type → Type) (α : Type) : Type :=
  Span → Context → Counts → m (Except Fatal (α × Span × Context) × Counts)

namespace Live

section Steps

variable {m : Type → Type} [Monad m] {α : Type}

instance : Monad (Live m) where
  pure value := fun span context counts =>
    pure (.ok (value, span, context), counts)
  bind live next := fun span context counts => do
    let (outcome, counts) ← live span context counts
    match outcome with
    | .ok (value, left, context) => next value left context counts
    | .error fatal => return (.error fatal, counts)

def stop (fatal : Fatal) : Live m α :=
  fun _ _ counts => pure (.error fatal, counts)

def peek (look : Span → α) : Live m α :=
  fun span context counts => pure (.ok (look span, span, context), counts)

def read (reader : Span → Except Truncation (α × Span)) : Live m α :=
  fun span context counts =>
    match reader span with
    | .ok (value, left) => pure (.ok (value, left, context), counts)
    | .error truncation => pure (.error (.truncated truncation), counts)

def word : Live m UInt16 :=
  read Span.word

def dword : Live m UInt32 :=
  read Span.dword

def skip (count : Nat) : Live m Unit :=
  read fun span => (span.skip count).map fun left => ((), left)

/-- Takes `count` steps, the first of which is given the number `index`. -/
def timesFrom (step : Nat → Live m Unit) : Nat → Nat → Live m Unit
  | _, 0 => return ()
  | index, count + 1 => do
      step index
      timesFrom step (index + 1) count

variable (emit : Line → m Unit) (options : Options)

/-- Hands over the lines of an item, one by one. -/
def present (item : Item) : Live m Unit :=
  fun span context counts => do
    let (shown, next) := Presentation.ofItem options context item
    shown.lines.forM emit
    match shown.fatal with
    | some fatal => return (.error fatal, counts + shown.counts)
    | none => return (.ok ((), span, next), counts + shown.counts)

def note (found : Note) : Live m Unit :=
  present emit options (.note found)

/-- Events follow one another until the first one that is cut short. -/
def events (index : Nat) (region : List UInt8) : Live m Unit := do
  if region = [] then
    return ()
  else
    match _success : Event.read region with
    | .ok (event, rest) =>
        present emit options (.event event)
        events index rest
    | .error breach =>
        present emit options (.corrupt breach.fragment)
        present emit options (.desync index breach.reason)
termination_by region.length
decreasing_by exact Event.read_rest_lt _success

def records (index : Nat) (tag : UInt16) (region : List UInt8) :
    Live m Unit :=
  match BufferKind.ofTag tag with
  | .telemetry =>
      (pieces Movement.size region).forM fun piece =>
        present emit options (Movement.item piece)
  | .action =>
      (pieces Click.size region).forM fun piece =>
        present emit options (Click.item piece)
  | .event => events emit options index region
  | .unknown _ => stop (.unknownBufferType index tag)

def ofBuffer (index : Nat) : Live m Unit := do
  note emit options (.bufferOffset index (← peek Span.offset))
  let tag ← word
  note emit options (.bufferTag index tag)
  let length ← dword
  note emit options (.bufferLength index length)
  let region ← peek (Span.window (bufferSize length))
  records emit options index tag region.bytes
  skip (bufferSize length)
  present emit options .bufferEnd

def ofRegister (index : Nat) : Live m Unit := do
  note emit options (.register index (← word))

def ofSection : Live m Unit := do
  note emit options (.sectionVersion (← word))
  let _reserved ← word
  note emit options (.sectionId (← word))
  let registers ← dword
  note emit options (.registerCount registers)
  timesFrom (ofRegister emit options) 0 registers.toNat
  let buffers ← dword
  note emit options (.bufferCount buffers)
  timesFrom (ofBuffer emit options) 0 buffers.toNat
  present emit options .sectionEnd

def ofCapture : Live m Unit := do
  let version ← word
  note emit options (.fileVersion version)
  if version = options.supportedVersion then
    let _reserved ← word
    note emit options (.sessionId (← word))
    let sections ← dword
    note emit options (.sectionCount sections)
    timesFrom (fun _ => ofSection emit options) 0 sections.toNat
  else
    stop (.versionMismatch version options.supportedVersion)

def ofFormat : Format → Live m Unit
  | .capture => ofCapture emit options
  | .bareSection => ofSection emit options

end Steps

end Live

/-- Decodes, handing each line over as it comes.  The last line is that of the
fatal condition, or that of the bytes left over if there are any. -/
def decodeTo {m : Type → Type} [Monad m] (emit : Line → m Unit)
    (format : Format) (options : Options) (input : List UInt8) :
    m Report := do
  let (outcome, counts) ←
    Live.ofFormat emit options format ⟨0, input⟩ (.fresh .builtin) 0
  match outcome with
  | .ok (_, left, _) =>
      if left.remaining ≠ 0 then
        emit (.notice
          s!"{left.remaining} bytes left unprocessed in the input file")
      return { counts with trailingBytes := some left.remaining }
  | .error fatal =>
      emit (.notice s!"Error reading file(s): {fatal.message}")
      return { counts with fatal := some fatal }

namespace Presentation

theorem contextAfter_append (options : Options) (context : Context)
    (front back : List Item) :
    contextAfter options context (front ++ back) =
      contextAfter options (contextAfter options context front) back :=
  List.foldl_append

end Presentation

namespace Live

/-! ## What a step does -/

section Streams

variable {m : Type → Type} [Monad m] {α β : Type}

/-- How a step goes on after a trace. -/
def outcome (options : Options) (context : Context)
    (trace : Trace (α × Span)) : Except Fatal (α × Span × Context) :=
  match (Presentation.ofItems options context trace.items).fatal with
  | some fatal => .error fatal
  | none => trace.result.map fun (value, left) =>
      (value, left, Presentation.contextAfter options context trace.items)

/-- The step hands over the lines of what the walk meets, in order, and then
goes on or is stopped as the items and the walk say. -/
def Streams (emit : Line → m Unit) (options : Options) (live : Live m α)
    (walk : Walk α) : Prop :=
  ∀ span context counts,
    live span context counts = (do
      let trace := walk.run span
      let shown := Presentation.ofItems options context trace.items
      shown.lines.forM emit
      return (outcome options context trace, counts + shown.counts))

variable {emit : Line → m Unit} {options : Options} {context : Context}

theorem outcome_after {items : List Item}
    (goesOn : (Presentation.ofItems options context items).fatal = none)
    (trace : Trace (α × Span)) :
    outcome options context (trace.after items) =
      outcome options (Presentation.contextAfter options context items)
        trace := by
  simp [outcome, Presentation.ofItems_append, Presentation.followedBy, goesOn,
    Presentation.contextAfter_append]

theorem bind_apply (live : Live m α) (next : α → Live m β) (span : Span)
    (context : Context) (counts : Counts) :
    (live >>= next) span context counts = (do
      let (outcome, counts) ← live span context counts
      match outcome with
      | .ok (value, left, context) => next value left context counts
      | .error fatal => return (.error fatal, counts)) := rfl

variable [LawfulMonad m]

theorem Streams.bind {live : Live m α} {walk : Walk α}
    {liveNext : α → Live m β} {walkNext : α → Walk β}
    (first : Streams emit options live walk)
    (rest : ∀ value, Streams emit options (liveNext value) (walkNext value)) :
    Streams emit options (live >>= liveNext) (walk >>= walkNext) := by
  intro span context counts
  rw [bind_apply, first span context counts]
  cases ran : walk.run span with
  | mk items result =>
      cases stopped :
          (Presentation.ofItems options context items).fatal with
      | some fatal =>
          -- nothing is handed over after what stopped the first step
          cases result with
          | error found =>
              rw [Walk.run_bind_of_error ran]
              simp [outcome, stopped]
          | ok reached =>
              rw [Walk.run_bind_of_ok ran]
              simp [outcome, Presentation.ofItems_append,
                Presentation.followedBy, stopped]
      | none =>
          cases result with
          | error fatal =>
              rw [Walk.run_bind_of_error ran]
              simp [outcome, stopped, Except.map]
          | ok reached =>
              rw [Walk.run_bind_of_ok ran]
              have continued := rest reached.1 reached.2
                (Presentation.contextAfter options context items)
                (counts + (Presentation.ofItems options context items).counts)
              simp only [outcome_after stopped]
              simp [outcome, stopped, Except.map, continued,
                Presentation.ofItems_append, Presentation.followedBy,
                Counts.add_assoc]

theorem Streams.pure (value : α) :
    Streams emit options (Pure.pure value : Live m α) (Pure.pure value) := by
  intro span context counts
  simp [outcome, Except.map, Presentation.contextAfter]
  rfl

theorem Streams.stop (fatal : Fatal) :
    Streams emit options (Live.stop fatal : Live m α) (Walk.stop fatal) := by
  intro span context counts
  simp [outcome, Except.map, Live.stop]

theorem Streams.peek (look : Span → α) :
    Streams emit options (Live.peek look : Live m α) (Walk.peek look) := by
  intro span context counts
  have looked : (Walk.peek look).run span = ⟨[], .ok (look span, span)⟩ := rfl
  simp [outcome, Except.map, Live.peek, looked, Presentation.contextAfter]

theorem Streams.read (reader : Span → Except Truncation (α × Span)) :
    Streams emit options (Live.read reader : Live m α)
      (Walk.read reader) := by
  intro span context counts
  cases found : reader span with
  | ok reached =>
      rw [Walk.run_read_of_ok found]
      simp [outcome, Except.map, Live.read, found, Presentation.contextAfter]
  | error truncation =>
      rw [Walk.run_read_of_error found]
      simp [outcome, Except.map, Live.read, found]

theorem Streams.present (item : Item) :
    Streams emit options (Live.present emit options item)
      (Walk.emit [item]) := by
  intro span context counts
  cases stopped : (Presentation.ofItem options context item).1.fatal <;>
    simp [outcome, Except.map, Live.present, Presentation.ofItems_cons,
      Presentation.followedBy, stopped, Presentation.contextAfter]

/-! ## Streaming what a capture holds -/

theorem Streams.timesFrom {live : Nat → Live m Unit} {walk : Nat → Walk Unit}
    (each : ∀ index, Streams emit options (live index) (walk index))
    (index count : Nat) :
    Streams emit options (Live.timesFrom live index count)
      (Walk.timesFrom index count walk) := by
  induction count generalizing index with
  | zero => exact .pure ()
  | succ count induction =>
      rw [Walk.timesFrom_succ]
      exact (each index).bind fun _ => induction (index + 1)

omit [LawfulMonad m] in
theorem emit_cons (item : Item) (items : List Item) :
    Walk.emit (item :: items) =
      (do Walk.emit [item]; Walk.emit items) := rfl

theorem Streams.forM {γ : Type} (item : γ → Item) (elements : List γ) :
    Streams emit options
      (elements.forM fun element =>
        Live.present emit options (item element))
      (Walk.emit (elements.map item)) := by
  induction elements with
  | nil => exact .pure ()
  | cons element elements induction =>
      rw [List.map_cons, emit_cons]
      exact (Streams.present (item element)).bind fun _ => induction

theorem Streams.events (index : Nat) (region : List UInt8) :
    Streams emit options (Live.events emit options index region)
      (Walk.emit (eventItems index region)) := by
  fun_induction Live.events emit options index region with
  | case1 =>
      rw [eventItems_nil]
      exact .pure ()
  | case2 region nonempty event rest success induction =>
      rw [eventItems_of_ok success, emit_cons]
      exact (Streams.present _).bind fun _ => induction
  | case3 region nonempty breach failure =>
      rw [eventItems_of_error nonempty failure, emit_cons]
      exact (Streams.present _).bind fun _ => .present _

theorem Streams.records (index : Nat) (tag : UInt16) (region : List UInt8) :
    Streams emit options (Live.records emit options index tag region)
      (Walk.ofRecords index tag region) := by
  unfold Live.records Walk.ofRecords
  cases BufferKind.ofTag tag with
  | telemetry => exact .forM Movement.item _
  | action => exact .forM Click.item _
  | event => exact .events index region
  | unknown tag => exact .stop _

theorem Streams.ofBuffer (index : Nat) :
    Streams emit options (Live.ofBuffer emit options index)
      (Walk.ofBuffer index) := by
  refine .bind (.peek _) fun offset => .bind (.present _) fun _ => ?_
  refine .bind (.read _) fun tag => .bind (.present _) fun _ => ?_
  refine .bind (.read _) fun length => .bind (.present _) fun _ => ?_
  refine .bind (.peek _) fun region => .bind (.records _ _ _) fun _ => ?_
  exact .bind (.read _) fun _ => .present _

theorem Streams.ofSection :
    Streams emit options (Live.ofSection emit options : Live m Unit)
      Walk.ofSection := by
  refine .bind (.read _) fun version => .bind (.present _) fun _ => ?_
  refine .bind (.read _) fun reserved => ?_
  refine .bind (.read _) fun id => .bind (.present _) fun _ => ?_
  refine .bind (.read _) fun registers => .bind (.present _) fun _ => ?_
  have register (index : Nat) :
      Streams emit options (Live.ofRegister emit options index)
        (Walk.ofRegister index) :=
    .bind (.read _) fun value => .present _
  refine .bind (.timesFrom register 0 _) fun _ => ?_
  refine .bind (.read _) fun buffers => .bind (.present _) fun _ => ?_
  exact .bind (.timesFrom Streams.ofBuffer 0 _) fun _ => .present _

theorem Streams.ofCapture :
    Streams emit options (Live.ofCapture emit options : Live m Unit)
      (Walk.ofCapture options.supportedVersion) := by
  refine .bind (.read _) fun version => .bind (.present _) fun _ => ?_
  split
  · refine .bind (.read _) fun reserved => ?_
    refine .bind (.read _) fun id => .bind (.present _) fun _ => ?_
    refine .bind (.read _) fun sections => .bind (.present _) fun _ => ?_
    exact .timesFrom (fun _ => .ofSection) 0 _
  · exact .stop _

theorem Streams.ofFormat (format : Format) :
    Streams emit options (Live.ofFormat emit options format : Live m Unit)
      (format.walk options.supportedVersion) := by
  cases format with
  | capture => exact .ofCapture
  | bareSection => exact .ofSection

end Streams

end Live

/-- Handing lines over while decoding is the same as decoding first and handing
over the transcript, whatever the receiver does and wherever it fails. -/
theorem decodeTo_eq_emitTo {m : Type → Type} [Monad m] [LawfulMonad m]
    (emit : Line → m Unit) (format : Format) (options : Options)
    (input : List UInt8) :
    decodeTo emit format options input =
      (decode format options input).emitTo emit := by
  have streamed : Live.Streams emit options _ _ := .ofFormat format
  rw [decode_eq_ofResult]
  unfold decodeTo Transcript.emitTo
  rw [streamed, Format.trace_eq]
  generalize (format.walk options.supportedVersion).run ⟨0, input⟩ = trace
  cases stopped : (Presentation.ofItems options (.fresh .builtin)
      trace.items).fatal with
  | some fatal =>
      simp [Live.outcome, Presentation.ending, Transcript.ofResult,
        Transcript.stopped, stopped]
  | none =>
      cases ended : trace.result with
      | error fatal =>
          simp [Live.outcome, Presentation.ending, Transcript.ofResult,
            Transcript.stopped, stopped, ended, Except.map]
      | ok reached =>
          by_cases left : reached.2.remaining = 0 <;>
            simp [Live.outcome, Presentation.ending, Transcript.ofResult,
              Transcript.finished, stopped, ended, Except.map, left]

end SessionCapture
