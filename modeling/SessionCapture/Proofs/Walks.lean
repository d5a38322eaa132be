import SessionCapture.Container.Capture
import SessionCapture.Proofs.WordBytes

/-!
# Running walks

How the steps of a walk run on a given span, one law for each step and what
follows it.  `Reaches` forgets the items met on the way; its laws tell from a
walk that came to its end what the span began with.
-/

namespace SessionCapture

namespace Trace

variable {α : Type}

/-- The trace of a walk that had met `items` before. -/
def after (items : List Item) (trace : Trace α) : Trace α :=
  ⟨items ++ trace.items, trace.result⟩

@[simp] theorem items_after (items : List Item) (trace : Trace α) :
    (trace.after items).items = items ++ trace.items := rfl

@[simp] theorem result_after (items : List Item) (trace : Trace α) :
    (trace.after items).result = trace.result := rfl

@[simp] theorem after_nil (trace : Trace α) : trace.after [] = trace := rfl

theorem map_eq {β : Type} (change : α → β) (trace : Trace α) :
    change <$> trace = ⟨trace.items, trace.result.map change⟩ := by
  obtain ⟨items, result⟩ := trace
  cases result with
  | ok value =>
      change (⟨items ++ [], _⟩ : Trace β) = _
      rw [List.append_nil]
      rfl
  | error fatal => rfl

end Trace

namespace Walk

variable {α β : Type}

theorem run_bind_of_ok {walk : Walk α} {next : α → Walk β}
    {span left : Span} {items : List Item} {value : α}
    (first : walk.run span = ⟨items, .ok (value, left)⟩) :
    (walk >>= next).run span = ((next value).run left).after items := by
  change Trace.bind (walk.run span) (fun reached =>
    (next reached.1).run reached.2) = _
  rw [first]
  rfl

theorem run_bind_of_error {walk : Walk α} {next : α → Walk β}
    {span : Span} {items : List Item} {fatal : Fatal}
    (first : walk.run span = ⟨items, .error fatal⟩) :
    (walk >>= next).run span = ⟨items, .error fatal⟩ := by
  change Trace.bind (walk.run span) (fun reached =>
    (next reached.1).run reached.2) = _
  rw [first]
  rfl

theorem run_bind_of_after {walk other : Walk α} {next : α → Walk β}
    {span otherSpan : Span} {items : List Item}
    (first : walk.run span = (other.run otherSpan).after items) :
    (walk >>= next).run span =
      ((other >>= next).run otherSpan).after items := by
  cases ran : other.run otherSpan with
  | mk met result =>
      rw [ran] at first
      cases result with
      | ok reached =>
          rw [run_bind_of_ok first, run_bind_of_ok ran]
          simp only [Trace.after, List.append_assoc]
      | error fatal =>
          rw [run_bind_of_error first, run_bind_of_error ran]
          rfl

/-! ## Steps that read nothing -/

@[simp] theorem run_pure (value : α) (span : Span) :
    (pure value : Walk α).run span = ⟨[], .ok (value, span)⟩ := rfl

@[simp] theorem run_emit (items : List Item) (span : Span) :
    (emit items).run span = ⟨items, .ok ((), span)⟩ := rfl

@[simp] theorem run_stop (fatal : Fatal) (span : Span) :
    (stop fatal : Walk α).run span = ⟨[], .error fatal⟩ := rfl

@[simp] theorem run_emit_bind (items : List Item) (next : Unit → Walk β)
    (span : Span) :
    (emit items >>= next).run span = ((next ()).run span).after items := rfl

@[simp] theorem run_note_bind (found : Note) (next : Unit → Walk β)
    (span : Span) :
    (note found >>= next).run span =
      ((next ()).run span).after [.note found] := rfl

@[simp] theorem run_peek_bind (look : Span → α) (next : α → Walk β)
    (span : Span) :
    (peek look >>= next).run span = (next (look span)).run span := rfl

@[simp] theorem run_stop_bind (fatal : Fatal) (next : α → Walk β)
    (span : Span) :
    (stop fatal >>= next).run span = ⟨[], .error fatal⟩ := rfl

/-! ## Steps that read -/

theorem run_read_of_ok {reader : Span → Except Truncation (α × Span)}
    {span left : Span} {value : α}
    (success : reader span = .ok (value, left)) :
    (read reader).run span = ⟨[], .ok (value, left)⟩ := by
  change read reader span = _
  rw [read, success]

theorem run_read_of_error {reader : Span → Except Truncation (α × Span)}
    {span : Span} {truncation : Truncation}
    (failure : reader span = .error truncation) :
    (read reader).run span = ⟨[], .error (.truncated truncation)⟩ := by
  change read reader span = _
  rw [read, failure]

@[simp] theorem run_word_bind (offset : Nat) (value : UInt16)
    (rest : List UInt8) (next : UInt16 → Walk β) :
    (word >>= next).run ⟨offset, Wire.bytes [value] ++ rest⟩ =
      (next value).run ⟨offset + 2, rest⟩ :=
  run_bind_of_ok (run_read_of_ok (Span.word_bytes_append offset value rest))

@[simp] theorem run_dword_bind (offset : Nat) (value : UInt32)
    (rest : List UInt8) (next : UInt32 → Walk β) :
    (dword >>= next).run ⟨offset, Wire.bytes (Wire.splitDword value) ++ rest⟩ =
      (next value).run ⟨offset + 4, rest⟩ :=
  run_bind_of_ok (run_read_of_ok (Span.dword_bytes_append offset value rest))

theorem run_skip_of_le {count : Nat} {span : Span}
    (enough : count ≤ span.remaining) :
    (skip count).run span = ⟨[], .ok ((), span.drop count)⟩ :=
  run_read_of_ok (by rw [Span.skip_of_le enough]; rfl)

theorem run_skip_of_lt {count : Nat} {span : Span}
    (short : span.remaining < count) :
    (skip count).run span =
      ⟨[], .error (.truncated ⟨span.offset, count, span.remaining⟩)⟩ :=
  run_read_of_error (by rw [Span.skip_of_lt short]; rfl)

theorem run_word_of_short {span : Span} (short : span.remaining < 2) :
    word.run span =
      ⟨[], .error (.truncated ⟨span.offset, 2, span.remaining⟩)⟩ :=
  run_read_of_error (Span.word_of_short short)

theorem run_dword_of_short {span : Span} (short : span.remaining < 4) :
    dword.run span =
      ⟨[], .error (.truncated ⟨span.offset, 4, span.remaining⟩)⟩ :=
  run_read_of_error (Span.dword_of_short short)

/-! ## Walks that come to their end -/

/-- The walk comes to its end with `value`, and `left` is what it leaves
unread. -/
def Reaches (walk : Walk α) (span : Span) (value : α) (left : Span) : Prop :=
  (walk.run span).result = .ok (value, left)

theorem reaches_bind_iff {walk : Walk α} {next : α → Walk β}
    {span left : Span} {value : β} :
    (walk >>= next).Reaches span value left ↔
      ∃ first middle, walk.Reaches span first middle ∧
        (next first).Reaches middle value left := by
  unfold Reaches
  cases ran : walk.run span with
  | mk items result =>
      cases result with
      | ok reached =>
          rw [run_bind_of_ok ran]
          constructor
          · intro last
            exact ⟨reached.1, reached.2, rfl, last⟩
          · rintro ⟨first, middle, same, last⟩
            cases same
            exact last
      | error fatal =>
          rw [run_bind_of_error ran]
          constructor
          · intro impossible
            cases impossible
          · rintro ⟨_, _, impossible, _⟩
            cases impossible

theorem reaches_note_bind_iff {found : Note} {next : Unit → Walk β}
    {span left : Span} {value : β} :
    (note found >>= next).Reaches span value left ↔
      (next ()).Reaches span value left := Iff.rfl

theorem reaches_peek_bind_iff {look : Span → α} {next : α → Walk β}
    {span left : Span} {value : β} :
    (peek look >>= next).Reaches span value left ↔
      (next (look span)).Reaches span value left := Iff.rfl

theorem Reaches.of_word_bind {next : UInt16 → Walk β} {span left : Span}
    {value : β} (reached : (word >>= next).Reaches span value left) :
    ∃ first rest, span.bytes = Wire.bytes [first] ++ rest ∧
      (next first).Reaches ⟨span.offset + 2, rest⟩ value left := by
  by_cases short : span.remaining < 2
  · rw [Reaches, run_bind_of_error (run_word_of_short short)] at reached
    cases reached
  · obtain ⟨first, rest, begins⟩ :=
      Wire.exists_word_append (Nat.not_lt.mp short)
    obtain ⟨offset, content⟩ := span
    subst begins
    rw [Reaches, run_word_bind] at reached
    exact ⟨first, rest, rfl, reached⟩

theorem Reaches.of_dword_bind {next : UInt32 → Walk β} {span left : Span}
    {value : β} (reached : (dword >>= next).Reaches span value left) :
    ∃ first rest, span.bytes = Wire.bytes (Wire.splitDword first) ++ rest ∧
      (next first).Reaches ⟨span.offset + 4, rest⟩ value left := by
  by_cases short : span.remaining < 4
  · rw [Reaches, run_bind_of_error (run_dword_of_short short)] at reached
    cases reached
  · obtain ⟨first, rest, begins⟩ :=
      Wire.exists_dword_append (Nat.not_lt.mp short)
    obtain ⟨offset, content⟩ := span
    subst begins
    rw [Reaches, run_dword_bind] at reached
    exact ⟨first, rest, rfl, reached⟩

theorem Reaches.of_skip {count : Nat} {span left : Span}
    (reached : (skip count).Reaches span () left) :
    count ≤ span.remaining ∧ left = span.drop count := by
  by_cases short : span.remaining < count
  · rw [Reaches, run_skip_of_lt short] at reached
    cases reached
  · have enough := Nat.not_lt.mp short
    rw [Reaches, run_skip_of_le enough] at reached
    cases reached
    exact ⟨enough, rfl⟩

/-! ## Repeated steps -/

/-- If a step that comes to its end has read one `form`, then so many steps have
read as many forms, one after another. -/
theorem Reaches.of_timesFrom {step : Nat → Walk Unit} {form : α → List UInt8}
    (each : ∀ index span left, (step index).Reaches span () left →
      ∃ element, span.bytes = form element ++ left.bytes)
    {index count : Nat} {span left : Span}
    (reached : (timesFrom index count step).Reaches span () left) :
    ∃ elements : List α, elements.length = count ∧
      span.bytes = elements.flatMap form ++ left.bytes := by
  induction count generalizing index span with
  | zero =>
      cases reached
      exact ⟨[], rfl, rfl⟩
  | succ count induction =>
      rw [timesFrom_succ] at reached
      obtain ⟨_, middle, first, later⟩ := reaches_bind_iff.mp reached
      obtain ⟨element, begins⟩ := each index span middle first
      obtain ⟨elements, counted, continues⟩ := induction later
      refine ⟨element :: elements, by rw [List.length_cons, counted], ?_⟩
      rw [begins, continues, List.flatMap_cons, List.append_assoc]

end Walk

/-- What `told` tells of the elements of a list that are numbered from `index`
on and stand one after another from `offset` on. -/
def laidOut {α β : Type} (size : α → Nat) (told : Nat → Nat → α → List β) :
    Nat → Nat → List α → List β
  | _, _, [] => []
  | index, offset, element :: rest =>
      told index offset element ++
        laidOut size told (index + 1) (offset + size element) rest

section LaidOut

variable {α β γ : Type} {size : α → Nat} {told : Nat → Nat → α → List β}

/-- A change that respects concatenation can be made element by element. -/
theorem change_laidOut {change : List β → List γ} (nil : change [] = [])
    (append : ∀ front back,
      change (front ++ back) = change front ++ change back)
    (index offset : Nat) (elements : List α) :
    change (laidOut size told index offset elements) =
      laidOut size
        (fun index offset element => change (told index offset element))
        index offset elements := by
  induction elements generalizing index offset with
  | nil => exact nil
  | cons element elements induction =>
      rw [laidOut, append, induction, laidOut]

theorem filterMap_laidOut (change : β → Option γ) (index offset : Nat)
    (elements : List α) :
    (laidOut size told index offset elements).filterMap change =
      laidOut size
        (fun index offset element =>
          (told index offset element).filterMap change)
        index offset elements :=
  change_laidOut List.filterMap_nil (fun _ _ => List.filterMap_append)
    index offset elements

theorem flatMap_laidOut (change : β → List γ) (index offset : Nat)
    (elements : List α) :
    (laidOut size told index offset elements).flatMap change =
      laidOut size
        (fun index offset element =>
          (told index offset element).flatMap change)
        index offset elements :=
  change_laidOut List.flatMap_nil (fun _ _ => List.flatMap_append)
    index offset elements

/-- Elements that stand for others are told of as those are. -/
theorem laidOut_map {source : Type} {stand : source → α}
    {sourceSize : source → Nat} {sourceTold : Nat → Nat → source → List β}
    (sameSize : ∀ element, size (stand element) = sourceSize element)
    (sameTold : ∀ index offset element,
      told index offset (stand element) = sourceTold index offset element)
    (index offset : Nat) (elements : List source) :
    laidOut size told index offset (elements.map stand) =
      laidOut sourceSize sourceTold index offset elements := by
  induction elements generalizing index offset with
  | nil => rfl
  | cons element elements induction =>
      rw [List.map_cons, laidOut, laidOut, sameSize, sameTold, induction]

end LaidOut

namespace Walk

variable {α : Type}

/-- If a step reads one form, leaving the items `told` of it, then so many steps
read as many forms, one after another. -/
theorem run_timesFrom {step : Nat → Walk Unit} {form : α → List UInt8}
    {told : Nat → Nat → α → List Item}
    (each : ∀ index offset element rest,
      (step index).run ⟨offset, form element ++ rest⟩ =
        ⟨told index offset element,
          .ok ((), ⟨offset + (form element).length, rest⟩)⟩)
    (index offset : Nat) (elements : List α) (rest : List UInt8) :
    (timesFrom index elements.length step).run
        ⟨offset, elements.flatMap form ++ rest⟩ =
      ⟨laidOut (fun element => (form element).length) told index offset
          elements,
        .ok ((), ⟨offset + (elements.flatMap form).length, rest⟩)⟩ := by
  induction elements generalizing index offset with
  | nil => rfl
  | cons element elements induction =>
      rw [List.length_cons, timesFrom_succ, List.flatMap_cons,
        List.append_assoc, run_bind_of_ok (each index offset element _),
        induction]
      simp only [Trace.after, laidOut, List.length_append, Nat.add_assoc]

end Walk

theorem Format.trace_eq (format : Format) (supported : UInt16)
    (input : List UInt8) :
    format.trace supported input =
      ⟨((format.walk supported).run ⟨0, input⟩).items,
        ((format.walk supported).run ⟨0, input⟩).result.map (·.2)⟩ :=
  Trace.map_eq _ _

end SessionCapture
