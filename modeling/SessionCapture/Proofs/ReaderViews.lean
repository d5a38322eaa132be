import SessionCapture.Proofs.RecordLoops

/-!
# What readers show

However readers are moved and opened one from another, every one of them shows a
part of the bytes that the first one was made of, at the offsets that these
bytes have there.  The invariant is that a reader's bytes are a part of the
whole; a reader that moves keeps its bytes, and a window's are a part of those
of the reader that it is opened from.  What a request is answered follows from
where the reader on top stands.
-/

namespace SessionCapture

namespace Reader

variable {base : Nat} {whole : List UInt8} {reader later : Reader}

/-- The reader's bytes stand in `whole`, whose first byte has the offset
`base`. -/
def IsPartOf (reader : Reader) (base : Nat) (whole : List UInt8) : Prop :=
  ∃ before after, whole = before ++ (reader.bytes ++ after) ∧
    reader.base = base + before.length

/-- The offset after the last byte. -/
def stop (reader : Reader) : Nat :=
  reader.base + reader.bytes.length

/-- What the reader has not read yet is what `whole` holds from the reader's
offset on. -/
structure Shows (reader : Reader) (base : Nat) (whole : List UInt8) : Prop where
  position_le : reader.position ≤ reader.bytes.length
  base_le : base ≤ reader.offset
  within : reader.offset - base + reader.remaining ≤ whole.length
  unread_eq : reader.unread.bytes =
    (whole.drop (reader.offset - base)).take reader.remaining

theorem IsPartOf.ofBytes (base : Nat) (whole : List UInt8) :
    (Reader.ofBytes base whole).IsPartOf base whole :=
  ⟨[], [], (List.append_nil whole).symm, rfl⟩

theorem IsPartOf.moves (part : reader.IsPartOf base whole)
    (moves : reader.Moves later) : later.IsPartOf base whole := by
  obtain ⟨before, after, split, place⟩ := part
  refine ⟨before, after, ?_, ?_⟩
  · rw [moves.bytes_eq, split]
  · rw [moves.base_eq, place]

theorem IsPartOf.window (part : reader.IsPartOf base whole) (count : Nat) :
    (reader.window count).IsPartOf base whole := by
  obtain ⟨before, after, split, place⟩ := part
  have bytes : (reader.window count).bytes =
      (reader.bytes.drop reader.position).take count := rfl
  refine ⟨before ++ reader.bytes.take reader.position,
    (reader.bytes.drop reader.position).drop count ++ after, ?_, ?_⟩
  · rw [bytes, List.append_assoc, ← List.append_assoc (List.take count _),
      List.take_append_drop, ← List.append_assoc (List.take _ _),
      List.take_append_drop]
    exact split
  · change reader.base + reader.position = _
    rw [place, List.length_append, List.length_take_of_le reader.position_le,
      Nat.add_assoc]

theorem IsPartOf.shows (part : reader.IsPartOf base whole) :
    reader.Shows base whole := by
  obtain ⟨before, after, rfl, place⟩ := part
  have inside := reader.position_le
  have ahead : reader.offset - base = before.length + reader.position := by
    rw [offset, place]
    omega
  refine ⟨inside, ?base, ?within, ?unread⟩
  case base =>
    rw [offset, place]
    omega
  case within =>
    rw [ahead, remaining]
    simp only [List.length_append]
    omega
  case unread =>
    rw [ahead, ← List.drop_drop, List.drop_left,
      List.drop_append_of_le_length inside]
    exact (List.take_left' List.length_drop).symm

/-- Bytes that are not read yet are those that stand in the whole. -/
theorem Shows.take_unread (shows_ : reader.Shows base whole) {size : Nat}
    (enough : size ≤ reader.remaining) :
    reader.unread.bytes.take size =
      (whole.drop (reader.offset - base)).take size := by
  rw [shows_.unread_eq, List.take_take, Nat.min_eq_left enough]

/-! ## Windows -/

theorem length_window (reader : Reader) (count : Nat) :
    (reader.window count).bytes.length = min count reader.remaining := by
  rw [remaining_eq]
  exact List.length_take

theorem stop_window_le (reader : Reader) (count : Nat) :
    (reader.window count).stop ≤ reader.stop := by
  have inside := reader.position_le
  have place : (reader.window count).base = reader.base + reader.position := rfl
  rw [stop, stop, length_window, place, remaining]
  omega

/-! ## Requests to read -/

namespace Request

/-- The answer to the request is what the bytes say. -/
inductive Answers : Request → Answer → List UInt8 → Prop where
  | word (value : UInt16) : Answers .word (.word value) (Wire.bytes [value])
  | dword (value : UInt32) :
      Answers .dword (.dword value) (Wire.bytes (Wire.splitDword value))
  | words (values : List UInt16) :
      Answers (.words values.length) (.words values) (Wire.bytes values)
  | take (content : List UInt8) :
      Answers (.take content.length) (.bytes content) content
  | skip (content : List UInt8) : Answers (.skip content.length) .done content
  | movement (movement : Movement) :
      Answers .movement (.movement (.ok movement)) (Wire.bytes movement.words)
  | click (click : Click) :
      Answers .click (.click (.ok click)) (Wire.bytes click.words)
  | event {event : Event} :
      event.Counted →
      Answers .event (.event (.ok event)) (Wire.bytes event.words)

/-- The answer to the request is a record cut short. -/
inductive CutShort : Request → Answer → Prop where
  | movement (fragment : Fragment) :
      CutShort .movement (.movement (.error fragment))
  | click (fragment : Fragment) : CutShort .click (.click (.error fragment))
  | event (breach : Breach) : CutShort .event (.event (.error breach))

/-- How many bytes the request needs, if this is known before they are read. -/
def size? : Request → Option Nat
  | .word => some 2
  | .dword => some 4
  | .words count => some (2 * count)
  | .take count | .skip count => some count
  | _ => none

end Request

end Reader

namespace Span

open Reader (Answer Request)

theorem answers_word :
    Reads word 2 fun value => Request.Answers .word (.word value) := by
  refine reads_word.imp ?_
  rintro value _ rfl
  exact .word value

theorem answers_dword :
    Reads dword 4 fun value => Request.Answers .dword (.dword value) := by
  refine reads_dword.imp ?_
  rintro value _ rfl
  exact .dword value

theorem answers_take (count : Nat) :
    Reads (take count) count fun content =>
      Request.Answers (.take count) (.bytes content) where
  of_le := by
    intro span enough
    refine ⟨_, take_of_le enough, ?_⟩
    have answers := Request.Answers.take (span.bytes.take count)
    rw [List.length_take_of_le enough] at answers
    exact answers
  of_lt := take_of_lt

theorem answers_skip (count : Nat) :
    Reads (fun span => (span.skip count).map fun left => ((), left)) count
      fun _ => Request.Answers (.skip count) .done where
  of_le := by
    intro span enough
    refine ⟨(), by rw [skip_of_le enough]; rfl, ?_⟩
    have answers := Request.Answers.skip (span.bytes.take count)
    rw [List.length_take_of_le enough] at answers
    exact answers
  of_lt := by
    intro span short
    rw [skip_of_lt short]
    rfl

theorem answers_words (count : Nat) :
    Reads (words count) (2 * count) fun values =>
      Request.Answers (.words count) (.words values) where
  of_le := by
    intro span enough
    obtain ⟨values, success, rfl⟩ := (reads_words count).of_le enough
    refine ⟨_, success, ?_⟩
    have front : (span.bytes.take (2 * count)).length = 2 * count :=
      List.length_take_of_le enough
    have answers :=
      Request.Answers.words (Wire.words (span.bytes.take (2 * count)))
    rw [Wire.bytes_words (by omega), Wire.length_words, front,
      Nat.mul_div_cancel_left count (by omega)] at answers
    exact answers
  of_lt := (reads_words count).of_lt

end Span

namespace Reader.Stack

variable {base : Nat} {whole : List UInt8} {stack : Stack}

def readers (stack : Stack) : List Reader :=
  stack.top :: stack.below

/-- The stack that requests made in order leave. -/
def after (stack : Stack) (requests : List Request) : Stack :=
  requests.foldl (fun stack request => (stack.step request).2) stack

theorem run_concat (stack : Stack) (requests : List Request)
    (request : Request) :
    stack.run (requests ++ [request]) =
      stack.run requests ++ [(stack.after requests).step request] := by
  induction requests generalizing stack with
  | nil => rfl
  | cons first requests induction =>
      exact congrArg (stack.step first :: ·) (induction (stack.step first).2)

/-- How a stack of readers on `whole` answers a request, and the stack that it
leaves. -/
inductive Serves (base : Nat) (whole : List UInt8) (stack : Stack) :
    Request → Answer × Stack → Prop where
  | read {request : Request} {answer : Answer} {content : List UInt8}
      {later : Reader} :
      request.Answers answer content →
      content = (whole.drop (stack.top.offset - base)).take content.length →
      content.length ≤ stack.top.remaining →
      stack.top.Advances content.length later →
      Serves base whole stack request (answer, ⟨later, stack.below⟩)
  | lacking {request : Request} {size : Nat} :
      request.size? = some size → stack.top.remaining < size →
      Serves base whole stack request
        (.truncated ⟨stack.top.offset, size, stack.top.remaining⟩, stack)
  | cutShort {request : Request} {answer : Answer} {later : Reader} :
      request.CutShort answer →
      (∀ other content rest, request.Answers other content →
        stack.top.unread.bytes ≠ content ++ rest) →
      stack.top.Moves later →
      Serves base whole stack request (answer, ⟨later, stack.below⟩)
  | moved {position : Nat} {later : Reader} :
      stack.top.Moves later →
      later.position = min position stack.top.bytes.length →
      Serves base whole stack (.seek position) (.done, ⟨later, stack.below⟩)
  | opened {count : Nat} {window : Reader} :
      window.base = stack.top.offset → window.position = 0 →
      window.bytes.length = min count stack.top.remaining →
      window.stop ≤ stack.top.stop → window.IsPartOf base whole →
      Serves base whole stack (.window count) (.done, ⟨window, stack.readers⟩)
  | closed {next : Reader} {rest : List Reader} :
      stack.below = next :: rest →
      Serves base whole stack .close (.done, ⟨next, rest⟩)
  | kept : stack.below = [] → Serves base whole stack .close (.done, stack)

section Step

variable (part : stack.top.IsPartOf base whole)

include part

theorem serves_reading {α : Type}
    {read : Span → Except Truncation (α × Span)} {size : Nat}
    {request : Request} {answer : α → Answer}
    (reads : Span.Reads read size fun value => request.Answers (answer value))
    (known : request.size? = some size) :
    Serves base whole stack request
      (stack.onTop (stack.top.reading read answer)) := by
  by_cases enough : size ≤ stack.top.remaining
  · obtain ⟨value, success, answers⟩ := read_of_le reads enough
    have length : (stack.top.unread.bytes.take size).length = size :=
      List.length_take_of_le (stack.top.remaining_eq ▸ enough)
    rw [reading, success]
    refine .read answers ?_ ?_ ?_
    · rw [length]
      exact part.shows.take_unread enough
    · rw [length]
      exact enough
    · rw [length]
      exact advances_advance enough
  · have short := Nat.lt_of_not_le enough
    rw [reading, read_of_lt reads short]
    exact .lacking known short

/-- A record that stands whole at the front of what is unread. -/
theorem serves_record {request : Request} {answer : Answer} {later : Reader}
    {content rest : List UInt8} (answers : request.Answers answer content)
    (begins : stack.top.unread.bytes = content ++ rest)
    (advances :
      stack.top.Advances (stack.top.remaining - rest.length) later) :
    Serves base whole stack request (answer, ⟨later, stack.below⟩) := by
  have taken : stack.top.remaining = content.length + rest.length := by
    rw [remaining_eq, begins, List.length_append]
  have enough : content.length ≤ stack.top.remaining := by
    rw [taken]
    exact Nat.le_add_right _ _
  rw [taken, Nat.add_sub_cancel] at advances
  refine .read answers ?_ enough advances
  rw [← part.shows.take_unread enough, begins, List.take_left]

theorem serves_fixedForm {α : Type} (form : FixedForm α)
    {fields : FieldRead α} {request : Request}
    {answer : Except Fragment α → Answer}
    (collects : fields.Collects form.fields [] form.kind.fieldSizes)
    (answers : ∀ record, request.Answers (answer (.ok record))
      (Wire.bytes (form.words record)))
    (sized : ∀ {answer content}, request.Answers answer content →
      content.length = form.kind.size)
    (cutShort : ∀ fragment, request.CutShort (answer (.error fragment))) :
    Serves base whole stack request
      (stack.onTop (stack.top.readingRecord form.kind fields answer)) := by
  by_cases short : stack.top.unread.bytes.length < form.kind.size
  · obtain ⟨later, ran, advances⟩ :=
      readingRecord_of_error form collects (form.read_of_lt short)
    rw [ran]
    refine .cutShort (cutShort _) ?_ advances.toMoves
    intro _ content rest answers begins
    rw [begins, List.length_append, sized answers] at short
    exact absurd short (Nat.not_lt.mpr (Nat.le_add_right _ _))
  · obtain ⟨record, begins⟩ := form.exists_bytes_append (Nat.not_lt.mp short)
    have success := form.read_bytes_append record
      (stack.top.unread.bytes.drop form.kind.size)
    rw [← begins] at success
    obtain ⟨later, ran, advances, -⟩ :=
      readingRecord_of_ok form collects success
    rw [ran]
    exact serves_record part (answers record) begins advances

theorem serves_event :
    Serves base whole stack .event (stack.onTop stack.top.readingEvent) := by
  cases found : Event.read stack.top.unread.bytes with
  | error breach =>
      obtain ⟨later, ran, advances⟩ := readingEvent_of_error found
      rw [ran]
      refine .cutShort (.event breach) ?_ advances.toMoves
      rintro _ _ rest ⟨⟩ begins
      next event counted =>
        rw [begins, Event.read_bytes_append counted] at found
        cases found
  | ok reached =>
      obtain ⟨event, rest⟩ := reached
      obtain ⟨later, ran, advances, -⟩ := readingEvent_of_ok found
      rw [ran]
      exact serves_record part (.event (Event.counted_of_read found))
        (Event.eq_bytes_append_of_read found) advances

theorem serves_step (request : Request) :
    Serves base whole stack request (stack.step request) := by
  cases request with
  | word => exact serves_reading part Span.answers_word rfl
  | dword => exact serves_reading part Span.answers_dword rfl
  | words count => exact serves_reading part (Span.answers_words count) rfl
  | take count => exact serves_reading part (Span.answers_take count) rfl
  | skip count => exact serves_reading part (Span.answers_skip count) rfl
  | seek position => exact .moved (stack.top.moves_seek position) rfl
  | window count =>
      exact .opened rfl rfl (stack.top.length_window count)
        (stack.top.stop_window_le count) (part.window count)
  | close =>
      rw [step]
      split
      · next bottom => exact .kept bottom
      · next next rest below => exact .closed below
  | movement =>
      exact serves_fixedForm part .movement FieldRead.collects_movement
        .movement (by rintro _ _ ⟨⟩; rfl) .movement
  | click =>
      exact serves_fixedForm part .click FieldRead.collects_click
        .click (by rintro _ _ ⟨⟩; rfl) .click
  | event => exact serves_event part

end Step

/-- Every reader of the stack shows a part of the whole, and none reaches beyond
the end of one below it. -/
structure Faithful (base : Nat) (whole : List UInt8) (stack : Stack) :
    Prop where
  part : ∀ reader ∈ stack.readers, reader.IsPartOf base whole
  nested : stack.readers.Pairwise fun upper lower => upper.stop ≤ lower.stop

namespace Faithful

theorem ofBytes (base : Nat) (whole : List UInt8) :
    Faithful base whole ⟨.ofBytes base whole, []⟩ where
  part := by
    intro reader member
    rw [List.mem_singleton.mp member]
    exact .ofBytes base whole
  nested := List.pairwise_singleton _ _

/-- The reader on top can move. -/
theorem moves (faithful : Faithful base whole stack) {later : Reader}
    (moves : stack.top.Moves later) :
    Faithful base whole ⟨later, stack.below⟩ where
  part := by
    intro reader member
    rcases List.mem_cons.mp member with rfl | below
    · exact (faithful.part _ List.mem_cons_self).moves moves
    · exact faithful.part reader (List.mem_cons_of_mem _ below)
  nested := by
    have same : later.stop = stack.top.stop := by
      rw [stop, moves.base_eq, moves.bytes_eq, ← stop]
    obtain ⟨top, rest⟩ := List.pairwise_cons.mp faithful.nested
    refine List.pairwise_cons.mpr ⟨?_, rest⟩
    rw [same]
    exact top

theorem opens (faithful : Faithful base whole stack) {window : Reader}
    (part : window.IsPartOf base whole) (ends : window.stop ≤ stack.top.stop) :
    Faithful base whole ⟨window, stack.readers⟩ where
  part := by
    intro reader member
    rcases List.mem_cons.mp member with rfl | below
    · exact part
    · exact faithful.part reader below
  nested := by
    refine List.pairwise_cons.mpr ⟨?_, faithful.nested⟩
    intro lower member
    rcases List.mem_cons.mp member with rfl | below
    · exact ends
    · exact Nat.le_trans ends
        (List.rel_of_pairwise_cons faithful.nested below)

theorem closes (faithful : Faithful base whole stack) {next : Reader}
    {rest : List Reader} (below : stack.below = next :: rest) :
    Faithful base whole ⟨next, rest⟩ where
  part := by
    intro reader member
    refine faithful.part reader (List.mem_cons_of_mem _ ?_)
    rw [below]
    exact member
  nested := by
    have nested := faithful.nested.of_cons
    rw [below] at nested
    exact nested

/-- Whatever a request is answered, the readers stay parts of the whole. -/
theorem serves (faithful : Faithful base whole stack) {request : Request}
    {answered : Answer × Stack}
    (serves : Serves base whole stack request answered) :
    Faithful base whole answered.2 := by
  cases serves with
  | read _ _ _ advances => exact faithful.moves advances.toMoves
  | lacking _ _ => exact faithful
  | cutShort _ _ moves => exact faithful.moves moves
  | moved moves _ => exact faithful.moves moves
  | opened _ _ _ ends part => exact faithful.opens part ends
  | closed below => exact faithful.closes below
  | kept _ => exact faithful

theorem top (faithful : Faithful base whole stack) :
    stack.top.IsPartOf base whole :=
  faithful.part _ List.mem_cons_self

theorem after (faithful : Faithful base whole stack)
    (requests : List Request) : Faithful base whole (stack.after requests) := by
  induction requests generalizing stack with
  | nil => exact faithful
  | cons request requests induction =>
      exact induction (faithful.serves (serves_step faithful.top request))

end Faithful

/-- Whatever requests were made before, every reader of the stack shows what the
first one's bytes hold at its offset, and none reaches beyond the end of one
below it.  The next request is answered by the bytes at the offset of the reader
on top, or else by what it lacks. -/
theorem shows_and_serves (base : Nat) (whole : List UInt8)
    (requests : List Request) :
    let first : Stack := ⟨.ofBytes base whole, []⟩
    let stack := first.after requests
    (∀ reader ∈ stack.readers, reader.Shows base whole) ∧
      (stack.readers.Pairwise fun upper lower => upper.stop ≤ lower.stop) ∧
      ∀ request, ∃ answered,
        first.run (requests ++ [request]) = first.run requests ++ [answered] ∧
          stack.Serves base whole request answered := by
  intro first stack
  have faithful : Faithful base whole stack :=
    (Faithful.ofBytes base whole).after requests
  refine ⟨fun reader member => (faithful.part reader member).shows,
    faithful.nested, ?_⟩
  intro request
  exact ⟨stack.step request, first.run_concat requests request,
    serves_step faithful.top request⟩

end Reader.Stack

end SessionCapture
