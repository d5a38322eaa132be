import SessionCapture.Proofs.OpenedBuffers
import SessionCapture.Proofs.Passages

/-!
# Buffers of records of a fixed size

Movements and clicks are found at multiples of their size.  A buffer of `n`
bytes holds as many of them as the size goes into `n`, each made of its own
bytes and no others.  What is left, if the size does not divide `n`, is told as
one record cut short, by the fields that lie wholly within it.
-/

namespace SessionCapture

namespace FixedForm

variable {α : Type} (form : FixedForm α)

/-- The records are as many as the size goes into the content, and each has the
fields that its own bytes make. -/
structure Chunks (content : List UInt8) (records : List α) : Prop where
  count : records.length = content.length / form.kind.size
  fields : ∀ {place record}, records[place]? = some record →
    form.fields record = leadingFields form.kind.fieldSizes
      ((content.drop (form.kind.size * place)).take form.kind.size)

/-- The bytes after the last multiple of the size. -/
def remainder (content : List UInt8) : List UInt8 :=
  content.drop (content.length - content.length % form.kind.size)

/-- What could be read of the record that is cut short. -/
def fragment (content : List UInt8) : Fragment :=
  ⟨form.kind, leadingFields form.kind.fieldSizes (form.remainder content)⟩

def restItems (content : List UInt8) : List Item :=
  if content.length % form.kind.size = 0 then []
  else [.corrupt (form.fragment content)]

def restLines (human : Bool) (content : List UInt8) : List Line :=
  if content.length % form.kind.size = 0 then []
  else
    .corrupt (form.fragment content) ::
      if form.kind = .action ∧ human then
        [.human (form.fragment content).timestamp? "Corrupted action."]
      else []

/-- A content has its records by itself. -/
theorem Chunks.unique {content : List UInt8} {left right : List α}
    (leftChunks : form.Chunks content left)
    (rightChunks : form.Chunks content right) : left = right := by
  have count : left.length = right.length := by
    rw [leftChunks.count, rightChunks.count]
  apply List.ext_getElem count
  intro place inLeft inRight
  apply form.fields_injective
  rw [leftChunks.fields (List.getElem?_eq_getElem inLeft),
    rightChunks.fields (List.getElem?_eq_getElem inRight)]

theorem length_remainder (content : List UInt8) :
    (form.remainder content).length = content.length % form.kind.size := by
  have below := Nat.mod_le content.length form.kind.size
  rw [remainder, List.length_drop]
  omega

theorem remainder_eq (content : List UInt8) :
    form.remainder content = content.drop
      (form.kind.size * (content.length / form.kind.size)) := by
  have split := Nat.div_add_mod content.length form.kind.size
  rw [remainder]
  congr 1
  omega

/-- Bytes that are enough for `count` records begin with the bytes of as many,
one after another. -/
theorem exists_records : ∀ {count : Nat} {content : List UInt8},
    form.kind.size * count ≤ content.length →
    ∃ records : List α, records.length = count ∧
      content = Wire.bytes (records.flatMap form.words) ++
        content.drop (form.kind.size * count)
  | 0, content, _ => ⟨[], rfl, rfl⟩
  | count + 1, content, enough => by
      rw [Nat.mul_succ] at enough
      have first : form.kind.size ≤ content.length := by omega
      have others : form.kind.size * count ≤
          (content.drop form.kind.size).length := by
        rw [List.length_drop]
        omega
      obtain ⟨record, begins⟩ := form.exists_bytes_append first
      obtain ⟨records, counted, continues⟩ := exists_records others
      refine ⟨record :: records, by rw [List.length_cons, counted], ?_⟩
      rw [List.drop_drop, Nat.add_comm, ← Nat.mul_succ] at continues
      rw [List.flatMap_cons, Wire.bytes_append, List.append_assoc,
        ← continues, ← begins]

/-- The pieces of a content: those of its records, and the remainder. -/
theorem exists_pieces (content : List UInt8) :
    ∃ records : List α,
      records.length = content.length / form.kind.size ∧
      pieces form.kind.size content =
        (records.map fun record => Wire.bytes (form.words record)) ++
          pieces form.kind.size (form.remainder content) := by
  have positive := form.kind.size_ne_zero
  obtain ⟨records, counted, split⟩ := form.exists_records
    (Nat.mul_div_le content.length form.kind.size)
  rw [← form.remainder_eq] at split
  have front : (Wire.bytes (records.flatMap form.words)).length %
      form.kind.size = 0 := by
    have size := congrArg List.length split
    rw [List.length_append, form.length_remainder] at size
    have whole := Nat.div_add_mod content.length form.kind.size
    apply Nat.mod_eq_zero_of_dvd
    exact ⟨content.length / form.kind.size, by omega⟩
  refine ⟨records, counted, ?_⟩
  rw [← pieces_bytes_flatMap positive form.length_bytes,
    ← pieces_append positive front, ← split]

/-- The piece that a record was read from. -/
theorem chunks_of_pieces {content : List UInt8} {records : List α}
    (counted : records.length = content.length / form.kind.size)
    (cut : pieces form.kind.size content =
      (records.map fun record => Wire.bytes (form.words record)) ++
        pieces form.kind.size (form.remainder content)) :
    form.Chunks content records where
  count := counted
  fields := by
    intro place record found
    have inside := (List.getElem?_eq_some_iff.mp found).1
    have piece := getElem?_pieces form.kind.size_ne_zero content place
    rw [cut, List.getElem?_append_left (by rw [List.length_map]; exact inside),
      List.getElem?_map, found] at piece
    split at piece
    · apply form.fields_eq_of_bytes_append
      rw [← Option.some.inj piece]
      exact (List.append_nil _).symm
    · cases piece

end FixedForm

namespace FixedRecords

variable {α : Type} (records : FixedRecords α)

theorem items_remainder (content : List UInt8) :
    (pieces records.form.kind.size (records.form.remainder content)).map
        (records.form.item records.tell) =
      records.form.restItems content := by
  have size := records.form.length_remainder content
  have positive := Nat.pos_of_ne_zero records.form.kind.size_ne_zero
  rw [FixedForm.restItems]
  split
  · next whole =>
      rw [whole] at size
      rw [List.length_eq_zero_iff.mp size, pieces_nil]
      rfl
  · next more =>
      have short : (records.form.remainder content).length <
          records.form.kind.size := by
        rw [size]
        exact Nat.mod_lt _ positive
      have nonempty : records.form.remainder content ≠ [] := by
        intro empty
        rw [empty] at size
        exact more size.symm
      rw [pieces_of_length_le nonempty (Nat.le_of_lt short),
        List.map_singleton, records.form.item_of_lt short]
      rfl

/-- The records of a buffer are its chunks, and what is left is told as one
record cut short. -/
theorem exists_chunks (content : List UInt8) :
    ∃ whole : List α, records.form.Chunks content whole ∧
      (pieces records.form.kind.size content).map
          (records.form.item records.tell) =
        whole.map records.tell ++ records.form.restItems content := by
  obtain ⟨whole, counted, cut⟩ := records.form.exists_pieces content
  refine ⟨whole, records.form.chunks_of_pieces counted cut, ?_⟩
  rw [cut, List.map_append, records.items_remainder, List.map_map]
  apply congrArg (· ++ _)
  apply List.map_congr_left
  intro record _
  exact records.form.item_bytes records.tell record

end FixedRecords

/-! ## What a decode tells of the records -/

namespace Presentation

/-- Items without events are shown alike in every context and under all
options. -/
theorem ofItems_of_noEvents (options : Options) (context : Context)
    {items : List Item} (noEvents : ∀ item ∈ items, item.event? = none) :
    ofItems options context items = raw options.humanLines items := by
  induction items with
  | nil => rfl
  | cons item items induction =>
      have first := noEvents item List.mem_cons_self
      have later : ∀ other ∈ items, other.event? = none := by
        intro other member
        exact noEvents other (List.mem_cons_of_mem item member)
      have shown : ofItem options context item =
          (⟨item.lines options.humanLines, item.counts, none⟩, context) := by
        cases item with
        | event event => cases first
        | _ => rfl
      rw [ofItems_cons, shown, induction later]
      simp only [followedBy, raw, List.flatMap_cons, List.map_cons,
        List.sum_cons]

end Presentation

def Movement.lines (human : Bool) (movement : Movement) : List Line :=
  .movement movement ::
    if human then [.human (some movement.timestamp) movement.description]
    else []

def Click.lines (human : Bool) (click : Click) : List Line :=
  .click click ::
    if human then [.human (some click.timestamp) click.description] else []

theorem FixedForm.event?_of_mem_restItems {α : Type} {form : FixedForm α}
    {content : List UInt8} {item : Item}
    (member : item ∈ form.restItems content) : item.event? = none := by
  rw [restItems] at member
  split at member
  · cases member
  · rw [List.mem_singleton.mp member]
    rfl

theorem FixedForm.lines_restItems {α : Type} (form : FixedForm α)
    (human : Bool) (content : List UInt8) :
    (form.restItems content).flatMap (Item.lines human) =
      form.restLines human content := by
  rw [restItems, restLines]
  split
  · rfl
  · exact List.append_nil _

namespace BufferHeader

variable {header : BufferHeader} {format : Format} {options : Options}
  {input : List UInt8} {before after : List Item}

/-- A buffer of records of a fixed size, told of by lines for each record. -/
theorem exists_chunks_told {α : Type} (records : FixedRecords α)
    (lines : Bool → α → List Line)
    (plain : ∀ record, (records.tell record).event? = none)
    (told : ∀ human record,
      (records.tell record).lines human = lines human record)
    (opened : header.Opened format options.supportedVersion input before after)
    (goesOn :
      (Presentation.ofItems options (.fresh .builtin) before).fatal = none)
    (kind : header.kind = records.buffer) :
    ∃ whole : List α,
      records.form.Chunks (header.content input) whole ∧
      header.Tells format options input before
        (whole.flatMap (lines options.humanLines) ++
          records.form.restLines options.humanLines (header.content input)) ∧
      RecordLoop.Runs ⟨records.reading, some records.form.kind.size⟩
        header.index (header.window input)
        (whole.map records.tell ++
          records.form.restItems (header.content input)) := by
  obtain ⟨whole, chunks, items⟩ := records.exists_chunks (header.content input)
  refine ⟨whole, chunks, ?tells, ?runs⟩
  case tells =>
    have known : recordItems? header.index header.kind
        (header.content input) = some (whole.map records.tell ++
          records.form.restItems (header.content input)) := by
      rw [kind, records.recordItems?_eq, items]
    have noEvents : ∀ item ∈ whole.map records.tell ++
        records.form.restItems (header.content input),
          item.event? = none := by
      intro item member
      rcases List.mem_append.mp member with among | left
      · obtain ⟨record, _, rfl⟩ := List.mem_map.mp among
        exact plain record
      · exact FixedForm.event?_of_mem_restItems left
    have each : (whole.map records.tell).flatMap
        (Item.lines options.humanLines) =
          whole.flatMap (lines options.humanLines) := by
      rw [List.flatMap_map]
      exact List.flatMap_congr fun record _ => told _ record
    refine opened.tells goesOn known ?_
    intro context
    rw [Presentation.ofItems_of_noEvents options context noEvents,
      Presentation.raw, List.flatMap_append, each,
      records.form.lines_restItems]
    exact ⟨_, rfl⟩
  case runs =>
    have runs := records.runs header.index (header.window input)
    rw [header.bytes_window, items] at runs
    exact runs

/-- Wherever an input has a buffer of movements or clicks, clipped or not, a
decode that comes so far tells of as many of them as the size goes into its
content, each with the fields of its own bytes, and then of one record cut short
if the size does not divide the content.  The loop over the records ends, and
never gives the buffer up. -/
theorem fixed_size_buffer_chunked
    (opened : header.Opened format options.supportedVersion input before after)
    (goesOn :
      (Presentation.ofItems options (.fresh .builtin) before).fatal = none) :
    (header.tag = 1 → ∃ movements,
      FixedForm.movement.Chunks (header.content input) movements ∧
      header.Tells format options input before
        (movements.flatMap (Movement.lines options.humanLines) ++
          FixedForm.movement.restLines options.humanLines
            (header.content input)) ∧
      RecordLoop.Runs ⟨Reader.readingMovement, some Movement.size⟩ header.index
        (header.window input)
        (movements.map .movement ++
          FixedForm.movement.restItems (header.content input))) ∧
    (header.tag = 2 → ∃ clicks,
      FixedForm.click.Chunks (header.content input) clicks ∧
      header.Tells format options input before
        (clicks.flatMap (Click.lines options.humanLines) ++
          FixedForm.click.restLines options.humanLines
            (header.content input)) ∧
      RecordLoop.Runs ⟨Reader.readingClick, some Click.size⟩ header.index
        (header.window input)
        (clicks.map .click ++
          FixedForm.click.restItems (header.content input))) := by
  constructor
  · intro tagged
    have kind : header.kind = .telemetry := by
      rw [BufferHeader.kind, tagged]
      rfl
    exact exists_chunks_told .telemetry Movement.lines
      (fun _ => rfl) (fun _ _ => rfl) opened goesOn kind
  · intro tagged
    have kind : header.kind = .action := by
      rw [BufferHeader.kind, tagged]
      rfl
    exact exists_chunks_told .action Click.lines
      (fun _ => rfl) (fun _ _ => rfl) opened goesOn kind

end BufferHeader

theorem BufferFrame.action_known :
    (2 : UInt16) = 1 ∨ (2 : UInt16) = 2 ∨ (2 : UInt16) = 3 :=
  .inr (.inl rfl)

/-- A click and the leading fields of another one that is cut short. -/
def BufferFrame.cutClick : BufferFrame where
  tag := 2
  length := 10
  contents := [5, 0, 0, 0, 1, 0, 2, 0, 1, 0, 3, 0, 9, 0, 0, 0, 3, 0, 4, 0]
  known := action_known
  filled := rfl

theorem BufferHeader.fixed_size_buffer_chunked_cutClick :
    BufferHeader.Tells ⟨0, 14, 2, 10⟩ .bareSection .full
      (SectionFrame.single .cutClick).bytes
      [.note (.sectionVersion 1), .note (.sectionId 7),
        .note (.registerCount 0), .note (.bufferCount 1)]
      [.click ⟨5, 1, 2, 1, 3⟩,
        .human (some 5) "Challenge digit 4 was selected.",
        .corrupt ⟨.action, [9, 3, 4]⟩,
        .human (some 9) "Corrupted action."] := by
  have opened :=
    SectionFrame.opened_single .cutClick Options.full.supportedVersion
  obtain ⟨-, clicks⟩ := fixed_size_buffer_chunked opened rfl
  obtain ⟨clicks, chunks, tells, -⟩ := clicks rfl
  have one : FixedForm.click.Chunks
      (content ⟨0, 14, 2, 10⟩ (SectionFrame.single .cutClick).bytes)
      [⟨5, 1, 2, 1, 3⟩] := by
    refine ⟨rfl, ?_⟩
    intro place record found
    cases place with
    | zero =>
        cases found
        decide
    | succ place => cases found
  cases FixedForm.Chunks.unique _ chunks one
  exact tells

end SessionCapture
