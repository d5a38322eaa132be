import SessionCapture.Proofs.Walks

/-!
# A principle of walks

Many properties of walks are kept from step to step, some of them from one stage
of a walk to the next.  Such a property holds of the walk of a whole input if it
holds of the fields that are read and told, of buffers and of the end of a
section; and it holds of a buffer if it holds of the buffer's parts.
-/

namespace SessionCapture

/-- Whether a note tells of a buffer. -/
def Note.isOfBuffer : Note → Bool
  | bufferOffset _ _ | bufferTag _ _ | bufferLength _ _ => true
  | _ => false

namespace Walk

/-- Where a walk is. -/
inductive Stage where
  /-- Outside the buffers of a section. -/
  | between
  /-- Before a buffer of a section, or behind the last one. -/
  | buffers
  /-- A buffer's offset was told. -/
  | announced
  /-- A buffer's kind was told. -/
  | tagged
  /-- A buffer's length was told, and its records come next. -/
  | region

variable {α β : Type}

/-! ## The parts of a walk -/

/-- Reads a field and tells what it is. -/
def told (reader : Walk α) (tell : α → Note) : Walk α := do
  let value ← reader
  note (tell value)
  return value

/-- Tells where a buffer is. -/
def announce (index : Nat) : Walk Unit := do
  note (.bufferOffset index (← peek Span.offset))

/-- The part of a buffer's walk after its header. -/
def ofRegion (index : Nat) (tag : UInt16) (size : Nat) : Walk Unit := do
  ofRecords index tag (← peek (Span.window size)).bytes
  skip size
  emit [.bufferEnd]

/-- The part of a section's walk before its end. -/
def sectionBody : Walk Unit := do
  let _version ← told word .sectionVersion
  let _reserved ← word
  let _id ← told word .sectionId
  let registers ← told dword .registerCount
  times registers.toNat ofRegister
  let buffers ← told dword .bufferCount
  times buffers.toNat ofBuffer

theorem ofBuffer_eq (index : Nat) :
    ofBuffer index = (do
      announce index
      let tag ← told word (.bufferTag index)
      let length ← told dword (.bufferLength index)
      ofRegion index tag (bufferSize length)) := by
  simp only [ofBuffer, announce, told, ofRegion, bind_assoc, pure_bind]

theorem ofRegister_eq (index : Nat) :
    ofRegister index = (do
      let _value ← told word (.register index)
      return ()) := by
  simp only [ofRegister, told, bind_assoc, pure_bind, bind_pure_unit]

theorem ofSection_eq_body :
    ofSection = (do sectionBody; emit [.sectionEnd]) := by
  simp only [ofSection, sectionBody, told, bind_assoc, pure_bind]

theorem ofCapture_eq_told (supported : UInt16) :
    ofCapture supported = (do
      let version ← told word .fileVersion
      if version = supported then
        let _reserved ← word
        let _id ← told word .sessionId
        let sections ← told dword .sectionCount
        times sections.toNat fun _ => ofSection
      else
        stop (.versionMismatch version supported)) := by
  simp only [ofCapture, told, bind_assoc, pure_bind]

/-! ## Buffers that are read to their end, or not -/

section Region

variable {index size : Nat} {tag : UInt16} {region : List UInt8} {span : Span}
  {items : List Item}

theorem ofRecords_of_some
    (known : recordItems? index (BufferKind.ofTag tag) region = some items) :
    ofRecords index tag region = emit items := by
  rw [ofRecords, known]

theorem ofRecords_of_none
    (unknown : recordItems? index (BufferKind.ofTag tag) region = none) :
    ofRecords index tag region = stop (.unknownBufferType index tag) := by
  rw [ofRecords, unknown]

theorem run_ofRegion_of_unknown
    (unknown : recordItems? index (BufferKind.ofTag tag)
      (span.window size).bytes = none) :
    (ofRegion index tag size).run span =
      ⟨[], .error (.unknownBufferType index tag)⟩ := by
  rw [ofRegion, run_peek_bind, ofRecords_of_none unknown, run_stop_bind]

theorem run_ofRegion_of_le (enough : size ≤ span.remaining)
    (known : recordItems? index (BufferKind.ofTag tag)
      (span.window size).bytes = some items) :
    (ofRegion index tag size).run span =
      ⟨items ++ [.bufferEnd], .ok ((), span.drop size)⟩ := by
  rw [ofRegion, run_peek_bind, ofRecords_of_some known, run_emit_bind,
    run_bind_of_ok (run_skip_of_le enough)]
  rfl

theorem run_ofRegion_of_lt (short : span.remaining < size)
    (known : recordItems? index (BufferKind.ofTag tag)
      (span.window size).bytes = some items) :
    (ofRegion index tag size).run span =
      ⟨items, .error (.truncated ⟨span.offset, size, span.remaining⟩)⟩ := by
  rw [ofRegion, run_peek_bind, ofRecords_of_some known, run_emit_bind,
    run_bind_of_error (run_skip_of_lt short)]
  change (⟨items ++ [], _⟩ : Trace (Unit × Span)) = _
  rw [List.append_nil]

/-- What becomes of a region: its kind is not known, or its records are met and
the input is too short for it, or it is passed. -/
inductive RegionTrace (index : Nat) (tag : UInt16) (size : Nat) (span : Span) :
    Trace (Unit × Span) → Prop where
  | unknown :
      recordItems? index (BufferKind.ofTag tag) (span.window size).bytes =
        none →
      RegionTrace index tag size span
        ⟨[], .error (.unknownBufferType index tag)⟩
  | cutOff {items : List Item} :
      recordItems? index (BufferKind.ofTag tag) (span.window size).bytes =
        some items →
      span.remaining < size →
      RegionTrace index tag size span
        ⟨items, .error (.truncated ⟨span.offset, size, span.remaining⟩)⟩
  | passed {items : List Item} :
      recordItems? index (BufferKind.ofTag tag) (span.window size).bytes =
        some items →
      size ≤ span.remaining →
      RegionTrace index tag size span
        ⟨items ++ [.bufferEnd], .ok ((), span.drop size)⟩

theorem regionTrace (index : Nat) (tag : UInt16) (size : Nat) (span : Span) :
    RegionTrace index tag size span ((ofRegion index tag size).run span) := by
  cases known : recordItems? index (BufferKind.ofTag tag)
      (span.window size).bytes with
  | none =>
      rw [run_ofRegion_of_unknown known]
      exact .unknown known
  | some items =>
      by_cases enough : size ≤ span.remaining
      · rw [run_ofRegion_of_le enough known]
        exact .passed known enough
      · have short := Nat.not_le.mp enough
        rw [run_ofRegion_of_lt short known]
        exact .cutOff known short

/-- Whatever comes of a region whose records are known, they are met first. -/
theorem exists_items_ofRegion
    (known : recordItems? index (BufferKind.ofTag tag)
      (span.window size).bytes = some items) :
    ∃ later, ((ofRegion index tag size).run span).items = items ++ later := by
  have became := regionTrace index tag size span
  generalize (ofRegion index tag size).run span = trace at became ⊢
  cases became with
  | unknown none => cases none.symm.trans known
  | cutOff some _ =>
      cases some.symm.trans known
      exact ⟨[], (List.append_nil items).symm⟩
  | passed some _ =>
      cases some.symm.trans known
      exact ⟨_, rfl⟩

end Region

/-! ## Properties kept from step to step -/

/-- A property of walks from one stage to another that a sequence of walks has
if each of them has it. -/
structure Composes
    (holds : (α : Type) → Stage → Stage → Walk α → Prop) : Prop where
  pure : ∀ {α : Type} (stage : Stage) (value : α),
    holds α stage stage (Pure.pure value)
  bind : ∀ {α β : Type} {first middle last : Stage} {walk : Walk α}
    {next : α → Walk β}, holds α first middle walk →
      (∀ value, holds β middle last (next value)) →
        holds β first last (walk >>= next)

/-- What is to be shown of the parts of a buffer. -/
structure CarriesBuffer
    (holds : (α : Type) → Stage → Stage → Walk α → Prop) : Prop
    extends Composes holds where
  offset : ∀ index, holds Unit .buffers .announced (announce index)
  tag : ∀ index,
    holds UInt16 .announced .tagged (told Walk.word (.bufferTag index))
  length : ∀ index,
    holds UInt32 .tagged .region (told Walk.dword (.bufferLength index))
  region : ∀ index tag size,
    holds Unit .region .buffers (ofRegion index tag size)

/-- What is to be shown of the fields and the buffers of a section. -/
structure CarriesBody
    (holds : (α : Type) → Stage → Stage → Walk α → Prop) : Prop
    extends Composes holds where
  reserved : holds UInt16 .between .between Walk.word
  word : ∀ {tell : UInt16 → Note},
    (∀ value, (tell value).isOfBuffer = false) →
      holds UInt16 .between .between (told Walk.word tell)
  dword : ∀ {tell : UInt32 → Note},
    (∀ value, (tell value).isOfBuffer = false) →
      holds UInt32 .between .between (told Walk.dword tell)
  bufferCount :
    holds UInt32 .between .buffers (told Walk.dword .bufferCount)
  buffer : ∀ index, holds Unit .buffers .buffers (ofBuffer index)

/-- What is to be shown of a whole input. -/
structure Carries
    (holds : (α : Type) → Stage → Stage → Walk α → Prop) : Prop
    extends CarriesBody holds where
  sectionEnd : holds Unit .buffers .between (emit [.sectionEnd])
  otherVersion : ∀ version supported,
    holds Unit .between .between (stop (.versionMismatch version supported))

variable {holds : (α : Type) → Stage → Stage → Walk α → Prop}

theorem Composes.told (composes : Composes holds) {first middle last : Stage}
    {reader : Walk α} {tell : α → Note} (read : holds α first middle reader)
    (note : ∀ value, holds Unit middle last (note (tell value))) :
    holds α first last (told reader tell) :=
  composes.bind read fun value =>
    composes.bind (note value) fun _ => composes.pure last value

theorem Composes.timesFrom (composes : Composes holds) (stage : Stage)
    {step : Nat → Walk Unit}
    (each : ∀ index, holds Unit stage stage (step index))
    (index count : Nat) :
    holds Unit stage stage (timesFrom index count step) := by
  induction count generalizing index with
  | zero => exact composes.pure stage ()
  | succ count induction =>
      rw [timesFrom_succ]
      exact composes.bind (each index) fun _ => induction (index + 1)

theorem CarriesBuffer.ofBuffer (carries : CarriesBuffer holds) (index : Nat) :
    holds Unit .buffers .buffers (ofBuffer index) := by
  rw [ofBuffer_eq]
  refine carries.bind (carries.offset index) fun _ => ?_
  refine carries.bind (carries.tag index) fun tag => ?_
  refine carries.bind (carries.length index) fun length => ?_
  exact carries.region index tag (bufferSize length)

theorem CarriesBody.ofRegister (carries : CarriesBody holds) (index : Nat) :
    holds Unit .between .between (ofRegister index) := by
  rw [ofRegister_eq]
  exact carries.bind (carries.word fun _ => rfl) fun _ => carries.pure _ ()

theorem CarriesBody.sectionBody (carries : CarriesBody holds) :
    holds Unit .between .buffers sectionBody := by
  refine carries.bind (carries.word fun _ => rfl) fun version => ?_
  refine carries.bind carries.reserved fun reserved => ?_
  refine carries.bind (carries.word fun _ => rfl) fun id => ?_
  refine carries.bind (carries.dword fun _ => rfl) fun registers => ?_
  refine carries.bind (carries.timesFrom _ carries.ofRegister 0 _) fun _ => ?_
  refine carries.bind carries.bufferCount fun buffers => ?_
  exact carries.timesFrom _ carries.buffer 0 _

theorem Carries.ofSection (carries : Carries holds) :
    holds Unit .between .between ofSection := by
  rw [ofSection_eq_body]
  exact carries.bind carries.sectionBody fun _ => carries.sectionEnd

theorem Carries.ofCapture (carries : Carries holds) (supported : UInt16) :
    holds Unit .between .between (ofCapture supported) := by
  rw [ofCapture_eq_told]
  refine carries.bind (carries.word fun _ => rfl) fun version => ?_
  split
  · refine carries.bind carries.reserved fun reserved => ?_
    refine carries.bind (carries.word fun _ => rfl) fun id => ?_
    refine carries.bind (carries.dword fun _ => rfl) fun sections => ?_
    exact carries.timesFrom _ (fun _ => carries.ofSection) 0 _
  · exact carries.otherVersion version supported

/-- What is kept from step to step holds of the walk of a whole input. -/
theorem Carries.ofFormat (carries : Carries holds) (format : Format)
    (supported : UInt16) :
    holds Unit .between .between (format.walk supported) := by
  cases format with
  | capture => exact carries.ofCapture supported
  | bareSection => exact carries.ofSection

/-! ## Properties without stages -/

/-- A property of walks that the reads of a header and the notes outside buffers
have, and that a sequence of walks has if each of them has it. -/
structure Keeps (property : (α : Type) → Walk α → Prop) : Prop where
  pure : ∀ {α : Type} (value : α), property α (Pure.pure value)
  bind : ∀ {α β : Type} {walk : Walk α} {next : α → Walk β},
    property α walk → (∀ value, property β (next value)) →
      property β (walk >>= next)
  word : property UInt16 Walk.word
  dword : property UInt32 Walk.dword
  note : ∀ {found : Note}, found.isOfBuffer = false →
    property Unit (Walk.note found)

namespace Keeps

variable {property : (α : Type) → Walk α → Prop} (keeps : Keeps property)

include keeps

theorem composes : Composes fun α _ _ walk => property α walk where
  pure _ value := keeps.pure value
  bind := keeps.bind

theorem told {reader : Walk α} {tell : α → Note} (read : property α reader)
    (note : ∀ value, property Unit (Walk.note (tell value))) :
    property α (told reader tell) :=
  keeps.bind read fun value =>
    keeps.bind (note value) fun _ => keeps.pure value

theorem carriesBuffer (offset : ∀ index, property Unit (announce index))
    (tag : ∀ index value, property Unit (Walk.note (.bufferTag index value)))
    (length : ∀ index value,
      property Unit (Walk.note (.bufferLength index value)))
    (region : ∀ index tag size, property Unit (ofRegion index tag size)) :
    CarriesBuffer fun α _ _ walk => property α walk where
  toComposes := keeps.composes
  offset := offset
  tag index := keeps.told keeps.word (tag index)
  length index := keeps.told keeps.dword (length index)
  region := region

theorem carriesBody (buffer : ∀ index, property Unit (ofBuffer index)) :
    CarriesBody fun α _ _ walk => property α walk where
  toComposes := keeps.composes
  reserved := keeps.word
  word outside := keeps.told keeps.word fun value => keeps.note (outside value)
  dword outside :=
    keeps.told keeps.dword fun value => keeps.note (outside value)
  bufferCount := keeps.told keeps.dword fun _ => keeps.note rfl
  buffer := buffer

theorem carries (buffer : ∀ index, property Unit (ofBuffer index))
    (sectionEnd : property Unit (emit [.sectionEnd]))
    (otherVersion : ∀ version supported,
      property Unit (stop (.versionMismatch version supported))) :
    Carries fun α _ _ walk => property α walk where
  toCarriesBody := keeps.carriesBody buffer
  sectionEnd := sectionEnd
  otherVersion := otherVersion

end Keeps

end Walk

end SessionCapture
