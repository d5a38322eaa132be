import SessionCapture.Proofs.LongerInput

/-!
# The same bytes elsewhere

A walk depends on where its span begins only in the offsets that it states: that
of each buffer, and that of a read past the end of the input.  Run on the same
bytes further on, it meets the same items and ends in the same way, with these
offsets greater by the distance.
-/

namespace SessionCapture

/-! ## What states an offset -/

def Span.displaced (distance : Nat) (span : Span) : Span :=
  ⟨span.offset + distance, span.bytes⟩

def Truncation.displaced (distance : Nat) (truncation : Truncation) :
    Truncation :=
  { truncation with offset := truncation.offset + distance }

def Fatal.displaced (distance : Nat) : Fatal → Fatal
  | truncated truncation => truncated (truncation.displaced distance)
  | fatal => fatal

def Note.displaced (distance : Nat) : Note → Note
  | bufferOffset index offset => bufferOffset index (offset + distance)
  | found => found

def Item.displaced (distance : Nat) : Item → Item
  | note found => note (found.displaced distance)
  | item => item

theorem Note.displaced_of_outside {found : Note}
    (outside : found.isOfBuffer = false) (distance : Nat) :
    found.displaced distance = found := by
  cases found with
  | bufferOffset index offset => cases outside
  | _ => rfl

/-- Records state no offset. -/
theorem Item.displaced_of_isRecord {item : Item}
    (record : item.isRecord = true) (distance : Nat) :
    item.displaced distance = item := by
  cases item with
  | note found => cases record
  | _ => rfl

theorem Item.map_displaced_of_isRecord {items : List Item}
    (records : ∀ item ∈ items, item.isRecord = true) (distance : Nat) :
    items.map (displaced distance) = items := by
  conv => rhs; rw [← List.map_id items]
  apply List.map_congr_left
  intro item member
  exact displaced_of_isRecord (records item member) distance

namespace Trace

variable {α : Type}

def displaced (distance : Nat) (trace : Trace (α × Span)) :
    Trace (α × Span) where
  items := trace.items.map (Item.displaced distance)
  result :=
    match trace.result with
    | .ok (value, left) => .ok (value, left.displaced distance)
    | .error fatal => .error (fatal.displaced distance)

theorem displaced_after (distance : Nat) (items : List Item)
    (trace : Trace (α × Span)) :
    (trace.after items).displaced distance =
      (trace.displaced distance).after
        (items.map (Item.displaced distance)) := by
  simp only [displaced, after, List.map_append]

end Trace

/-! ## Walks -/

namespace Walk

variable {α β : Type}

/-- The walk runs further on as it runs here, and states offsets of there. -/
def Displaces (walk : Walk α) : Prop :=
  ∀ (distance : Nat) (span : Span),
    walk.run (span.displaced distance) = (walk.run span).displaced distance

theorem Displaces.pure (value : α) :
    Displaces (Pure.pure value : Walk α) := by
  intro distance span
  rfl

theorem Displaces.emit {items : List Item}
    (unplaced : ∀ distance, items.map (Item.displaced distance) = items) :
    Displaces (emit items) := by
  intro distance span
  rw [run_emit, run_emit, Trace.displaced, unplaced]

theorem Displaces.note {found : Note}
    (unplaced : ∀ distance, found.displaced distance = found) :
    Displaces (note found) := by
  apply Displaces.emit
  intro distance
  rw [List.map_singleton, Item.displaced, unplaced]

theorem Displaces.stop {fatal : Fatal}
    (unplaced : ∀ distance, fatal.displaced distance = fatal) :
    Displaces (stop fatal : Walk α) := by
  intro distance span
  simp only [run_stop, Trace.displaced, List.map_nil, unplaced]

theorem Displaces.read {reader : Span → Except Truncation (α × Span)}
    (success : ∀ {span value left}, reader span = .ok (value, left) →
      ∀ distance, reader (span.displaced distance) =
        .ok (value, left.displaced distance))
    (failure : ∀ {span truncation}, reader span = .error truncation →
      ∀ distance, reader (span.displaced distance) =
        .error (truncation.displaced distance)) :
    Displaces (read reader) := by
  intro distance span
  cases found : reader span with
  | ok reached =>
      rw [run_read_of_ok found, run_read_of_ok (success found distance)]
      rfl
  | error truncation =>
      rw [run_read_of_error found,
        run_read_of_error (failure found distance)]
      rfl

theorem Displaces.word : Displaces word := by
  apply Displaces.read
  · intro span value left success distance
    obtain ⟨offset, content⟩ := span
    unfold Span.word at success
    split at success
    · next low high rest begins =>
        cases success
        cases begins
        simp [Span.word, Span.displaced, Nat.add_right_comm]
    · cases success
  · intro span truncation failure distance
    unfold Span.word at failure
    split at failure
    · cases failure
    · next short =>
        cases failure
        unfold Span.word
        split
        · next begins => exact absurd begins (short _ _ _)
        · rfl

theorem Displaces.dword : Displaces dword := by
  apply Displaces.read
  · intro span value left success distance
    obtain ⟨offset, content⟩ := span
    unfold Span.dword at success
    split at success
    · next begins =>
        cases success
        cases begins
        simp [Span.dword, Span.displaced, Nat.add_right_comm]
    · cases success
  · intro span truncation failure distance
    unfold Span.dword at failure
    split at failure
    · cases failure
    · next short =>
        cases failure
        unfold Span.dword
        split
        · next begins => exact absurd begins (short _ _ _ _ _)
        · rfl

theorem Displaces.skip (count : Nat) : Displaces (skip count) := by
  intro distance span
  by_cases enough : count ≤ span.remaining
  · rw [run_skip_of_le enough, run_skip_of_le]
    · simp [Trace.displaced, Span.drop, Span.displaced, Nat.add_right_comm]
    · exact enough
  · have short := Nat.not_le.mp enough
    rw [run_skip_of_lt short, run_skip_of_lt]
    · rfl
    · exact short

theorem Displaces.bind {walk : Walk α} {next : α → Walk β}
    (first : Displaces walk) (later : ∀ value, Displaces (next value)) :
    Displaces (walk >>= next) := by
  intro distance span
  have begins := first distance span
  cases ran : walk.run span with
  | mk items result =>
      rw [ran] at begins
      cases result with
      | error fatal =>
          rw [run_bind_of_error ran, run_bind_of_error begins]
          rfl
      | ok reached =>
          rw [run_bind_of_ok ran, run_bind_of_ok begins, later,
            Trace.displaced_after]

theorem Displaces.ofRecords (index : Nat) (tag : UInt16)
    (region : List UInt8) : Displaces (ofRecords index tag region) := by
  cases found : recordItems? index (BufferKind.ofTag tag) region with
  | none =>
      rw [ofRecords_of_none found]
      exact .stop fun _ => rfl
  | some items =>
      rw [ofRecords_of_some found]
      exact .emit
        (Item.map_displaced_of_isRecord (isRecord_of_mem_recordItems? found))

theorem Displaces.ofRegion (index : Nat) (tag : UInt16) (size : Nat) :
    Displaces (ofRegion index tag size) := by
  intro distance span
  -- the bytes of the window are the same in both places
  have records := Displaces.ofRecords index tag (span.window size).bytes
  have ending : Displaces (Walk.emit [.bufferEnd]) := .emit fun _ => rfl
  have region := records.bind fun _ =>
    (Displaces.skip size).bind fun _ => ending
  exact region distance span

/-- A buffer is announced by the offset where it stands. -/
theorem Displaces.announce (index : Nat) : Displaces (announce index) := by
  intro distance span
  rfl

theorem Displaces.keeps : Keeps fun _ walk => Displaces walk where
  pure := .pure
  bind := .bind
  word := .word
  dword := .dword
  note outside := .note (Note.displaced_of_outside outside)

theorem Displaces.ofBuffer (index : Nat) : Displaces (ofBuffer index) := by
  have buffer := Displaces.keeps.carriesBuffer .announce
    (fun _ _ => .note fun _ => rfl) (fun _ _ => .note fun _ => rfl) .ofRegion
  exact buffer.ofBuffer index

theorem Displaces.carries : Carries fun _ _ _ walk => Displaces walk :=
  Displaces.keeps.carries .ofBuffer (.emit fun _ => rfl)
    fun _ _ => .stop fun _ => rfl

end Walk

end SessionCapture
