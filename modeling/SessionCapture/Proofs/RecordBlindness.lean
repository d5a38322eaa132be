import SessionCapture.Proofs.Acceptance

/-!
# Records make no difference to the walk

The notes of a walk say where it found the records of buffers.  Two inputs of
one size that differ only there are walked alike: the same notes, the same ends
of buffers and sections, the same bytes left or the same fatal condition.  What
a step looks at lies before every region it will still find, which is the
invariant that carries the agreement of the inputs from step to step.
-/

namespace SessionCapture

/-- A stretch of the input. -/
structure Region where
  start : Nat
  size : Nat
deriving DecidableEq, Repr

namespace Region

def Covers (region : Region) (position : Nat) : Prop :=
  region.start ≤ position ∧ position < region.start + region.size

instance (region : Region) (position : Nat) :
    Decidable (region.Covers position) :=
  inferInstanceAs (Decidable (_ ∧ _))

end Region

/-- The records of a buffer at `offset`, whose tag and length come next. -/
def regionAt (offset : Nat) : List Note → List Region
  | .bufferTag _ tag :: .bufferLength _ length :: _ =>
      if tag = 1 ∨ tag = 2 ∨ tag = 3 then [⟨offset + 6, bufferSize length⟩]
      else []
  | _ => []

/-- The declared stretches of the records of buffers of a known kind. -/
def recordRegions : List Note → List Region
  | [] => []
  | .bufferOffset _ offset :: rest =>
      regionAt offset rest ++ recordRegions rest
  | _ :: rest => recordRegions rest

namespace Trace

variable {α : Type}

def regions (trace : Trace α) : List Region :=
  recordRegions (trace.items.filterMap Item.note?)

/-- A trace without the records, with only the number of bytes left. -/
def outline (trace : Trace (Unit × Span)) : Trace Nat :=
  ⟨trace.items.filter fun item => !item.isRecord,
    trace.result.map (·.2.remaining)⟩

theorem outline_after (items : List Item) (trace : Trace (Unit × Span)) :
    (trace.after items).outline =
      trace.outline.after (items.filter fun item => !item.isRecord) := by
  rw [outline, items_after, List.filter_append]
  rfl

theorem regions_after_note {found : Note} (trace : Trace α)
    (elsewhere : ∀ rest, recordRegions (found :: rest) = recordRegions rest) :
    (trace.after [.note found]).regions = trace.regions :=
  elsewhere _

end Trace

/-! ## Agreement outside regions -/

/-- Two spans of one size at one offset, with the same bytes but for those
inside the regions. -/
structure Span.AgreeOutside (regions : List Region) (left right : Span) :
    Prop where
  offset : left.offset = right.offset
  remaining : left.remaining = right.remaining
  bytes : ∀ index < left.remaining,
    (∀ region ∈ regions, ¬ region.Covers (left.offset + index)) →
      left.bytes[index]? = right.bytes[index]?

namespace Span.AgreeOutside

variable {region : Region} {regions : List Region} {left right : Span}
  {count : Nat}

theorem eq_of_nil (agree : AgreeOutside [] left right) : left = right := by
  obtain ⟨leftOffset, leftBytes⟩ := left
  obtain ⟨rightOffset, rightBytes⟩ := right
  obtain ⟨offset, remaining, bytes⟩ := agree
  have same : leftBytes = rightBytes := by
    apply List.ext_getElem?
    intro index
    by_cases inside : index < leftBytes.length
    · apply bytes index inside
      intro region member
      cases member
    · have outside : rightBytes.length ≤ index := by
        change leftBytes.length = rightBytes.length at remaining
        omega
      rw [List.getElem?_eq_none (Nat.not_lt.mp inside),
        List.getElem?_eq_none outside]
  rw [same]
  exact congrArg (Span.mk · rightBytes) offset

/-- Bytes before every region are the same. -/
theorem take_eq (agree : AgreeOutside regions left right)
    (uncovered : ∀ region ∈ regions, left.offset + count ≤ region.start) :
    left.bytes.take count = right.bytes.take count := by
  apply List.ext_getElem?
  intro index
  rw [List.getElem?_take, List.getElem?_take]
  split
  · next before =>
      by_cases inside : index < left.remaining
      · apply agree.bytes index inside
        intro region member covers
        have begins := uncovered region member
        have reached := covers.1
        omega
      · have outside : right.bytes.length ≤ index := by
          have same := agree.remaining
          change left.remaining = right.bytes.length at same
          omega
        rw [List.getElem?_eq_none (Nat.not_lt.mp inside),
          List.getElem?_eq_none outside]
  · rfl

theorem drop (agree : AgreeOutside regions left right) (count : Nat) :
    AgreeOutside regions (left.drop count) (right.drop count) := by
  obtain ⟨offset, remaining, bytes⟩ := agree
  refine ⟨?offset, ?remaining, ?bytes⟩
  case offset =>
    exact congrArg (· + count) offset
  case remaining =>
    change left.bytes.length = right.bytes.length at remaining
    change (left.bytes.drop count).length = (right.bytes.drop count).length
    rw [List.length_drop, List.length_drop, remaining]
  case bytes =>
    intro index inside uncovered
    change index < (left.bytes.drop count).length at inside
    rw [List.length_drop] at inside
    change (left.bytes.drop count)[index]? = (right.bytes.drop count)[index]?
    rw [List.getElem?_drop, List.getElem?_drop]
    apply bytes (count + index)
    · change count + index < left.bytes.length
      omega
    · intro region member covers
      apply uncovered region member
      change region.Covers (left.offset + count + index)
      rw [Nat.add_assoc]
      exact covers

/-- A region that has been passed does not matter any more. -/
theorem of_passed (agree : AgreeOutside (region :: regions) left right)
    (passed : region.start + region.size ≤ left.offset) :
    AgreeOutside regions left right := by
  refine ⟨agree.offset, agree.remaining, ?_⟩
  intro index inside uncovered
  apply agree.bytes index inside
  intro other member covers
  rcases List.mem_cons.mp member with rfl | later
  · have ended := covers.2
    omega
  · exact uncovered other later covers

end Span.AgreeOutside

/-! ## Blind walks -/

namespace Walk

/-- A walk that finds regions only ahead of it, and to which the bytes inside
them make no difference. -/
structure Blind (walk : Walk Unit) : Prop where
  ahead : ∀ span, ∀ region ∈ (walk.run span).regions,
    span.offset ≤ region.start
  alike : ∀ left right,
    Span.AgreeOutside (walk.run left).regions left right →
      (walk.run left).outline = (walk.run right).outline

variable {α : Type} {walk next : Walk Unit}

/-- Where a walk finds no region, agreeing spans are the same span. -/
theorem outline_eq_of_no_regions {left right : Span}
    (none : (walk.run left).regions = [])
    (agree : Span.AgreeOutside (walk.run left).regions left right) :
    (walk.run left).outline = (walk.run right).outline := by
  rw [none] at agree
  rw [agree.eq_of_nil]

theorem Blind.of_no_regions (none : ∀ span, (walk.run span).regions = []) :
    Blind walk := by
  constructor
  · intro span region member
    rw [none span] at member
    cases member
  · intro left right agree
    exact outline_eq_of_no_regions (none left) agree

theorem Blind.pure : Blind (Pure.pure ()) :=
  .of_no_regions fun _ => rfl

theorem Blind.stop (fatal : Fatal) : Blind (stop fatal) :=
  .of_no_regions fun _ => rfl

/-- A walk that begins by reading so many bytes is blind if it is blind after
any of their values. -/
theorem Blind.of_reading {size : Nat} {form : α → List UInt8}
    {continued : α → Walk Unit} (sized : ∀ value, (form value).length = size)
    (injective : ∀ {first second}, form first = form second → first = second)
    (begins : ∀ {content : List UInt8}, size ≤ content.length →
      ∃ value rest, content = form value ++ rest)
    (continues : ∀ offset value rest,
      walk.run ⟨offset, form value ++ rest⟩ =
        (continued value).run ⟨offset + size, rest⟩)
    (stops : ∀ span : Span, span.remaining < size →
      walk.run span =
        ⟨[], .error (.truncated ⟨span.offset, size, span.remaining⟩)⟩)
    (blind : ∀ value, Blind (continued value)) : Blind walk := by
  constructor
  · intro span region member
    by_cases short : span.remaining < size
    · rw [stops span short] at member
      cases member
    · obtain ⟨offset, content⟩ := span
      obtain ⟨value, rest, rfl⟩ := begins (Nat.not_lt.mp short)
      rw [continues] at member
      exact Nat.le_trans (Nat.le_add_right _ _)
        ((blind value).ahead _ region member)
  · intro left right agree
    by_cases short : left.remaining < size
    · have alsoShort : right.remaining < size := by
        rw [← agree.remaining]
        exact short
      rw [stops left short, stops right alsoShort, agree.offset,
        agree.remaining]
    · have alsoLong : size ≤ right.remaining := by
        rw [← agree.remaining]
        exact Nat.not_lt.mp short
      obtain ⟨offset, content⟩ := left
      obtain ⟨rightOffset, rightContent⟩ := right
      obtain ⟨value, rest, rfl⟩ := begins (Nat.not_lt.mp short)
      obtain ⟨other, rightRest, rfl⟩ := begins alsoLong
      cases agree.offset
      rw [continues] at agree ⊢
      have front := agree.take_eq ((blind value).ahead _)
      have back := agree.drop size
      dsimp only [Span.drop] at front back
      rw [List.take_left' (sized value), List.take_left' (sized other)] at front
      rw [List.drop_left' (sized value), List.drop_left' (sized other)] at back
      cases injective front
      rw [continues]
      exact (blind value).alike _ _ back

theorem Blind.word_bind {continued : UInt16 → Walk Unit}
    (blind : ∀ value, Blind (continued value)) :
    Blind (word >>= continued) := by
  have sized (value : UInt16) : (Wire.bytes [value]).length = 2 := rfl
  refine .of_reading sized ?_ Wire.exists_word_append ?_ ?_ blind
  · intro first second same
    exact List.singleton_inj.mp (Wire.bytes_injective same)
  · intro offset value rest
    exact run_word_bind offset value rest continued
  · intro span short
    exact run_bind_of_error (run_word_of_short short)

theorem Blind.dword_bind {continued : UInt32 → Walk Unit}
    (blind : ∀ value, Blind (continued value)) :
    Blind (dword >>= continued) := by
  have sized (value : UInt32) :
      (Wire.bytes (Wire.splitDword value)).length = 4 := rfl
  refine .of_reading sized ?_ Wire.exists_dword_append ?_ ?_ blind
  · intro first second same
    exact Wire.splitDword_injective (Wire.bytes_injective same)
  · intro offset value rest
    exact run_dword_bind offset value rest continued
  · intro span short
    exact run_bind_of_error (run_dword_of_short short)

/-- Notes other than the offset of a buffer. -/
theorem Blind.note_bind {found : Note} {continued : Unit → Walk Unit}
    (elsewhere : ∀ rest, recordRegions (found :: rest) = recordRegions rest)
    (blind : Blind (continued ())) : Blind (note found >>= continued) := by
  constructor
  · intro span region member
    rw [run_note_bind, Trace.regions_after_note _ elsewhere] at member
    exact blind.ahead span region member
  · intro left right agree
    rw [run_note_bind, Trace.regions_after_note _ elsewhere] at agree
    rw [run_note_bind, run_note_bind, Trace.outline_after,
      Trace.outline_after, blind.alike left right agree]

theorem Blind.emit_bind {items : List Item} {continued : Unit → Walk Unit}
    (noNote : items.filterMap Item.note? = [])
    (blind : Blind (continued ())) : Blind (emit items >>= continued) := by
  have regions (span : Span) :
      ((emit items >>= continued).run span).regions =
        ((continued ()).run span).regions := by
    rw [run_emit_bind, Trace.regions, Trace.items_after,
      List.filterMap_append, noNote]
    rfl
  constructor
  · intro span region member
    rw [regions] at member
    exact blind.ahead span region member
  · intro left right agree
    rw [regions] at agree
    rw [run_emit_bind, run_emit_bind, Trace.outline_after,
      Trace.outline_after, blind.alike left right agree]

/-! ## Buffers -/

/-- A span too short for the header of a buffer ends the walk before a region is
found. -/
theorem run_ofBuffer_of_noHeader (index : Nat) {span : Span}
    (short : span.remaining < 6) :
    ∃ items fatal, (ofBuffer index).run span = ⟨items, .error fatal⟩ ∧
      recordRegions (items.filterMap Item.note?) = [] := by
  obtain ⟨items, fatal, ran, met⟩ := run_ofBuffer_of_short index short
  refine ⟨items, fatal, ran, ?_⟩
  rcases met with rfl | ⟨tag, rfl⟩
  · rfl
  · rfl

section Buffer

variable {index offset : Nat} {tag : UInt16} {length : UInt32}
  {items : List Item}

/-- The region of a buffer's records comes before those found later. -/
theorem regions_after_buffer (known : tag = 1 ∨ tag = 2 ∨ tag = 3)
    (noNote : items.filterMap Item.note? = []) (trace : Trace α) :
    (trace.after ([.note (.bufferOffset index offset),
      .note (.bufferTag index tag), .note (.bufferLength index length)] ++
        items)).regions =
      ⟨offset + 6, bufferSize length⟩ :: trace.regions := by
  have found : regionAt offset
      (.bufferTag index tag :: .bufferLength index length ::
        trace.items.filterMap Item.note?) =
          [⟨offset + 6, bufferSize length⟩] := if_pos known
  rw [Trace.regions, Trace.items_after, List.filterMap_append,
    List.filterMap_append, noNote, List.append_nil]
  change regionAt offset (.bufferTag index tag ::
    .bufferLength index length :: trace.items.filterMap Item.note?) ++
      trace.regions = _
  rw [found]
  rfl

end Buffer

theorem outline_after_buffer {index offset : Nat} {tag : UInt16}
    {length : UInt32} {items : List Item}
    (records : ∀ item ∈ items, item.isRecord = true)
    (trace : Trace (Unit × Span)) :
    (trace.after ([.note (.bufferOffset index offset),
      .note (.bufferTag index tag), .note (.bufferLength index length)] ++
        items)).outline =
      trace.outline.after [.note (.bufferOffset index offset),
        .note (.bufferTag index tag), .note (.bufferLength index length)] := by
  have none : (items.filter fun item => !item.isRecord) = [] := by
    rw [List.filter_eq_nil_iff]
    intro item member
    rw [records item member]
    exact Bool.false_ne_true
  rw [Trace.outline_after, List.filter_append, none, List.append_nil]
  rfl

/-- What comes before and after the records of a buffer of a known kind does not
depend on them. -/
theorem run_ofBuffer_bind_of_known (index offset : Nat) {tag : UInt16}
    (known : tag = 1 ∨ tag = 2 ∨ tag = 3) (length : UInt32)
    (rest : List UInt8) (continued : Unit → Walk Unit) :
    ∃ items, (∀ item ∈ items, item.isRecord = true) ∧
      (ofBuffer index >>= continued).run
          ⟨offset, Wire.bytes ([tag] ++ Wire.splitDword length) ++ rest⟩ =
        ((skip (bufferSize length) >>= fun _ =>
            emit [.bufferEnd] >>= continued).run ⟨offset + 6, rest⟩).after
          ([.note (.bufferOffset index offset), .note (.bufferTag index tag),
            .note (.bufferLength index length)] ++ items) := by
  have readable : (recordItems? index (BufferKind.ofTag tag)
      (rest.take (bufferSize length))).isSome :=
    recordItems?_isSome_iff.mpr known
  obtain ⟨items, found⟩ := Option.isSome_iff_exists.mp readable
  refine ⟨items, isRecord_of_mem_recordItems? found, ?_⟩
  rw [run_bind_of_after (run_ofBuffer_header index offset tag length rest),
    ofRecords_of_some found, bind_assoc, run_emit_bind]
  simp only [bind_assoc, Trace.after, List.append_assoc]

theorem run_ofBuffer_bind_of_unknown (index offset : Nat) {tag : UInt16}
    (unknown : ¬ (tag = 1 ∨ tag = 2 ∨ tag = 3)) (length : UInt32)
    (rest : List UInt8) (continued : Unit → Walk Unit) :
    ((ofBuffer index >>= continued).run
      ⟨offset, Wire.bytes ([tag] ++ Wire.splitDword length) ++ rest⟩).regions =
        [] := by
  have found : recordItems? index (BufferKind.ofTag tag)
      (rest.take (bufferSize length)) = none := by
    rw [← Option.not_isSome_iff_eq_none, recordItems?_isSome_iff]
    exact unknown
  rw [run_bind_of_after (run_ofBuffer_header index offset tag length rest),
    ofRecords_of_none found, bind_assoc, run_stop_bind]
  change regionAt offset [.bufferTag index tag, .bufferLength index length] ++
    [] = []
  rw [List.append_nil]
  exact if_neg unknown

/-- Regions found after skipped bytes lie behind them. -/
theorem ahead_of_skip {size : Nat} {continued : Unit → Walk Unit}
    (blind : Blind (continued ())) (span : Span) :
    ∀ region ∈ ((skip size >>= continued).run span).regions,
      span.offset + size ≤ region.start := by
  intro region member
  by_cases enough : size ≤ span.remaining
  · rw [run_bind_of_ok (run_skip_of_le enough)] at member
    exact blind.ahead (span.drop size) region member
  · rw [run_bind_of_error (run_skip_of_lt (Nat.not_le.mp enough))] at member
    cases member

/-- Spans that agree but for the bytes to be skipped, and for what is found
behind them, are walked alike. -/
theorem alike_of_skip {size : Nat} {continued : Unit → Walk Unit}
    (blind : Blind (continued ())) {left right : Span}
    (agree : Span.AgreeOutside (⟨left.offset, size⟩ ::
      ((skip size >>= continued).run left).regions) left right) :
    ((skip size >>= continued).run left).outline =
      ((skip size >>= continued).run right).outline := by
  by_cases enough : size ≤ left.remaining
  · have alsoEnough : size ≤ right.remaining := by
      rw [← agree.remaining]
      exact enough
    rw [run_bind_of_ok (run_skip_of_le enough)] at agree ⊢
    rw [run_bind_of_ok (run_skip_of_le alsoEnough), Trace.after_nil,
      Trace.after_nil]
    have passed := (agree.drop size).of_passed (Nat.le_refl _)
    exact blind.alike _ _ passed
  · have short := Nat.not_le.mp enough
    have alsoShort : right.remaining < size := by
      rw [← agree.remaining]
      exact short
    rw [run_bind_of_error (run_skip_of_lt short),
      run_bind_of_error (run_skip_of_lt alsoShort), agree.offset,
      agree.remaining]

/-- Regions that a buffer and what follows it are found with lie behind the
buffer's header. -/
theorem ahead_of_buffer (index : Nat) {continued : Unit → Walk Unit}
    (blind : Blind (continued ())) (span : Span) :
    ∀ region ∈ ((ofBuffer index >>= continued).run span).regions,
      span.offset + 6 ≤ region.start := by
  intro region member
  by_cases short : span.remaining < 6
  · obtain ⟨items, fatal, ran, none⟩ := run_ofBuffer_of_noHeader index short
    rw [run_bind_of_error ran, Trace.regions, none] at member
    cases member
  · obtain ⟨offset, content⟩ := span
    obtain ⟨tag, length, rest, rfl⟩ :=
      exists_bufferHeader_append (Nat.not_lt.mp short)
    change offset + 6 ≤ region.start
    by_cases known : tag = 1 ∨ tag = 2 ∨ tag = 3
    · obtain ⟨items, records, ran⟩ :=
        run_ofBuffer_bind_of_known index offset known length rest continued
      rw [ran, regions_after_buffer known
        (Item.filterMap_note?_of_isRecord records)] at member
      rcases List.mem_cons.mp member with rfl | later
      · exact Nat.le_refl _
      · have ended : Blind (emit [.bufferEnd] >>= continued) :=
          blind.emit_bind rfl
        have behind := ahead_of_skip ended _ region later
        exact Nat.le_trans (Nat.le_add_right _ _) behind
    · rw [run_ofBuffer_bind_of_unknown index offset known] at member
      cases member

/-- Buffers of a known kind with the same header are walked alike. -/
theorem alike_of_known {index offset : Nat} {tag : UInt16}
    (known : tag = 1 ∨ tag = 2 ∨ tag = 3) {length : UInt32}
    {continued : Unit → Walk Unit} (blind : Blind (continued ()))
    {left right : List UInt8}
    (agree : Span.AgreeOutside
      ((ofBuffer index >>= continued).run ⟨offset,
        Wire.bytes ([tag] ++ Wire.splitDword length) ++ left⟩).regions
      ⟨offset + 6, left⟩ ⟨offset + 6, right⟩) :
    ((ofBuffer index >>= continued).run ⟨offset,
        Wire.bytes ([tag] ++ Wire.splitDword length) ++ left⟩).outline =
      ((ofBuffer index >>= continued).run ⟨offset,
        Wire.bytes ([tag] ++ Wire.splitDword length) ++ right⟩).outline := by
  obtain ⟨items, records, ran⟩ :=
    run_ofBuffer_bind_of_known index offset known length left continued
  obtain ⟨otherItems, otherRecords, otherRan⟩ :=
    run_ofBuffer_bind_of_known index offset known length right continued
  rw [ran, regions_after_buffer known
    (Item.filterMap_note?_of_isRecord records)] at agree
  have ended : Blind (emit [.bufferEnd] >>= continued) :=
    blind.emit_bind rfl
  rw [ran, otherRan, outline_after_buffer records,
    outline_after_buffer otherRecords, alike_of_skip ended agree]

theorem Blind.ofBuffer_bind (index : Nat) {continued : Unit → Walk Unit}
    (blind : Blind (continued ())) : Blind (ofBuffer index >>= continued) := by
  constructor
  · intro span region member
    have behind := ahead_of_buffer index blind span region member
    exact Nat.le_trans (Nat.le_add_right _ _) behind
  · intro left right agree
    by_cases short : left.remaining < 6
    · apply outline_eq_of_no_regions ?_ agree
      obtain ⟨items, fatal, ran, none⟩ := run_ofBuffer_of_noHeader index short
      rw [run_bind_of_error ran]
      exact none
    · have enough : 6 ≤ right.remaining := by
        rw [← agree.remaining]
        exact Nat.not_lt.mp short
      have header := agree.take_eq (ahead_of_buffer index blind left)
      have body := agree.drop 6
      obtain ⟨offset, content⟩ := left
      obtain ⟨otherOffset, otherContent⟩ := right
      cases agree.offset
      obtain ⟨tag, length, rest, rfl⟩ :=
        exists_bufferHeader_append (Nat.not_lt.mp short)
      obtain ⟨otherTag, otherLength, otherRest, rfl⟩ :=
        exists_bufferHeader_append enough
      have sized (tag : UInt16) (length : UInt32) :
          (Wire.bytes ([tag] ++ Wire.splitDword length)).length = 6 := rfl
      dsimp only at header
      rw [List.take_left' (sized tag length),
        List.take_left' (sized otherTag otherLength)] at header
      obtain ⟨sameTag, split⟩ := List.cons.inj (Wire.bytes_injective header)
      cases sameTag
      cases Wire.splitDword_injective split
      by_cases known : tag = 1 ∨ tag = 2 ∨ tag = 3
      · exact alike_of_known known blind body
      · apply outline_eq_of_no_regions ?_ agree
        exact run_ofBuffer_bind_of_unknown index offset known length rest _

/-! ## Sections and captures -/

/-- Before a blind walk, the walk makes a blind one. -/
def KeepsBlind (walk : Walk α) : Prop :=
  ∀ {continued : α → Walk Unit}, (∀ value, Blind (continued value)) →
    Blind (walk >>= continued)

theorem KeepsBlind.keeps : Keeps fun _ walk => KeepsBlind walk where
  pure value := by
    intro continued blind
    rw [pure_bind]
    exact blind value
  bind := by
    intro α β walk next first later continued blind
    rw [bind_assoc]
    apply first
    intro value
    exact later value blind
  word := Blind.word_bind
  dword := Blind.dword_bind
  note := by
    intro found outside continued blind
    refine .note_bind ?_ (blind ())
    intro rest
    cases found with
    | bufferOffset index offset => cases outside
    | _ => rfl

theorem KeepsBlind.carries : Carries fun _ _ _ walk => KeepsBlind walk := by
  have buffer (index : Nat) : KeepsBlind (ofBuffer index) :=
    fun blind => .ofBuffer_bind index (blind ())
  have sectionEnd : KeepsBlind (emit [.sectionEnd]) :=
    fun blind => .emit_bind rfl (blind ())
  exact KeepsBlind.keeps.carries buffer sectionEnd fun _ _ _ _ => .stop _

end Walk

theorem Format.blind_walk (format : Format) (supported : UInt16) :
    (format.walk supported).Blind := by
  rw [← bind_pure (format.walk supported)]
  exact Walk.KeepsBlind.carries.ofFormat format supported fun _ => .pure

/-! ## Decoding without interpretation -/

namespace Trace

variable {left right : Trace (Unit × Span)}

theorem notes_of_outline (same : left.outline = right.outline) :
    left.items.filterMap Item.note? = right.items.filterMap Item.note? := by
  have notes (items : List Item) : items.filterMap Item.note? =
      (items.filter fun item => !item.isRecord).filterMap Item.note? := by
    rw [List.filterMap_filter]
    congr
    funext item
    cases item <;> rfl
  rw [notes, notes right.items]
  exact congrArg (·.items.filterMap Item.note?) same

theorem count_of_outline (same : left.outline = right.outline) {item : Item}
    (structural : item.isRecord = false) :
    left.items.count item = right.items.count item := by
  have kept (items : List Item) :
      (items.filter fun item => !item.isRecord).count item =
        items.count item := by
    apply List.count_filter
    rw [structural]
    rfl
  rw [← kept, ← kept right.items]
  exact congrArg (·.items.count item) same

end Trace

/-- The closing line and the report's end depend on how many bytes are left, not
on which. -/
theorem Transcript.ending_of_outline {left right : Except Fatal (Unit × Span)}
    (same : left.map (·.2.remaining) = right.map (·.2.remaining))
    (shown other : Presentation) :
    closing (left.map (·.2)) = closing (right.map (·.2)) ∧
      (ofResult shown (left.map (·.2))).report.trailingBytes =
        (ofResult other (right.map (·.2))).report.trailingBytes ∧
      (ofResult shown (left.map (·.2))).report.fatal =
        (ofResult other (right.map (·.2))).report.fatal := by
  cases left with
  | error fatal =>
      cases right with
      | error other =>
          cases same
          exact ⟨rfl, rfl, rfl⟩
      | ok reached => cases same
  | ok reached =>
      cases right with
      | error other => cases same
      | ok otherReached =>
          have remaining : reached.2.remaining = otherReached.2.remaining :=
            Except.ok.inj same
          refine ⟨?_, congrArg some remaining, rfl⟩
          change (if reached.2.remaining = 0 then _ else _) = _
          rw [remaining]
          rfl

/-- Two inputs of one size that differ only inside the records of buffers that
the decode of the first one finds give the same structural lines, the same
numbers of sections and buffers, the same bytes left and the same fatal
condition. -/
theorem records_do_not_steer (format : Format) (supported : UInt16)
    (human : Bool) {left right : List UInt8}
    (sameLength : left.length = right.length)
    (agree : ∀ index < left.length,
      (∀ region ∈ (format.trace supported left).regions,
        ¬ region.Covers index) → left[index]? = right[index]?) :
    (decode format ⟨supported, false, human⟩ left).lines.filter
        Line.isStructural =
      (decode format ⟨supported, false, human⟩ right).lines.filter
        Line.isStructural ∧
    (decode format ⟨supported, false, human⟩ left).report.sections =
      (decode format ⟨supported, false, human⟩ right).report.sections ∧
    (decode format ⟨supported, false, human⟩ left).report.buffers =
      (decode format ⟨supported, false, human⟩ right).report.buffers ∧
    (decode format ⟨supported, false, human⟩ left).report.trailingBytes =
      (decode format ⟨supported, false, human⟩ right).report.trailingBytes ∧
    (decode format ⟨supported, false, human⟩ left).report.fatal =
      (decode format ⟨supported, false, human⟩ right).report.fatal := by
  have agreeing : Span.AgreeOutside
      ((format.walk supported).run ⟨0, left⟩).regions ⟨0, left⟩ ⟨0, right⟩ := by
    refine ⟨rfl, sameLength, ?_⟩
    intro index inside uncovered
    apply agree index inside
    intro region member
    rw [Format.trace_eq] at member
    have apart := uncovered region member
    rw [Nat.zero_add] at apart
    exact apart
  have same := (format.blind_walk supported).alike _ _ agreeing
  have result := congrArg Trace.result same
  obtain ⟨closing, trailing, fatal⟩ := Transcript.ending_of_outline result
    (.raw human ((format.walk supported).run ⟨0, left⟩).items)
    (.raw human ((format.walk supported).run ⟨0, right⟩).items)
  refine ⟨?lines, ?sections, ?buffers, ?trailing, ?fatal⟩
  case lines =>
    rw [structural_lines_uninterpreted, structural_lines_uninterpreted,
      Format.trace_eq, Format.trace_eq, Trace.notes_of_outline same, closing]
  case sections =>
    rw [sections_uninterpreted, sections_uninterpreted, Format.trace_eq,
      Format.trace_eq]
    exact congrArg UInt32.ofNat (Trace.count_of_outline same rfl)
  case buffers =>
    rw [buffers_uninterpreted, buffers_uninterpreted, Format.trace_eq,
      Format.trace_eq]
    exact congrArg UInt32.ofNat (Trace.count_of_outline same rfl)
  case trailing =>
    rw [decode_uninterpreted, decode_uninterpreted, Format.trace_eq,
      Format.trace_eq]
    exact trailing
  case fatal =>
    rw [decode_uninterpreted, decode_uninterpreted, Format.trace_eq,
      Format.trace_eq]
    exact fatal

/-- The regions of a frame are those of its notes. -/
theorem Format.regions_frame (frame : CaptureFrame) :
    (Format.capture.trace frame.version frame.bytes).regions =
      recordRegions frame.notes := by
  rw [trace_frame, ← frame.notes_items]
  rfl

/-- A capture whose one buffer holds two words of an event. -/
def twoWordEvents (first second : UInt16) : List UInt8 :=
  Wire.bytes
    [1, 0, 5, 1, 0, 1, 0, 7, 0, 0, 1, 0, 3, 2, 0, first, second]

private def oneTwoFrame : CaptureFrame where
  version := 1
  reserved := 0
  sessionId := 5
  sectionCount := 1
  sections :=
    [{ version := 1
       reserved := 0
       id := 7
       registerCount := 0
       registers := []
       bufferCount := 1
       buffers := [⟨3, 2, [1, 0, 2, 0], by decide, rfl⟩]
       registersCounted := rfl
       buffersCounted := rfl }]
  rest := []
  sectionsCounted := rfl

private theorem regions_oneTwo :
    (Format.capture.trace 1 (twoWordEvents 1 2)).regions = [⟨30, 4⟩] := by
  have bytes : twoWordEvents 1 2 = oneTwoFrame.bytes := by decide
  rw [bytes]
  exact Format.regions_frame oneTwoFrame

theorem records_do_not_steer_twoWordEvents :
    (twoWordEvents 1 2).length = (twoWordEvents 3 4).length ∧
    (∀ index < (twoWordEvents 1 2).length,
      (∀ region ∈ (Format.capture.trace 1 (twoWordEvents 1 2)).regions,
        ¬ region.Covers index) →
          (twoWordEvents 1 2)[index]? = (twoWordEvents 3 4)[index]?) ∧
    (decode .capture .raw (twoWordEvents 1 2)).lines.filter
        Line.isStructural =
      (decode .capture .raw (twoWordEvents 3 4)).lines.filter
        Line.isStructural := by
  have sameLength : (twoWordEvents 1 2).length =
      (twoWordEvents 3 4).length := rfl
  have agree : ∀ index < (twoWordEvents 1 2).length,
      (∀ region ∈ (Format.capture.trace 1 (twoWordEvents 1 2)).regions,
        ¬ region.Covers index) →
          (twoWordEvents 1 2)[index]? = (twoWordEvents 3 4)[index]? := by
    rw [regions_oneTwo]
    decide
  refine ⟨sameLength, agree, ?_⟩
  exact (records_do_not_steer .capture 1 false sameLength agree).1

end SessionCapture
