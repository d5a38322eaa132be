import SessionCapture.Proofs.Endings
import SessionCapture.Proofs.StatedOffsets

/-!
# Notes read back from a transcript

The notices of a transcript tell of the notes of the walk, of buffers whose
events could not be followed, and of how the decode ended.  Only those of the
first sort read back as notes: the words before the colon say which note it is,
and a number among them which register or buffer.  So the notes of a transcript
are those of the items shown, in order.
-/

namespace SessionCapture

/-! ## Reading a note from its text -/

namespace Note

/-- The note of this name, with the number in its name and what is stated. -/
def named? (name : String) (index : Nat) (stated : List Char) :
    Option Note :=
  let number := Numeral.value stated
  match name with
  | "File Format Version" => some (.fileVersion (.ofNat number))
  | "Session ID" => some (.sessionId (.ofNat number))
  | "Section Count" => some (.sectionCount (.ofNat number))
  | "Section Format Version" => some (.sectionVersion (.ofNat number))
  | "Section ID" => some (.sectionId (.ofNat number))
  | "Register Count" => some (.registerCount (.ofNat number))
  | "Register()" => some (.register index (.ofNat number))
  | "Buffers Count" => some (.bufferCount (.ofNat number))
  | "Buffer() File Offset" =>
      some (.bufferOffset index (Numeral.hexValue stated))
  | "Buffer Type()" => some (.bufferTag index (.ofNat number))
  | "Buffer() Length" => some (.bufferLength index (.ofNat number))
  | _ => none

theorem named?_bufferOffset (index : Nat) (stated : List Char) :
    named? "Buffer() File Offset" index stated =
      some (.bufferOffset index (Numeral.hexValue stated)) := rfl

/-- Reads a note from its text. -/
def read? (text : String) : Option Note :=
  let label := text.toList.takeWhile (· ≠ ':')
  named? (String.ofList (label.filter fun c => !c.isDigit))
    (Numeral.value (label.filter Char.isDigit))
    ((text.toList.dropWhile (· ≠ ':')).drop 1)

/-- No character is a colon or a decimal digit. -/
def Wording (label : List Char) : Prop :=
  (label.all fun c => c ≠ ':' && !c.isDigit) = true

instance (label : List Char) : Decidable (Wording label) :=
  inferInstanceAs (Decidable (_ = true))

theorem Wording.of_mem {label : List Char} (words : Wording label) {c : Char}
    (member : c ∈ label) : c ≠ ':' ∧ c.isDigit = false := by
  simpa using List.all_eq_true.mp words c member

theorem filter_wording {label : List Char} (words : Wording label) :
    label.filter (fun c => !c.isDigit) = label ∧
      label.filter Char.isDigit = [] := by
  constructor
  · rw [List.filter_eq_self]
    intro c member
    rw [(words.of_mem member).2]
    rfl
  · rw [List.filter_eq_nil_iff]
    intro c member digit
    cases (words.of_mem member).2.symm.trans digit

theorem filter_nat (number : Nat) :
    (toString number).toList.filter (fun c => !c.isDigit) = [] ∧
      (toString number).toList.filter Char.isDigit =
        (toString number).toList := by
  have digits : ∀ c ∈ (toString number).toList, c.isDigit = true := by
    rw [Nat.toString_eq_repr, Nat.toList_repr]
    intro c member
    exact Nat.isDigit_of_mem_toDigits (by omega) (by omega) member
  constructor
  · rw [List.filter_eq_nil_iff]
    intro c member noDigit
    rw [digits c member] at noDigit
    cases noDigit
  · exact List.filter_eq_self.mpr digits

theorem read?_of_label {text : String} {label stated : List Char}
    (shape : text.toList = label ++ ':' :: stated) (plain : ':' ∉ label) :
    read? text = named? (String.ofList (label.filter fun c => !c.isDigit))
      (Numeral.value (label.filter Char.isDigit)) stated := by
  have before : ∀ c ∈ label, decide (c ≠ ':') = true := by
    intro c member
    apply decide_eq_true
    rintro rfl
    exact plain member
  have label_ : text.toList.takeWhile (· ≠ ':') = label := by
    rw [shape, List.takeWhile_append_of_pos before,
      List.takeWhile_cons_of_neg (by decide), List.append_nil]
  have rest : (text.toList.dropWhile (· ≠ ':')).drop 1 = stated := by
    rw [shape, List.dropWhile_append_of_pos before,
      List.dropWhile_cons_of_neg (by decide)]
    rfl
  rw [read?, label_, rest]

/-- A name of words alone, which `label` states up to the colon. -/
theorem read?_of_words (name : String) (more : List Char) {label : String}
    (ends : label.toList = name.toList ++ ':' :: more)
    (words : Wording name.toList) (stated : String) :
    read? (label ++ stated) = named? name 0 (more ++ stated.toList) := by
  have shape : (label ++ stated).toList =
      name.toList ++ ':' :: (more ++ stated.toList) := by
    rw [String.toList_append, ends, List.append_assoc, List.cons_append]
  have plain : ':' ∉ name.toList := fun member => (words.of_mem member).1 rfl
  obtain ⟨kept, dropped⟩ := filter_wording words
  rw [read?_of_label shape plain, kept, dropped, String.ofList_toList]
  rfl

/-- A name of words with a number among them. -/
theorem read?_of_numbered (front back : String) (more : List Char)
    {label : String} (ends : label.toList = back.toList ++ ':' :: more)
    (frontWords : Wording front.toList) (backWords : Wording back.toList)
    (index : Nat) (stated : String) :
    read? (front ++ toString index ++ label ++ stated) =
      named? (front ++ back) index (more ++ stated.toList) := by
  have shape : (front ++ toString index ++ label ++ stated).toList =
      (front.toList ++ ((toString index).toList ++ back.toList)) ++
        ':' :: (more ++ stated.toList) := by
    simp only [String.toList_append, ends, List.append_assoc,
      List.cons_append]
  have plain : ':' ∉ front.toList ++
      ((toString index).toList ++ back.toList) := by
    simp only [List.mem_append, not_or]
    exact ⟨fun member => (frontWords.of_mem member).1 rfl,
      Numeral.notMem_nat (by decide) index,
      fun member => (backWords.of_mem member).1 rfl⟩
  obtain ⟨frontKept, frontDropped⟩ := filter_wording frontWords
  obtain ⟨backKept, backDropped⟩ := filter_wording backWords
  obtain ⟨noWords, digits⟩ := filter_nat index
  rw [read?_of_label shape plain, List.filter_append, List.filter_append,
    List.filter_append, List.filter_append, frontKept, frontDropped, backKept,
    backDropped, noWords, digits, List.nil_append, List.nil_append,
    List.append_nil, Numeral.value_nat, ← String.toList_append,
    String.ofList_toList]

/-- A note is read back from its text. -/
theorem read?_text (found : Note) : read? found.text = some found := by
  have word (value : UInt16) :
      UInt16.ofNat (Numeral.value (toString value).toList) = value := by
    rw [Numeral.value_word, UInt16.ofNat_toNat]
  have dword (value : UInt32) :
      UInt32.ofNat (Numeral.value (toString value).toList) = value := by
    rw [Numeral.value_dword, UInt32.ofNat_toNat]
  cases found with
  | fileVersion version =>
      refine (read?_of_words "File Format Version" [] (by decide) (by decide)
        (toString version)).trans ?_
      exact congrArg (some ∘ Note.fileVersion) (word version)
  | sessionId id =>
      refine (read?_of_words "Session ID" [] (by decide) (by decide)
        (toString id)).trans ?_
      exact congrArg (some ∘ Note.sessionId) (word id)
  | sectionCount count =>
      refine (read?_of_words "Section Count" [] (by decide) (by decide)
        (toString count)).trans ?_
      exact congrArg (some ∘ Note.sectionCount) (dword count)
  | sectionVersion version =>
      refine (read?_of_words "Section Format Version" [] (by decide) (by decide)
        (toString version)).trans ?_
      exact congrArg (some ∘ Note.sectionVersion) (word version)
  | sectionId id =>
      refine (read?_of_words "Section ID" [] (by decide) (by decide)
        (toString id)).trans ?_
      exact congrArg (some ∘ Note.sectionId) (word id)
  | registerCount count =>
      refine (read?_of_words "Register Count" [] (by decide) (by decide)
        (toString count)).trans ?_
      exact congrArg (some ∘ Note.registerCount) (dword count)
  | register index value =>
      refine (read?_of_numbered "Register(" ")" [] (by decide) (by decide)
        (by decide) index (toString value)).trans ?_
      exact congrArg (some ∘ Note.register index) (word value)
  | bufferCount count =>
      refine (read?_of_words "Buffers Count" [] (by decide) (by decide)
        (toString count)).trans ?_
      exact congrArg (some ∘ Note.bufferCount) (dword count)
  | bufferOffset index offset =>
      refine (read?_of_numbered "Buffer(" ") File Offset" [] (by decide)
        (by decide) (by decide) index (Numeral.hex 2 offset)).trans ?_
      rw [List.nil_append]
      refine (named?_bufferOffset index (Numeral.hex 2 offset).toList).trans ?_
      rw [Numeral.hexValue_hex]
  | bufferTag index tag =>
      refine (read?_of_numbered "Buffer Type(" ")" [] (by decide) (by decide)
        (by decide) index (toString tag)).trans ?_
      exact congrArg (some ∘ Note.bufferTag index) (word tag)
  | bufferLength index words =>
      refine (read?_of_numbered "Buffer(" ") Length" [] (by decide) (by decide)
        (by decide) index (toString words)).trans ?_
      exact congrArg (some ∘ Note.bufferLength index) (dword words)

/-! ## Notices that are no notes -/

theorem read?_desync (buffer : Nat) (reason : Desync) :
    read? s!"Buffer({buffer}) desynchronized: {reason.message}" = none :=
  read?_of_numbered "Buffer(" ") desynchronized" [' '] (by decide) (by decide)
    (by decide) buffer reason.message

theorem read?_fatal (fatal : Fatal) :
    read? s!"Error reading file(s): {fatal.message}" = none :=
  read?_of_words "Error reading file(s)" [' '] (by decide) (by decide)
    fatal.message

theorem read?_leftover (count : Nat) :
    read? s!"{count} bytes left unprocessed in the input file" = none := by
  have words : Wording " bytes left unprocessed in the input file".toList := by
    decide
  have shape : s!"{count} bytes left unprocessed in the input file".toList =
      (toString count).toList ++
        " bytes left unprocessed in the input file".toList :=
    String.toList_append
  have whole : ∀ c ∈ (toString count).toList ++
      " bytes left unprocessed in the input file".toList,
        decide (c ≠ ':') = true := by
    intro c member
    apply decide_eq_true
    rintro rfl
    rcases List.mem_append.mp member with digit | word
    · exact Numeral.notMem_nat (by decide) count digit
    · exact (words.of_mem word).1 rfl
  obtain ⟨kept, dropped⟩ := filter_wording words
  obtain ⟨noWords, digits⟩ := filter_nat count
  rw [read?, shape, List.takeWhile_eq_self_iff.mpr whole,
    List.filter_append, kept, noWords, List.nil_append, String.ofList_toList]
  rfl

end Note

/-! ## The notes of a transcript -/

/-- The note that a line tells of. -/
def Line.note? : Line → Option Note
  | .notice text => Note.read? text
  | _ => none

/-- The notes that a transcript tells of, in order. -/
def Transcript.notes (transcript : Transcript) : List Note :=
  transcript.lines.filterMap Line.note?

theorem Line.note?_text (found : Note) :
    note? (.notice found.text) = some found :=
  Note.read?_text found

theorem Transcript.notes_closing (result : Except Fatal Span) :
    (closing result).filterMap Line.note? = [] := by
  unfold closing
  cases result with
  | error fatal => exact List.filterMap_cons_none (Note.read?_fatal fatal)
  | ok left =>
      dsimp only
      split
      · rfl
      · exact List.filterMap_cons_none (Note.read?_leftover left.remaining)

namespace Presentation

/-- An item's lines tell of the note that the item is, if it is one. -/
theorem notes_ofItem (options : Options) (context : Context) (item : Item) :
    (ofItem options context item).1.lines.filterMap Line.note? =
      [item].filterMap Item.note? := by
  have quiet (noNote : ∀ found, item ≠ .note found)
      (noDesync : ∀ buffer reason, item ≠ .desync buffer reason) :
      (ofItem options context item).1.lines.filterMap Line.note? = [] := by
    rw [List.filterMap_eq_nil_iff]
    intro line member
    cases line with
    | notice text =>
        rcases notice_of_ofItem member with
          ⟨found, same, _⟩ | ⟨buffer, reason, same, _⟩
        · exact absurd same (noNote found)
        · exact absurd same (noDesync buffer reason)
    | _ => rfl
  cases item with
  | note found => exact List.filterMap_cons_some (Line.note?_text found)
  | desync buffer reason =>
      exact List.filterMap_cons_none (Note.read?_desync buffer reason)
  | _ => exact quiet nofun nofun

/-- The lines of a presentation tell of the notes among the items shown. -/
theorem notes_ofItems (options : Options) (context : Context)
    (items : List Item) :
    (ofItems options context items).lines.filterMap Line.note? =
      ((showings options context items).map Showing.item).filterMap
        Item.note? := by
  rw [(ofItems_eq_showings options context items).1]
  induction showings options context items with
  | nil => rfl
  | cons showing later induction =>
      rw [List.flatMap_cons, List.filterMap_append, induction, Showing.lines,
        Showing.shown, notes_ofItem, ← List.filterMap_append]
      rfl

end Presentation

/-- A decode tells of the notes of the walk, of all of them unless it is
stopped. -/
theorem notes_decode (format : Format) (options : Options)
    (input : List UInt8) :
    let transcript := decode format options input
    let met := (format.trace options.supportedVersion input).items.filterMap
      Item.note?
    transcript.notes <+: met ∧
      (transcript.report.fatal = none → transcript.notes = met) := by
  intro transcript met
  obtain ⟨later, split, ending⟩ := exists_not_shown options (.fresh .builtin)
    (format.trace options.supportedVersion input).items
  have told : transcript.notes = ((showings options (.fresh .builtin)
      (format.trace options.supportedVersion input).items).map
        Showing.item).filterMap Item.note? := by
    rw [Transcript.notes, lines_decode, List.filterMap_append,
      Transcript.notes_closing, List.append_nil, Presentation.notes_ofItems]
  have met_ : met = transcript.notes ++ later.filterMap Item.note? := by
    rw [told, ← List.filterMap_append, ← split]
  refine ⟨⟨_, met_.symm⟩, ?_⟩
  intro complete
  unfold transcript at complete
  rw [decode_eq_ofResult, Transcript.fatal_ofResult] at complete
  obtain ⟨left, ended⟩ := complete
  unfold Presentation.ending at ended
  split at ending
  · rw [met_, ending]
    exact (List.append_nil _).symm
  · next stopped =>
      rw [stopped] at ended
      cases ended

end SessionCapture
