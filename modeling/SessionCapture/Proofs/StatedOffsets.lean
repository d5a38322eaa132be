import SessionCapture.Proofs.Displacement
import SessionCapture.Proofs.Notices

/-!
# Offsets in the text of notices

Two sorts of notices state an offset: that of a buffer, and that of a read past
the end of the input.  Each is told by the words before the offset, which no
other notice holds.  So the text alone says what the same notice reads for an
input further on, and it is the text of what the walk meets there.
-/

namespace SessionCapture

/-! ## Hexadecimal numerals -/

namespace Numeral

def hexDigits : List Char :=
  "0123456789abcdef".toList

def isHexDigit (c : Char) : Bool :=
  hexDigits.contains c

/-- The number that hexadecimal digits state. -/
def hexValue (digits : List Char) : Nat :=
  digits.foldl (fun value c => 16 * value + hexDigits.idxOf c) 0

theorem hexValue_append_singleton (digits : List Char) (c : Char) :
    hexValue (digits ++ [c]) = 16 * hexValue digits + hexDigits.idxOf c := by
  rw [hexValue, List.foldl_append]
  rfl

theorem idxOf_digitChar : ∀ digit < 16,
    hexDigits.idxOf digit.digitChar = digit := by
  decide

theorem isHexDigit_digitChar : ∀ digit < 16,
    isHexDigit digit.digitChar = true := by
  decide

theorem hexValue_toDigits (number : Nat) :
    hexValue (Nat.toDigits 16 number) = number := by
  induction number using Nat.strongRecOn with
  | ind number induction =>
      rw [Nat.toDigits_eq_if (by omega)]
      split
      · next single =>
          simpa [hexValue] using idxOf_digitChar number single
      · next several =>
          rw [hexValue_append_singleton,
            induction (number / 16) (Nat.div_lt_self (by omega) (by omega)),
            idxOf_digitChar _ (Nat.mod_lt _ (by omega)), Nat.div_add_mod]

/-- Zeros in front of a numeral change nothing. -/
theorem hexValue_hex (width number : Nat) :
    hexValue (hex width number).toList = number := by
  have zeros (count : Nat) : hexValue (List.replicate count '0') = 0 := by
    induction count with
    | zero => rfl
    | succ count induction =>
        rw [List.replicate_succ', hexValue_append_singleton, induction]
        rfl
  have filled := zeros (width - (Nat.toDigits 16 number).length)
  rw [hexValue] at filled
  rw [hex, padded, String.toList_ofList, List.leftpad, hexValue,
    List.foldl_append, filled]
  exact hexValue_toDigits number

theorem isHexDigit_of_mem_hex {width number : Nat} {c : Char}
    (member : c ∈ (hex width number).toList) : isHexDigit c = true := by
  by_contra noHexDigit
  refine notMem_hex ?_ width number member
  rintro digit below rfl
  exact noHexDigit (isHexDigit_digitChar digit below)

end Numeral

/-! ## Raising an offset -/

/-- The text with `distance` added to the hexadecimal numeral after `mark`. -/
def raiseAfter (mark : List Char) (width distance : Nat) :
    List Char → List Char
  | [] => []
  | c :: text =>
      if mark <+: c :: text then
        let stated := (c :: text).drop mark.length
        mark ++ (Numeral.hex width (Numeral.hexValue
            (stated.takeWhile Numeral.isHexDigit) + distance)).toList ++
          stated.dropWhile Numeral.isHexDigit
      else c :: raiseAfter mark width distance text

section RaiseAfter

variable {mark : List Char}

/-- A text that lacks a character of the mark does not hold the mark. -/
theorem raiseAfter_of_notMem {c : Char} (marked : c ∈ mark)
    (width distance : Nat) {text : List Char} (absent : c ∉ text) :
    raiseAfter mark width distance text = text := by
  induction text with
  | nil => rfl
  | cons head text induction =>
      have unmarked : ¬ mark <+: head :: text := by
        intro begins
        exact absent (begins.subset marked)
      rw [raiseAfter, if_neg unmarked,
        induction fun member => absent (List.mem_cons_of_mem head member)]

/-- A number that is stated right after the mark is raised, if the mark does not
begin before. -/
theorem raiseAfter_append {first : Char} (begins : mark.head? = some first)
    {front rest : List Char} (absent : first ∉ front)
    (ends : rest.takeWhile Numeral.isHexDigit = [])
    (written width offset distance : Nat) :
    raiseAfter mark width distance
        (front ++ (mark ++ ((Numeral.hex written offset).toList ++ rest))) =
      front ++ (mark ++
        ((Numeral.hex width (offset + distance)).toList ++ rest)) := by
  obtain ⟨later, rfl⟩ := List.head?_eq_some_iff.mp begins
  induction front with
  | nil =>
      have marked : first :: later <+: first :: (later ++
          ((Numeral.hex written offset).toList ++ rest)) :=
        List.prefix_append (first :: later) _
      have stated : (first :: (later ++
          ((Numeral.hex written offset).toList ++ rest))).drop
            (first :: later).length =
          (Numeral.hex written offset).toList ++ rest :=
        List.drop_left
      have numeral : ∀ c ∈ (Numeral.hex written offset).toList,
          Numeral.isHexDigit c = true := by
        intro c member
        exact Numeral.isHexDigit_of_mem_hex member
      have kept : rest.dropWhile Numeral.isHexDigit = rest := by
        have whole :=
          List.takeWhile_append_dropWhile (p := Numeral.isHexDigit) (l := rest)
        rwa [ends, List.nil_append] at whole
      rw [List.nil_append, List.cons_append, raiseAfter, if_pos marked]
      dsimp only
      rw [stated, List.takeWhile_append_of_pos numeral,
        List.dropWhile_append_of_pos numeral, ends, kept,
        List.append_nil, Numeral.hexValue_hex, List.append_assoc]
      rfl
  | cons head front induction =>
      have unmarked (text : List Char) :
          ¬ first :: later <+: head :: (front ++ text) := by
        intro marked
        obtain ⟨same, _⟩ := List.cons_prefix_cons.mp marked
        exact absent (same ▸ List.mem_cons_self)
      rw [List.cons_append, raiseAfter, if_neg (unmarked _), induction]
      · rfl
      · exact fun member => absent (List.mem_cons_of_mem head member)

end RaiseAfter

/-! ## Lines of an input further on -/

namespace Line

/-- The words before the offset of a buffer. -/
def bufferMark : List Char :=
  ") File Offset:".toList

/-- The words before the offset of a read past the end of the input. -/
def truncationMark : List Char :=
  "truncated input at offset 0x".toList

/-- The line as it reads for an input that begins `distance` bytes further
on. -/
def displaced (distance : Nat) : Line → Line
  | .notice text =>
      .notice (String.ofList (raiseAfter bufferMark 2 distance
        (raiseAfter truncationMark 1 distance text.toList)))
  | line => line

/-- The text has neither the O of the one mark nor the x of the other. -/
def Unplaced (text : String) : Prop :=
  'O' ∉ text.toList ∧ 'x' ∉ text.toList

instance (text : String) : Decidable (Unplaced text) :=
  inferInstanceAs (Decidable (_ ∧ _))

namespace Unplaced

theorem append_iff {front back : String} :
    Unplaced (front ++ back) ↔ Unplaced front ∧ Unplaced back := by
  simp only [Unplaced, String.toList_append, List.mem_append, not_or]
  exact and_and_and_comm

theorem nat (number : Nat) : Unplaced (toString number) :=
  ⟨Numeral.notMem_nat (by decide) number,
    Numeral.notMem_nat (by decide) number⟩

theorem word (word : UInt16) : Unplaced (toString word) :=
  nat word.toNat

theorem dword (value : UInt32) : Unplaced (toString value) :=
  nat value.toNat

end Unplaced

theorem displaced_unplaced {text : String} (unplaced : Unplaced text)
    (distance : Nat) : displaced distance (.notice text) = .notice text := by
  obtain ⟨noBuffer, noTruncation⟩ := unplaced
  rw [displaced, raiseAfter_of_notMem (by decide) _ _ noTruncation,
    raiseAfter_of_notMem (by decide) _ _ noBuffer, String.ofList_toList]

end Line

open Line (Unplaced)

theorem Note.unplaced {found : Note}
    (other : ∀ index offset, found ≠ .bufferOffset index offset) :
    Unplaced found.text := by
  cases found with
  | bufferOffset index offset => exact absurd rfl (other index offset)
  | _ =>
      unfold Note.text
      simp only [toString_string, Unplaced.append_iff, Unplaced.nat,
        Unplaced.word, Unplaced.dword, and_true]
      decide

theorem Fatal.unplaced {fatal : Fatal}
    (other : ∀ truncation, fatal ≠ .truncated truncation) :
    Unplaced s!"Error reading file(s): {fatal.message}" := by
  cases fatal with
  | truncated truncation => exact absurd rfl (other truncation)
  | _ =>
      unfold Fatal.message
      simp only [toString_string, Unplaced.append_iff, Unplaced.nat,
        Unplaced.word, Unplaced.dword, and_true]
      decide

theorem Desync.unplaced (buffer : Nat) (reason : Desync) :
    Unplaced s!"Buffer({buffer}) desynchronized: {reason.message}" := by
  unfold Desync.message
  cases reason with
  | _ =>
      simp only [toString_string, Unplaced.append_iff, Unplaced.nat,
        Unplaced.word, and_true]
      decide

namespace Line

theorem displaced_note (distance : Nat) (found : Note) :
    displaced distance (.notice found.text) =
      .notice (found.displaced distance).text := by
  cases found with
  | bufferOffset index offset =>
      have noX : Numeral.NoDigit 'x' := by decide
      have noParenthesis : Numeral.NoDigit ')' := by decide
      have told (offset : Nat) :
          (Note.bufferOffset index offset).text.toList =
            ("Buffer(" ++ toString index).toList ++ (bufferMark ++
              ((Numeral.hex 2 offset).toList ++ [])) := by
        change ("Buffer(" ++ toString index ++ ") File Offset:" ++
          Numeral.hex 2 offset).toList = _
        simp only [String.toList_append, List.append_assoc, List.append_nil]
        rfl
      have noTruncation :
          'x' ∉ (Note.bufferOffset index offset).text.toList := by
        simp only [told, String.toList_append, List.mem_append, not_or,
          Numeral.notMem_nat noX, Numeral.notMem_hex noX]
        decide
      have beforeMark : ')' ∉ ("Buffer(" ++ toString index).toList := by
        simp only [String.toList_append, List.mem_append, not_or,
          Numeral.notMem_nat noParenthesis]
        decide
      have begins : bufferMark.head? = some ')' := rfl
      have raised := raiseAfter_append begins beforeMark List.takeWhile_nil
        2 2 offset distance
      rw [displaced, raiseAfter_of_notMem (by decide) _ _ noTruncation, told,
        raised, ← told, String.ofList_toList]
      rfl
  | _ => exact displaced_unplaced (Note.unplaced (by nofun)) distance

example : displaced 10 (.notice "Buffer(0) File Offset:0e") =
    .notice "Buffer(0) File Offset:18" := by
  decide

/-- What follows the offset in the text of a truncation. -/
def extent (truncation : Truncation) : List Char :=
  ": ".toList ++ ("needed ".toList ++
    ((toString truncation.needed).toList ++ (" bytes, ".toList ++
      ((toString truncation.available).toList ++ " available".toList))))

theorem toList_truncation (truncation : Truncation) :
    s!"Error reading file(s): {(Fatal.truncated truncation).message}".toList =
      "Error reading file(s): ".toList ++ (truncationMark ++
        ((Numeral.hex 1 truncation.offset).toList ++
          extent truncation)) := by
  unfold Fatal.message Truncation.message truncationMark extent
  simp only [toString_string, String.toList_append, List.append_assoc]

theorem displaced_fatal (distance : Nat) (fatal : Fatal) :
    displaced distance
        (.notice s!"Error reading file(s): {fatal.message}") =
      .notice
        s!"Error reading file(s): {(fatal.displaced distance).message}" := by
  cases fatal with
  | truncated truncation =>
      have noO : Numeral.NoDigit 'O' := by decide
      have begins : truncationMark.head? = some 't' := rfl
      have ends :
          (extent truncation).takeWhile Numeral.isHexDigit = [] := by
        have colon : ": ".toList = [':', ' '] := by decide
        rw [extent, colon, List.cons_append]
        exact List.takeWhile_cons_of_neg (by decide)
      have raised := raiseAfter_append begins
        (by decide : 't' ∉ "Error reading file(s): ".toList) ends 1 1
        truncation.offset distance
      have noBuffer : 'O' ∉ "Error reading file(s): ".toList ++
          (truncationMark ++ ((Numeral.hex 1
            (truncation.offset + distance)).toList ++ extent truncation)) := by
        simp only [extent, List.mem_append, not_or, Numeral.notMem_nat noO,
          Numeral.notMem_hex noO]
        decide
      rw [displaced, toList_truncation, raised,
        raiseAfter_of_notMem (by decide) _ _ noBuffer]
      have told := toList_truncation (truncation.displaced distance)
      apply congrArg Line.notice
      apply String.toList_inj.mp
      exact String.toList_ofList.trans told.symm
  | _ => exact displaced_unplaced (Fatal.unplaced (by nofun)) distance

end Line

/-- What an item shows further on is what it shows here, for the offsets of
there. -/
theorem Item.lines_displaced (human : Bool) (distance : Nat) (item : Item) :
    (item.displaced distance).lines human =
      (item.lines human).map (Line.displaced distance) := by
  cases item with
  | note found =>
      apply congrArg List.singleton
      exact (Line.displaced_note distance found).symm
  | desync buffer reason =>
      apply congrArg List.singleton
      exact (Line.displaced_unplaced
        (Desync.unplaced buffer reason) distance).symm
  | event event =>
      simp [displaced, Event.lines, Line.displaced]
  | movement movement => cases human <;> rfl
  | click click => cases human <;> rfl
  | corrupt fragment =>
      change (Presentation.ofCorrupt _ fragment).lines =
        (Presentation.ofCorrupt _ fragment).lines.map _
      unfold Presentation.ofCorrupt
      split <;> rfl
  | bufferEnd => rfl
  | sectionEnd => rfl

end SessionCapture
