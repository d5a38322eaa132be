/-!
# Text in payload words

A payload holds text as UTF-8 with one byte to a word.  Reading fails on the
first word that is not a byte, and otherwise when the bytes are not UTF-8.
Reading undoes writing.  A text split into lines is those lines joined by line
feeds, and no line holds one.
-/

namespace SessionCapture

namespace Text

inductive ReadError where
  | notAByte (word : UInt16)
  | invalidUtf8
deriving DecidableEq, Repr

def words (text : String) : List UInt16 :=
  text.toUTF8.data.toList.map (·.toUInt16)

def read (words : List UInt16) : Except ReadError String :=
  match words.find? (255 < ·) with
  | some word => .error (.notAByte word)
  | none =>
      match String.fromUTF8? (words.map (·.toUInt8)).toByteArray with
      | some text => .ok text
      | none => .error .invalidUtf8

private def addChar (c : Char) : List (List Char) → List (List Char)
  | [] => [[c]]
  | line :: rest => if c = '\n' then [] :: line :: rest else (c :: line) :: rest

/-- The stretches between line feeds.  There is always at least one. -/
def splitLines (text : List Char) : List (List Char) :=
  text.foldr addChar [[]]

/-- Writing text as words and reading it back yields the same text. -/
@[simp] theorem read_words (text : String) : read (words text) = .ok text := by
  have bytes : ((words text).map (·.toUInt8)).toByteArray = text.toUTF8 := by
    apply ByteArray.ext
    simp [words, Function.comp_def]
  have allBytes : (words text).find? (255 < ·) = none := by
    simp only [words, List.find?_eq_none, List.mem_map]
    rintro word ⟨byte, _, rfl⟩
    have bound := byte.toNat_lt
    simp only [UInt16.lt_iff_toNat_lt, UInt8.toNat_toUInt16, decide_eq_true_eq]
    exact Nat.not_lt.mpr (by simpa using Nat.le_of_lt_succ bound)
  have valid : String.fromUTF8? text.toUTF8 = some text :=
    dif_pos text.isValidUTF8
  rw [read, allBytes, bytes]
  simp only [valid]

private theorem splitLines_eq_cons (text : List Char) :
    ∃ line rest, splitLines text = line :: rest := by
  cases text with
  | nil => exact ⟨[], [], rfl⟩
  | cons c text =>
      change ∃ line rest, addChar c (splitLines text) = line :: rest
      cases splitLines text with
      | nil => exact ⟨_, _, rfl⟩
      | cons line rest =>
          rw [addChar]
          split <;> exact ⟨_, _, rfl⟩

@[simp] theorem splitLines_nil : splitLines [] = [[]] := rfl

theorem splitLines_lineFeed (text : List Char) :
    splitLines ('\n' :: text) = [] :: splitLines text := by
  change addChar '\n' (splitLines text) = [] :: splitLines text
  obtain ⟨line, rest, found⟩ := splitLines_eq_cons text
  rw [found, addChar, if_pos rfl]

theorem splitLines_of_ne {c : Char} (ordinary : c ≠ '\n') (text : List Char) :
    ∃ line rest, splitLines text = line :: rest ∧
      splitLines (c :: text) = (c :: line) :: rest := by
  obtain ⟨line, rest, found⟩ := splitLines_eq_cons text
  refine ⟨line, rest, found, ?_⟩
  change addChar c (splitLines text) = (c :: line) :: rest
  rw [found, addChar, if_neg ordinary]

/-- Joining the lines with line feeds gives the text back. -/
theorem intercalate_splitLines (text : List Char) :
    List.intercalate ['\n'] (splitLines text) = text := by
  induction text with
  | nil => rfl
  | cons c text induction =>
      by_cases lineFeed : c = '\n'
      · obtain ⟨line, rest, found⟩ := splitLines_eq_cons text
        rw [lineFeed, splitLines_lineFeed, found, List.intercalate_cons_cons,
          ← found, induction]
        rfl
      · obtain ⟨line, rest, found, extended⟩ :=
          splitLines_of_ne lineFeed text
        rw [extended]
        rw [found] at induction
        cases rest with
        | nil => simpa using induction
        | cons next rest =>
            simpa [List.intercalate_cons_cons] using induction

theorem lineFeed_notMem_splitLines {text line : List Char}
    (member : line ∈ splitLines text) : '\n' ∉ line := by
  induction text generalizing line with
  | nil => simp_all
  | cons c text induction =>
      by_cases lineFeed : c = '\n'
      · rw [lineFeed, splitLines_lineFeed, List.mem_cons] at member
        cases member with
        | inl first => simp [first]
        | inr later => exact induction later
      · obtain ⟨first, rest, found, extended⟩ :=
          splitLines_of_ne lineFeed text
        rw [extended, List.mem_cons] at member
        cases member with
        | inl same =>
            have ordinary := induction (found ▸ List.mem_cons_self)
            simp [same, ordinary, Ne.symm lineFeed]
        | inr later =>
            exact induction (found ▸ List.mem_cons_of_mem _ later)

end Text

end SessionCapture
