import Mathlib.Data.List.TakeDrop
import Mathlib.Data.List.TakeWhile
import SessionCapture.Event.Interpret
import SessionCapture.Proofs.TextWords

/-!
# What a controller reset can be read from

Each field of a reset is read from its own words and leaves those after them.
So a payload is read if it begins with the words of a reset that can be stated,
and it states that reset whatever follows.
-/

namespace SessionCapture

namespace ControlReset

namespace Parser

variable {α β : Type} {field : String} {words left : List UInt16}

theorem bind_eq_ok_iff {first : Parser α} {next : α → Parser β} {result : β} :
    (first >>= next) words = .ok (result, left) ↔
      ∃ value rest, first words = .ok (value, rest) ∧
        next value rest = .ok (result, left) := by
  change ((first words).bind fun found => next found.1 found.2) = _ ↔ _
  cases first words with
  | error error =>
      constructor
      · intro impossible
        cases impossible
      · rintro ⟨_, _, impossible, _⟩
        cases impossible
  | ok found =>
      constructor
      · intro success
        exact ⟨found.1, found.2, rfl, success⟩
      · rintro ⟨_, _, ⟨⟩, success⟩
        exact success

theorem word_eq_ok_iff {value : UInt16} :
    word field words = .ok (value, left) ↔ words = value :: left := by
  cases words with
  | nil =>
      constructor
      · intro impossible
        cases impossible
      · intro impossible
        cases impossible
  | cons first rest =>
      constructor
      · rintro ⟨⟩
        rfl
      · rintro ⟨⟩
        rfl

theorem nonZero_eq_ok_iff {value : UInt16} :
    nonZero field words = .ok (value, left) ↔
      value ≠ 0 ∧ words = value :: left := by
  unfold nonZero
  rw [bind_eq_ok_iff]
  constructor
  · rintro ⟨found, rest, read, checked⟩
    by_cases zero : found = 0
    · rw [if_pos zero] at checked
      cases checked
    · rw [if_neg zero] at checked
      cases checked
      exact ⟨zero, word_eq_ok_iff.mp read⟩
  · rintro ⟨nonzero, stated⟩
    refine ⟨value, left, word_eq_ok_iff.mpr stated, ?_⟩
    rw [if_neg nonzero]
    rfl

theorem mapM_word_eq_ok_iff {names : List String} {values : List UInt16} :
    names.mapM word words = .ok (values, left) ↔
      values.length = names.length ∧ words = values ++ left := by
  induction names generalizing words values with
  | nil =>
      constructor
      · rintro ⟨⟩
        exact ⟨rfl, rfl⟩
      · rintro ⟨none, rfl⟩
        cases List.eq_nil_of_length_eq_zero none
        rfl
  | cons name names induction =>
      rw [List.mapM_cons, bind_eq_ok_iff]
      constructor
      · rintro ⟨value, rest, first, later⟩
        obtain ⟨others, _, read, ⟨⟩⟩ := bind_eq_ok_iff.mp later
        obtain ⟨count, rfl⟩ := induction.mp read
        exact ⟨congrArg Nat.succ count, word_eq_ok_iff.mp first⟩
      · rintro ⟨count, stated⟩
        cases values with
        | nil => cases count
        | cons value values =>
            refine ⟨value, values ++ left, word_eq_ok_iff.mpr stated, ?_⟩
            apply bind_eq_ok_iff.mpr
            exact ⟨values, left, induction.mpr ⟨Nat.succ.inj count, rfl⟩, rfl⟩

/-- Words are cut at their first line feed. -/
theorem span_eq_cons_iff {body : List UInt16} {first : UInt16} :
    words.span (· ≠ lineFeed) = (body, first :: left) ↔
      first = lineFeed ∧ lineFeed ∉ body ∧ words = body ++ lineFeed :: left := by
  rw [List.span_eq_takeWhile_dropWhile, Prod.mk.injEq]
  constructor
  · rintro ⟨rfl, back⟩
    have stopped := List.head?_dropWhile_not (· ≠ lineFeed) words
    rw [back] at stopped
    obtain rfl : first = lineFeed := by simpa using stopped
    refine ⟨rfl, ?_, ?_⟩
    · intro member
      simpa using List.mem_takeWhile_imp member
    · rw [← back, List.takeWhile_append_dropWhile]
  · rintro ⟨rfl, absent, rfl⟩
    have before : ∀ word ∈ body, decide (word ≠ lineFeed) = true := by
      intro word member
      exact decide_eq_true (fun same => absent (same ▸ member))
    rw [List.takeWhile_append_of_pos before, List.dropWhile_append_of_pos before]
    simp

/-- A line is read from the words of a text without line feeds, and the line
feed after them. -/
theorem line_eq_ok_iff {text : String} :
    line field words = .ok (text, left) ↔
      '\n' ∉ text.toList ∧ words = Text.words text ++ lineFeed :: left := by
  unfold line
  rw [← Text.lineFeed_mem_words_iff]
  constructor
  · intro success
    split at success
    · cases success
    · next body first rest cut =>
        obtain ⟨_, absent, stated⟩ := span_eq_cons_iff.mp cut
        split at success
        · next found read =>
            cases success
            rw [← Text.read_eq_ok_iff.mp read]
            exact ⟨absent, stated⟩
        · cases success
        · cases success
  · rintro ⟨absent, stated⟩
    rw [span_eq_cons_iff.mpr ⟨rfl, absent, stated⟩]
    simp only [Text.read_words]

end Parser

/-- The sizes are not zero, the texts take up one line each, and there is a
number for each name. -/
structure Statable (reset : ControlReset) : Prop where
  keySize : reset.layout.keySize ≠ 0
  valSize : reset.layout.valSize ≠ 0
  uiType : '\n' ∉ reset.uiType.toList
  challengeMode : '\n' ∉ reset.challengeMode.toList
  gridX : reset.layout.gridX ≠ 0
  geometry : reset.geometry.length = geometryNames.length

variable {reset : ControlReset} {words left : List UInt16}

theorem payload_append (reset : ControlReset) (left : List UInt16) :
    reset.payload ++ left =
      reset.layout.keySize :: reset.layout.valSize ::
        (Text.words reset.uiType ++ lineFeed ::
          (Text.words reset.challengeMode ++ lineFeed ::
            reset.layout.gridX :: (reset.geometry ++ left))) := by
  simp [payload]

theorem Parser.reset_eq_ok_iff :
    Parser.reset words = .ok (reset, left) ↔
      reset.Statable ∧ words = reset.payload ++ left := by
  rw [payload_append]
  constructor
  · intro success
    obtain ⟨_, _, keySize, success⟩ := bind_eq_ok_iff.mp success
    obtain ⟨_, _, valSize, success⟩ := bind_eq_ok_iff.mp success
    obtain ⟨_, _, uiType, success⟩ := bind_eq_ok_iff.mp success
    obtain ⟨_, _, challengeMode, success⟩ := bind_eq_ok_iff.mp success
    obtain ⟨_, _, gridX, success⟩ := bind_eq_ok_iff.mp success
    obtain ⟨_, _, geometry, success⟩ := bind_eq_ok_iff.mp success
    cases success
    obtain ⟨someKeys, rfl⟩ := nonZero_eq_ok_iff.mp keySize
    obtain ⟨someValues, rfl⟩ := nonZero_eq_ok_iff.mp valSize
    obtain ⟨plainType, rfl⟩ := line_eq_ok_iff.mp uiType
    obtain ⟨plainMode, rfl⟩ := line_eq_ok_iff.mp challengeMode
    obtain ⟨someColumns, rfl⟩ := nonZero_eq_ok_iff.mp gridX
    obtain ⟨count, rfl⟩ := mapM_word_eq_ok_iff.mp geometry
    exact ⟨⟨someKeys, someValues, plainType, plainMode, someColumns, count⟩, rfl⟩
  · rintro ⟨statable, rfl⟩
    unfold Parser.reset
    apply bind_eq_ok_iff.mpr
    refine ⟨_, _, nonZero_eq_ok_iff.mpr ⟨statable.keySize, rfl⟩, ?_⟩
    apply bind_eq_ok_iff.mpr
    refine ⟨_, _, nonZero_eq_ok_iff.mpr ⟨statable.valSize, rfl⟩, ?_⟩
    apply bind_eq_ok_iff.mpr
    refine ⟨_, _, line_eq_ok_iff.mpr ⟨statable.uiType, rfl⟩, ?_⟩
    apply bind_eq_ok_iff.mpr
    refine ⟨_, _, line_eq_ok_iff.mpr ⟨statable.challengeMode, rfl⟩, ?_⟩
    apply bind_eq_ok_iff.mpr
    refine ⟨_, _, nonZero_eq_ok_iff.mpr ⟨statable.gridX, rfl⟩, ?_⟩
    apply bind_eq_ok_iff.mpr
    exact ⟨_, _, mapM_word_eq_ok_iff.mpr ⟨statable.geometry, rfl⟩, rfl⟩

/-- Words after those of a reset that can be stated are ignored. -/
theorem parse_eq_ok_iff :
    parse words = .ok reset ↔
      reset.Statable ∧ ∃ left, words = reset.payload ++ left := by
  have parsed : parse words = .ok reset ↔
      ∃ left, Parser.reset words = .ok (reset, left) := by
    unfold parse
    change (Parser.reset words).map _ = _ ↔ _
    cases Parser.reset words with
    | error error => simp [Except.map]
    | ok found => simp [Except.map, Prod.ext_iff]
  rw [parsed]
  simp only [Parser.reset_eq_ok_iff, exists_and_left]

end ControlReset

/-- A reset is reported, and then what is wrong with it. -/
theorem Context.controlReset_eq_ok_iff {context next : Context}
    {payload : List UInt16} {remarks : List Remark} :
    context.controlReset payload = .ok (remarks, next) ↔
      ∃ reset, ControlReset.parse payload = .ok reset ∧
        remarks = .text "System reset with controller parameters:" ::
          (reset.report.map .text ++
            (context.reset reset.layout reset.uiType).2.toList.map .note) ∧
        next = (context.reset reset.layout reset.uiType).1 := by
  unfold controlReset
  constructor
  · intro success
    cases parsed : ControlReset.parse payload with
    | error error =>
        rw [parsed] at success
        cases success
    | ok reset =>
        rw [parsed] at success
        cases success
        exact ⟨reset, rfl, rfl, rfl⟩
  · rintro ⟨reset, parsed, rfl, rfl⟩
    rw [parsed]
    rfl

end SessionCapture
