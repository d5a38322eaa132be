import SessionCapture.Event.Interpret
import SessionCapture.Proofs.TextWords

/-!
# Form data read back

The lines told of form data are those of the text in its payload without the
last character, whatever that is and however many bytes it takes up.  Joined by
line feeds they are that text again.  A payload that is not a text is told of in
one note.
-/

namespace SessionCapture

namespace Text

variable {text : String}

/-- The stretches between the line feeds of a text. -/
def lines (text : String) : List String :=
  (splitLines text.toList).map String.ofList

theorem lines_ne_nil (text : String) : lines text ≠ [] := by
  intro none
  have joined := intercalate_splitLines text.toList
  rw [List.map_eq_nil_iff.mp none] at joined
  rw [lines, ← joined] at none
  cases none

theorem lineFeed_notMem_lines {line : String} (member : line ∈ lines text) :
    '\n' ∉ line.toList := by
  obtain ⟨stretch, among, rfl⟩ := List.mem_map.mp member
  rw [String.toList_ofList]
  exact lineFeed_notMem_splitLines among

theorem intercalate_lines (text : String) :
    String.intercalate "\n" (lines text) = text := by
  apply String.toList_injective
  rw [String.toList_intercalate, lines, List.map_map]
  have stretches :
      (splitLines text.toList).map (String.toList ∘ String.ofList) =
        splitLines text.toList := by
    simp [Function.comp_def]
  rw [stretches]
  exact intercalate_splitLines text.toList

end Text

/-- What form data holds: the text of the payload but for its last character. -/
theorem formData_words (text : String) (last : Char) :
    formData (Text.words (text.push last)) =
      .text "Form data:" :: (Text.lines text).map .text := by
  rw [formData, Text.read_words, Text.lines, List.map_map]
  dsimp only
  rw [String.toList_push, List.dropLast_concat]
  rfl

theorem formData_of_encoded {payload : List UInt16}
    (encoded : Text.Encoded payload) :
    ∃ lines : List String,
      formData payload = .text "Form data:" :: lines.map .text := by
  obtain ⟨text, read⟩ := Text.exists_read_iff.mpr encoded
  refine ⟨(Text.splitLines text.toList.dropLast).map String.ofList, ?_⟩
  rw [formData, read, List.map_map]
  rfl

theorem formData_of_notEncoded {payload : List UInt16}
    (invalid : ¬ Text.Encoded payload) :
    formData payload = [.text "Form data:", .note .invalidUtf8] := by
  rw [formData]
  cases read : Text.read payload with
  | ok text => exact absurd (Text.encoded_of_read read) invalid
  | error error => rfl

namespace Context

/-- The lines told of a text and any last character join to the text again.  The
payloads that are not told of in lines, but in one note, are those with a word
that is not a byte or with bytes that are not UTF-8. -/
theorem form_data_read_back (context : Context) :
    (∀ (text : String) (last : Char), ∃ lines : List String,
      context.step .otherData (Text.words (text.push last)) =
        (.ok (.text "Form data:" :: lines.map .text), context) ∧
      lines ≠ [] ∧ (∀ line ∈ lines, '\n' ∉ line.toList) ∧
      String.intercalate "\n" lines = text) ∧
    ∀ payload, ∃ told,
      context.step .otherData payload =
        (.ok (.text "Form data:" :: told), context) ∧
      (told = [.note .invalidUtf8] ↔
        (∃ word ∈ payload, 255 < word) ∨
          ¬ (payload.map (·.toUInt8)).toByteArray.IsValidUTF8) ∧
      (told = [.note .invalidUtf8] ∨
        ∃ lines : List String, told = lines.map .text) := by
  constructor
  · intro text last
    refine ⟨Text.lines text, ?_, Text.lines_ne_nil text,
      fun line => Text.lineFeed_notMem_lines, Text.intercalate_lines text⟩
    rw [← formData_words text last]
    rfl
  · intro payload
    rw [← Text.not_encoded_iff]
    by_cases encoded : Text.Encoded payload
    · obtain ⟨lines, told⟩ := formData_of_encoded encoded
      refine ⟨lines.map .text, ?_, ?_, .inr ⟨lines, rfl⟩⟩
      · rw [← told]
        rfl
      · simp only [encoded, not_true, iff_false]
        intro note
        have member : Remark.note .invalidUtf8 ∈ lines.map Remark.text := by
          rw [note]
          exact List.mem_cons_self
        simp at member
    · refine ⟨[.note .invalidUtf8], ?_, by simp [encoded], .inl rfl⟩
      rw [← formData_of_notEncoded encoded]
      rfl

/-- A last character of four bytes is left out whole. -/
theorem last_emoji_left_out :
    ∃ lines : List String,
      (fresh .builtin).step .otherData (Text.words "naïve\n\nend😀") =
        (.ok (.text "Form data:" :: lines.map .text), fresh .builtin) ∧
      lines ≠ [] ∧ (∀ line ∈ lines, '\n' ∉ line.toList) ∧
      String.intercalate "\n" lines = "naïve\n\nend" := by
  have text : "naïve\n\nend😀" = "naïve\n\nend".push '😀' := by decide
  rw [text]
  exact (form_data_read_back (fresh .builtin)).1 "naïve\n\nend" '😀'

end Context

end SessionCapture
