import Mathlib.Data.List.Infix
import SessionCapture.Proofs.Numerals
import SessionCapture.Proofs.RawPresentation

/-!
# Structural lines

The notices of a transcript state the structure of the container or how the
decode ended, except those that say that a buffer's events could not be
followed.  The latter are known by the word "desynchronized", and no other
notice holds its letter z: there is none in a numeral, decimal or hexadecimal,
nor in the fixed words.
-/

namespace SessionCapture

namespace Line

/-- Whether a line is a notice other than that a buffer is desynchronized. -/
def isStructural : Line → Bool
  | .notice text => !decide ("desynchronized".toList <:+: text.toList)
  | _ => false

end Line

/-! ## Characters that the fixed words do not use -/

/-- The letter z and the line feed stand in no numeral, and in no fixed word of
a note or a fatal condition. -/
def Foreign (c : Char) : Prop :=
  c = 'z' ∨ c = '\n'

theorem Foreign.noDigit {c : Char} (foreign : Foreign c) :
    Numeral.NoDigit c := by
  rcases foreign with rfl | rfl <;> decide

@[simp] theorem toString_string (text : String) : toString text = text := rfl

theorem Note.notMem_text {c : Char} (foreign : Foreign c) (found : Note) :
    c ∉ found.text.toList := by
  have noDigit := foreign.noDigit
  -- unfolding, since the equations of a function of texts are slow to derive
  unfold Note.text
  cases found <;>
    simp only [toString_string, String.toList_append, List.mem_append,
      not_or, Numeral.notMem_nat noDigit, Numeral.notMem_word noDigit,
      Numeral.notMem_dword noDigit, Numeral.notMem_hex noDigit,
      not_false_eq_true, and_true] <;>
    rcases foreign with rfl | rfl <;>
    decide

theorem Fatal.notMem_message {c : Char} (foreign : Foreign c)
    (fatal : Fatal) : c ∉ fatal.message.toList := by
  have noDigit := foreign.noDigit
  unfold Fatal.message Truncation.message
  cases fatal <;>
    simp only [toString_string, String.toList_append, List.mem_append,
      not_or, Numeral.notMem_nat noDigit, Numeral.notMem_word noDigit,
      Numeral.notMem_dword noDigit, Numeral.notMem_hex noDigit,
      not_false_eq_true, and_true] <;>
    rcases foreign with rfl | rfl <;>
    decide

theorem Transcript.notMem_closing {c : Char} (foreign : Foreign c)
    {result : Except Fatal Span} {text : String}
    (member : .notice text ∈ closing result) : c ∉ text.toList := by
  have noDigit := foreign.noDigit
  unfold closing at member
  cases result with
  | error fatal =>
      cases List.mem_singleton.mp member
      simp only [toString_string, String.toList_append, List.mem_append,
        not_or, fatal.notMem_message foreign, not_false_eq_true, and_true]
      rcases foreign with rfl | rfl <;> decide
  | ok left =>
      dsimp only at member
      split at member
      · cases member
      · cases List.mem_singleton.mp member
        simp only [toString_string, String.toList_append, List.mem_append,
          not_or, Numeral.notMem_nat noDigit, not_false_eq_true, true_and]
        rcases foreign with rfl | rfl <;> decide

/-! ## Which lines are structural -/

namespace Line

theorem isStructural_notice (text : String) :
    isStructural (.notice text) =
      !decide ("desynchronized".toList <:+: text.toList) := by
  unfold isStructural
  rfl

theorem isStructural_of_z_notMem {text : String} (absent : 'z' ∉ text.toList) :
    isStructural (.notice text) = true := by
  have noMark : ¬ "desynchronized".toList <:+: text.toList := by
    intro mark
    exact absent (mark.subset (by decide))
  rw [isStructural_notice, decide_eq_false noMark, Bool.not_false]

theorem isStructural_note (found : Note) :
    isStructural (.notice found.text) = true :=
  isStructural_of_z_notMem (found.notMem_text (.inl rfl))

theorem isStructural_desync (buffer : Nat) (reason : Desync) :
    isStructural
      (.notice s!"Buffer({buffer}) desynchronized: {reason.message}") =
        false := by
  have mark : "desynchronized".toList <:+:
      s!"Buffer({buffer}) desynchronized: {reason.message}".toList := by
    refine ⟨("Buffer(" ++ toString buffer ++ ") ").toList,
      (": " ++ reason.message).toList, ?_⟩
    have split : ") desynchronized: " =
        ") " ++ "desynchronized" ++ ": " := by decide
    simp only [toString_string, split, String.toList_append,
      List.append_assoc]
  rw [isStructural_notice, decide_eq_true mark, Bool.not_true]

end Line

theorem Transcript.exists_notice_of_mem_closing {result : Except Fatal Span}
    {line : Line} (member : line ∈ closing result) :
    ∃ text, line = .notice text := by
  unfold closing at member
  cases result with
  | error fatal => exact ⟨_, List.mem_singleton.mp member⟩
  | ok left =>
      dsimp only at member
      split at member
      · cases member
      · exact ⟨_, List.mem_singleton.mp member⟩

theorem Transcript.isStructural_closing (result : Except Fatal Span) :
    (closing result).filter Line.isStructural = closing result := by
  rw [List.filter_eq_self]
  intro line member
  obtain ⟨text, rfl⟩ := exists_notice_of_mem_closing member
  exact Line.isStructural_of_z_notMem (notMem_closing (.inl rfl) member)

private theorem structural_of_noNotice {lines : List Line}
    (noNotice : ∀ text, Line.notice text ∉ lines) :
    lines.filter Line.isStructural = [] := by
  rw [List.filter_eq_nil_iff]
  intro line member structural
  cases line with
  | notice text => exact noNotice text member
  | _ => cases structural

private theorem Item.noNotice_event (human : Bool) (event : Event)
    (text : String) : .notice text ∉ Item.lines human (.event event) := by
  simp [Event.lines]

private theorem Item.noNotice_corrupt (human : Bool) (fragment : Fragment)
    (text : String) :
    .notice text ∉ Item.lines human (.corrupt fragment) := by
  change _ ∉ (Presentation.ofCorrupt _ fragment).lines
  unfold Presentation.ofCorrupt
  split <;> simp

/-- The structural lines among the items' own are the notes' texts. -/
theorem Item.structural_lines (human : Bool) (items : List Item) :
    (items.flatMap (Item.lines human)).filter Line.isStructural =
      (items.filterMap Item.note?).map fun found => .notice found.text := by
  induction items with
  | nil => rfl
  | cons item items induction =>
      rw [List.flatMap_cons, List.filter_append, induction]
      cases item with
      | note found =>
          rw [Item.lines_note, List.filter_cons, Line.isStructural_note]
          rfl
      | desync buffer reason =>
          rw [Item.lines_desync, List.filter_cons, Line.isStructural_desync]
          rfl
      | movement movement => cases human <;> rfl
      | click click => cases human <;> rfl
      | event event =>
          rw [structural_of_noNotice (noNotice_event human event)]
          rfl
      | corrupt fragment =>
          rw [structural_of_noNotice (noNotice_corrupt human fragment)]
          rfl
      | bufferEnd => rfl
      | sectionEnd => rfl

/-- Decoding without interpretation, the structural lines are the notes of the
walk and the line that closes the transcript. -/
theorem structural_lines_uninterpreted (format : Format) (supported : UInt16)
    (human : Bool) (input : List UInt8) :
    (decode format ⟨supported, false, human⟩ input).lines.filter
        Line.isStructural =
      ((format.trace supported input).items.filterMap Item.note?).map
          (fun found => .notice found.text) ++
        Transcript.closing (format.trace supported input).result := by
  rw [decode_uninterpreted, Transcript.lines_ofResult, List.filter_append,
    Transcript.isStructural_closing, Presentation.raw, Item.structural_lines]

end SessionCapture
