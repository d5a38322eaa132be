import SessionCapture.Wire.Word

/-!
# Byte sequences that begin with words

A byte sequence of even length is the bytes of its words.  So a sequence that is
long enough begins with the bytes of as many words as are wanted, and these
words and the bytes after them are the only ones.
-/

namespace SessionCapture

namespace Wire

theorem bytes_words : ∀ {content : List UInt8},
    content.length % 2 = 0 → bytes (words content) = content
  | low :: high :: rest, even => by
      have evenRest : rest.length % 2 = 0 := by
        simp only [List.length_cons] at even
        omega
      have split := splitWord_joinBytes low high
      simp only [splitWord, List.cons.injEq, and_true] at split
      rw [words_cons_cons, bytes_cons, split.1, split.2, bytes_words evenRest]
  | [_], even => by simp at even
  | [], _ => rfl

theorem bytes_injective {left right : List UInt16}
    (same : bytes left = bytes right) : left = right := by
  have restored := congrArg words same
  simpa only [words_bytes] using restored

/-- Equally many words and the bytes after them are told apart. -/
theorem bytes_append_inj {left right : List UInt16}
    {leftRest rightRest : List UInt8} (count : left.length = right.length)
    (same : bytes left ++ leftRest = bytes right ++ rightRest) :
    left = right ∧ leftRest = rightRest := by
  have sameSize : (bytes left).length = (bytes right).length := by
    rw [length_bytes, length_bytes, count]
  obtain ⟨front, back⟩ := List.append_inj same sameSize
  exact ⟨bytes_injective front, back⟩

theorem splitDword_injective {left right : UInt32}
    (same : splitDword left = splitDword right) : left = right := by
  simp only [splitDword, List.cons.injEq, and_true] at same
  rw [← joinWords_split left, ← joinWords_split right, same.1, same.2]

theorem bytes_cons_cons (first second : UInt16) (rest : List UInt16) :
    bytes (first :: second :: rest) = bytes [first] ++ bytes (second :: rest) :=
  rfl

@[simp] theorem length_splitDword (value : UInt32) :
    (splitDword value).length = 2 := rfl

/-- A sequence with room for `count` words begins with `count` words. -/
theorem exists_bytes_append {count : Nat} {content : List UInt8}
    (enough : 2 * count ≤ content.length) :
    ∃ written rest, written.length = count ∧
      content = bytes written ++ rest := by
  have size : (content.take (2 * count)).length = 2 * count :=
    List.length_take_of_le enough
  refine ⟨words (content.take (2 * count)), content.drop (2 * count), ?_, ?_⟩
  · rw [length_words, size]
    omega
  · rw [bytes_words (by omega), List.take_append_drop]

theorem exists_word_append {content : List UInt8}
    (enough : 2 ≤ content.length) :
    ∃ value rest, content = bytes [value] ++ rest := by
  obtain ⟨written, rest, count, same⟩ :=
    exists_bytes_append (by omega : 2 * 1 ≤ content.length)
  obtain ⟨value, rfl⟩ := List.length_eq_one_iff.mp count
  exact ⟨value, rest, same⟩

theorem exists_dword_append {content : List UInt8}
    (enough : 4 ≤ content.length) :
    ∃ value rest, content = bytes (splitDword value) ++ rest := by
  obtain ⟨written, rest, count, same⟩ :=
    exists_bytes_append (by omega : 2 * 2 ≤ content.length)
  match written, count with
  | [low, high], _ =>
      exact ⟨joinWords low high, rest, by rw [splitDword_joinWords, same]⟩

end Wire

end SessionCapture
