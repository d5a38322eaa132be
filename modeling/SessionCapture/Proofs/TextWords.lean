import SessionCapture.Wire.Text

/-!
# Which words are text

Words are read as a text if each of them is a byte and the bytes are UTF-8, and
then they are the words of that text and of no other.  A character beyond ASCII
is encoded in bytes from 128 on, so the words of a text hold a line feed only
where the text does.
-/

namespace SessionCapture.Text

variable {words : List UInt16} {text : String}

/-- Words that are bytes, in UTF-8. -/
structure Encoded (words : List UInt16) : Prop where
  bytes : ∀ word ∈ words, word < 256
  valid : (words.map (·.toUInt8)).toByteArray.IsValidUTF8

theorem toUTF8_eq_flatMap (text : String) :
    text.toUTF8.data.toList = text.toList.flatMap String.utf8EncodeChar := by
  have encoded : (text.toList.flatMap String.utf8EncodeChar).toByteArray =
      text.toUTF8 := String.utf8Encode_toList
  rw [← encoded, List.data_toByteArray]

theorem word_lt_of_mem {word : UInt16} (member : word ∈ Text.words text) :
    word < 256 := by
  obtain ⟨byte, _, rfl⟩ := List.mem_map.mp member
  rw [UInt16.lt_iff_toNat_lt, UInt8.toNat_toUInt16]
  exact byte.toNat_lt

theorem bytes_words (text : String) :
    ((Text.words text).map (·.toUInt8)).toByteArray = text.toUTF8 := by
  apply ByteArray.ext
  simp [Text.words, Function.comp_def]

theorem encoded_words (text : String) : Encoded (Text.words text) := by
  constructor
  case bytes => exact fun word => word_lt_of_mem
  case valid =>
    rw [bytes_words]
    exact text.isValidUTF8

/-- Encoded words are the words of a text. -/
theorem Encoded.exists_text (encoded : Encoded words) :
    ∃ text, words = Text.words text := by
  refine ⟨String.fromUTF8 _ encoded.valid, ?_⟩
  have each : ∀ word ∈ words, word.toUInt8.toUInt16 = word := by
    intro word member
    have small := UInt16.lt_iff_toNat_lt.mp (encoded.bytes word member)
    apply UInt16.toNat_inj.mp
    rw [UInt8.toNat_toUInt16, UInt16.toNat_toUInt8]
    exact Nat.mod_eq_of_lt small
  change words =
    ((words.map (·.toUInt8)).toByteArray.data.toList).map (·.toUInt16)
  rw [List.data_toByteArray, List.map_map]
  exact (List.map_congr_left each).trans (List.map_id words) |>.symm

theorem encoded_of_read (success : Text.read words = .ok text) :
    Encoded words := by
  unfold Text.read at success
  split at success
  · cases success
  · next small =>
      split at success
      · next found valid =>
          constructor
          case bytes =>
            intro word member
            have within := List.find?_eq_none.mp small word member
            have bound : word ≤ 255 := by simpa using within
            exact UInt16.lt_of_le_of_lt bound (by decide)
          case valid =>
            unfold String.fromUTF8? at valid
            split at valid
            · next holds => exact holds
            · cases valid
      · cases success

/-- Words are read as a text if they are its words. -/
theorem read_eq_ok_iff :
    Text.read words = .ok text ↔ words = Text.words text := by
  constructor
  · intro success
    obtain ⟨other, rfl⟩ := (encoded_of_read success).exists_text
    rw [read_words] at success
    cases success
    rfl
  · rintro rfl
    exact read_words text

theorem exists_read_iff :
    (∃ text, Text.read words = .ok text) ↔ Encoded words := by
  constructor
  · rintro ⟨text, success⟩
    exact encoded_of_read success
  · intro encoded
    obtain ⟨text, stated⟩ := encoded.exists_text
    exact ⟨text, read_eq_ok_iff.mpr stated⟩

theorem not_encoded_iff :
    ¬ Encoded words ↔
      (∃ word ∈ words, 255 < word) ∨
        ¬ (words.map (·.toUInt8)).toByteArray.IsValidUTF8 := by
  have byte (word : UInt16) : word < 256 ↔ ¬ 255 < word := by
    rw [UInt16.lt_iff_toNat_lt, UInt16.lt_iff_toNat_lt]
    exact Nat.lt_succ_iff.trans Nat.not_lt.symm
  have both : Encoded words ↔
      (¬ ∃ word ∈ words, 255 < word) ∧
        (words.map (·.toUInt8)).toByteArray.IsValidUTF8 := by
    constructor
    · rintro ⟨bytes, valid⟩
      refine ⟨?_, valid⟩
      rintro ⟨word, member, large⟩
      exact (byte word).mp (bytes word member) large
    · rintro ⟨bytes, valid⟩
      refine ⟨?_, valid⟩
      intro word member
      exact (byte word).mpr fun large => bytes ⟨word, member, large⟩
  rw [both, Classical.not_and_iff_not_or_not, Classical.not_not]

/-- The word named is the first that is not a byte. -/
theorem read_eq_notAByte_iff {word : UInt16} :
    Text.read words = .error (.notAByte word) ↔
      255 < word ∧ ∃ front back, words = front ++ word :: back ∧
        ∀ other ∈ front, other ≤ 255 := by
  have found : words.find? (255 < ·) = some word ↔
      255 < word ∧ ∃ front back, words = front ++ word :: back ∧
        ∀ other ∈ front, other ≤ 255 := by
    simp [List.find?_eq_some_iff_append]
  rw [← found]
  unfold Text.read
  cases words.find? (255 < ·) with
  | some first => simp
  | none =>
      dsimp only
      split <;> simp

theorem read_eq_invalidUtf8_iff :
    Text.read words = .error .invalidUtf8 ↔
      (∀ word ∈ words, word ≤ 255) ∧
        ¬ (words.map (·.toUInt8)).toByteArray.IsValidUTF8 := by
  have small : words.find? (255 < ·) = none ↔ ∀ word ∈ words, word ≤ 255 := by
    simp
  rw [← small]
  unfold Text.read String.fromUTF8?
  cases words.find? (255 < ·) with
  | some first => simp
  | none =>
      dsimp only
      by_cases valid : (words.map (·.toUInt8)).toByteArray.IsValidUTF8
      · rw [dif_pos valid]
        simp [valid]
      · rw [dif_neg valid]
        simp [valid]

/-- A text that is read has the words' bytes as its encoding. -/
theorem encoding_of_read (success : Text.read words = .ok text) :
    text.toList.flatMap String.utf8EncodeChar = words.map (·.toUInt8) := by
  rw [read_eq_ok_iff.mp success, ← toUTF8_eq_flatMap, ← bytes_words,
    List.data_toByteArray]

/-! ## Line feeds among the words -/

/-- A byte of ASCII is in the encoding of its own character alone. -/
theorem mem_utf8EncodeChar_iff {c : Char} {byte : UInt8} (ascii : byte < 128) :
    byte ∈ String.utf8EncodeChar c ↔ c.toNat = byte.toNat := by
  have low : byte.toNat < 128 := UInt8.lt_iff_toNat_lt.mp ascii
  have value : c.val.toNat = c.toNat := rfl
  fun_cases String.utf8EncodeChar c
  all_goals
    simp only [List.mem_cons, List.not_mem_nil, or_false, ← UInt8.toNat_inj,
      UInt8.toNat_ofNat']
    omega

theorem lineFeed_mem_words_iff : 10 ∈ Text.words text ↔ '\n' ∈ text.toList := by
  rw [Text.words, toUTF8_eq_flatMap, List.mem_map]
  constructor
  · rintro ⟨byte, member, ten⟩
    obtain ⟨c, among, encoded⟩ := List.mem_flatMap.mp member
    have same : byte = 10 := by
      rw [← UInt8.toNat_inj, ← UInt8.toNat_toUInt16, ten]
      rfl
    subst same
    have code := (mem_utf8EncodeChar_iff (by decide)).mp encoded
    have lineFeed : c = '\n' := Char.toNat_inj.mp code
    rwa [← lineFeed]
  · intro member
    exact ⟨10, List.mem_flatMap.mpr ⟨'\n', member, by decide⟩, rfl⟩

end SessionCapture.Text
