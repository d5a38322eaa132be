/-!
# Words and double words

A capture is a sequence of bytes read through a 16-bit view.  Two bytes make a
word, low byte first, and two words make a double word, low word first.  Joining
and splitting are written as arithmetic on naturals; each undoes the other.
-/

namespace SessionCapture

namespace Wire

def joinBytes (low high : UInt8) : UInt16 :=
  UInt16.ofNat (low.toNat + 256 * high.toNat)

def joinWords (low high : UInt16) : UInt32 :=
  UInt32.ofNat (low.toNat + 65536 * high.toNat)

def splitWord (word : UInt16) : List UInt8 :=
  [word.toUInt8, (word / 256).toUInt8]

def splitDword (value : UInt32) : List UInt16 :=
  [value.toUInt16, (value / 65536).toUInt16]

/-- The bytes of a sequence of words, in order. -/
def bytes (words : List UInt16) : List UInt8 :=
  words.flatMap splitWord

private def wordsOnto : List UInt8 → List UInt16 → List UInt16
  | low :: high :: rest, done => wordsOnto rest (joinBytes low high :: done)
  | _, done => done.reverse

/-- The words of a sequence of bytes, in order.  An odd last byte is dropped. -/
def words (bytes : List UInt8) : List UInt16 :=
  wordsOnto bytes []

theorem toNat_joinBytes (low high : UInt8) :
    (joinBytes low high).toNat = low.toNat + 256 * high.toNat := by
  have lowBound := low.toNat_lt
  have highBound := high.toNat_lt
  simp only [joinBytes, UInt16.toNat_ofNat']
  omega

theorem toNat_joinWords (low high : UInt16) :
    (joinWords low high).toNat = low.toNat + 65536 * high.toNat := by
  have lowBound := low.toNat_lt
  have highBound := high.toNat_lt
  simp only [joinWords, UInt32.toNat_ofNat']
  omega

theorem joinBytes_split (word : UInt16) :
    joinBytes word.toUInt8 (word / 256).toUInt8 = word := by
  have bound := word.toNat_lt
  apply UInt16.toNat_inj.mp
  simp only [toNat_joinBytes, UInt16.toNat_toUInt8, UInt16.toNat_div,
    UInt16.toNat_ofNat, Nat.reducePow, Nat.reduceMod]
  omega

theorem joinWords_split (value : UInt32) :
    joinWords value.toUInt16 (value / 65536).toUInt16 = value := by
  have bound := value.toNat_lt
  apply UInt32.toNat_inj.mp
  simp only [toNat_joinWords, UInt32.toNat_toUInt16, UInt32.toNat_div,
    UInt32.toNat_ofNat, Nat.reducePow, Nat.reduceMod]
  omega

theorem splitWord_joinBytes (low high : UInt8) :
    splitWord (joinBytes low high) = [low, high] := by
  have lowBound := low.toNat_lt
  have highBound := high.toNat_lt
  simp only [splitWord, List.cons.injEq, and_true, ← UInt8.toNat_inj,
    UInt16.toNat_toUInt8, UInt16.toNat_div, UInt16.toNat_ofNat,
    Nat.reducePow, Nat.reduceMod, toNat_joinBytes]
  omega

theorem splitDword_joinWords (low high : UInt16) :
    splitDword (joinWords low high) = [low, high] := by
  have lowBound := low.toNat_lt
  have highBound := high.toNat_lt
  simp only [splitDword, List.cons.injEq, and_true, ← UInt16.toNat_inj,
    UInt32.toNat_toUInt16, UInt32.toNat_div, UInt32.toNat_ofNat,
    Nat.reducePow, Nat.reduceMod, toNat_joinWords]
  omega

@[simp] theorem bytes_nil : bytes [] = [] := rfl

@[simp] theorem bytes_cons (word : UInt16) (rest : List UInt16) :
    bytes (word :: rest) =
      word.toUInt8 :: (word / 256).toUInt8 :: bytes rest := rfl

@[simp] theorem bytes_append (front back : List UInt16) :
    bytes (front ++ back) = bytes front ++ bytes back :=
  List.flatMap_append

@[simp] theorem length_bytes (words : List UInt16) :
    (bytes words).length = 2 * words.length := by
  induction words with
  | nil => rfl
  | cons word rest induction =>
      simp only [bytes_cons, List.length_cons, induction]
      omega

private theorem wordsOnto_eq : ∀ (bytes : List UInt8) (done : List UInt16),
    wordsOnto bytes done = done.reverse ++ words bytes
  | low :: high :: rest, done => by
      rw [words, wordsOnto, wordsOnto, wordsOnto_eq rest, wordsOnto_eq rest]
      simp
  | [_], done => by simp [words, wordsOnto]
  | [], done => by simp [words, wordsOnto]

@[simp] theorem words_nil : words [] = [] := rfl

@[simp] theorem words_singleton (byte : UInt8) : words [byte] = [] := rfl

@[simp] theorem words_cons_cons (low high : UInt8) (rest : List UInt8) :
    words (low :: high :: rest) = joinBytes low high :: words rest := by
  rw [words, wordsOnto, wordsOnto_eq]
  simp

@[simp] theorem length_words : ∀ bytes : List UInt8,
    (words bytes).length = bytes.length / 2
  | _ :: _ :: rest => by
      simp only [words_cons_cons, List.length_cons, length_words rest]
      omega
  | [_] => by simp
  | [] => rfl

/-- Reading words back from what writing them produced yields the same words,
whatever bytes follow. -/
theorem words_bytes_append (written : List UInt16) (rest : List UInt8) :
    words (bytes written ++ rest) = written ++ words rest := by
  induction written with
  | nil => rfl
  | cons word written induction =>
      simp only [bytes_cons, List.cons_append, words_cons_cons, induction,
        joinBytes_split]

@[simp] theorem words_bytes (written : List UInt16) :
    words (bytes written) = written := by
  simpa using words_bytes_append written []

theorem words_take_bytes_append (written : List UInt16) (rest : List UInt8) :
    words ((bytes written ++ rest).take (2 * written.length)) = written := by
  rw [← length_bytes, List.take_left, words_bytes]

theorem drop_bytes_append (written : List UInt16) (rest : List UInt8) :
    (bytes written ++ rest).drop (2 * written.length) = rest := by
  rw [← length_bytes, List.drop_left]

end Wire

end SessionCapture
