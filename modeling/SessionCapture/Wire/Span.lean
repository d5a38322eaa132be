import SessionCapture.Wire.Word

/-!
# Unread input

A span is a run of unread bytes together with the absolute offset of its first
byte.  Reading takes bytes from the front and yields the span that is left.  A
read that needs more bytes than there are consumes nothing and tells where it
stood, what it needed and what there was.  Reading a word or a double word
undoes writing it, whatever follows.
-/

namespace SessionCapture

structure Span where
  offset : Nat
  bytes : List UInt8
deriving DecidableEq, Repr

/-- A read that ran past the end of the input. -/
structure Truncation where
  offset : Nat
  needed : Nat
  available : Nat
deriving DecidableEq, Repr

namespace Span

def remaining (span : Span) : Nat :=
  span.bytes.length

def drop (count : Nat) (span : Span) : Span :=
  ⟨span.offset + count, span.bytes.drop count⟩

/-- The next `count` bytes, or as many as there are, without consuming them. -/
def window (count : Nat) (span : Span) : Span :=
  ⟨span.offset, span.bytes.take count⟩

def take (count : Nat) (span : Span) : Except Truncation (List UInt8 × Span) :=
  let front := span.bytes.take count
  if front.length = count then
    .ok (front, span.drop count)
  else
    .error ⟨span.offset, count, span.remaining⟩

def skip (count : Nat) (span : Span) : Except Truncation Span :=
  (span.take count).map (·.2)

/-- The bytes that are asked for are counted by a machine word of 64 bits, so
that fewer than `2 ^ 63` words are asked for.  No payload of an event has more
than 65535. -/
def words (count : Nat) (span : Span) :
    Except Truncation (List UInt16 × Span) :=
  (span.take (2 * count)).map fun (front, left) => (Wire.words front, left)

def word (span : Span) : Except Truncation (UInt16 × Span) :=
  match span.bytes with
  | low :: high :: rest =>
      .ok (Wire.joinBytes low high, ⟨span.offset + 2, rest⟩)
  | _ => .error ⟨span.offset, 2, span.remaining⟩

/-- A double word is read whole or not at all. -/
def dword (span : Span) : Except Truncation (UInt32 × Span) :=
  match span.bytes with
  | a :: b :: c :: d :: rest =>
      .ok (Wire.joinWords (Wire.joinBytes a b) (Wire.joinBytes c d),
        ⟨span.offset + 4, rest⟩)
  | _ => .error ⟨span.offset, 4, span.remaining⟩

theorem take_of_le {count : Nat} {span : Span}
    (enough : count ≤ span.remaining) :
    span.take count = .ok (span.bytes.take count, span.drop count) :=
  if_pos (List.length_take_of_le enough)

theorem take_of_lt {count : Nat} {span : Span}
    (short : span.remaining < count) :
    span.take count = .error ⟨span.offset, count, span.remaining⟩ := by
  apply if_neg
  rw [List.length_take]
  change span.bytes.length < count at short
  omega

theorem skip_of_le {count : Nat} {span : Span}
    (enough : count ≤ span.remaining) :
    span.skip count = .ok (span.drop count) := by
  rw [skip, take_of_le enough]
  rfl

theorem skip_of_lt {count : Nat} {span : Span}
    (short : span.remaining < count) :
    span.skip count = .error ⟨span.offset, count, span.remaining⟩ := by
  rw [skip, take_of_lt short]
  rfl

theorem word_of_short {span : Span} (short : span.remaining < 2) :
    span.word = .error ⟨span.offset, 2, span.remaining⟩ := by
  obtain ⟨offset, content⟩ := span
  match content with
  | [] => rfl
  | [_] => rfl
  | _ :: _ :: rest =>
      change rest.length + 1 + 1 < 2 at short
      omega

theorem dword_of_short {span : Span} (short : span.remaining < 4) :
    span.dword = .error ⟨span.offset, 4, span.remaining⟩ := by
  obtain ⟨offset, content⟩ := span
  match content with
  | [] => rfl
  | [_] => rfl
  | [_, _] => rfl
  | [_, _, _] => rfl
  | _ :: _ :: _ :: _ :: rest =>
      change rest.length + 1 + 1 + 1 + 1 < 4 at short
      omega

@[simp] theorem word_bytes_append (offset : Nat) (value : UInt16)
    (rest : List UInt8) :
    word ⟨offset, Wire.bytes [value] ++ rest⟩ =
      .ok (value, ⟨offset + 2, rest⟩) := by
  simp [word, Wire.joinBytes_split]

@[simp] theorem dword_bytes_append (offset : Nat) (value : UInt32)
    (rest : List UInt8) :
    dword ⟨offset, Wire.bytes (Wire.splitDword value) ++ rest⟩ =
      .ok (value, ⟨offset + 4, rest⟩) := by
  simp only [dword, Wire.splitDword, Wire.bytes_cons, Wire.bytes_nil,
    List.cons_append, List.nil_append, Wire.joinBytes_split,
    Wire.joinWords_split]

end Span

end SessionCapture
