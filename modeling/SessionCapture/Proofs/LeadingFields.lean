import SessionCapture.Proofs.WordBytes
import SessionCapture.Record.Read

/-!
# The fields at the front of a record

Every record begins with fields of known sizes.  `leadingFields` says what they
are by the bytes alone: a field is there if all of its bytes are, and it is the
number that these bytes make.  Reading a record of a fixed size yields all of its
fields if there are as many bytes, and a fragment with the leading ones if there
are not.
-/

namespace SessionCapture

/-- The number that bytes make, the lowest byte first. -/
def littleEndian : List UInt8 → Nat
  | [] => 0
  | byte :: higher => byte.toNat + 256 * littleEndian higher

/-- The fields of the given sizes that stand one after another at the front of
`content` and lie wholly within it. -/
def leadingFields : List Nat → List UInt8 → List UInt32
  | [], _ => []
  | size :: sizes, content =>
      if size ≤ content.length then
        UInt32.ofNat (littleEndian (content.take size)) ::
          leadingFields sizes (content.drop size)
      else
        []

namespace RecordKind

/-- The sizes in bytes of the fields of fixed position. -/
def fieldSizes : RecordKind → List Nat
  | movement => [4, 2, 2]
  | action => [4, 2, 2, 2, 2]
  | event => [4, 2, 2, 2, 2]

theorem fieldSizes_eq (kind : RecordKind) :
    kind.fieldSizes = 4 :: List.replicate (kind.fixedFields - 1) 2 := by
  cases kind <;> rfl

end RecordKind

/-! ## Fields and words -/

theorem joinWords_eq_ofNat (a b c d : UInt8) :
    Wire.joinWords (Wire.joinBytes a b) (Wire.joinBytes c d) =
      UInt32.ofNat (littleEndian [a, b, c, d]) := by
  rw [Wire.joinWords, Wire.toNat_joinBytes, Wire.toNat_joinBytes]
  apply congrArg UInt32.ofNat
  simp only [littleEndian]
  omega

theorem toUInt32_joinBytes (low high : UInt8) :
    (Wire.joinBytes low high).toUInt32 =
      UInt32.ofNat (littleEndian [low, high]) := by
  have lowBound := low.toNat_lt
  have highBound := high.toNat_lt
  apply UInt32.toNat_inj.mp
  simp only [UInt16.toNat_toUInt32, Wire.toNat_joinBytes, littleEndian,
    UInt32.toNat_ofNat']
  omega

/-- Fields of two bytes are words. -/
theorem leadingFields_replicate : ∀ (count : Nat) (content : List UInt8),
    leadingFields (List.replicate count 2) content =
      (Wire.words (content.take (2 * count))).map (·.toUInt32)
  | 0, content => rfl
  | count + 1, [] => by
      rw [List.replicate_succ, leadingFields, if_neg (by simp)]
      rfl
  | count + 1, [byte] => by
      rw [List.replicate_succ, leadingFields, if_neg (by simp)]
      rfl
  | count + 1, low :: high :: rest => by
      have enough : 2 ≤ (low :: high :: rest).length :=
        Nat.le_add_left 2 rest.length
      have back := leadingFields_replicate count rest
      rw [List.replicate_succ, leadingFields, if_pos enough, Nat.mul_succ]
      change _ :: leadingFields _ rest =
        List.map _ (Wire.words (low :: high :: rest.take (2 * count)))
      rw [Wire.words_cons_cons, List.map_cons, toUInt32_joinBytes, back]
      rfl

/-- The fields that lie within the words of a record's bytes are those that lie
within the bytes. -/
theorem Fragment.ofWords_take (kind : RecordKind) (content : List UInt8) :
    ofWords kind (Wire.words (content.take kind.size)) =
      ⟨kind, leadingFields kind.fieldSizes content⟩ := by
  rw [kind.fieldSizes_eq, kind.size_eq, leadingFields]
  match content with
  | [] | [_] | [_, _] | [_, _, _] =>
      rw [if_neg (by simp), Nat.add_comm]
      rfl
  | a :: b :: c :: d :: rest =>
      have enough : 4 ≤ (a :: b :: c :: d :: rest).length :=
        Nat.le_add_left 4 rest.length
      rw [if_pos enough, Nat.add_comm]
      change ofWords kind (Wire.words (a :: b :: c :: d :: rest.take _)) =
        Fragment.mk kind (_ :: leadingFields _ rest)
      rw [Wire.words_cons_cons, Wire.words_cons_cons, ofWords,
        joinWords_eq_ofNat, leadingFields_replicate]
      rfl

/-! ## Records of a fixed size -/

namespace FixedForm

variable {α : Type} (form : FixedForm α) {content : List UInt8}

/-- Bytes that are enough begin with the bytes of one record. -/
theorem exists_bytes_append (enough : form.kind.size ≤ content.length) :
    ∃ record,
      content = Wire.bytes (form.words record) ++
        content.drop form.kind.size := by
  have even : form.kind.size = 2 * (2 + (form.kind.fixedFields - 1)) := by
    rw [form.kind.size_eq]
    omega
  have front : (content.take form.kind.size).length = form.kind.size :=
    List.length_take_of_le enough
  have sized :
      2 * (Wire.words (content.take form.kind.size)).length =
        form.kind.size := by
    rw [Wire.length_words, front]
    omega
  obtain ⟨record, written⟩ := form.exists_words sized
  refine ⟨record, ?_⟩
  rw [written, Wire.bytes_words (by omega), List.take_append_drop]

theorem fields_eq_of_bytes_append {record : α} {rest : List UInt8}
    (begins : content = Wire.bytes (form.words record) ++ rest) :
    form.fields record = leadingFields form.kind.fieldSizes content := by
  have whole := Fragment.ofWords_take form.kind content
  rw [begins, ← form.length_words record, Wire.words_take_bytes_append,
    form.ofWords_words, ← begins] at whole
  exact congrArg Fragment.fields whole

theorem read_of_le (enough : form.kind.size ≤ content.length) :
    ∃ record, form.read content =
        .ok (record, content.drop form.kind.size) ∧
      form.fields record = leadingFields form.kind.fieldSizes content := by
  obtain ⟨record, begins⟩ := form.exists_bytes_append enough
  refine ⟨record, ?_, form.fields_eq_of_bytes_append begins⟩
  have restored := form.read_bytes_append record
    (content.drop form.kind.size)
  rw [← begins] at restored
  exact restored

theorem read_of_lt (short : content.length < form.kind.size) :
    form.read content =
      .error ⟨form.kind, leadingFields form.kind.fieldSizes content⟩ := by
  rw [form.read_of_short short, Fragment.ofWords_take]

end FixedForm

namespace Event

/-- An event whose header is cut short. -/
theorem read_of_lt {content : List UInt8}
    (short : content.length < EventHeader.size) :
    Event.read content =
      .error ⟨⟨.event, leadingFields RecordKind.event.fieldSizes content⟩,
        .headerTruncated
          (leadingFields RecordKind.event.fieldSizes content).length⟩ := by
  have header : EventHeader.read content = .error _ :=
    FixedForm.eventHeader.read_of_lt short
  rw [Event.read, header]
  rfl

variable {header : EventHeader} {body : List UInt8}

theorem read_of_payload_le (enough : 2 * header.length.toNat ≤ body.length) :
    Event.read (Wire.bytes header.words ++ body) =
      .ok (⟨header, Wire.words (body.take (2 * header.length.toNat))⟩,
        body.drop (2 * header.length.toNat)) := by
  rw [Event.read, EventHeader.read_bytes_append]
  exact if_pos (List.length_take_of_le enough)

/-- An event whose payload is cut short. -/
theorem read_of_payload_lt (short : body.length < 2 * header.length.toNat) :
    Event.read (Wire.bytes header.words ++ body) =
      .error ⟨header.fragment,
        .payloadOverrun header.length (body.length / 2)⟩ := by
  have partly : (body.take (2 * header.length.toNat)).length ≠
      2 * header.length.toNat := by
    rw [List.length_take]
    omega
  rw [Event.read, EventHeader.read_bytes_append]
  exact if_neg partly

end Event

end SessionCapture
