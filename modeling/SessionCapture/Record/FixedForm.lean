import SessionCapture.Record.Basic

/-!
# Records of a fixed size

A movement, a click and the header of an event each consist of a timestamp and
of a known number of words after it.  A `FixedForm` is one of these three sorts.
Reading it from the front of a byte sequence yields a record if there are bytes
enough, and else a fragment with what there is.  Reading a record undoes writing
it, whatever follows.
-/

namespace SessionCapture

namespace RecordKind

/-- Size in bytes of a record of this kind; for an event, that of its header. -/
def size : RecordKind → Nat
  | movement => Movement.size
  | action => Click.size
  | event => EventHeader.size

theorem size_eq (kind : RecordKind) :
    kind.size = 4 + 2 * (kind.fixedFields - 1) := by
  cases kind <;> rfl

theorem size_ne_zero (kind : RecordKind) : kind.size ≠ 0 := by
  rw [size_eq]
  omega

end RecordKind

/-- A sort of record, or of record header, that has fields of fixed position
only: a timestamp and as many words as its kind says. -/
structure FixedForm (α : Type) where
  kind : RecordKind
  timestamp : α → UInt32
  /-- The fields after the timestamp. -/
  others : α → List UInt16
  length_others : ∀ record, (others record).length = kind.fixedFields - 1
  ofFields : UInt32 → (values : List UInt16) →
    values.length = kind.fixedFields - 1 → α
  ofFields_others : ∀ record,
    ofFields (timestamp record) (others record) (length_others record) = record
  timestamp_ofFields : ∀ time values sized,
    timestamp (ofFields time values sized) = time
  others_ofFields : ∀ time values sized,
    others (ofFields time values sized) = values

namespace FixedForm

def movement : FixedForm Movement where
  kind := .movement
  timestamp := Movement.timestamp
  others movement := [movement.x, movement.y]
  length_others _ := rfl
  ofFields
    | time, [x, y], _ => ⟨time, x, y⟩
  ofFields_others _ := rfl
  timestamp_ofFields
    | _, [_, _], _ => rfl
  others_ofFields
    | _, [_, _], _ => rfl

def click : FixedForm Click where
  kind := .action
  timestamp := Click.timestamp
  others click := [click.x, click.y, click.tag, click.value]
  length_others _ := rfl
  ofFields
    | time, [x, y, tag, value], _ => ⟨time, x, y, tag, value⟩
  ofFields_others _ := rfl
  timestamp_ofFields
    | _, [_, _, _, _], _ => rfl
  others_ofFields
    | _, [_, _, _, _], _ => rfl

def eventHeader : FixedForm EventHeader where
  kind := .event
  timestamp := EventHeader.timestamp
  others header := [header.x, header.y, header.tag, header.length]
  length_others _ := rfl
  ofFields
    | time, [x, y, tag, length], _ => ⟨time, x, y, tag, length⟩
  ofFields_others _ := rfl
  timestamp_ofFields
    | _, [_, _, _, _], _ => rfl
  others_ofFields
    | _, [_, _, _, _], _ => rfl

variable {α : Type} (form : FixedForm α)

/-- All fields, the timestamp first. -/
def fields (record : α) : List UInt32 :=
  form.timestamp record :: (form.others record).map (·.toUInt32)

def words (record : α) : List UInt16 :=
  Wire.splitDword (form.timestamp record) ++ form.others record

def ofWords? : List UInt16 → Option α
  | low :: high :: values =>
      if sized : values.length = form.kind.fixedFields - 1 then
        some (form.ofFields (Wire.joinWords low high) values sized)
      else
        none
  | _ => none

def read (bytes : List UInt8) : Except Fragment (α × List UInt8) :=
  let front := Wire.words (bytes.take form.kind.size)
  match form.ofWords? front with
  | some record => .ok (record, bytes.drop form.kind.size)
  | none => .error (.ofWords form.kind front)

/-! ## Records and their words -/

theorem length_words (record : α) :
    2 * (form.words record).length = form.kind.size := by
  rw [words, List.length_append, form.length_others, form.kind.size_eq]
  exact Nat.mul_add 2 2 _

theorem length_bytes (record : α) :
    (Wire.bytes (form.words record)).length = form.kind.size := by
  rw [Wire.length_bytes, form.length_words]

@[simp] theorem ofWords?_words (record : α) :
    form.ofWords? (form.words record) = some record := by
  have sized := form.length_others record
  simp only [words, Wire.splitDword, List.cons_append, List.nil_append,
    ofWords?, dif_pos sized, Wire.joinWords_split, form.ofFields_others]

theorem ofWords_words (record : α) :
    Fragment.ofWords form.kind (form.words record) =
      ⟨form.kind, form.fields record⟩ := by
  simp only [words, Wire.splitDword, List.cons_append, List.nil_append,
    Fragment.ofWords, Wire.joinWords_split, fields]

/-- Any words are those of a record if they are as many. -/
theorem exists_words {written : List UInt16}
    (sized : 2 * written.length = form.kind.size) :
    ∃ record, form.words record = written := by
  rw [form.kind.size_eq] at sized
  match written with
  | [] | [_] =>
      simp only [List.length_cons, List.length_nil] at sized
      omega
  | low :: high :: values =>
      have count : values.length = form.kind.fixedFields - 1 := by
        simp only [List.length_cons] at sized
        omega
      refine ⟨form.ofFields (Wire.joinWords low high) values count, ?_⟩
      rw [words, form.timestamp_ofFields, form.others_ofFields,
        Wire.splitDword_joinWords]
      rfl

theorem fields_injective {left right : α}
    (same : form.fields left = form.fields right) : left = right := by
  obtain ⟨time, mapped⟩ := List.cons.inj same
  have others : form.others left = form.others right :=
    (List.map_inj_right fun _ _ => UInt16.toUInt32_inj.mp).mp mapped
  rw [← form.ofFields_others left, ← form.ofFields_others right]
  simp only [time, others]

/-! ## Reading -/

@[simp] theorem read_bytes_append (record : α) (rest : List UInt8) :
    form.read (Wire.bytes (form.words record) ++ rest) =
      .ok (record, rest) := by
  rw [read, List.take_left' (form.length_bytes record),
    List.drop_left' (form.length_bytes record), Wire.words_bytes,
    ofWords?_words]

/-- Bytes that are too few for a record make too few words. -/
theorem read_of_short {content : List UInt8}
    (short : content.length < form.kind.size) :
    form.read content =
      .error (.ofWords form.kind
        (Wire.words (content.take form.kind.size))) := by
  have few : 2 * (Wire.words (content.take form.kind.size)).length <
      form.kind.size := by
    rw [Wire.length_words, List.length_take]
    omega
  have none : form.ofWords? (Wire.words (content.take form.kind.size)) =
      none := by
    rw [form.kind.size_eq] at few ⊢
    unfold ofWords?
    split
    · next found =>
        rw [found, List.length_cons, List.length_cons] at few
        exact dif_neg (by omega)
    · rfl
  rw [read, none]

theorem read_rest {content rest : List UInt8} {record : α}
    (success : form.read content = .ok (record, rest)) :
    form.kind.size ≤ content.length ∧ rest = content.drop form.kind.size := by
  by_cases short : content.length < form.kind.size
  · rw [form.read_of_short short] at success
    cases success
  · refine ⟨Nat.le_of_not_lt short, ?_⟩
    unfold read at success
    dsimp only at success
    split at success
    · cases success
      rfl
    · cases success

theorem kind_of_read_error {content : List UInt8} {fragment : Fragment}
    (failure : form.read content = .error fragment) :
    fragment.kind = form.kind := by
  unfold read at failure
  dsimp only at failure
  split at failure
  · cases failure
  · cases failure
    exact Fragment.kind_ofWords form.kind _

end FixedForm

end SessionCapture
