import SessionCapture.Output.Line
import SessionCapture.Proofs.Numerals

/-!
# Reading lines back

A line can be read back from its text.  The text falls into fields at its
commas, the first of which is the tag, and the tag says what the others are.
Only the text of a notice or description may hold commas itself, and it comes
last.  A description without a timestamp is told from one with a timestamp by
its first field, which is no numeral.  Lines that hold no line feed can be read
back from the text that is written for all of them.
-/

namespace SessionCapture

namespace Line

/-- Fields of one text that holds commas. -/
def rejoin (fields : List (List Char)) : String :=
  String.ofList ([','].intercalate fields)

/-- Reads the fields after a tag in angle brackets. -/
def ofFields? (tag : String) (fields : List (List Char)) : Option Line :=
  let values := fields.map Numeral.value
  match tag with
  | "<Meta>" => some (.notice (rejoin (fields.drop 1)))
  | "<Movement>" =>
      match values with
      | [t, x, y] => some (.movement ⟨.ofNat t, .ofNat x, .ofNat y⟩)
      | _ => none
  | "<Click>" =>
      match values with
      | [t, x, y, tag, value] =>
          some (.click
            ⟨.ofNat t, .ofNat x, .ofNat y, .ofNat tag, .ofNat value⟩)
      | _ => none
  | "<Event>" =>
      match values with
      | [t, x, y, tag, length, _] =>
          some (.event
            ⟨.ofNat t, .ofNat x, .ofNat y, .ofNat tag, .ofNat length⟩)
      | _ => none
  | "<Data>" =>
      match values with
      | [t, index, word] => some (.data (.ofNat t) index (.ofNat word))
      | _ => none
  | "<Human>" =>
      match fields with
      | first :: rest =>
          if first.all Char.isDigit then
            some (.human (some (.ofNat (Numeral.value first))) (rejoin rest))
          else
            some (.human none (rejoin fields))
      | [] => none
  | "<CORRUPT_MOVEMENT>" =>
      some (.corrupt ⟨.movement, values.map .ofNat⟩)
  | "<CORRUPT_ACTION>" =>
      some (.corrupt ⟨.action, values.map .ofNat⟩)
  | "<CORRUPT_EVENT>" =>
      -- a complete header is closed by one more field
      let complete := RecordKind.fixedFields .event < values.length
      some (.corrupt ⟨.event,
        (if complete then values.dropLast else values).map .ofNat⟩)
  | _ => none

/-- Reads a line from its text. -/
def read? (text : List Char) : Option Line :=
  match text.splitOn ',' with
  | tag :: fields => ofFields? (String.ofList tag) fields
  | [] => none

/-- Reads the lines that a text was written for. -/
def readWritten? (text : String) : Option (List Line) :=
  (text.toList.splitOn '\n').dropLast.mapM read?

/-! ## Fields of a text -/

theorem toList_text (line : Line) :
    line.text.toList =
      [','].intercalate
        (s!"<{line.tag}>".toList :: line.fields.map String.toList) := by
  rw [text, String.toList_intercalate]
  rfl

/-- The tags that lines can have. -/
def tags : List String :=
  ["Meta", "Movement", "Click", "Event", "Data", "Human", "CORRUPT_MOVEMENT",
    "CORRUPT_ACTION", "CORRUPT_EVENT"]

theorem tag_mem_tags (line : Line) : line.tag ∈ tags := by
  cases line with
  | corrupt fragment =>
      change fragment.kind.corruptTag ∈ tags
      cases fragment.kind <;> simp [tags, RecordKind.corruptTag]
  | _ => simp [tags, tag]

theorem comma_notMem_tag (line : Line) :
    ',' ∉ s!"<{line.tag}>".toList := by
  have every : ∀ tag ∈ tags, ',' ∉ s!"<{tag}>".toList := by decide
  exact every line.tag line.tag_mem_tags

/-- Parts without separators in front of a last one stay apart from it. -/
theorem splitOn_intercalate_append {separator : Char}
    {parts : List (List Char)} (plain : ∀ part ∈ parts, separator ∉ part)
    (last : List Char) :
    ([separator].intercalate (parts ++ [last])).splitOn separator =
      parts ++ last.splitOn separator := by
  induction parts with
  | nil => simp
  | cons part parts induction =>
      rw [List.forall_mem_cons] at plain
      have nonempty : parts ++ [last] ≠ [] := by simp
      obtain ⟨next, rest, same⟩ := List.exists_cons_of_ne_nil nonempty
      have later := induction plain.2
      rw [same] at later
      rw [List.cons_append, same, List.intercalate_cons_cons,
        List.append_assoc, List.singleton_append,
        List.splitOn_append_cons_self_of_not_mem plain.1, later,
        List.cons_append]

/-- The fields of a text come out as they were written, if only the last one
holds commas. -/
theorem read?_of_fields {line : Line} (front : List String) {last : String}
    (shape : line.fields = front ++ [last])
    (plain : ∀ field ∈ front, ',' ∉ field.toList) :
    read? line.text.toList =
      ofFields? s!"<{line.tag}>"
        (front.map String.toList ++ last.toList.splitOn ',') := by
  have parts : ∀ part ∈ s!"<{line.tag}>".toList :: front.map String.toList,
      ',' ∉ part := by
    refine List.forall_mem_cons.mpr ⟨line.comma_notMem_tag, ?_⟩
    simpa using plain
  have split := splitOn_intercalate_append parts last.toList
  rw [read?, toList_text, shape, List.map_append, List.map_singleton,
    ← List.cons_append, split]
  simp only [List.cons_append, String.ofList_toList]

/-- Without any commas, all fields do. -/
theorem read?_of_plain {line : Line}
    (plain : ∀ field ∈ line.fields, ',' ∉ field.toList) :
    read? line.text.toList =
      ofFields? s!"<{line.tag}>" (line.fields.map String.toList) := by
  rw [read?, toList_text, List.splitOn_intercalate]
  · simp only [String.ofList_toList]
  · refine List.forall_mem_cons.mpr ⟨line.comma_notMem_tag, ?_⟩
    simpa using plain
  · simp

theorem rejoin_splitOn (text : String) :
    rejoin (text.toList.splitOn ',') = text := by
  rw [rejoin, List.intercalate_splitOn, String.ofList_toList]

/-! ## Reading each kind of line -/

section Commas

private theorem comma_noDigit : Numeral.NoDigit ',' := by decide

@[simp] private theorem comma_notMem_tenDigits (number : Nat) :
    ',' ∉ (Numeral.tenDigits number).toList :=
  Numeral.notMem_tenDigits comma_noDigit number

@[simp] private theorem comma_notMem_word (word : UInt16) :
    ',' ∉ (toString word).toList :=
  Numeral.notMem_word comma_noDigit word

@[simp] private theorem comma_notMem_dword (value : UInt32) :
    ',' ∉ (toString value).toList :=
  Numeral.notMem_dword comma_noDigit value

end Commas

theorem read?_notice (text : String) :
    read? (Line.notice text).text.toList = some (.notice text) := by
  rw [read?_of_fields [Numeral.tenDigits 0] rfl (by simp)]
  change some (Line.notice (rejoin (text.toList.splitOn ','))) = _
  rw [rejoin_splitOn]

theorem read?_movement (movement : Movement) :
    read? (Line.movement movement).text.toList = some (.movement movement) := by
  rw [read?_of_plain]
  · change some (Line.movement
      ⟨.ofNat (Numeral.value
          (Numeral.tenDigits movement.timestamp.toNat).toList),
        .ofNat (Numeral.value (toString movement.x).toList),
        .ofNat (Numeral.value (toString movement.y).toList)⟩) = _
    simp only [Numeral.value_tenDigits, Numeral.value_word,
      UInt32.ofNat_toNat, UInt16.ofNat_toNat]
  · change ∀ field ∈ [Numeral.tenDigits movement.timestamp.toNat,
      toString movement.x, toString movement.y], ',' ∉ field.toList
    simp

theorem read?_click (click : Click) :
    read? (Line.click click).text.toList = some (.click click) := by
  rw [read?_of_plain]
  · change some (Line.click
      ⟨.ofNat (Numeral.value
          (Numeral.tenDigits click.timestamp.toNat).toList),
        .ofNat (Numeral.value (toString click.x).toList),
        .ofNat (Numeral.value (toString click.y).toList),
        .ofNat (Numeral.value (toString click.tag).toList),
        .ofNat (Numeral.value (toString click.value).toList)⟩) = _
    simp only [Numeral.value_tenDigits, Numeral.value_word,
      UInt32.ofNat_toNat, UInt16.ofNat_toNat]
  · change ∀ field ∈ [Numeral.tenDigits click.timestamp.toNat,
      toString click.x, toString click.y, toString click.tag,
      toString click.value], ',' ∉ field.toList
    simp

theorem read?_event (header : EventHeader) :
    read? (Line.event header).text.toList = some (.event header) := by
  rw [read?_of_plain]
  · change some (Line.event
      ⟨.ofNat (Numeral.value (toString header.timestamp).toList),
        .ofNat (Numeral.value (toString header.x).toList),
        .ofNat (Numeral.value (toString header.y).toList),
        .ofNat (Numeral.value (toString header.tag).toList),
        .ofNat (Numeral.value (toString header.length).toList)⟩) = _
    simp only [Numeral.value_dword, Numeral.value_word,
      UInt32.ofNat_toNat, UInt16.ofNat_toNat]
  · simp [fields]

theorem read?_data (timestamp : UInt32) (index : Nat) (word : UInt16) :
    read? (Line.data timestamp index word).text.toList =
      some (.data timestamp index word) := by
  rw [read?_of_plain]
  · change some (Line.data
      (.ofNat (Numeral.value (Numeral.tenDigits timestamp.toNat).toList))
      (Numeral.value (Numeral.tenDigits index).toList)
      (.ofNat (Numeral.value (toString word).toList))) = _
    simp only [Numeral.value_tenDigits, Numeral.value_word,
      UInt32.ofNat_toNat, UInt16.ofNat_toNat]
  · change ∀ field ∈ [Numeral.tenDigits timestamp.toNat,
      Numeral.tenDigits index, toString word], ',' ∉ field.toList
    simp

private theorem ofFields?_human (first : List Char)
    (rest : List (List Char)) :
    ofFields? "<Human>" (first :: rest) =
      if first.all Char.isDigit then
        some (.human (some (.ofNat (Numeral.value first))) (rejoin rest))
      else
        some (.human none (rejoin (first :: rest))) := rfl

/-- A description with a timestamp has a numeral before it. -/
theorem read?_human_some (timestamp : UInt32) (text : String) :
    read? (Line.human (some timestamp) text).text.toList =
      some (.human (some timestamp) text) := by
  have stamped : (Numeral.tenDigits timestamp.toNat).toList.all
      Char.isDigit = true := by
    rw [List.all_eq_true]
    intro c member
    exact Numeral.isDigit_of_mem_tenDigits member
  rw [read?_of_fields [Numeral.tenDigits timestamp.toNat] rfl (by simp)]
  refine (ofFields?_human _ (text.toList.splitOn ',')).trans ?_
  rw [if_pos stamped, Numeral.value_tenDigits, UInt32.ofNat_toNat,
    rejoin_splitOn]

theorem read?_human_none :
    read? (Line.human none "Corrupted action.").text.toList =
      some (.human none "Corrupted action.") := by
  decide

/-- The fields of a fragment that is told with a timestamp. -/
private def fragmentTexts (timestamp : UInt32) (rest : List UInt32) :
    List String :=
  Numeral.tenDigits timestamp.toNat :: rest.map toString

private theorem comma_notMem_fragmentTexts (timestamp : UInt32)
    (rest : List UInt32) :
    ∀ field ∈ fragmentTexts timestamp rest, ',' ∉ field.toList := by
  simp [fragmentTexts]

private theorem values_fragmentTexts (timestamp : UInt32)
    (rest : List UInt32) :
    ((fragmentTexts timestamp rest).map String.toList).map Numeral.value =
      (timestamp :: rest).map UInt32.toNat := by
  simp [fragmentTexts, Function.comp_def, Numeral.value_tenDigits,
    Numeral.value_dword]

private theorem map_ofNat_map_toNat (values : List UInt32) :
    (values.map UInt32.toNat).map UInt32.ofNat = values := by
  simp [Function.comp_def]

private theorem ofFields?_of_ne_event {kind : RecordKind}
    (other : kind ≠ .event) (fields : List (List Char)) :
    ofFields? s!"<{kind.corruptTag}>" fields =
      some (.corrupt ⟨kind, (fields.map Numeral.value).map .ofNat⟩) := by
  cases kind with
  | event => exact absurd rfl other
  | _ => rfl

private theorem ofFields?_event (fields : List (List Char)) :
    ofFields? s!"<{RecordKind.event.corruptTag}>" fields =
      some (.corrupt ⟨.event,
        (if 5 < (fields.map Numeral.value).length then
          (fields.map Numeral.value).dropLast
        else fields.map Numeral.value).map .ofNat⟩) := rfl

/-- A fragment that no zero closes: the fields are those that were read. -/
private theorem read?_corrupt_of_open {fragment : Fragment}
    {timestamp : UInt32} {rest : List UInt32}
    (told : fragment.fields = timestamp :: rest)
    (short : fragment.kind = .event → rest.length < 4) :
    read? (Line.corrupt fragment).text.toList = some (.corrupt fragment) := by
  obtain ⟨kind, _⟩ := fragment
  subst told
  have shape : fields (.corrupt ⟨kind, timestamp :: rest⟩) =
      fragmentTexts timestamp rest := by
    refine (congrArg (fragmentTexts timestamp rest ++ ·) (if_neg ?_)).trans
      (List.append_nil _)
    rintro ⟨rfl, complete⟩
    have long : 5 ≤ rest.length + 1 := of_decide_eq_true complete
    have few := short rfl
    omega
  have plain := comma_notMem_fragmentTexts timestamp rest
  rw [read?_of_plain (by rw [shape]; exact plain), shape]
  by_cases event : kind = .event
  · subst event
    have few := short rfl
    refine (ofFields?_event _).trans ?_
    rw [values_fragmentTexts, if_neg, map_ofNat_map_toNat]
    simp only [List.length_map, List.length_cons]
    omega
  · refine (ofFields?_of_ne_event event _).trans ?_
    rw [values_fragmentTexts, map_ofNat_map_toNat]

/-- A complete event header: its zero is the sixth field or a later one. -/
private theorem read?_corrupt_of_closed {timestamp : UInt32}
    {rest : List UInt32} (long : 4 ≤ rest.length) :
    let fragment : Fragment := ⟨.event, timestamp :: rest⟩
    read? (Line.corrupt fragment).text.toList = some (.corrupt fragment) := by
  intro fragment
  have shape : fields (.corrupt fragment) =
      fragmentTexts timestamp rest ++ ["0"] := by
    refine congrArg (fragmentTexts timestamp rest ++ ·) (if_pos ⟨rfl, ?_⟩)
    exact decide_eq_true (Nat.succ_le_succ long)
  have plain : ∀ field ∈ fragmentTexts timestamp rest ++ ["0"],
      ',' ∉ field.toList := by
    rw [List.forall_mem_append]
    exact ⟨comma_notMem_fragmentTexts timestamp rest, by simp⟩
  have zero : Numeral.value "0".toList = 0 := by decide
  rw [read?_of_plain (by rw [shape]; exact plain), shape]
  refine (ofFields?_event _).trans ?_
  simp only [List.map_append, values_fragmentTexts, List.map_singleton, zero]
  rw [if_pos, List.dropLast_concat, map_ofNat_map_toNat]
  simp only [List.length_append, List.length_map, List.length_cons,
    List.length_nil]
  omega

theorem read?_corrupt (fragment : Fragment) :
    read? (Line.corrupt fragment).text.toList = some (.corrupt fragment) := by
  obtain ⟨kind, told⟩ := fragment
  cases told with
  | nil => cases kind <;> decide
  | cons timestamp rest =>
      by_cases closed : kind = .event ∧ 4 ≤ rest.length
      · obtain ⟨rfl, long⟩ := closed
        exact read?_corrupt_of_closed long
      · apply read?_corrupt_of_open rfl
        intro event
        exact Nat.not_le.mp fun long => closed ⟨event, long⟩

end Line

/-! ## Texts on one line -/

/-- A text without line feeds. -/
def SingleLine (text : String) : Prop :=
  '\n' ∉ text.toList

namespace SingleLine

instance (text : String) : Decidable (SingleLine text) :=
  inferInstanceAs (Decidable ('\n' ∉ text.toList))

private theorem noDigit : Numeral.NoDigit '\n' := by decide

@[simp] theorem nat (number : Nat) : SingleLine number.repr :=
  Numeral.notMem_nat noDigit number

@[simp] theorem word (word : UInt16) : SingleLine (toString word) :=
  Numeral.notMem_word noDigit word

@[simp] theorem dword (value : UInt32) : SingleLine (toString value) :=
  Numeral.notMem_dword noDigit value

@[simp] theorem tenDigits (number : Nat) :
    SingleLine (Numeral.tenDigits number) :=
  Numeral.notMem_tenDigits noDigit number

@[simp] theorem append_iff (front back : String) :
    SingleLine (front ++ back) ↔ SingleLine front ∧ SingleLine back := by
  simp [SingleLine]

@[simp] theorem ofList_iff (text : List Char) :
    SingleLine (String.ofList text) ↔ '\n' ∉ text := by
  simp [SingleLine]

@[simp] theorem join_iff (parts : List String) :
    SingleLine (String.join parts) ↔ ∀ part ∈ parts, SingleLine part := by
  simp [SingleLine, String.toList_join]

theorem intercalate {separator : String} {parts : List String}
    (between : SingleLine separator) (each : ∀ part ∈ parts, SingleLine part) :
    SingleLine (String.intercalate separator parts) := by
  induction parts with
  | nil => simp +decide
  | cons part parts induction =>
      rw [List.forall_mem_cons] at each
      cases parts with
      | nil => simpa using each.1
      | cons next rest =>
          rw [String.intercalate_cons_cons, append_iff, append_iff]
          exact ⟨⟨each.1, between⟩, induction each.2⟩

end SingleLine

namespace Line

/-! ## Legible lines -/

/-- Free text holds no line feed, and the only description without a timestamp
is that of a click which is cut short before the end of its timestamp. -/
def Legible : Line → Prop
  | .notice text | .human (some _) text => SingleLine text
  | .human none text => text = "Corrupted action."
  | _ => True

/-- A legible line is read back from its text. -/
theorem read?_text {line : Line} (legible : line.Legible) :
    read? line.text.toList = some line := by
  cases line with
  | notice text => exact read?_notice text
  | movement movement => exact read?_movement movement
  | click click => exact read?_click click
  | event header => exact read?_event header
  | data timestamp index word => exact read?_data timestamp index word
  | human timestamp text =>
      cases timestamp with
      | some timestamp => exact read?_human_some timestamp text
      | none =>
          cases legible
          exact read?_human_none
  | corrupt fragment => exact read?_corrupt fragment

theorem singleLine_tag (line : Line) : SingleLine s!"<{line.tag}>" := by
  have every : ∀ tag ∈ tags, SingleLine s!"<{tag}>" := by decide
  exact every line.tag line.tag_mem_tags

private theorem singleLine_fragment (fragment : Fragment) :
    ∀ field ∈ fields (.corrupt fragment), SingleLine field := by
  obtain ⟨kind, told⟩ := fragment
  cases told with
  | nil => exact nofun
  | cons timestamp rest =>
      change ∀ field ∈ fragmentTexts timestamp rest ++ _, SingleLine field
      rw [List.forall_mem_append]
      constructor
      · simp [fragmentTexts]
      · split <;> simp +decide

theorem singleLine_fields {line : Line} (legible : line.Legible) :
    ∀ field ∈ line.fields, SingleLine field := by
  cases line with
  | notice text =>
      change SingleLine text at legible
      simp [fields, legible]
  | movement movement =>
      change ∀ field ∈ [Numeral.tenDigits movement.timestamp.toNat,
        toString movement.x, toString movement.y], SingleLine field
      simp
  | click click =>
      change ∀ field ∈ [Numeral.tenDigits click.timestamp.toNat,
        toString click.x, toString click.y, toString click.tag,
        toString click.value], SingleLine field
      simp
  | event header => simp +decide [fields]
  | data timestamp index word =>
      change ∀ field ∈ [Numeral.tenDigits timestamp.toNat,
        Numeral.tenDigits index, toString word], SingleLine field
      simp
  | human timestamp text =>
      cases timestamp with
      | some timestamp =>
          change SingleLine text at legible
          change ∀ field ∈ [Numeral.tenDigits timestamp.toNat, text],
            SingleLine field
          simp [legible]
      | none =>
          cases legible
          decide
  | corrupt fragment => exact singleLine_fragment fragment

theorem singleLine_text {line : Line} (legible : line.Legible) :
    SingleLine line.text := by
  apply SingleLine.intercalate (by decide)
  exact List.forall_mem_cons.mpr
    ⟨line.singleLine_tag, singleLine_fields legible⟩

/-! ## Reading all lines -/

theorem toList_written (lines : List Line) :
    (written lines).toList =
      lines.flatMap fun line => line.text.toList ++ ['\n'] := by
  simp [written, String.toList_join, List.flatMap_map, String.toList_append]

theorem splitOn_written {lines : List Line}
    (legible : ∀ line ∈ lines, line.Legible) :
    (written lines).toList.splitOn '\n' =
      lines.map (fun line => line.text.toList) ++ [[]] := by
  rw [toList_written]
  induction lines with
  | nil => rfl
  | cons line lines induction =>
      rw [List.forall_mem_cons] at legible
      rw [List.flatMap_cons, List.append_assoc, List.singleton_append,
        List.splitOn_append_cons_self_of_not_mem
          (singleLine_text legible.1), induction legible.2]
      rfl

/-- Legible lines are read back from the text that is written for them. -/
theorem readWritten?_written {lines : List Line}
    (legible : ∀ line ∈ lines, line.Legible) :
    readWritten? (written lines) = some lines := by
  rw [readWritten?, splitOn_written legible, List.dropLast_concat]
  induction lines with
  | nil => rfl
  | cons line lines induction =>
      rw [List.forall_mem_cons] at legible
      rw [List.map_cons, List.mapM_cons, read?_text legible.1,
        induction legible.2]
      rfl

end Line

end SessionCapture
