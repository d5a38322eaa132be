import SessionCapture.Proofs.ResetSpellings

/-!
# What a controller reset is refused for

The fields of a reset are read one after another.  A payload is refused at the
first field that cannot be read from the words that the fields before it leave,
for the fault of those words.  `Parser.Follows` says this of a parser and the
fields it reads, and a sequence of parsers follows the fields of its parts.  A
payload that ends with its last field is refused wherever it is cut short: the
field at the cut lacks a word, or the end of its text.
-/

namespace SessionCapture

namespace ControlReset

inductive FieldForm where
  /-- A word other than zero. -/
  | size
  /-- Text that a line feed ends. -/
  | line
  /-- Any word. -/
  | number
deriving DecidableEq, Repr

structure Field where
  name : String
  form : FieldForm
deriving DecidableEq, Repr

/-- The fields of a reset in the order in which they are read. -/
def fields : List Field :=
  [⟨"keySize", .size⟩, ⟨"valSize", .size⟩, ⟨"uiType", .line⟩,
    ⟨"challengeMode", .line⟩, ⟨"challengeChallengeDimX", .size⟩] ++
  geometryNames.map fun name => ⟨name, .number⟩

namespace Field

/-- The field can be read from the first words, which leaves the last. -/
inductive Reads : Field → List UInt16 → List UInt16 → Prop where
  | size {name : String} {value : UInt16} {left : List UInt16}
      (nonzero : value ≠ 0) : Reads ⟨name, .size⟩ (value :: left) left
  | line {name : String} {body left : List UInt16}
      (encoded : Text.Encoded body) (unended : lineFeed ∉ body) :
      Reads ⟨name, .line⟩ (body ++ lineFeed :: left) left
  | number {name : String} {value : UInt16} {left : List UInt16} :
      Reads ⟨name, .number⟩ (value :: left) left

/-- What keeps the field from being read from the words. -/
inductive Fault : Field → List UInt16 → PayloadError → Prop where
  | missing {name : String} {form : FieldForm} (word : form ≠ .line) :
      Fault ⟨name, form⟩ [] (.missing name)
  | zero {name : String} {left : List UInt16} :
      Fault ⟨name, .size⟩ (0 :: left) (.zero name)
  | unterminated {name : String} {words : List UInt16}
      (endless : lineFeed ∉ words) :
      Fault ⟨name, .line⟩ words (.unterminated name)
  /-- The first word of the text that is not a byte. -/
  | notAByte {name : String} {front back left : List UInt16} {word : UInt16}
      (unended : lineFeed ∉ front ++ word :: back)
      (before : ∀ other ∈ front, other ≤ 255) (large : 255 < word) :
      Fault ⟨name, .line⟩ (front ++ word :: back ++ lineFeed :: left)
        (.notAByte name word)
  | invalidUtf8 {name : String} {body left : List UInt16}
      (unended : lineFeed ∉ body) (bytes : ∀ word ∈ body, word ≤ 255)
      (invalid : ¬ (body.map (·.toUInt8)).toByteArray.IsValidUTF8) :
      Fault ⟨name, .line⟩ (body ++ lineFeed :: left) (.invalidUtf8 name)

end Field

/-- The fields can be read from the first words one after another, which leaves
the last. -/
def ReadsAll : List Field → List UInt16 → List UInt16 → Prop
  | [], words, left => words = left
  | field :: rest, words, left =>
      ∃ middle, field.Reads words middle ∧ ReadsAll rest middle left

/-- The error is the fault of the first field that cannot be read. -/
def Refuses (fields : List Field) (words : List UInt16)
    (error : PayloadError) : Prop :=
  ∃ before field after left, fields = before ++ field :: after ∧
    ReadsAll before words left ∧ field.Fault left error

variable {field : Field} {front back rest : List Field}
  {words left : List UInt16} {error : PayloadError}

theorem readsAll_append_iff :
    ReadsAll (front ++ back) words left ↔
      ∃ middle, ReadsAll front words middle ∧ ReadsAll back middle left := by
  induction front generalizing words with
  | nil => simp [ReadsAll]
  | cons field front induction =>
      simp only [List.cons_append, ReadsAll, induction]
      constructor
      · rintro ⟨first, reads, middle, later, last⟩
        exact ⟨middle, ⟨first, reads, later⟩, last⟩
      · rintro ⟨middle, ⟨first, reads, later⟩, last⟩
        exact ⟨first, reads, middle, later, last⟩

theorem not_refuses_nil : ¬ Refuses [] words error := by
  rintro ⟨before, field, after, _, split, _⟩
  cases before <;> cases split

theorem refuses_cons_iff :
    Refuses (field :: rest) words error ↔
      field.Fault words error ∨
        ∃ left, field.Reads words left ∧ Refuses rest left error := by
  constructor
  · rintro ⟨before, other, after, left, split, reads, fault⟩
    cases before with
    | nil =>
        cases split
        cases reads
        exact .inl fault
    | cons first before =>
        cases split
        obtain ⟨middle, first, later⟩ := reads
        exact .inr
          ⟨middle, first, before, other, after, left, rfl, later, fault⟩
  · rintro (fault |
      ⟨middle, first, before, other, after, left, rfl, later, fault⟩)
    · exact ⟨[], field, rest, words, rfl, rfl, fault⟩
    · exact ⟨field :: before, other, after, left, rfl, ⟨middle, first, later⟩,
        fault⟩

theorem refuses_append_iff :
    Refuses (front ++ back) words error ↔
      Refuses front words error ∨
        ∃ middle, ReadsAll front words middle ∧ Refuses back middle error := by
  induction front generalizing words with
  | nil => simp [ReadsAll, not_refuses_nil]
  | cons field front induction =>
      rw [List.cons_append, refuses_cons_iff, refuses_cons_iff]
      simp only [induction, ReadsAll]
      constructor
      · rintro (fault | ⟨left, reads, refused | ⟨middle, later, refused⟩⟩)
        · exact .inl (.inl fault)
        · exact .inl (.inr ⟨left, reads, refused⟩)
        · exact .inr ⟨middle, ⟨left, reads, later⟩, refused⟩
      · rintro ((fault | ⟨left, reads, refused⟩) |
          ⟨middle, ⟨left, reads, later⟩, refused⟩)
        · exact .inl fault
        · exact .inr ⟨left, reads, .inl refused⟩
        · exact .inr ⟨left, reads, .inr ⟨middle, later, refused⟩⟩

theorem readsAll_singleton_iff :
    ReadsAll [field] words left ↔ field.Reads words left := by
  simp [ReadsAll]

theorem refuses_singleton_iff :
    Refuses [field] words error ↔ field.Fault words error := by
  simp [refuses_cons_iff, not_refuses_nil]

/-! ## Parsers that follow their fields -/

namespace Parser

variable {α β : Type}

theorem bind_eq_error_iff {first : Parser α} {next : α → Parser β} :
    (first >>= next) words = .error error ↔
      first words = .error error ∨
        ∃ value rest, first words = .ok (value, rest) ∧
          next value rest = .error error := by
  change ((first words).bind fun found => next found.1 found.2) = _ ↔ _
  cases first words with
  | error other =>
      constructor
      · rintro ⟨⟩
        exact .inl rfl
      · rintro (⟨⟨⟩⟩ | ⟨_, _, impossible, _⟩)
        · rfl
        · cases impossible
  | ok found =>
      constructor
      · intro failure
        exact .inr ⟨found.1, found.2, rfl, failure⟩
      · rintro (impossible | ⟨_, _, ⟨⟩, failure⟩)
        · cases impossible
        · exact failure

/-- The parser reads the fields one after another, and is refused for the fault
of the first that cannot be read. -/
structure Follows (parser : Parser α) (fields : List Field) : Prop where
  reads : ∀ {words left : List UInt16},
    (∃ value, parser words = .ok (value, left)) ↔ ReadsAll fields words left
  refuses : ∀ {words : List UInt16} {error : PayloadError},
    parser words = .error error ↔ Refuses fields words error

theorem Follows.pure (value : α) : Follows (Pure.pure value) [] := by
  constructor
  case reads =>
    intro words left
    constructor
    · rintro ⟨_, ⟨⟩⟩
      rfl
    · rintro ⟨⟩
      exact ⟨value, rfl⟩
  case refuses =>
    intro words error
    constructor
    · intro impossible
      cases impossible
    · intro refused
      exact absurd refused not_refuses_nil

/-- A parser of one field. -/
theorem Follows.single {parser : Parser α} {field : Field}
    (reads : ∀ {words left : List UInt16},
      (∃ value, parser words = .ok (value, left)) ↔ field.Reads words left)
    (refuses : ∀ {words : List UInt16} {error : PayloadError},
      parser words = .error error ↔ field.Fault words error) :
    Follows parser [field] where
  reads := reads.trans readsAll_singleton_iff.symm
  refuses := refuses.trans refuses_singleton_iff.symm

theorem Follows.bind {first : Parser α} {next : α → Parser β}
    (begins : Follows first front)
    (continues : ∀ value, Follows (next value) back) :
    Follows (first >>= next) (front ++ back) := by
  constructor
  case reads =>
    intro words left
    rw [readsAll_append_iff]
    simp only [bind_eq_ok_iff]
    constructor
    · rintro ⟨result, value, middle, read, later⟩
      exact ⟨middle, begins.reads.mp ⟨value, read⟩,
        (continues value).reads.mp ⟨result, later⟩⟩
    · rintro ⟨middle, read, later⟩
      obtain ⟨value, read⟩ := begins.reads.mpr read
      obtain ⟨result, later⟩ := (continues value).reads.mpr later
      exact ⟨result, value, middle, read, later⟩
  case refuses =>
    intro words error
    rw [refuses_append_iff, bind_eq_error_iff]
    constructor
    · rintro (failure | ⟨value, middle, read, failure⟩)
      · exact .inl (begins.refuses.mp failure)
      · exact .inr ⟨middle, begins.reads.mp ⟨value, read⟩,
          (continues value).refuses.mp failure⟩
    · rintro (refused | ⟨middle, read, refused⟩)
      · exact .inl (begins.refuses.mpr refused)
      · obtain ⟨value, read⟩ := begins.reads.mpr read
        exact .inr ⟨value, middle, read, (continues value).refuses.mpr refused⟩

theorem follows_word (name : String) :
    Follows (word name) [⟨name, .number⟩] := by
  apply Follows.single
  · intro words left
    simp only [word_eq_ok_iff]
    constructor
    · rintro ⟨value, rfl⟩
      exact .number
    · rintro ⟨⟩
      exact ⟨_, rfl⟩
  · intro words error
    cases words with
    | nil =>
        constructor
        · rintro ⟨⟩
          exact .missing nofun
        · rintro ⟨⟩
          rfl
    | cons value rest =>
        constructor
        · intro impossible
          cases impossible
        · intro impossible
          cases impossible

theorem follows_nonZero (name : String) :
    Follows (nonZero name) [⟨name, .size⟩] := by
  apply Follows.single
  · intro words left
    simp only [nonZero_eq_ok_iff]
    constructor
    · rintro ⟨value, nonzero, rfl⟩
      exact .size nonzero
    · intro reads
      cases reads with
      | size nonzero => exact ⟨_, nonzero, rfl⟩
  · intro words error
    cases words with
    | nil =>
        constructor
        · rintro ⟨⟩
          exact .missing nofun
        · rintro ⟨⟩
          rfl
    | cons value rest =>
        by_cases zero : value = 0
        · subst zero
          constructor
          · rintro ⟨⟩
            exact .zero
          · rintro ⟨⟩
            rfl
        · have read : nonZero name (value :: rest) = .ok (value, rest) :=
            nonZero_eq_ok_iff.mpr ⟨zero, rfl⟩
          rw [read]
          constructor
          · intro impossible
            cases impossible
          · rintro ⟨⟩
            exact absurd rfl zero

theorem line_of_endless {field : String} (endless : lineFeed ∉ words) :
    line field words = .error (.unterminated field) := by
  have all : ∀ word ∈ words, decide (word ≠ lineFeed) = true := by
    intro word member
    exact decide_eq_true (fun same => endless (same ▸ member))
  rw [line, List.span_eq_takeWhile_dropWhile,
    List.dropWhile_eq_nil_iff.mpr all]

/-- How a line is read depends on the text before the line feed. -/
theorem line_of_body {field : String} {body : List UInt16}
    (unended : lineFeed ∉ body) (left : List UInt16) :
    line field (body ++ lineFeed :: left) =
      match Text.read body with
      | .ok text => .ok (text, left)
      | .error (.notAByte word) => .error (.notAByte field word)
      | .error .invalidUtf8 => .error (.invalidUtf8 field) := by
  have cut : (body ++ lineFeed :: left).span (· ≠ lineFeed) =
      (body, lineFeed :: left) := span_eq_cons_iff.mpr ⟨rfl, unended, rfl⟩
  cases read : Text.read body with
  | ok text => simp only [line, cut, read]
  | error fault => cases fault <;> simp only [line, cut, read]

theorem follows_line (name : String) : Follows (line name) [⟨name, .line⟩] := by
  apply Follows.single
  · intro words left
    simp only [line_eq_ok_iff]
    constructor
    · rintro ⟨text, plain, rfl⟩
      exact .line (Text.encoded_words text)
        (mt Text.lineFeed_mem_words_iff.mp plain)
    · intro reads
      cases reads with
      | line encoded unended =>
          obtain ⟨text, rfl⟩ := encoded.exists_text
          exact ⟨text, mt Text.lineFeed_mem_words_iff.mpr unended, rfl⟩
  · intro words error
    constructor
    · intro failure
      by_cases ended : lineFeed ∈ words
      · obtain ⟨body, left, rfl, unended⟩ := List.eq_append_cons_of_mem ended
        rw [line_of_body unended] at failure
        split at failure
        · cases failure
        · next word notByte =>
            cases failure
            obtain ⟨large, front, back, rfl, before⟩ :=
              Text.read_eq_notAByte_iff.mp notByte
            exact .notAByte unended before large
        · next invalid =>
            cases failure
            obtain ⟨bytes, invalid⟩ := Text.read_eq_invalidUtf8_iff.mp invalid
            exact .invalidUtf8 unended bytes invalid
      · rw [line_of_endless ended] at failure
        cases failure
        exact .unterminated ended
    · intro fault
      cases fault with
      | missing word => exact absurd rfl word
      | unterminated endless => exact line_of_endless endless
      | notAByte unended before large =>
          rw [line_of_body unended,
            Text.read_eq_notAByte_iff.mpr ⟨large, _, _, rfl, before⟩]
      | invalidUtf8 unended bytes invalid =>
          rw [line_of_body unended,
            Text.read_eq_invalidUtf8_iff.mpr ⟨bytes, invalid⟩]

theorem follows_mapM_word (names : List String) :
    Follows (names.mapM word) (names.map fun name => ⟨name, .number⟩) := by
  induction names with
  | nil => exact .pure []
  | cons name names induction =>
      rw [List.mapM_cons]
      refine (follows_word name).bind fun value => ?_
      rw [← List.append_nil (names.map _)]
      exact induction.bind fun values => .pure _

theorem follows_reset : Follows reset fields := by
  refine (follows_nonZero _).bind fun keySize => ?_
  refine (follows_nonZero _).bind fun valSize => ?_
  refine (follows_line _).bind fun uiType => ?_
  refine (follows_line _).bind fun challengeMode => ?_
  refine (follows_nonZero _).bind fun gridX => ?_
  rw [← List.append_nil (geometryNames.map _)]
  exact (follows_mapM_word _).bind fun geometry => .pure _

variable {parser : Parser α}

/-- Words are refused if the fields cannot be read from them. -/
theorem Follows.exists_refuses_iff (follows : Follows parser front)
    (words : List UInt16) :
    (∃ error, Refuses front words error) ↔
      ¬ ∃ left, ReadsAll front words left := by
  simp only [← follows.reads, ← follows.refuses]
  cases parser words with
  | error error => simp
  | ok found => simp [Prod.ext_iff]

end Parser

/-- Words have a fault if the field cannot be read from them. -/
theorem Field.exists_fault_iff (field : Field) (words : List UInt16) :
    (∃ fault, field.Fault words fault) ↔ ¬ ∃ left, field.Reads words left := by
  simp only [← readsAll_singleton_iff, ← refuses_singleton_iff]
  obtain ⟨name, form⟩ := field
  cases form with
  | size => exact (Parser.follows_nonZero name).exists_refuses_iff words
  | line => exact (Parser.follows_line name).exists_refuses_iff words
  | number => exact (Parser.follows_word name).exists_refuses_iff words

theorem exists_parse_iff_readsAll {payload : List UInt16} :
    (∃ reset, parse payload = .ok reset) ↔
      ∃ left, ReadsAll fields payload left := by
  simp only [← Parser.follows_reset.reads, parse]
  change (∃ reset, (Parser.reset payload).map (·.1) = .ok reset) ↔ _
  cases Parser.reset payload with
  | error error => simp [Except.map]
  | ok found => simp [Except.map, Prod.ext_iff]

theorem parse_eq_error_iff {payload : List UInt16} :
    parse payload = .error error ↔ Refuses fields payload error := by
  rw [← Parser.follows_reset.refuses, parse]
  change (Parser.reset payload).map (·.1) = _ ↔ _
  cases Parser.reset payload with
  | error other => simp [Except.map]
  | ok found => simp [Except.map]

/-! ## Payloads cut short -/

/-- What a field lacks of which nothing, or only the beginning, is there. -/
def Field.lack (field : Field) : PayloadError :=
  if field.form = .line then .unterminated field.name else .missing field.name

/-- A field has words of its own: it is read from them whatever follows, and
lacks something if they are cut short. -/
theorem Field.Reads.exists_own (reads : field.Reads words left) :
    ∃ own, words = own ++ left ∧
      (∀ other, field.Reads (own ++ other) other) ∧
      ∀ cut < own.length, field.Fault (own.take cut) field.lack := by
  cases reads with
  | @size name value _ nonzero =>
      refine ⟨[value], rfl, fun _ => .size nonzero, ?_⟩
      intro cut short
      obtain rfl : cut = 0 := by simpa using short
      exact .missing nofun
  | @line name body _ encoded unended =>
      refine ⟨body ++ [lineFeed], by simp, ?_, ?_⟩
      · intro other
        rw [List.append_assoc]
        exact .line encoded unended
      · intro cut short
        have inside : cut ≤ body.length := by
          rw [List.length_append] at short
          exact Nat.le_of_lt_succ short
        rw [List.take_append_of_le_length inside]
        exact .unterminated fun member => unended (List.mem_of_mem_take member)
  | @number name value _ =>
      refine ⟨[value], rfl, fun _ => .number, ?_⟩
      intro cut short
      obtain rfl : cut = 0 := by simpa using short
      exact .missing nofun

/-- Fields whose words are cut short are refused at the field with the cut. -/
theorem exists_lack_of_readsAll {fields : List Field} {cut : Nat}
    (reads : ReadsAll fields words left)
    (short : cut + left.length < words.length) :
    ∃ field ∈ fields, Refuses fields (words.take cut) field.lack := by
  induction fields generalizing words cut with
  | nil =>
      cases reads
      omega
  | cons field rest induction =>
      obtain ⟨middle, first, later⟩ := reads
      obtain ⟨own, rfl, whole, lacks⟩ := first.exists_own
      by_cases within : cut < own.length
      · have fault := lacks cut within
        rw [← List.take_append_of_le_length (Nat.le_of_lt within)] at fault
        exact ⟨field, List.mem_cons_self, refuses_cons_iff.mpr (.inl fault)⟩
      · have behind := Nat.not_lt.mp within
        rw [List.length_append] at short
        have shortRest : cut - own.length + left.length < middle.length := by
          omega
        obtain ⟨other, member, refused⟩ := induction later shortRest
        refine ⟨other, List.mem_cons_of_mem field member, ?_⟩
        rw [List.take_append, List.take_of_length_le behind]
        exact refuses_cons_iff.mpr (.inr ⟨_, whole _, refused⟩)

/-- The words of a reset that can be stated are those of its fields. -/
theorem Statable.readsAll {reset : ControlReset} (statable : reset.Statable) :
    ReadsAll fields reset.payload [] := by
  apply Parser.follows_reset.reads.mp
  refine ⟨reset, Parser.reset_eq_ok_iff.mpr ⟨statable, ?_⟩⟩
  exact (List.append_nil _).symm

end ControlReset

namespace Context

variable {payload : List UInt16}

theorem step_controlReset_eq_error_iff (context : Context)
    {error : InterpretError} :
    (context.step .controlReset payload).1 = .error error ↔
      ∃ fault, ControlReset.parse payload = .error fault ∧
        error = .malformed .controlReset fault := by
  unfold step interpret controlReset
  cases ControlReset.parse payload with
  | ok reset =>
      constructor
      · intro impossible
        cases impossible
      · rintro ⟨_, impossible, _⟩
        cases impossible
  | error fault =>
      constructor
      · rintro ⟨⟩
        exact ⟨fault, rfl, rfl⟩
      · rintro ⟨_, ⟨⟩, rfl⟩
        rfl

/-- A reset is read if all its fields can be read in order.  Otherwise it is
refused for the fault of the first field that cannot, the fields before it
having been read; a field that cannot be read has a fault.  A payload that ends
with its last field is refused wherever it is cut short, as a field lacks a word
or the end of its text. -/
theorem refused_for_first_fault (context : Context) :
    (∀ payload,
      (∃ remarks, (context.step .controlReset payload).1 = .ok remarks) ↔
        ∃ left, ControlReset.ReadsAll ControlReset.fields payload left) ∧
    (∀ payload error,
      (context.step .controlReset payload).1 = .error error ↔
        ∃ before field after left fault,
          ControlReset.fields = before ++ field :: after ∧
          ControlReset.ReadsAll before payload left ∧
          field.Fault left fault ∧ error = .malformed .controlReset fault) ∧
    (∀ (field : ControlReset.Field) words,
      (∃ fault, field.Fault words fault) ↔ ¬ ∃ left, field.Reads words left) ∧
    ∀ payload, ControlReset.ReadsAll ControlReset.fields payload [] →
      ∀ cut < payload.length, ∃ field ∈ ControlReset.fields,
        (context.step .controlReset (payload.take cut)).1 =
          .error (.malformed .controlReset
            (if field.form = .line then .unterminated field.name
              else .missing field.name)) := by
  refine ⟨?accepted, ?refused, ?faulty, ?cutShort⟩
  case accepted =>
    intro payload
    rw [exists_remarks_iff, ControlReset.exists_parse_iff_readsAll]
  case refused =>
    intro payload error
    simp only [step_controlReset_eq_error_iff, ControlReset.parse_eq_error_iff]
    constructor
    · rintro ⟨fault, ⟨before, field, after, left, split, reads, found⟩, rfl⟩
      exact ⟨before, field, after, left, fault, split, reads, found, rfl⟩
    · rintro ⟨before, field, after, left, fault, split, reads, found, rfl⟩
      exact ⟨fault, ⟨before, field, after, left, split, reads, found⟩, rfl⟩
  case faulty => exact ControlReset.Field.exists_fault_iff
  case cutShort =>
    intro payload reads cut short
    obtain ⟨field, member, refused⟩ :=
      ControlReset.exists_lack_of_readsAll reads short
    refine ⟨field, member, ?_⟩
    apply (step_controlReset_eq_error_iff context).mpr
    exact ⟨_, ControlReset.parse_eq_error_iff.mpr refused, rfl⟩

/-- A text is named with its first word that is not a byte, and a payload that
ends inside the encoding of an accented letter is refused. -/
theorem large_word_and_cut_accent_refused :
    let stated := Workload.controlReset 2 5 "naïve" "random" 4
    ((fresh .builtin).step .controlReset [3, 9, 103, 300, 256, 10, 0]).1 =
      .error (.malformed .controlReset (.notAByte "uiType" 300)) ∧
    ControlReset.ReadsAll ControlReset.fields stated.payload [] ∧
    stated.payload.take 5 = [2, 5, 110, 97, 195] ∧
    ∃ field ∈ ControlReset.fields,
      ((fresh .builtin).step .controlReset (stated.payload.take 5)).1 =
        .error (.malformed .controlReset
          (if field.form = .line then .unterminated field.name
            else .missing field.name)) := by
  intro stated
  obtain ⟨_, refused, _, cutShort⟩ := refused_for_first_fault (fresh .builtin)
  have whole : ControlReset.ReadsAll ControlReset.fields stated.payload [] :=
    ControlReset.Statable.readsAll
      ⟨by decide, by decide, by decide, by decide, by decide, rfl⟩
  refine ⟨?large, whole, by decide, cutShort _ whole 5 (by decide)⟩
  case large =>
    apply (refused _ _).mpr
    refine ⟨[⟨"keySize", .size⟩, ⟨"valSize", .size⟩], ⟨"uiType", .line⟩, _,
      [103, 300, 256, 10, 0], .notAByte "uiType" 300, rfl, ?_, ?_, rfl⟩
    · exact ⟨_, .size (by decide), _, .size (by decide), rfl⟩
    · have fault : ControlReset.Field.Fault ⟨"uiType", .line⟩
          ([103] ++ 300 :: [256] ++ ControlReset.lineFeed :: [0])
          (.notAByte "uiType" 300) :=
        .notAByte (by decide)
          (List.forall_mem_singleton.mpr (by decide)) (by decide)
      exact fault

end Context

end SessionCapture
