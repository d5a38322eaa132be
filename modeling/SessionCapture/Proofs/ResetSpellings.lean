import SessionCapture.Proofs.ResetGrammar
import SessionCapture.Workload

/-!
# The payloads of controller resets

A payload is read as a reset if it is spelled out in its fields: words for the
sizes, the encoded texts with a line feed after each, a word for each name of
the geometry, and any words after them.  A payload is spelled out in one way
only, and the remarks on it state the fields under their names.
-/

namespace SessionCapture

namespace ControlReset

/-- The words of a text that a line feed ends. -/
@[ext]
structure TextLine where
  words : List UInt16
  encoded : Text.Encoded words
  unended : lineFeed ∉ words

theorem TextLine.exists_text (line : TextLine) :
    ∃ text : String, '\n' ∉ text.toList ∧ line.words = Text.words text := by
  obtain ⟨text, stated⟩ := line.encoded.exists_text
  refine ⟨text, ?_, stated⟩
  rw [← Text.lineFeed_mem_words_iff, ← stated]
  exact line.unended

/-- A text that takes up one line. -/
def TextLine.ofText (text : String) (plain : '\n' ∉ text.toList) :
    TextLine where
  words := Text.words text
  encoded := Text.encoded_words text
  unended := mt Text.lineFeed_mem_words_iff.mp plain

/-- The fields of a payload as words, and the words after them. -/
@[ext]
structure Spelling where
  keySize : UInt16
  valSize : UInt16
  uiType : TextLine
  challengeMode : TextLine
  gridX : UInt16
  geometry : List UInt16
  rest : List UInt16
  keySize_ne_zero : keySize ≠ 0
  valSize_ne_zero : valSize ≠ 0
  gridX_ne_zero : gridX ≠ 0
  length_geometry : geometry.length = 17

namespace Spelling

variable {spelling other : Spelling} {reset : ControlReset}

def words (spelling : Spelling) : List UInt16 :=
  [spelling.keySize, spelling.valSize] ++
    spelling.uiType.words ++ [lineFeed] ++
    spelling.challengeMode.words ++ [lineFeed] ++
    [spelling.gridX] ++ spelling.geometry ++ spelling.rest

/-- The fields are those of a reset. -/
structure Spells (spelling : Spelling) (reset : ControlReset) : Prop where
  layout : reset.layout =
    ⟨spelling.keySize, spelling.valSize, spelling.gridX⟩
  uiType : spelling.uiType.words = Text.words reset.uiType
  challengeMode : spelling.challengeMode.words = Text.words reset.challengeMode
  geometry : reset.geometry = spelling.geometry

theorem exists_spells (spelling : Spelling) :
    ∃ reset, reset.Statable ∧ spelling.Spells reset := by
  obtain ⟨uiType, plainType, typeWords⟩ := spelling.uiType.exists_text
  obtain ⟨challengeMode, plainMode, modeWords⟩ :=
    spelling.challengeMode.exists_text
  refine ⟨⟨⟨spelling.keySize, spelling.valSize, spelling.gridX⟩, uiType,
    challengeMode, spelling.geometry⟩, ?_, ?_⟩
  · exact ⟨spelling.keySize_ne_zero, spelling.valSize_ne_zero, plainType,
      plainMode, spelling.gridX_ne_zero, spelling.length_geometry⟩
  · exact ⟨rfl, typeWords, modeWords, rfl⟩

theorem Spells.words_eq (spells : spelling.Spells reset) :
    spelling.words = reset.payload ++ spelling.rest := by
  rw [words, payload, spells.layout, spells.uiType, spells.challengeMode,
    spells.geometry]

/-- Nothing but the words after them tells two spellings of a reset apart. -/
theorem Spells.unique (spells : spelling.Spells reset)
    (spelled : other.Spells reset) (rest : spelling.rest = other.rest) :
    spelling = other := by
  have layout := spells.layout.symm.trans spelled.layout
  obtain ⟨keySize, valSize, gridX⟩ := Layout.mk.inj layout
  apply Spelling.ext keySize valSize ?_ ?_ gridX ?_ rest
  · exact TextLine.ext (spells.uiType.trans spelled.uiType.symm)
  · exact TextLine.ext (spells.challengeMode.trans spelled.challengeMode.symm)
  · exact spells.geometry.symm.trans spelled.geometry

/-- A payload is spelled out in one way, as it is read in one way. -/
theorem words_injective (same : spelling.words = other.words) :
    spelling = other := by
  obtain ⟨reset, statable, spells⟩ := spelling.exists_spells
  obtain ⟨stated, fields, spelled⟩ := other.exists_spells
  have read := Parser.reset_eq_ok_iff.mpr ⟨statable, spells.words_eq⟩
  have again := Parser.reset_eq_ok_iff.mpr ⟨fields, spelled.words_eq⟩
  rw [← same, read] at again
  obtain ⟨rfl, rest⟩ := Prod.mk.inj (Except.ok.inj again)
  exact spells.unique spelled rest

end Spelling

variable {reset : ControlReset}

/-- A reset that can be stated is spelled out before any words. -/
def Statable.spelling (statable : reset.Statable) (rest : List UInt16) :
    Spelling where
  keySize := reset.layout.keySize
  valSize := reset.layout.valSize
  uiType := .ofText reset.uiType statable.uiType
  challengeMode := .ofText reset.challengeMode statable.challengeMode
  gridX := reset.layout.gridX
  geometry := reset.geometry
  rest := rest
  keySize_ne_zero := statable.keySize
  valSize_ne_zero := statable.valSize
  gridX_ne_zero := statable.gridX
  length_geometry := statable.geometry

theorem exists_parse_iff {payload : List UInt16} :
    (∃ reset, parse payload = .ok reset) ↔
      ∃ spelling : Spelling, payload = spelling.words := by
  simp only [parse_eq_ok_iff]
  constructor
  · rintro ⟨reset, statable, rest, rfl⟩
    exact ⟨statable.spelling rest, rfl⟩
  · rintro ⟨spelling, rfl⟩
    obtain ⟨reset, statable, spells⟩ := spelling.exists_spells
    exact ⟨reset, statable, spelling.rest, spells.words_eq⟩

end ControlReset

namespace Context

variable {context : Context} {payload : List UInt16} {reset : ControlReset}

theorem step_controlReset (context : Context)
    (parsed : ControlReset.parse payload = .ok reset) :
    context.step .controlReset payload =
      (.ok (.text "System reset with controller parameters:" ::
        (reset.report.map .text ++
          (context.reset reset.layout reset.uiType).2.toList.map .note)),
        (context.reset reset.layout reset.uiType).1) := by
  have told : context.controlReset payload = .ok (_, _) :=
    controlReset_eq_ok_iff.mpr ⟨reset, parsed, rfl, rfl⟩
  rw [step, interpret, told]
  rfl

theorem exists_remarks_iff :
    (∃ remarks, (context.step .controlReset payload).1 = .ok remarks) ↔
      ∃ reset, ControlReset.parse payload = .ok reset := by
  constructor
  · rintro ⟨remarks, outcome⟩
    cases told : context.controlReset payload with
    | ok found =>
        obtain ⟨reset, parsed, _⟩ := controlReset_eq_ok_iff.mp told
        exact ⟨reset, parsed⟩
    | error error =>
        rw [step, interpret, told] at outcome
        cases outcome
  · rintro ⟨reset, parsed⟩
    exact ⟨_, congrArg Prod.fst (step_controlReset context parsed)⟩

/-- The remarks on a reset begin with its heading and the parameters. -/
theorem take_controlReset {remarks : List Remark}
    (parsed : ControlReset.parse payload = .ok reset)
    (outcome : (context.step .controlReset payload).1 = .ok remarks) :
    remarks.take 23 =
      .text "System reset with controller parameters:" ::
        reset.report.map .text := by
  rw [step_controlReset context parsed] at outcome
  cases outcome
  have geometry := (ControlReset.parse_eq_ok_iff.mp parsed).1.geometry
  have count : (reset.report.map Remark.text).length = 22 := by
    rw [List.length_map, ControlReset.report, List.length_append,
      List.length_map, List.length_zip, geometry, Nat.min_self]
    rfl
  rw [List.take_succ_cons, ← count, List.take_left]

/-- A payload is interpreted as a reset if it has a spelling, which is then the
only one, and what is remarked first states its fields, whatever words follow.
The payload of sizes other than zero and texts without line feeds is read as what
it states, before any words. -/
theorem controlReset_reads_spellings (context : Context) :
    (∀ payload,
      (∃ remarks, (context.step .controlReset payload).1 = .ok remarks) ↔
        ∃ spelling : ControlReset.Spelling, payload = spelling.words) ∧
    (∀ spelling other : ControlReset.Spelling,
      spelling.words = other.words → spelling = other) ∧
    (∀ spelling : ControlReset.Spelling,
      ∃ (uiType challengeMode : String) (remarks : List Remark),
        Text.words uiType = spelling.uiType.words ∧
        Text.words challengeMode = spelling.challengeMode.words ∧
        (context.step .controlReset spelling.words).1 = .ok remarks ∧
        remarks.take 23 =
          ("System reset with controller parameters:" ::
            s!"keySize = {spelling.keySize}" ::
            s!"valSize = {spelling.valSize}" ::
            s!"uiType = {uiType}" ::
            s!"challengeMode = {challengeMode}" ::
            s!"challengeChallengeDimX = {spelling.gridX}" ::
            (ControlReset.geometryNames.zip spelling.geometry).map
              fun (name, value) => s!"{name} = {value}").map .text) ∧
    ∀ (keySize valSize gridX : UInt16) (uiType challengeMode : String)
      (rest : List UInt16),
      keySize ≠ 0 → valSize ≠ 0 → gridX ≠ 0 →
      '\n' ∉ uiType.toList → '\n' ∉ challengeMode.toList →
      let stated :=
        Workload.controlReset keySize valSize uiType challengeMode gridX
      ControlReset.parse (stated.payload ++ rest) = .ok stated ∧
      ∃ remarks,
        (context.step .controlReset (stated.payload ++ rest)).1 = .ok remarks ∧
        remarks.take 23 = .text "System reset with controller parameters:" ::
          stated.report.map .text := by
  refine ⟨?grammar, ?unique, ?stated, ?inverse⟩
  case grammar =>
    intro payload
    rw [exists_remarks_iff, ControlReset.exists_parse_iff]
  case unique =>
    intro spelling other same
    exact ControlReset.Spelling.words_injective same
  case stated =>
    intro spelling
    obtain ⟨reset, statable, spells⟩ := spelling.exists_spells
    have parsed := ControlReset.parse_eq_ok_iff.mpr
      ⟨statable, spelling.rest, spells.words_eq⟩
    have outcome := congrArg Prod.fst (step_controlReset context parsed)
    refine ⟨reset.uiType, reset.challengeMode, _, spells.uiType.symm,
      spells.challengeMode.symm, outcome, ?_⟩
    rw [take_controlReset parsed outcome, ControlReset.report,
      spells.layout, spells.geometry]
    rfl
  case inverse =>
    intro keySize valSize gridX uiType challengeMode rest someKeys someValues
      someColumns plainType plainMode stated
    have statable : stated.Statable :=
      ⟨someKeys, someValues, plainType, plainMode, someColumns, rfl⟩
    have parsed := ControlReset.parse_eq_ok_iff.mpr ⟨statable, rest, rfl⟩
    have outcome := congrArg Prod.fst (step_controlReset context parsed)
    exact ⟨parsed, _, outcome, take_controlReset parsed outcome⟩

/-- Texts beyond ASCII, one of them with a line feed among the low bytes of its
code points, are read back before words that are ignored. -/
theorem accented_texts_reread :
    let stated := Workload.controlReset 2 5 "naïve" "Ċ3×3" 4
    let payload := stated.payload ++ [10, 0]
    ControlReset.parse payload = .ok stated ∧
    ∃ remarks,
      ((fresh .builtin).step .controlReset payload).1 = .ok remarks ∧
      remarks.take 6 =
        ["System reset with controller parameters:", "keySize = 2",
          "valSize = 5", "uiType = naïve", "challengeMode = Ċ3×3",
          "challengeChallengeDimX = 4"].map .text := by
  intro stated payload
  obtain ⟨_, _, _, inverse⟩ := controlReset_reads_spellings (fresh .builtin)
  obtain ⟨parsed, remarks, outcome, first⟩ :=
    inverse 2 5 4 "naïve" "Ċ3×3" [10, 0] (by decide) (by decide) (by decide)
      (by decide) (by decide)
  refine ⟨parsed, remarks, outcome, ?_⟩
  have leading := congrArg (List.take 6) first
  rw [List.take_take] at leading
  exact leading.trans (by decide)

end Context

end SessionCapture
