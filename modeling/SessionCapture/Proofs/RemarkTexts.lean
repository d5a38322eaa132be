import SessionCapture.Proofs.Notices
import SessionCapture.Proofs.ReachedContexts
import SessionCapture.Proofs.ReadLines

/-!
# Remarks take up one line each

What an interpreter says of an event holds no line feed, if the registered
vocabularies hold none.  The only texts taken from a payload are those of a
controller reset, which end before the first line feed, and the lines of form
data, which are split at them.
-/

namespace SessionCapture

/-- Remarks that are written on one line each. -/
def SingleLines (remarks : List Remark) : Prop :=
  ∀ remark ∈ remarks, SingleLine remark.message

namespace SingleLines

@[simp] theorem cons_iff (remark : Remark) (remarks : List Remark) :
    SingleLines (remark :: remarks) ↔
      SingleLine remark.message ∧ SingleLines remarks :=
  List.forall_mem_cons

@[simp] theorem append_iff (front back : List Remark) :
    SingleLines (front ++ back) ↔ SingleLines front ∧ SingleLines back :=
  List.forall_mem_append

@[simp] theorem nil : SingleLines [] :=
  nofun

@[simp] theorem texts_iff (texts : List String) :
    SingleLines (texts.map .text) ↔ ∀ text ∈ texts, SingleLine text := by
  simp [SingleLines, Remark.message]

end SingleLines

@[simp] theorem Remark.message_text (shown : String) :
    (Remark.text shown).message = shown := rfl

@[simp] theorem Remark.message_note (advisory : Advisory) :
    (Remark.note advisory).message = advisory.message := rfl

/-- Of what an advisory quotes, only the name of a vocabulary and the error of a
grid are texts. -/
theorem Advisory.singleLine_message {advisory : Advisory}
    (named : ∀ uiType keySize valSize,
      advisory = .incompatibleVocabulary uiType keySize valSize →
        SingleLine uiType)
    (undrawn : ∀ error, advisory = .grid error → SingleLine error.message) :
    SingleLine advisory.message := by
  -- unfolding, since the equations of a function of texts are slow to derive
  unfold Advisory.message
  cases advisory with
  | incompatibleVocabulary uiType keySize valSize =>
      simp +decide [named uiType keySize valSize rfl]
  | grid error => exact undrawn error rfl
  | _ => simp +decide

/-! ## Vocabularies and the grids drawn with them -/

/-- Neither keys nor labels hold line feeds. -/
structure Vocabulary.SingleLine (vocabulary : Vocabulary) : Prop where
  keys : ∀ column ∈ vocabulary.columns,
    SessionCapture.SingleLine column.key
  labels : ∀ column ∈ vocabulary.columns, ∀ label ∈ column.labels,
    SessionCapture.SingleLine label

namespace Vocabulary.SingleLine

variable {vocabulary : Vocabulary} {key : Nat}

theorem label (plain : vocabulary.SingleLine) {value : UInt16}
    {label : String} (named : vocabulary.label? key value = some label) :
    SessionCapture.SingleLine label := by
  obtain ⟨column, found, listed⟩ := Option.bind_eq_some_iff.mp named
  exact plain.labels column (List.mem_of_getElem? found) label
    (List.mem_of_getElem? listed)

/-- A key without a name is shown as a question mark. -/
theorem keyName (plain : vocabulary.SingleLine) (key : Nat) :
    SessionCapture.SingleLine ((vocabulary.keyName? key).getD "?") := by
  cases named : vocabulary.keyName? key with
  | none => simp +decide
  | some name =>
      obtain ⟨column, found, rfl⟩ := Option.map_eq_some_iff.mp named
      exact plain.keys column (List.mem_of_getElem? found)

theorem grid : Vocabulary.grid.SingleLine :=
  ⟨by decide, by decide⟩

theorem gridNumeric : Vocabulary.gridNumeric.SingleLine := by
  constructor
  · decide
  · simp only [Vocabulary.gridNumeric, List.forall_mem_singleton,
      List.forall_mem_map]
    simp

end Vocabulary.SingleLine

def Registry.SingleLine (registry : Registry) : Prop :=
  ∀ vocabulary ∈ registry.vocabularies, vocabulary.SingleLine

theorem Registry.singleLine_builtin : Registry.builtin.SingleLine :=
  List.forall_mem_cons.mpr
    ⟨.grid, List.forall_mem_singleton.mpr .gridNumeric⟩

theorem mem_of_mem_pieces {α : Type} {size : Nat} {items piece : List α}
    (member : piece ∈ pieces size items) : ∀ item ∈ piece, item ∈ items := by
  intro item inside
  by_cases zero : size = 0
  · simp [zero] at member
  · rw [← flatten_pieces zero items]
    exact List.mem_flatten.mpr ⟨piece, member, inside⟩

theorem mem_of_mem_intersperse {α : Type} {separator item : α}
    {items : List α} (member : item ∈ items.intersperse separator) :
    item = separator ∨ item ∈ items := by
  induction items with
  | nil => cases member
  | cons first rest induction =>
      cases rest with
      | nil => exact .inr (by simpa using member)
      | cons next rest =>
          rw [List.intersperse_cons_cons] at member
          simp only [List.mem_cons] at member induction ⊢
          rcases member with here | between | later
          · exact .inr (.inl here)
          · exact .inl between
          · exact (induction later).imp_right .inr

namespace Grid

variable {grid : Grid} {cells : List UInt16} {labels : List String}
  {columns : Nat}

theorem singleLine_dashes (count : Nat) : SingleLine (dashes count) := by
  simp [dashes]

theorem singleLine_cell {label : String} (plain : SingleLine label) :
    SingleLine (grid.cell label) := by
  have text : '\n' ∉ label.toList := plain
  simp +decide [cell, SingleLine, List.rightpad, text]

theorem singleLine_labelLine {digits : List (List String)}
    (plain : ∀ digit ∈ digits, ∀ label ∈ digit, SingleLine label)
    (key : Nat) : SingleLine (grid.labelLine digits key) := by
  have each : ∀ digit ∈ digits, SingleLine (digit.getD key "") := by
    intro digit member
    rw [List.getD_eq_getElem?_getD]
    cases found : digit[key]? with
    | none => simp +decide
    | some label => exact plain digit member label (List.mem_of_getElem? found)
  simp +decide only [labelLine, SingleLine.append_iff, SingleLine.join_iff,
    List.forall_mem_map, true_and]
  intro digit member
  exact singleLine_cell (each digit member)

/-- The lines of a drawn grid are its rules and its label lines. -/
theorem singleLine_draw (plain : ∀ label ∈ labels, SingleLine label) :
    ∀ line ∈ grid.draw labels columns, SingleLine line := by
  intro line member
  have rule := singleLine_dashes (grid.rowWidth columns - 2)
  simp only [draw, List.mem_append, List.mem_cons, List.mem_flatten,
    List.not_mem_nil, or_false] at member
  rcases member with (rfl | ⟨block, between, inside⟩) | rfl
  · simp +decide [rule]
  · rcases mem_of_mem_intersperse between with rfl | row
    · rw [List.mem_singleton.mp inside]
      simp +decide [rule]
    · obtain ⟨digits, visual, rfl⟩ := List.mem_map.mp row
      obtain ⟨key, _, rfl⟩ := List.mem_map.mp inside
      apply singleLine_labelLine
      intro digit member label shown
      exact plain label (mem_of_mem_pieces
        (mem_of_mem_pieces visual digit member) label shown)
  · simp +decide [rule]

theorem singleLine_labels (plain : grid.vocabulary.SingleLine)
    (labelled : grid.labels cells = .ok labels) :
    ∀ label ∈ labels, SingleLine label := by
  intro label member
  obtain ⟨index, shown⟩ := List.mem_iff_getElem?.mp member
  rw [getElem?_labels_eq_bind labelled] at shown
  obtain ⟨value, _, named⟩ := Option.bind_eq_some_iff.mp shown
  exact plain.label named

theorem singleLine_cellLabel_error (plain : grid.vocabulary.SingleLine)
    {value : UInt16} {index : Nat} {error : GridError}
    (failure : grid.cellLabel value index = .error error) :
    SingleLine error.message := by
  unfold cellLabel at failure
  dsimp only at failure
  split at failure
  · cases failure
  · cases failure
    unfold GridError.message
    simp +decide [plain.keyName]

theorem singleLine_render_error (plain : grid.vocabulary.SingleLine)
    {error : GridError} (failure : grid.render cells columns = .error error) :
    SingleLine error.message := by
  unfold render at failure
  split at failure
  · cases failure
    unfold GridError.message
    decide
  · split at failure
    · cases failure
      unfold GridError.message
      simp +decide
    · cases labelled : grid.labels cells with
      | ok labels =>
          rw [labelled] at failure
          cases failure
      | error found =>
          rw [labelled] at failure
          cases failure
          obtain ⟨⟨value, index⟩, _, failed⟩ :=
            exists_mem_of_mapM_error labelled
          exact singleLine_cellLabel_error plain failed

end Grid

theorem Configuration.singleLines_render {configuration : Configuration}
    (plain : configuration.vocabulary.SingleLine) (cells : List UInt16)
    (columns : Nat) :
    SingleLines (gridRemarks (configuration.render cells columns)) := by
  unfold Configuration.render
  cases drawn : configuration.grid.render cells columns with
  | ok lines =>
      obtain ⟨_, _, _, labels, labelled, rfl⟩ := Grid.render_eq_ok_iff.mp drawn
      apply (SingleLines.texts_iff _).mpr
      exact Grid.singleLine_draw (Grid.singleLine_labels plain labelled)
  | error error =>
      apply (SingleLines.cons_iff _ _).mpr
      refine ⟨Advisory.singleLine_message nofun ?_, .nil⟩
      rintro _ ⟨⟩
      exact Grid.singleLine_render_error plain drawn

/-! ## Texts taken from payloads -/

namespace ControlReset

theorem singleLine_report {reset : ControlReset}
    (uiType : SingleLine reset.uiType)
    (challengeMode : SingleLine reset.challengeMode) :
    ∀ line ∈ reset.report, SingleLine line := by
  have names : ∀ name ∈ geometryNames, SingleLine name := by
    decide
  unfold report
  rw [List.forall_mem_append]
  constructor
  · simp +decide [uiType, challengeMode]
  · intro line member
    obtain ⟨⟨name, value⟩, pair, rfl⟩ := List.mem_map.mp member
    simp +decide [names name (List.of_mem_zip pair).1]

end ControlReset

theorem singleLines_formData (payload : List UInt16) :
    SingleLines (formData payload) := by
  unfold formData
  apply (SingleLines.cons_iff _ _).mpr
  refine ⟨by decide, ?_⟩
  split
  · next text _ =>
      rintro remark member
      obtain ⟨line, among, rfl⟩ := List.mem_map.mp member
      have plain := Text.lineFeed_notMem_splitLines among
      simpa using plain
  · apply (SingleLines.cons_iff _ _).mpr
    exact ⟨Advisory.singleLine_message nofun nofun, .nil⟩

/-! ## Remarks on an event -/

theorem ok_of_mapError {ε δ α : Type} {change : ε → δ}
    {outcome : Except ε α} {value : α}
    (success : outcome.mapError change = .ok value) : outcome = .ok value := by
  cases outcome with
  | error error => cases success
  | ok found =>
      cases success
      rfl

/-- What is shown of a grid that is drawn in two steps. -/
theorem singleLines_bind {α : Type} {first : Except Advisory α}
    {next : α → Except Advisory (List String)}
    (advised : ∀ advisory, first = .error advisory →
      SingleLine advisory.message)
    (later : ∀ value, first = .ok value →
      SingleLines (gridRemarks (next value))) :
    SingleLines (gridRemarks (first >>= next)) := by
  cases first with
  | error advisory =>
      exact List.forall_mem_singleton.mpr (advised advisory rfl)
  | ok value => exact later value rfl

namespace Configuration

variable {configuration : Configuration}
  (plain : configuration.vocabulary.SingleLine)

include plain

theorem singleLines_secretGrid (entries : List UInt16) :
    SingleLines (gridRemarks (configuration.secretGrid entries)) := by
  apply singleLines_bind
  · intro advisory failure
    obtain ⟨entry, _, failed⟩ := exists_mem_of_mapM_error failure
    unfold secretTuple at failed
    dsimp only at failed
    split at failed
    · cases failed
      exact Advisory.singleLine_message nofun nofun
    · cases failed
  · intro tuples _
    exact singleLines_render plain _ _

end Configuration

namespace Context

/-- A challenge is drawn under its heading, whether or not it is kept. -/
theorem remarks_newChallenge {context next : Context} {cells : List UInt16}
    {remarks : List Remark}
    (success : context.newChallenge cells = .ok (remarks, next)) :
    remarks = .text "Valid challenge generated:" ::
      gridRemarks (context.configuration >>= fun configuration =>
        configuration.render cells configuration.layout.gridX.toNat) := by
  unfold newChallenge at success
  cases known : context.configuration with
  | error advisory =>
      rw [known] at success
      cases success
      rfl
  | ok configuration =>
      rw [known] at success
      dsimp only at success
      split at success
      · cases success
        rfl
      · cases success

variable {registry : Registry} {context : Context}
  (plain : registry.SingleLine) (reached : context.Reached registry)

include plain reached

theorem singleLines_configured
    {drawn : Configuration → Except Advisory (List String)}
    (each : ∀ configuration : Configuration,
      configuration.vocabulary.SingleLine →
        SingleLines (gridRemarks (drawn configuration))) :
    SingleLines (gridRemarks (context.configuration >>= drawn)) := by
  apply singleLines_bind
  · intro advisory failure
    unfold Context.configuration at failure
    split at failure
    · cases failure
    · cases failure
      exact Advisory.singleLine_message nofun nofun
  · intro configuration success
    apply each
    apply plain
    exact reached.vocabulary_mem (state_of_configuration success)

theorem singleLines_secretGrid (entries : List UInt16) :
    SingleLines (gridRemarks (context.secretGrid entries)) := by
  apply singleLines_configured plain reached
  intro configuration vocabulary
  exact Configuration.singleLines_secretGrid vocabulary entries

theorem singleLines_responseGrid (digits : List UInt16) :
    SingleLines (gridRemarks (context.responseGrid digits)) := by
  apply singleLines_configured plain reached
  intro configuration vocabulary
  apply singleLines_bind
  · intro advisory failure
    obtain ⟨digit, _, failed⟩ := exists_mem_of_mapM_error failure
    unfold resolveDigit at failed
    split at failed
    · cases failed
    · cases failed
      exact Advisory.singleLine_message nofun nofun
  · intro tuples _
    exact Configuration.singleLines_render vocabulary _ _

theorem singleLines_newChallenge {cells : List UInt16} {remarks : List Remark}
    {next : Context}
    (success : context.newChallenge cells = .ok (remarks, next)) :
    SingleLines remarks := by
  rw [remarks_newChallenge success, SingleLines.cons_iff]
  refine ⟨by decide, ?_⟩
  apply singleLines_configured plain reached
  intro configuration vocabulary
  exact Configuration.singleLines_render vocabulary _ _

omit plain reached

theorem singleLine_reset {layout : Layout} {uiType : String}
    (plain : SingleLine uiType) {advisory : Advisory}
    (advised : (context.reset layout uiType).2 = some advisory) :
    SingleLine advisory.message := by
  change (stateAfterReset context.registry layout uiType).2 = _ at advised
  unfold stateAfterReset at advised
  split at advised
  · cases advised
    exact Advisory.singleLine_message nofun nofun
  · split at advised
    · cases advised
    · cases advised
      refine Advisory.singleLine_message ?_ nofun
      rintro _ _ _ ⟨⟩
      exact plain

theorem singleLines_controlReset {payload : List UInt16}
    {remarks : List Remark} {next : Context}
    (success : context.controlReset payload = .ok (remarks, next)) :
    SingleLines remarks := by
  obtain ⟨reset, parsed, rfl, _⟩ := controlReset_eq_ok_iff.mp success
  have statable := (ControlReset.parse_eq_ok_iff.mp parsed).1
  have report := ControlReset.singleLine_report statable.uiType
    statable.challengeMode
  rw [SingleLines.cons_iff, SingleLines.append_iff, SingleLines.texts_iff]
  refine ⟨by decide, report, ?_⟩
  intro remark member
  obtain ⟨advisory, advised, rfl⟩ := List.mem_map.mp member
  exact singleLine_reset statable.uiType (Option.mem_toList.mp advised)

include plain reached

/-- Whatever an event is interpreted as, each remark takes up one line. -/
theorem singleLines_interpret {kind : EventKind} {payload : List UInt16}
    {remarks : List Remark} {next : Context}
    (success : context.interpret kind payload = .ok (remarks, next)) :
    SingleLines remarks := by
  cases kind with
  | newSecret =>
      cases payload with
      | nil => cases success
      | cons flag entries =>
          cases success
          apply (SingleLines.cons_iff _ _).mpr
          refine ⟨?_, singleLines_secretGrid plain reached entries⟩
          rw [Remark.message_text]
          split <;> decide
  | submit =>
      cases payload with
      | nil => cases success
      | cons flag digits =>
          cases success
          apply (SingleLines.cons_iff _ _).mpr
          refine ⟨?_, singleLines_responseGrid plain reached digits⟩
          rw [Remark.message_text]
          split <;> decide
  | newChallenge =>
      exact singleLines_newChallenge plain reached (ok_of_mapError success)
  | controlReset =>
      exact singleLines_controlReset (ok_of_mapError success)
  | timeSync =>
      match payload with
      | low :: high :: _ =>
          cases success
          simp +decide
      | [_] => cases success
      | [] => cases success
  | otherData =>
      cases success
      exact singleLines_formData payload
  | unknown tag => cases success
  | _ =>
      cases success
      simp +decide

end Context

end SessionCapture
