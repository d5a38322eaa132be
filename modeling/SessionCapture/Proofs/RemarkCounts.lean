import SessionCapture.Proofs.Alignment
import SessionCapture.Proofs.RemarkTexts

/-!
# How many remarks an event can get

A grid has a line for each key of each visual row and one rule more than there
are rows.  A row shows at least one digit, so a challenge gets about two lines
for each payload word, whatever layout it is drawn in; a secret or a response is
one row of few keys.  Form data has at most one line for each word, and what is
told of a reset is bounded once and for all.
-/

namespace SessionCapture

/-! ## Lines of a grid -/

section Lists

variable {α β ε : Type}

theorem length_pieces_le {size count : Nat} {items : List α}
    (positive : size ≠ 0) (few : items.length ≤ size * count) :
    (pieces size items).length ≤ count := by
  rw [length_pieces positive]
  apply Nat.le_of_lt_succ
  rw [Nat.div_lt_iff_lt_mul (Nat.pos_of_ne_zero positive), Nat.succ_mul,
    Nat.mul_comm]
  omega

theorem length_flatten_intersperse_le {size : Nat} {lists : List (List α)}
    (sized : ∀ list ∈ lists, list.length = size) (between : α) :
    (lists.intersperse [between]).flatten.length ≤
      (size + 1) * lists.length := by
  cases lists with
  | nil => exact Nat.le_refl 0
  | cons first lists =>
      have counted := length_flatten_intersperse sized between
        (List.cons_ne_nil first lists)
      omega

theorem length_flatten_of_mapM_ok {f : α → Except ε (List β)} {size : Nat}
    (each : ∀ item result, f item = .ok result → result.length = size)
    {items : List α} {results : List (List β)}
    (success : items.mapM f = .ok results) :
    results.flatten.length = size * items.length := by
  induction items generalizing results with
  | nil =>
      cases success
      rfl
  | cons item items induction =>
      obtain ⟨result, later, here, rest, rfl⟩ :=
        mapM_cons_eq_ok_iff.mp success
      rw [List.flatten_cons, List.length_append, each item result here,
        induction rest, List.length_cons, Nat.mul_succ, Nat.add_comm]

end Lists

namespace Grid

variable {grid : Grid} {cells : List UInt16} {columns rows : Nat}
  {lines : List String}

/-- A grid whose cells fit into so many visual rows. -/
theorem length_of_render (drawn : grid.render cells columns = .ok lines)
    (few : cells.length ≤ grid.keySize * (columns * rows)) :
    lines.length ≤ (grid.keySize + 1) * rows + 2 := by
  obtain ⟨someColumns, someKeys, _, labels, labelled, rfl⟩ :=
    render_eq_ok_iff.mp drawn
  rw [← length_labels labelled] at few
  have digits := length_pieces_le someKeys few
  have visualRows := length_pieces_le someColumns digits
  have sized := grid.sized_labelLines
    (pieces columns (pieces grid.keySize labels))
  have inner := length_flatten_intersperse_le sized
    ("|" ++ dashes (grid.rowWidth columns - 2) ++ "|")
  have bound := Nat.mul_le_mul_left (grid.keySize + 1) visualRows
  rw [List.length_map] at inner
  unfold draw
  dsimp only
  rw [List.length_append, List.length_cons, List.length_singleton]
  omega

/-- No layout makes a grid longer than one with a digit of one key on each
row. -/
theorem length_of_render_le (drawn : grid.render cells columns = .ok lines) :
    lines.length ≤ 2 * cells.length + 2 := by
  obtain ⟨someColumns, someKeys, whole, _⟩ := render_eq_ok_iff.mp drawn
  obtain ⟨digits, total⟩ := Nat.dvd_of_mod_eq_zero whole
  have few : cells.length ≤ grid.keySize * (columns * digits) := by
    rw [total]
    apply Nat.mul_le_mul_left
    exact Nat.le_mul_of_pos_left digits (Nat.pos_of_ne_zero someColumns)
  have bound := length_of_render drawn few
  have each : digits ≤ cells.length := by
    rw [total]
    exact Nat.le_mul_of_pos_left digits (Nat.pos_of_ne_zero someKeys)
  rw [Nat.succ_mul, ← total] at bound
  omega

end Grid

theorem length_gridRemarks_le {drawn : Except Advisory (List String)}
    {limit : Nat} (few : ∀ lines, drawn = .ok lines → lines.length ≤ limit) :
    (gridRemarks drawn).length ≤ limit + 1 := by
  cases drawn with
  | ok lines =>
      have bound := few lines rfl
      unfold gridRemarks
      rw [List.length_map]
      omega
  | error advisory => exact Nat.le_add_left 1 limit

/-! ## Grids of one row -/

namespace Configuration

variable {configuration : Configuration} {cells : List UInt16}
  {lines : List String}

theorem length_of_row {columns : Nat}
    (drawn : configuration.render cells columns = .ok lines)
    (row : cells.length = configuration.keySize * columns) :
    lines.length ≤ configuration.keySize + 3 := by
  have fits : cells.length ≤ configuration.keySize * (columns * 1) := by
    rw [Nat.mul_one]
    exact Nat.le_of_eq row
  have bound := Grid.length_of_render (render_eq_ok_iff.mp drawn) fits
  change lines.length ≤ (configuration.keySize + 1) * 1 + 2 at bound
  omega

theorem length_secretTuple {entry : UInt16} {tuple : List UInt16}
    (stated : configuration.secretTuple entry = .ok tuple) :
    tuple.length = configuration.keySize := by
  unfold secretTuple at stated
  dsimp only at stated
  split at stated
  · cases stated
  · cases stated
    rw [List.length_set, List.length_replicate]
    rfl

theorem length_secretGrid_le {entries : List UInt16}
    (drawn : configuration.secretGrid entries = .ok lines) :
    lines.length ≤ configuration.keySize + 3 := by
  unfold secretGrid at drawn
  cases stated : entries.mapM configuration.secretTuple with
  | error advisory =>
      rw [stated] at drawn
      cases drawn
  | ok tuples =>
      rw [stated] at drawn
      apply length_of_row drawn
      exact length_flatten_of_mapM_ok (fun _ _ => length_secretTuple) stated

end Configuration

/-- Vocabularies of at most three keys. -/
def Registry.Narrow (registry : Registry) : Prop :=
  ∀ vocabulary ∈ registry.vocabularies, vocabulary.columns.length ≤ 3

theorem Registry.narrow_builtin : Registry.builtin.Narrow := by
  simp [Registry.Narrow, Registry.builtin, Vocabulary.grid,
    Vocabulary.gridNumeric]

theorem Vocabulary.keySize_le_of_covers {vocabulary : Vocabulary}
    {keySize valSize : UInt16} (covered : vocabulary.covers keySize valSize) :
    keySize.toNat ≤ vocabulary.columns.length := by
  unfold covers at covered
  rw [Bool.and_eq_true] at covered
  exact of_decide_eq_true covered.1

namespace Context

variable {registry : Registry} {context : Context}

theorem exists_configured {α : Type} {next : Configuration → Except Advisory α}
    {value : α} (success : context.configuration >>= next = .ok value) :
    ∃ configuration, context.state = .configured configuration ∧
      next configuration = .ok value := by
  cases known : context.configuration with
  | error advisory =>
      rw [known] at success
      cases success
  | ok configuration =>
      rw [known] at success
      exact ⟨configuration, state_of_configuration known, success⟩

theorem Reached.keySize_le (reached : context.Reached registry)
    (narrow : registry.Narrow) {configuration : Configuration}
    (configured : context.state = .configured configuration) :
    configuration.keySize ≤ 3 :=
  Nat.le_trans
    (Vocabulary.keySize_le_of_covers (reached.usable configured).covers)
    (narrow _ (reached.vocabulary_mem configured))

variable (narrow : registry.Narrow) (reached : context.Reached registry)

include narrow reached

theorem length_secretGrid_le (entries : List UInt16) {lines : List String}
    (drawn : context.secretGrid entries = .ok lines) : lines.length ≤ 6 := by
  obtain ⟨configuration, configured, drawn⟩ := exists_configured drawn
  have keys := reached.keySize_le narrow configured
  have bound := Configuration.length_secretGrid_le drawn
  omega

theorem length_responseGrid_le (digits : List UInt16) {lines : List String}
    (drawn : context.responseGrid digits = .ok lines) : lines.length ≤ 6 := by
  obtain ⟨configuration, configured, _⟩ := exists_configured drawn
  have keys := reached.keySize_le narrow configured
  obtain ⟨tuples, looked, rendered⟩ :=
    render_of_responseGrid configured drawn
  obtain ⟨events, rfl⟩ := reached
  have bound := Configuration.length_of_row rendered
    (length_tuples configured looked)
  omega

omit narrow reached

theorem length_newChallenge_le {cells : List UInt16} {remarks : List Remark}
    {next : Context}
    (success : context.newChallenge cells = .ok (remarks, next)) :
    remarks.length ≤ 2 * cells.length + 4 := by
  rw [remarks_newChallenge success, List.length_cons]
  apply Nat.succ_le_succ
  apply length_gridRemarks_le
  intro lines drawn
  obtain ⟨configuration, _, drawn⟩ := exists_configured drawn
  exact Grid.length_of_render_le (Configuration.render_eq_ok_iff.mp drawn)

end Context

/-! ## Texts of payloads -/

namespace Text

theorem length_splitLines_le (text : List Char) :
    (splitLines text).length ≤ text.length + 1 := by
  induction text with
  | nil => exact Nat.le_refl 1
  | cons c text induction =>
      by_cases lineFeed : c = '\n'
      · rw [lineFeed, splitLines_lineFeed]
        exact Nat.succ_le_succ induction
      · obtain ⟨line, rest, found, extended⟩ := splitLines_of_ne lineFeed text
        rw [found] at induction
        rw [extended]
        exact Nat.le_succ_of_le induction

/-- A text has at most as many characters as the words it is read from. -/
theorem length_le_of_read {words : List UInt16} {text : String}
    (success : read words = .ok text) :
    text.toList.length ≤ words.length := by
  have encoded := congrArg List.length (encoding_of_read success)
  rw [List.length_flatMap, List.length_map] at encoded
  have sizes : ∀ size ∈ text.toList.map
      (fun c => (String.utf8EncodeChar c).length), 1 ≤ size := by
    intro size member
    obtain ⟨c, _, rfl⟩ := List.mem_map.mp member
    rw [String.length_utf8EncodeChar]
    exact c.utf8Size_pos
  have count := List.length_le_sum_of_one_le _ sizes
  rwa [List.length_map, encoded] at count

end Text

theorem length_formData_le (payload : List UInt16) :
    (formData payload).length ≤ payload.length + 2 := by
  unfold formData
  rw [List.length_cons]
  split
  · next text read =>
      have characters := Text.length_le_of_read read
      have split := Text.length_splitLines_le text.toList.dropLast
      rw [List.length_dropLast] at split
      rw [List.length_map]
      omega
  · simp

theorem ControlReset.length_report_le (reset : ControlReset) :
    reset.report.length ≤ 22 := by
  have geometry : (geometryNames.zip reset.geometry).length ≤ 17 := by
    rw [List.length_zip]
    exact Nat.min_le_left _ _
  unfold report
  rw [List.length_append, List.length_map]
  simp only [List.length_cons, List.length_nil]
  omega

namespace Context

variable {registry : Registry} {context : Context}

theorem length_controlReset_le {payload : List UInt16}
    {remarks : List Remark} {next : Context}
    (success : context.controlReset payload = .ok (remarks, next)) :
    remarks.length ≤ 24 ∧ payload ≠ [] := by
  obtain ⟨reset, parsed, rfl, _⟩ := controlReset_eq_ok_iff.mp success
  have report := reset.length_report_le
  have advised : (context.reset reset.layout
      reset.uiType).2.toList.length ≤ 1 := Option.length_toList_le
  constructor
  · simp only [List.length_cons, List.length_append, List.length_map]
    omega
  · rintro rfl
    cases parsed

/-- Next to the event's own lines, its remarks take up no more than two lines
for each byte of the event. -/
theorem length_interpret_le (narrow : registry.Narrow)
    (reached : context.Reached registry) {kind : EventKind}
    {payload : List UInt16} {remarks : List Remark} {next : Context}
    (success : context.interpret kind payload = .ok (remarks, next)) :
    remarks.length ≤ 23 + 3 * payload.length := by
  cases kind with
  | newSecret =>
      cases payload with
      | nil => cases success
      | cons flag entries =>
          cases success
          have drawn := length_gridRemarks_le fun _ =>
            length_secretGrid_le narrow reached entries
          simp only [List.length_cons]
          omega
  | submit =>
      cases payload with
      | nil => cases success
      | cons flag digits =>
          cases success
          have drawn := length_gridRemarks_le fun _ =>
            length_responseGrid_le narrow reached digits
          simp only [List.length_cons]
          omega
  | newChallenge =>
      have told := length_newChallenge_le (ok_of_mapError success)
      omega
  | controlReset =>
      obtain ⟨told, nonempty⟩ :=
        length_controlReset_le (ok_of_mapError success)
      have words := List.length_pos_iff.mpr nonempty
      omega
  | timeSync =>
      match payload with
      | low :: high :: _ =>
          cases success
          simp
          omega
      | [_] => cases success
      | [] => cases success
  | otherData =>
      cases success
      have told := length_formData_le payload
      omega
  | unknown tag => cases success
  | _ =>
      cases success
      simp
      omega

end Context

end SessionCapture
