import SessionCapture.Proofs.Configurations

/-!
# The widths of drawn grids

A cell is as wide as the widest label that the layout addresses, so a label line
is exactly as wide as its row if the layout has all the values on it.  A
challenge is drawn whenever the vocabulary has labels for its values, though,
and these may be greater and their labels wider.  A label that does not fit into
a cell widens its own line and no other.
-/

namespace SessionCapture

theorem Vocabulary.length_le_cellWidth {vocabulary : Vocabulary}
    {keySize valSize value : UInt16} {key : Nat} {label : String}
    (inside : key < keySize.toNat) (upTo : value ≤ valSize)
    (named : vocabulary.label? key value = some label) :
    label.length ≤ vocabulary.cellWidth keySize valSize := by
  obtain ⟨column, found, listed⟩ := Option.bind_eq_some_iff.mp named
  have first : column ∈ vocabulary.columns.take keySize.toNat :=
    mem_take_of_getElem? inside found
  have early : label ∈ column.labels.take (valSize.toNat + 1) :=
    mem_take_of_getElem?
      (Nat.lt_succ_of_le (UInt16.le_iff_toNat_le.mp upTo)) listed
  have measured : label.length ∈
      ((vocabulary.columns.take keySize.toNat).flatMap
        (·.labels.take (valSize.toNat + 1))).map String.length := by
    apply List.mem_map_of_mem
    exact List.mem_flatMap.mpr ⟨column, first, early⟩
  unfold cellWidth
  dsimp only
  rw [List.foldl_max]
  exact Nat.le_trans (List.le_max?_getD_of_mem measured)
    (Nat.le_max_right _ _)

namespace Grid

variable {grid : Grid} {valSize : UInt16} {cells : List UInt16}
  {columns : Nat} {labels lines : List String}

/-- The label of a value, if it has one, fits into a cell. -/
def Fits (grid : Grid) (key : Nat) (value : UInt16) : Prop :=
  ∀ label, grid.vocabulary.label? key value = some label →
    label.length ≤ grid.cellWidth

/-- A label line ends in a delimiter.  It is as wide as its row if its labels
fit into cells, which they do if its values run up to `valSize`; otherwise it is
wider. -/
structure LineWidth (grid : Grid) (valSize : UInt16) (key : Nat)
    (values : List UInt16) (line : String) : Prop where
  closed : ∃ front, line = front ++ "|"
  least : grid.rowWidth values.length ≤ line.length
  exact_iff : line.length = grid.rowWidth values.length ↔
    ∀ value ∈ values, grid.Fits key value
  exact_of_le : (∀ value ∈ values, value ≤ valSize) →
    line.length = grid.rowWidth values.length

/-- The lines of drawn cells: the outer rules stop just before the last
delimiter of a full row, and every label line stands at its place. -/
structure Measured (grid : Grid) (valSize : UInt16) (cells : List UInt16)
    (columns : Nat) (lines : List String) : Prop where
  rules : ∃ rule, lines.head? = some rule ∧ lines.getLast? = some rule ∧
    rule.length + 1 = grid.rowWidth columns
  labelLines : ∀ row key, columns * row < cells.length / grid.keySize →
    key < grid.keySize →
    (grid.shown cells columns row key).length =
      digitsIn columns (cells.length / grid.keySize) row ∧
    ∃ line, lines[grid.lineIndex row key]? = some line ∧
      grid.LineWidth valSize key (grid.shown cells columns row key) line

theorem lineWidth_line {key : Nat} {values : List UInt16}
    (labelled : ∀ value ∈ values, (grid.vocabulary.label? key value).isSome)
    (fits : ∀ value ≤ valSize, grid.Fits key value) :
    grid.LineWidth valSize key values
      (grid.line (values.filterMap (grid.vocabulary.label? key))) := by
  have count : (values.filterMap (grid.vocabulary.label? key)).length =
      values.length :=
    List.filterMap_length_eq_length.mpr labelled
  have exactly : (grid.line
        (values.filterMap (grid.vocabulary.label? key))).length =
      grid.rowWidth values.length ↔
        ∀ value ∈ values, grid.Fits key value := by
    rw [← count, length_line_eq_iff]
    constructor
    · intro short value member label named
      exact short label (List.mem_filterMap.mpr ⟨value, member, named⟩)
    · intro fitting label member
      obtain ⟨value, shown, named⟩ := List.mem_filterMap.mp member
      exact fitting value shown label named
  constructor
  case closed => exact line_closed _
  case least =>
    rw [← count]
    exact rowWidth_le_length_line _
  case exact_iff => exact exactly
  case exact_of_le =>
    intro upTo
    apply exactly.mpr
    intro value member
    exact fits value (upTo value member)

theorem measured_of_render (drawn : grid.render cells columns = .ok lines)
    (fits : ∀ key < grid.keySize, ∀ value ≤ valSize, grid.Fits key value) :
    grid.Measured valSize cells columns lines := by
  obtain ⟨someColumns, someKeys, whole, labels, labelled, rfl⟩ :=
    render_eq_ok_iff.mp drawn
  constructor
  case rules =>
    exact ⟨" " ++ dashes (grid.rowWidth columns - 2), rfl,
      List.getLast?_concat, length_outerRule someColumns⟩
  case labelLines =>
    intro row key held inside
    refine ⟨length_shown whole inside,
      grid.line (grid.shown labels columns row key), ?_, ?_⟩
    · apply getElem?_draw someColumns ?_ ?_ inside
      · rw [length_labels labelled]
        exact whole
      · rw [length_labels labelled]
        exact held
    · rw [shown_labels labelled inside]
      apply lineWidth_line ?_ (fits key inside)
      intro value member
      obtain ⟨place, _, found⟩ := List.mem_filterMap.mp member
      obtain ⟨label, _, named⟩ := getElem?_labels labelled found
      rw [Nat.mul_add_mod, Nat.mod_eq_of_lt inside] at named
      rw [named]
      rfl

end Grid

namespace Configuration

variable {configuration : Configuration} {cells : List UInt16}
  {columns : Nat} {lines : List String}

theorem render_eq_ok_iff :
    configuration.render cells columns = .ok lines ↔
      configuration.grid.render cells columns = .ok lines := by
  unfold render
  cases configuration.grid.render cells columns with
  | ok found => simp [Except.mapError]
  | error error => simp [Except.mapError]

/-- No label that the layout asks for is wider than a cell. -/
theorem length_le_cellWidth {key : Nat} {value : UInt16} {label : String}
    (inside : key < configuration.layout.keySize.toNat)
    (upTo : value ≤ configuration.layout.valSize)
    (named : configuration.vocabulary.label? key value = some label) :
    label.length ≤ configuration.cellWidth := by
  rw [configuration.cellWidth_eq]
  exact Vocabulary.length_le_cellWidth inside upTo named

theorem measured_of_render
    (drawn : configuration.render cells columns = .ok lines) :
    configuration.grid.Measured configuration.layout.valSize cells columns
      lines := by
  apply Grid.measured_of_render (render_eq_ok_iff.mp drawn)
  intro key inside value upTo label named
  exact Configuration.length_le_cellWidth inside upTo named

end Configuration

theorem drawn_of_noNote {drawn : Except Advisory (List String)}
    {remarks : List Remark}
    (gridded : ∃ heading, remarks = .text heading :: gridRemarks drawn)
    (noNote : ∀ advisory, .note advisory ∉ remarks) :
    ∃ lines, drawn = .ok lines := by
  obtain ⟨heading, rfl⟩ := gridded
  cases drawn with
  | ok lines => exact ⟨lines, rfl⟩
  | error advisory => exact absurd (note_mem_iff.mpr rfl) (noNote advisory)

namespace Context

section Configured

variable {context : Context} {configuration : Configuration}

theorem step_newChallenge
    (configured : context.state = .configured configuration)
    {cells : List UInt16}
    (whole : cells.length % configuration.keySize = 0) :
    context.step .newChallenge cells =
      (.ok (.text "Valid challenge generated:" ::
        gridRemarks
          (configuration.render cells configuration.layout.gridX.toNat)),
        context.storeChallenge cells configuration.keySize) := by
  have known := configuration_of_configured configured
  simp only [step, interpret, newChallenge, known, if_pos whole]
  rfl

theorem remarks_of_newChallenge
    (configured : context.state = .configured configuration)
    {cells : List UInt16} {remarks : List Remark}
    (outcome : (context.step .newChallenge cells).1 = .ok remarks) :
    remarks = .text "Valid challenge generated:" ::
      gridRemarks
        (configuration.render cells configuration.layout.gridX.toNat) := by
  by_cases whole : cells.length % configuration.keySize = 0
  · rw [step_newChallenge configured whole] at outcome
    cases outcome
    rfl
  · have known := configuration_of_configured configured
    simp only [step, interpret, newChallenge, known, if_neg whole] at outcome
    cases outcome

theorem resolveDigit_eq_ok_iff {digit : UInt16} {tuple : List UInt16} :
    context.resolveDigit digit = .ok tuple ↔
      context.challengeDigit? digit = some tuple := by
  unfold resolveDigit
  cases context.challengeDigit? digit with
  | some found => simp
  | none => simp

theorem map_challengeDigit?_of_mapM {digits : List UInt16}
    {tuples : List (List UInt16)}
    (resolved : digits.mapM context.resolveDigit = .ok tuples) :
    digits.map context.challengeDigit? = tuples.map some := by
  induction digits generalizing tuples with
  | nil =>
      cases resolved
      rfl
  | cons digit digits induction =>
      obtain ⟨tuple, later, here, rest, rfl⟩ :=
        mapM_cons_eq_ok_iff.mp resolved
      rw [List.map_cons, List.map_cons, induction rest,
        resolveDigit_eq_ok_iff.mp here]

theorem responseGrid_of_resolved
    (configured : context.state = .configured configuration)
    {digits : List UInt16} {tuples : List (List UInt16)}
    (resolved : digits.mapM context.resolveDigit = .ok tuples) :
    context.responseGrid digits =
      configuration.render tuples.flatten digits.length := by
  rw [responseGrid, configuration_of_configured configured]
  change ((digits.mapM context.resolveDigit).bind fun tuples =>
    configuration.render tuples.flatten digits.length) = _
  rw [resolved]
  rfl

/-- A response is drawn from the tuples of its digits. -/
theorem render_of_responseGrid
    (configured : context.state = .configured configuration)
    {digits : List UInt16} {lines : List String}
    (drawn : context.responseGrid digits = .ok lines) :
    ∃ tuples : List (List UInt16),
      digits.map context.challengeDigit? = tuples.map some ∧
      configuration.render tuples.flatten digits.length = .ok lines := by
  cases resolved : digits.mapM context.resolveDigit with
  | error advisory =>
      rw [responseGrid, configuration_of_configured configured] at drawn
      change ((digits.mapM context.resolveDigit).bind _) = _ at drawn
      rw [resolved] at drawn
      cases drawn
  | ok tuples =>
      rw [responseGrid_of_resolved configured resolved] at drawn
      exact ⟨tuples, map_challengeDigit?_of_mapM resolved, drawn⟩

end Configured

/-- The tuples of a response hold a value of each key for each of its digits. -/
theorem length_tuples {registry : Registry} {events : List EventInput}
    {configuration : Configuration} {digits : List UInt16}
    {tuples : List (List UInt16)}
    (reached : ((fresh registry).after events).state =
      .configured configuration)
    (looked : digits.map ((fresh registry).after events).challengeDigit? =
      tuples.map some) :
    tuples.flatten.length = configuration.keySize * digits.length := by
  have count : tuples.length = digits.length := by
    have same := congrArg List.length looked
    rw [List.length_map, List.length_map] at same
    exact same.symm
  rw [← count]
  apply length_flatten_of_sized
  intro tuple member
  have found : some tuple ∈
      digits.map ((fresh registry).after events).challengeDigit? := by
    rw [looked]
    exact List.mem_map_of_mem member
  obtain ⟨digit, _, stored⟩ := List.mem_map.mp found
  apply length_of_mem_challenge reached
  exact Array.mem_of_getElem? stored

/-- The label lines of a drawn challenge or response are as wide as their rows
if their labels fit into cells, as labels of values up to the value size do. -/
theorem label_lines_aligned {registry : Registry} {events : List EventInput}
    {configuration : Configuration}
    (reached : ((fresh registry).after events).state =
      .configured configuration) :
    let context := (fresh registry).after events
    let layout := configuration.layout
    let grid := configuration.grid
    (∀ cells remarks, (context.step .newChallenge cells).1 = .ok remarks →
      (∀ advisory, .note advisory ∉ remarks) →
      ∃ lines : List String,
        remarks = .text "Valid challenge generated:" :: lines.map .text ∧
        grid.Measured layout.valSize cells layout.gridX.toNat lines) ∧
    ∀ flag digits remarks,
      (context.step .submit (flag :: digits)).1 = .ok remarks →
      (∀ advisory, .note advisory ∉ remarks) →
      let verdict := if holds flag then "Correct" else "Incorrect"
      ∃ (lines : List String) (tuples : List (List UInt16)),
        remarks =
          .text s!"{verdict} response submitted:" :: lines.map .text ∧
        digits.map context.challengeDigit? = tuples.map some ∧
        tuples.flatten.length = grid.keySize * digits.length ∧
        grid.Measured layout.valSize tuples.flatten digits.length lines := by
  intro context layout grid
  refine ⟨?challenge, ?response⟩
  case challenge =>
    intro cells remarks outcome noNote
    have told := remarks_of_newChallenge reached outcome
    obtain ⟨lines, drawn⟩ := drawn_of_noNote ⟨_, told⟩ noNote
    rw [drawn] at told
    exact ⟨lines, told, Configuration.measured_of_render drawn⟩
  case response =>
    intro flag digits remarks outcome noNote verdict
    cases outcome
    obtain ⟨lines, drawn⟩ := drawn_of_noNote ⟨_, rfl⟩ noNote
    obtain ⟨tuples, looked, rendered⟩ := render_of_responseGrid reached drawn
    refine ⟨lines, tuples, ?_, looked, length_tuples reached looked,
      Configuration.measured_of_render rendered⟩
    rw [drawn]
    rfl

/-- Numerals of one digit. -/
def numerals (gridX : UInt16) : ControlReset :=
  ⟨⟨1, 9, gridX⟩, "grid-numeric", "random", ControlReset.defaultGeometry⟩

theorem after_numerals :
    (fresh .builtin).after
        [(.controlReset, (numerals 2).payload), (.newChallenge, [5])] =
      ⟨.builtin, .configured (.of ⟨1, 9, 2⟩ .gridNumeric), #[[5]]⟩ := by
  have last : lastReset?
      [(.controlReset, (numerals 2).payload), (.newChallenge, [5])] =
        some (numerals 2, [(.newChallenge, [5])]) := by
    decide
  have covered : Registry.builtin.covering? (numerals 2) =
      some .gridNumeric := by
    decide
  have cells : pieces 1 ([5] : List UInt16) = [[5]] :=
    pieces_of_length_le (by decide) (by decide)
  rw [after_fresh, remembered_of_covered last covered]
  exact congrArg (fun tuples => Context.mk _ _ (List.toArray tuples)) cells

/-- A numeral of one digit fits into cells one character wide, in the short row
of a challenge and in the full row of a response. -/
theorem numeral_lines_aligned :
    let configuration : Configuration := .of ⟨1, 9, 2⟩ .gridNumeric
    let context := (fresh .builtin).after
      [(.controlReset, (numerals 2).payload), (.newChallenge, [5])]
    context.state = .configured configuration ∧
    (∃ lines : List String,
      (context.step .newChallenge [5]).1 =
        .ok (.text "Valid challenge generated:" :: lines.map .text) ∧
      configuration.grid.Measured 9 [5] 2 lines) ∧
    ∃ (lines : List String) (tuples : List (List UInt16)),
      (context.step .submit [1, 0, 0]).1 =
        .ok (.text "Correct response submitted:" :: lines.map .text) ∧
      [0, 0].map context.challengeDigit? = tuples.map some ∧
      configuration.grid.Measured 9 tuples.flatten 2 lines := by
  intro configuration context
  have reached : context.state = .configured configuration :=
    congrArg Context.state after_numerals
  obtain ⟨challenge, response⟩ := label_lines_aligned reached
  refine ⟨reached, ?challenge, ?response⟩
  case challenge =>
    have drawn : configuration.render [5] 2 =
        .ok (configuration.grid.draw ["5"] 2) :=
      Configuration.render_eq_ok_iff.mpr
        (Grid.render_eq_ok_iff.mpr
          ⟨by decide, by decide, by decide, _, by decide, rfl⟩)
    have outcome : (context.step .newChallenge [5]).1 =
        .ok (.text "Valid challenge generated:" ::
          (configuration.grid.draw ["5"] 2).map .text) := by
      rw [step_newChallenge reached (by decide)]
      change Except.ok (_ :: gridRemarks (configuration.render [5] 2)) = _
      rw [drawn]
      rfl
    obtain ⟨lines, told, measured⟩ := challenge _ _ outcome (by simp)
    exact ⟨lines, told ▸ outcome, measured⟩
  case response =>
    have rendered : configuration.render [5, 5] 2 =
        .ok (configuration.grid.draw ["5", "5"] 2) :=
      Configuration.render_eq_ok_iff.mpr
        (Grid.render_eq_ok_iff.mpr
          ⟨by decide, by decide, by decide, _, by decide, rfl⟩)
    have drawn : context.responseGrid [0, 0] =
        .ok (configuration.grid.draw ["5", "5"] 2) := by
      have resolved : [0, 0].mapM context.resolveDigit = .ok [[5], [5]] := by
        unfold context
        rw [after_numerals]
        rfl
      rw [responseGrid_of_resolved reached resolved]
      exact rendered
    have outcome : (context.step .submit [1, 0, 0]).1 =
        .ok (.text "Correct response submitted:" ::
          (configuration.grid.draw ["5", "5"] 2).map .text) := by
      change Except.ok (_ :: gridRemarks (context.responseGrid [0, 0])) = _
      rw [drawn]
      rfl
    obtain ⟨lines, tuples, told, looked, _, measured⟩ :=
      response _ _ _ outcome (by simp)
    exact ⟨lines, tuples, told ▸ outcome, looked, measured⟩

/-- A numeral of two digits widens its line: the value is greater than the value
size, but the vocabulary has a label for it. -/
theorem numeral_line_not_aligned :
    let configuration : Configuration := .of ⟨1, 9, 1⟩ .gridNumeric
    let context :=
      (fresh .builtin).after [(.controlReset, (numerals 1).payload)]
    context.state = .configured configuration ∧
    (context.step .newChallenge [10]).1 =
      .ok [.text "Valid challenge generated:", .text " -", .text "|10|",
        .text " -"] ∧
    "|10|".length ≠ configuration.grid.rowWidth 1 := by
  intro configuration context
  have reached : context.state = .configured configuration := by
    decide
  have digit : pieces configuration.grid.keySize ["10"] = [["10"]] :=
    pieces_of_length_le (by decide) (by decide)
  have row : pieces 1 [["10"]] = [[["10"]]] :=
    pieces_of_length_le (by decide) (by decide)
  have lines : configuration.grid.draw ["10"] 1 = [" -", "|10|", " -"] := by
    rw [Grid.draw, digit, row]
    decide
  have drawn : configuration.render [10] 1 = .ok [" -", "|10|", " -"] :=
    Configuration.render_eq_ok_iff.mpr
      (Grid.render_eq_ok_iff.mpr
        ⟨by decide, by decide, by decide, _, by decide, lines⟩)
  refine ⟨reached, ?_, by decide⟩
  rw [step_newChallenge reached (by decide)]
  change Except.ok (_ :: gridRemarks (configuration.render [10] 1)) = _
  rw [drawn]
  rfl

end Context

end SessionCapture
