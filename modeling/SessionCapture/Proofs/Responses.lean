import SessionCapture.Proofs.Alignment
import SessionCapture.Proofs.SingleRows

/-!
# Responses show the digits of the challenge

A response names digits of the challenge by their numbers.  The challenge is kept
until another one is stored or a reset is read, whatever else happens in between.
If it could be drawn, so can every response to it, and each digit is drawn with
the texts that it has in the challenge.
-/

namespace SessionCapture

/-- The event neither states a reset nor a challenge that splits into tuples of
`size`. -/
def EventInput.KeepsChallenge (size : Nat) (event : EventInput) : Prop :=
  event.reset? = none ∧ event.challenge? size = none

/-- The cells of a digit among those of a challenge. -/
def digitCells (size : Nat) (cells : List UInt16) (digit : Nat) : List UInt16 :=
  (cells.drop (size * digit)).take size

/-- The cells of the digits that a response names. -/
def responseCells (size : Nat) (cells digits : List UInt16) : List UInt16 :=
  (digits.map fun digit => digitCells size cells digit.toNat).flatten

section Cells

variable {size key position : Nat} {cells digits : List UInt16} {digit : UInt16}

theorem mul_lt_length_iff (positive : 0 < size)
    (whole : cells.length % size = 0) {number : Nat} :
    size * number < cells.length ↔ number < cells.length / size := by
  have total : size * (cells.length / size) = cells.length :=
    Nat.mul_div_cancel' (Nat.dvd_of_mod_eq_zero whole)
  constructor
  · intro started
    rw [← total] at started
    exact Nat.lt_of_mul_lt_mul_left started
  · intro below
    rw [← total]
    exact (Nat.mul_lt_mul_left positive).mpr below

theorem getElem?_digitCells (inside : key < size) (number : Nat) :
    (digitCells size cells number)[key]? = cells[size * number + key]? := by
  rw [digitCells, List.getElem?_take_of_lt inside, List.getElem?_drop]

theorem length_digitCells (positive : 0 < size)
    (whole : cells.length % size = 0) {number : Nat}
    (held : number < cells.length / size) :
    (digitCells size cells number).length = size := by
  have started := (mul_lt_length_iff positive whole).mpr held
  have found : (pieces size cells)[number]? =
      some (digitCells size cells number) := by
    rw [getElem?_pieces (Nat.ne_of_gt positive), if_pos started]
    rfl
  exact length_of_mem_pieces whole _ (List.mem_of_getElem? found)

variable (positive : 0 < size) (whole : cells.length % size = 0)
  (held : ∀ digit ∈ digits, digit.toNat < cells.length / size)

include positive whole held

theorem length_of_mem_digitCells :
    ∀ tuple ∈ digits.map fun digit => digitCells size cells digit.toNat,
      tuple.length = size := by
  intro tuple member
  obtain ⟨digit, named, rfl⟩ := List.mem_map.mp member
  exact length_digitCells positive whole (held digit named)

theorem length_responseCells :
    (responseCells size cells digits).length = size * digits.length := by
  rw [responseCells, length_flatten_of_sized
    (length_of_mem_digitCells positive whole held), List.length_map]

/-- A response has the challenge's value for each key of a digit. -/
theorem getElem?_responseCells (named : digits[position]? = some digit)
    (inside : key < size) :
    (responseCells size cells digits)[size * position + key]? =
      cells[size * digit.toNat + key]? := by
  rw [responseCells, getElem?_flatten
    (length_of_mem_digitCells positive whole held) position inside,
    List.getElem?_map, named]
  exact getElem?_digitCells inside digit.toNat

end Cells

/-! ## Drawing a response -/

namespace Grid

variable {grid : Grid} {cells digits : List UInt16} {digit : UInt16}
  {position key columns : Nat}

section Labels

variable (someKeys : 0 < grid.keySize)
  (whole : cells.length % grid.keySize = 0)
  (held : ∀ digit ∈ digits, digit.toNat < cells.length / grid.keySize)

include someKeys whole held

theorem labelAt?_responseCells (named : digits[position]? = some digit)
    (inside : key < grid.keySize) :
    grid.labelAt? (responseCells grid.keySize cells digits)
        (position * grid.keySize + key) =
      grid.labelAt? cells (digit.toNat * grid.keySize + key) := by
  rw [labelAt?, labelAt?, Nat.mul_comm position, Nat.mul_comm digit.toNat,
    getElem?_responseCells someKeys whole held named inside, Nat.mul_add_mod,
    Nat.mul_add_mod]

theorem cellText_responseCells (named : digits[position]? = some digit)
    (inside : key < grid.keySize) :
    grid.cellText (responseCells grid.keySize cells digits) position key =
      grid.cellText cells digit.toNat key := by
  rw [cellText, cellText,
    labelAt?_responseCells someKeys whole held named inside]

end Labels

/-- If a challenge can be drawn, its digits can be drawn in any order and as
often as one likes. -/
theorem Drawable.responseCells (drawable : grid.Drawable cells columns)
    (held : ∀ digit ∈ digits, digit.toNat < cells.length / grid.keySize)
    (nonempty : digits ≠ []) :
    grid.Drawable (responseCells grid.keySize cells digits) digits.length := by
  have someKeys := drawable.someKeys
  have whole := Nat.mod_eq_zero_of_dvd drawable.whole
  have count := length_responseCells someKeys whole held
  refine ⟨List.length_pos_iff.mpr nonempty, someKeys, ⟨_, count⟩, ?_⟩
  intro index before
  have inside := Nat.mod_lt index someKeys
  have among : index / grid.keySize < digits.length := by
    rw [count] at before
    exact Nat.div_lt_of_lt_mul before
  have named := List.getElem?_eq_getElem among
  rw [← Nat.div_add_mod' index grid.keySize,
    labelAt?_responseCells someKeys whole held named inside]
  apply drawable.labelled
  have digitHeld := held _ (List.mem_of_getElem? named)
  have started := Nat.mul_le_mul_right grid.keySize digitHeld
  rw [Nat.div_mul_cancel drawable.whole, Nat.succ_mul] at started
  omega

theorem rowLines_congr {text other : Nat → Nat → String} {count : Nat}
    (same : ∀ digit < count, ∀ key < grid.keySize,
      text digit key = other digit key) :
    grid.rowLines text count = grid.rowLines other count := by
  have lines : (List.range grid.keySize).map (rowLine text count) =
      (List.range grid.keySize).map (rowLine other count) := by
    apply List.map_congr_left
    intro key inside
    rw [rowLine, rowLine]
    congr 2
    apply List.map_congr_left
    intro digit among
    exact same digit (List.mem_range.mp among) key (List.mem_range.mp inside)
  rw [rowLines, rowLines, lines]

theorem render_responseCells (drawable : grid.Drawable cells columns)
    (held : ∀ digit ∈ digits, digit.toNat < cells.length / grid.keySize)
    (nonempty : digits ≠ []) :
    grid.render (SessionCapture.responseCells grid.keySize cells digits)
        digits.length =
      .ok (grid.rowLines
        (fun position => grid.cellText cells (digits.getD position 0).toNat)
        digits.length) := by
  have someKeys := drawable.someKeys
  have whole := Nat.mod_eq_zero_of_dvd drawable.whole
  have count : (SessionCapture.responseCells grid.keySize cells digits).length /
      grid.keySize = digits.length := by
    rw [length_responseCells someKeys whole held,
      Nat.mul_div_cancel_left _ someKeys]
  rw [render_eq_rowLines (drawable.responseCells held nonempty) count]
  congr 1
  apply rowLines_congr
  intro position among key inside
  have named := List.getElem?_eq_getElem among
  rw [cellText_responseCells someKeys whole held named inside,
    List.getD_eq_getElem?_getD, named]
  rfl

end Grid

theorem gridRemarks_eq_texts_iff {drawn : Except Advisory (List String)}
    {lines : List String} :
    gridRemarks drawn = lines.map .text ↔ drawn = .ok lines := by
  constructor
  · intro same
    cases drawn with
    | ok found =>
        have texts : found.map Remark.text = lines.map .text := same
        rw [List.map_injective_iff.mpr (fun _ _ => Remark.text.inj) texts]
    | error advisory =>
        have note : Remark.note advisory ∈ lines.map .text := by
          rw [← same]
          exact List.mem_singleton_self _
        obtain ⟨_, _, impossible⟩ := List.mem_map.mp note
        cases impossible
  · rintro rfl
    rfl

namespace Context

section Configured

variable {context : Context} {configuration : Configuration}

/-- A configured context stays what it is until a reset or a challenge. -/
theorem after_of_keepsChallenge {events : List EventInput}
    (configured : context.state = .configured configuration)
    (kept : ∀ event ∈ events, event.KeepsChallenge configuration.keySize) :
    context.after events = context := by
  induction events with
  | nil => rfl
  | cons event later induction =>
      obtain ⟨⟨noReset, noChallenge⟩, rest⟩ := List.forall_mem_cons.mp kept
      have same : (context.step event.1 event.2).2 = context := by
        apply step_of_other noReset
        intro other known
        cases configured.symm.trans known
        exact noChallenge
      change (context.step event.1 event.2).2.after later = context
      rw [same]
      exact induction rest

/-- What a challenge stored is kept through events that are neither a reset nor
a challenge. -/
theorem after_newChallenge {cells : List UInt16} {between : List EventInput}
    (configured : context.state = .configured configuration)
    (whole : cells.length % configuration.keySize = 0)
    (kept : ∀ event ∈ between, event.KeepsChallenge configuration.keySize) :
    (context.step .newChallenge cells).2.after between =
      context.storeChallenge cells configuration.keySize := by
  have next : (context.step .newChallenge cells).2 =
      context.storeChallenge cells configuration.keySize :=
    congrArg Prod.snd (step_newChallenge configured whole)
  have still : (context.storeChallenge cells configuration.keySize).state =
      .configured configuration := configured
  rw [next]
  exact after_of_keepsChallenge still kept

theorem responseGrid_of_unresolved
    (configured : context.state = .configured configuration)
    {digits : List UInt16} {advisory : Advisory}
    (unresolved : digits.mapM context.resolveDigit = .error advisory) :
    context.responseGrid digits = .error advisory := by
  rw [responseGrid, configuration_of_configured configured]
  change (digits.mapM context.resolveDigit).bind _ = _
  rw [unresolved]
  rfl

end Configured

section Stored

variable {context : Context} {size : Nat} {cells digits : List UInt16}
  (positive : 0 < size) (whole : cells.length % size = 0)

include positive whole

theorem challengeDigit?_storeChallenge (digit : UInt16) :
    (context.storeChallenge cells size).challengeDigit? digit =
      if digit.toNat < cells.length / size then
        some (digitCells size cells digit.toNat)
      else
        none := by
  rw [challengeDigit?, storeChallenge, wholePieces_eq_pieces whole,
    List.getElem?_toArray, getElem?_pieces (Nat.ne_of_gt positive)]
  simp only [mul_lt_length_iff positive whole, digitCells]

theorem resolveDigits_of_held
    (held : ∀ digit ∈ digits, digit.toNat < cells.length / size) :
    digits.mapM (context.storeChallenge cells size).resolveDigit =
      .ok (digits.map fun digit => digitCells size cells digit.toNat) := by
  apply mapM_eq_ok_map
  intro digit named
  apply resolveDigit_eq_ok_iff.mpr
  rw [challengeDigit?_storeChallenge positive whole,
    if_pos (held digit named)]

/-- The first digit that the challenge does not have is told. -/
theorem resolveDigits_of_missing {position : Nat} {digit : UInt16}
    (named : digits[position]? = some digit)
    (missing : cells.length / size ≤ digit.toNat)
    (before : ∀ earlier < position, ∀ other, digits[earlier]? = some other →
      other.toNat < cells.length / size) :
    digits.mapM (context.storeChallenge cells size).resolveDigit =
      .error (.unresolvedDigit digit) := by
  apply mapM_eq_error_iff.mpr
  refine ⟨position, digit, named, ?_, ?_⟩
  · rw [resolveDigit, challengeDigit?_storeChallenge positive whole,
      if_neg (Nat.not_lt.mpr missing)]
  · intro earlier smaller other here
    refine ⟨digitCells size cells other.toNat, ?_⟩
    apply resolveDigit_eq_ok_iff.mpr
    rw [challengeDigit?_storeChallenge positive whole,
      if_pos (before earlier smaller other here)]

end Stored

theorem step_submit (context : Context) (flag : UInt16)
    (digits : List UInt16) :
    let verdict := if holds flag then "Correct" else "Incorrect"
    context.step .submit (flag :: digits) =
      (.ok (.text s!"{verdict} response submitted:" ::
        gridRemarks (context.responseGrid digits)), context) :=
  rfl

/-- After a challenge that splits into tuples, until another one is stored or a
reset is read, a response tells of its first digit that the challenge does not
have.  If it has them all and was drawn, the response is drawn as a single visual
row, in which each digit has the texts of its column and visual row in the
challenge. -/
theorem response_reproduces_challenge {registry : Registry}
    {events between : List EventInput} {configuration : Configuration}
    {cells digits : List UInt16}
    (reached : ((fresh registry).after events).state =
      .configured configuration)
    (whole : cells.length % configuration.keySize = 0)
    (kept : ∀ event ∈ between, event.KeepsChallenge configuration.keySize)
    (nonempty : digits ≠ []) (flag : UInt16) :
    let challenged := ((fresh registry).after events).step .newChallenge cells
    let context := challenged.2.after between
    let answer := (context.step .submit (flag :: digits)).1
    let verdict := if holds flag then "Correct" else "Incorrect"
    let heading := Remark.text s!"{verdict} response submitted:"
    let grid := configuration.grid
    let columns := configuration.layout.gridX.toNat
    let count := cells.length / grid.keySize
    let text := grid.cellText cells
    (∀ (position : Nat) (digit : UInt16), digits[position]? = some digit →
      count ≤ digit.toNat →
      (∀ earlier < position, ∀ other, digits[earlier]? = some other →
        other.toNat < count) →
      answer = .ok [heading, .note (.unresolvedDigit digit)]) ∧
    ((∀ digit ∈ digits, digit.toNat < count) →
      ∀ lines : List String,
        challenged.1 =
          .ok (.text "Valid challenge generated:" :: lines.map .text) →
        answer = .ok (heading ::
          (grid.rowLines (fun position => text (digits.getD position 0).toNat)
            digits.length).map .text) ∧
        ∀ digit ∈ digits, ∀ key < grid.keySize,
          let row := digit.toNat / columns
          let texts := Grid.textsOn text columns count row key
          lines[1 + row * (grid.keySize + 1) + key]? =
            some ("|" ++ String.join texts) ∧
          texts[digit.toNat % columns]? = some (text digit.toNat key)) := by
  intro challenged context answer verdict heading grid columns count text
  have positive : 0 < configuration.keySize :=
    (usable_of_reached reached).keySize_pos
  have stepped : challenged =
      (.ok (.text "Valid challenge generated:" ::
        gridRemarks (configuration.render cells columns)),
        ((fresh registry).after events).storeChallenge cells
          configuration.keySize) :=
    step_newChallenge reached whole
  have stored : context =
      ((fresh registry).after events).storeChallenge cells
        configuration.keySize :=
    after_newChallenge reached whole kept
  have configured : context.state = .configured configuration := by
    rw [stored]
    exact reached
  have told : answer =
      .ok (heading :: gridRemarks (context.responseGrid digits)) :=
    congrArg Prod.fst (step_submit context flag digits)
  refine ⟨?missing, ?drawn⟩
  case missing =>
    intro position digit named absent before
    have unresolved : digits.mapM context.resolveDigit =
        .error (.unresolvedDigit digit) := by
      rw [stored]
      exact resolveDigits_of_missing positive whole named absent before
    rw [told, responseGrid_of_unresolved configured unresolved]
    rfl
  case drawn =>
    intro held lines shown
    have rendered : configuration.render cells columns = .ok lines := by
      rw [stepped] at shown
      exact gridRemarks_eq_texts_iff.mp (List.cons.inj (Except.ok.inj shown)).2
    obtain ⟨drawable, drawing⟩ := Grid.render_eq_ok_iff_drawing.mp
      (Configuration.render_eq_ok_iff.mp rendered)
    constructor
    · have resolved : digits.mapM context.resolveDigit =
          .ok (digits.map fun digit =>
            digitCells configuration.keySize cells digit.toNat) := by
        rw [stored]
        exact resolveDigits_of_held positive whole held
      have response := Configuration.render_eq_ok_iff.mpr
        (Grid.render_responseCells drawable held nonempty)
      rw [told, responseGrid_of_resolved configured resolved]
      exact congrArg (fun drawn => Except.ok (heading :: gridRemarks drawn))
        response
    · intro digit named key inside
      have among := held digit named
      have line : digit.toNat / columns < Grid.visualRows columns count := by
        apply (Grid.lt_visualRows_iff drawable.someColumns).mpr
        exact Nat.lt_of_le_of_lt (Nat.mul_div_le _ columns) among
      exact ⟨drawing.getElem?_textsOn line inside,
        Grid.getElem?_textsOn drawable.someColumns among⟩

/-- Figures of a shape and a colour, two to a visual row. -/
def twoAcross : ControlReset :=
  ⟨⟨2, 9, 2⟩, "grid", "random", ControlReset.defaultGeometry⟩

/-- The brown square stands alone in the second visual row of a challenge, and
twice in the row of a response to it.  A challenge of half a figure and a secret
in between do not matter. -/
theorem brown_square_reproduced :
    let cells : List UInt16 := [2, 4, 3, 1, 9, 5]
    let challenged := ((fresh .builtin).after
      [(.controlReset, twoAcross.payload)]).step .newChallenge cells
    let context :=
      challenged.2.after [(.newChallenge, [7]), (.newSecret, [1, 3])]
    (context.step .submit [0, 0, 3, 1, 4]).1 =
      .ok [.text "Incorrect response submitted:", .note (.unresolvedDigit 3)] ∧
    (context.step .submit [1, 2, 0, 2]).1 =
      .ok [.text "Correct response submitted:",
        .text " -----------------------", .text "|square |Hrect  |square |",
        .text "|brown  |yellow |brown  |", .text " -----------------------"] ∧
    ∃ lines : List String,
      challenged.1 =
        .ok (.text "Valid challenge generated:" :: lines.map .text) ∧
      lines[4]? = some "|square |" ∧ lines[5]? = some "|brown  |" := by
  intro cells challenged context
  let configuration : Configuration := .of twoAcross.layout .grid
  have reached : ((fresh .builtin).after
      [(.controlReset, twoAcross.payload)]).state =
        .configured configuration := by
    decide
  have kept : ∀ event ∈ ([(.newChallenge, [7]), (.newSecret, [1, 3])] :
      List EventInput), event.KeepsChallenge configuration.keySize := by
    rintro event member
    rcases List.mem_cons.mp member with rfl | second
    · exact ⟨rfl, rfl⟩
    · cases List.mem_singleton.mp second
      exact ⟨rfl, rfl⟩
  have whole : cells.length % configuration.keySize = 0 := by decide
  have drawable : configuration.grid.Drawable cells 2 :=
    ⟨by decide, by decide, by decide, by decide⟩
  obtain ⟨lines, drawn⟩ := drawable.exists_render
  have shown : challenged.1 =
      .ok (.text "Valid challenge generated:" :: lines.map .text) := by
    have rendered := Configuration.render_eq_ok_iff.mpr drawn
    unfold challenged
    rw [step_newChallenge reached whole]
    exact congrArg (fun drawn => Except.ok (_ :: gridRemarks drawn)) rendered
  have fourDigits : ([0, 3, 1, 4] : List UInt16) ≠ [] := by decide
  have threeDigits : ([2, 0, 2] : List UInt16) ≠ [] := by decide
  obtain ⟨missing, _⟩ :=
    response_reproduces_challenge reached whole kept fourDigits 0
  obtain ⟨_, resolved⟩ :=
    response_reproduces_challenge reached whole kept threeDigits 1
  have held : ∀ digit ∈ ([2, 0, 2] : List UInt16),
      digit.toNat < cells.length / configuration.grid.keySize :=
    List.forall_mem_cons.mpr ⟨by decide, List.forall_mem_cons.mpr
      ⟨by decide, List.forall_mem_singleton.mpr (by decide)⟩⟩
  obtain ⟨answer, texts⟩ := resolved held lines shown
  have second (key : Nat) (inside : key < 2) : lines[4 + key]? =
      some ("|" ++ String.join
        (Grid.textsOn (configuration.grid.cellText cells)
          configuration.layout.gridX.toNat
          (cells.length / configuration.grid.keySize) 1 key)) := by
    have line := (texts 2 (by decide) key inside).1
    have row : UInt16.toNat 2 / configuration.layout.gridX.toNat = 1 := by
      decide
    have top : 1 + 1 * (configuration.grid.keySize + 1) = 4 := by decide
    rw [row, top] at line
    exact line
  refine ⟨?missing, ?response, lines, shown, ?shape, ?colour⟩
  case missing =>
    apply missing 1 3 rfl (by decide)
    intro earlier smaller other here
    obtain rfl := Nat.lt_one_iff.mp smaller
    cases here
    decide
  case response =>
    rw [answer]
    decide
  case shape =>
    rw [second 0 (by decide)]
    decide
  case colour =>
    rw [second 1 (by decide)]
    decide

end Context

end SessionCapture
