import SessionCapture.Proofs.Alignment
import SessionCapture.Proofs.SingleRows

/-!
# What the entries of a secret stand for

An entry of a secret packs a key and a value into one word, the value in the
remainder by the value size.  All keys are checked before any label is looked up.
Unpacked, each entry fills one digit of a single visual row: its value, counted
from one, at its key, and the absent value at every other key.  These values run
up to the value size, so no label of a secret is wider than a cell, and a secret
that is drawn is a rectangle.
-/

namespace SessionCapture

namespace Configuration

variable {configuration : Configuration} {entries : List UInt16}
  {lines : List String}

/-- Cells in which every digit has the value of its entry, counted from one, at
the entry's key, and the absent value at every other key. -/
structure Expansion (configuration : Configuration)
    (entries cells : List UInt16) : Prop where
  length : cells.length = entries.length * configuration.keySize
  cell : ∀ (digit : Nat) (entry : UInt16), entries[digit]? = some entry →
    ∀ key < configuration.keySize, ∃ value,
      cells[digit * configuration.keySize + key]? = some value ∧
      value.toNat =
        if entry.toNat / configuration.layout.valSize.toNat = key then
          entry.toNat % configuration.layout.valSize.toNat + 1
        else 0

theorem expansion_secretCells (usable : configuration.Usable)
    (entries : List UInt16) :
    configuration.Expansion entries (configuration.secretCells entries) := by
  constructor
  case length => rw [length_secretCells, Nat.mul_comm]
  case cell =>
    intro digit entry here key inside
    have found := getElem?_secretCells entries digit inside
    rw [here, Option.map_some, Nat.mul_comm configuration.keySize] at found
    refine ⟨_, found, ?_⟩
    rw [UInt16.toNat_div]
    split
    · exact (toNat_secretValue usable entry).1
    · rfl

/-- No value of a secret is greater than the value size. -/
theorem Expansion.value_le {cells : List UInt16}
    (expansion : configuration.Expansion entries cells)
    (usable : configuration.Usable) {index : Nat} {value : UInt16}
    (found : cells[index]? = some value) :
    value ≤ configuration.layout.valSize := by
  have before := (List.getElem?_eq_some_iff.mp found).1
  have inside := Nat.mod_lt index usable.keySize_pos
  have among : index / configuration.keySize < entries.length := by
    rw [expansion.length, Nat.mul_comm] at before
    exact Nat.div_lt_of_lt_mul before
  obtain ⟨same, here, size⟩ := expansion.cell _ _
    (List.getElem?_eq_getElem among) _ inside
  rw [Nat.div_add_mod' index configuration.keySize, found] at here
  cases here
  apply UInt16.le_iff_toNat_le.mpr
  have below := Nat.mod_lt entries[index / configuration.keySize].toNat
    usable.valSize_pos
  rw [size]
  split
  · exact below
  · exact Nat.zero_le _

/-- No label of a secret is wider than a cell. -/
theorem length_le_of_secretCells (usable : configuration.Usable)
    {index : Nat} {label : String}
    (named : configuration.grid.labelAt? (configuration.secretCells entries)
      index = some label) :
    label.length ≤ configuration.grid.cellWidth := by
  obtain ⟨value, found, labelled⟩ := Option.bind_eq_some_iff.mp named
  exact Configuration.length_le_cellWidth
    (Nat.mod_lt index usable.keySize_pos)
    ((expansion_secretCells usable entries).value_le usable found) labelled

/-! ## Packing a key and a value -/

/-- The entry that stands for a value of a key. -/
def entryOf (configuration : Configuration) (pair : Nat × Nat) : UInt16 :=
  UInt16.ofNat (pair.1 * configuration.layout.valSize.toNat + pair.2)

/-- An entry is unpacked into what it was packed from. -/
theorem unpack_entryOf {pair : Nat × Nat}
    (value : pair.2 < configuration.layout.valSize.toNat)
    (word : pair.1 * configuration.layout.valSize.toNat + pair.2 ≤ 65535) :
    (configuration.entryOf pair).toNat / configuration.layout.valSize.toNat =
        pair.1 ∧
      (configuration.entryOf pair).toNat %
        configuration.layout.valSize.toNat = pair.2 := by
  have packed : (configuration.entryOf pair).toNat =
      configuration.layout.valSize.toNat * pair.1 + pair.2 := by
    rw [entryOf, UInt16.toNat_ofNat', Nat.mod_eq_of_lt (by omega),
      Nat.mul_comm]
  have positive := Nat.zero_lt_of_lt value
  rw [packed]
  constructor
  · rw [Nat.mul_add_div positive, Nat.div_eq_of_lt value, Nat.add_zero]
  · rw [Nat.mul_add_mod, Nat.mod_eq_of_lt value]

/-- An entry that packs a key of the layout is inside it. -/
theorem inside_entryOf {pair : Nat × Nat}
    (key : pair.1 < configuration.layout.keySize.toNat)
    (value : pair.2 < configuration.layout.valSize.toNat)
    (word : pair.1 * configuration.layout.valSize.toNat + pair.2 ≤ 65535) :
    configuration.entryOf pair / configuration.layout.valSize <
      configuration.layout.keySize := by
  rw [UInt16.lt_iff_toNat_lt, UInt16.toNat_div]
  exact (unpack_entryOf value word).1.trans_lt key

/-- A digit shows what was packed into its entry, counted from one. -/
theorem cell_of_packed (usable : configuration.Usable)
    {pairs : List (Nat × Nat)} {digit : Nat} {pair : Nat × Nat}
    (listed : pairs[digit]? = some pair)
    (value : pair.2 < configuration.layout.valSize.toNat)
    (word : pair.1 * configuration.layout.valSize.toNat + pair.2 ≤ 65535)
    {key : Nat} (inside : key < configuration.keySize) :
    ∃ value,
      (configuration.secretCells (pairs.map configuration.entryOf))[
        digit * configuration.keySize + key]? = some value ∧
      value.toNat = if pair.1 = key then pair.2 + 1 else 0 := by
  have here : (pairs.map configuration.entryOf)[digit]? =
      some (configuration.entryOf pair) := by
    rw [List.getElem?_map, listed]
    rfl
  obtain ⟨quotient, remainder⟩ := unpack_entryOf value word
  have expanded := (expansion_secretCells usable _).cell digit _ here key inside
  rw [quotient, remainder] at expanded
  exact expanded

/-! ## Drawing a secret -/

/-- The first entry with a key that the layout does not have is told. -/
theorem secretGrid_of_outside {position : Nat} {entry : UInt16}
    (here : entries[position]? = some entry)
    (outside : configuration.layout.keySize ≤
      entry / configuration.layout.valSize)
    (before : ∀ earlier < position, ∀ other, entries[earlier]? = some other →
      other / configuration.layout.valSize < configuration.layout.keySize) :
    configuration.secretGrid entries =
      .error (.secretKeyOutOfRange entry
        (entry / configuration.layout.valSize)
        configuration.layout.keySize) := by
  have failed : entries.mapM configuration.secretTuple =
      .error (.secretKeyOutOfRange entry
        (entry / configuration.layout.valSize)
        configuration.layout.keySize) := by
    apply mapM_eq_error_iff.mpr
    refine ⟨position, entry, here, if_pos outside, ?_⟩
    intro earlier smaller other there
    exact ⟨_, secretTuple_of_inside (before earlier smaller other there)⟩
  rw [secretGrid, failed]
  rfl

/-- A secret is drawn if the layout has all its keys and every cell a label. -/
theorem secretGrid_eq_ok_iff (usable : configuration.Usable)
    (nonempty : entries ≠ []) :
    configuration.secretGrid entries = .ok lines ↔
      (∀ entry ∈ entries, entry / configuration.layout.valSize <
        configuration.layout.keySize) ∧
      (∀ index < (configuration.secretCells entries).length,
        (configuration.grid.labelAt? (configuration.secretCells entries)
          index).isSome) ∧
      lines = configuration.grid.rowLines
        (configuration.grid.cellText (configuration.secretCells entries))
        entries.length := by
  have someDigits := List.length_pos_iff.mpr nonempty
  have someKeys := usable.keySize_pos
  have digits : (configuration.secretCells entries).length /
      configuration.grid.keySize = entries.length := by
    rw [length_secretCells]
    exact Nat.mul_div_cancel_left _ someKeys
  constructor
  · intro drawn
    have inside : ∀ entry ∈ entries, entry / configuration.layout.valSize <
        configuration.layout.keySize := by
      intro entry member
      cases outcome : entries.mapM configuration.secretTuple with
      | error advisory =>
          rw [secretGrid, outcome] at drawn
          cases drawn
      | ok tuples =>
          obtain ⟨tuple, passed⟩ :=
            exists_mapM_eq_ok_iff.mp ⟨tuples, outcome⟩ entry member
          by_contra outside
          have failed : configuration.secretTuple entry = .error _ :=
            if_pos (UInt16.not_lt.mp outside)
          cases failed.symm.trans passed
    rw [secretGrid_of_inside inside] at drawn
    obtain ⟨drawable, drawing⟩ := Grid.render_eq_ok_iff_drawing.mp
      (render_eq_ok_iff.mp drawn)
    exact ⟨inside, drawable.labelled, drawing.eq_rowLines digits someDigits⟩
  · rintro ⟨inside, labelled, rfl⟩
    rw [secretGrid_of_inside inside]
    apply render_eq_ok_iff.mpr
    exact Grid.render_eq_rowLines
      ⟨someDigits, someKeys, ⟨_, length_secretCells⟩, labelled⟩ digits

/-- The first cell without a label is told, by the name of its key. -/
theorem secretGrid_of_unlabelledCell (usable : configuration.Usable)
    (nonempty : entries ≠ [])
    (inside : ∀ entry ∈ entries, entry / configuration.layout.valSize <
      configuration.layout.keySize)
    {index : Nat} {value : UInt16}
    (found : (configuration.secretCells entries)[index]? = some value)
    (unlabelled : configuration.grid.labelAt?
      (configuration.secretCells entries) index = none)
    (first : ∀ earlier < index, (configuration.grid.labelAt?
      (configuration.secretCells entries) earlier).isSome) :
    ∃ column, configuration.vocabulary.columns[
        index % configuration.keySize]? = some column ∧
      configuration.secretGrid entries =
        .error (.grid (.valueOutOfRange column.key value)) := by
  have key : index % configuration.keySize < configuration.layout.keySize.toNat :=
    Nat.mod_lt index usable.keySize_pos
  obtain ⟨column, named, _⟩ := Vocabulary.column_of_covers usable.covers key
  refine ⟨column, named, ?_⟩
  have name : configuration.grid.vocabulary.keyName?
      (index % configuration.grid.keySize) = some column.key := by
    change (configuration.vocabulary.columns[
      index % configuration.keySize]?).map _ = _
    rw [named]
    rfl
  have refused : configuration.grid.Refused (configuration.secretCells entries)
      entries.length (.valueOutOfRange
        ((configuration.grid.vocabulary.keyName?
          (index % configuration.grid.keySize)).getD "?") value) :=
    .valueOutOfRange (List.length_pos_iff.mpr nonempty) usable.keySize_pos
      ⟨_, length_secretCells⟩ found unlabelled first
  rw [name] at refused
  rw [secretGrid_of_inside inside, render, Grid.render_of_refused refused]
  rfl

end Configuration

namespace Context

/-- A secret tells of its first entry with a key that the layout does not have,
whatever labels the entries before it lack.  Otherwise each entry is expanded
into one digit, and the digits are drawn as a single visual row, or the first
cell without a label is told.  Keys and values that are packed into entries come
out of the expansion as they went in. -/
theorem secret_expansion_exact {registry : Registry}
    {events : List EventInput} {configuration : Configuration}
    (reached : ((fresh registry).after events).state =
      .configured configuration) :
    let context := (fresh registry).after events
    let keySize := configuration.layout.keySize
    let valSize := configuration.layout.valSize
    let grid := configuration.grid
    (∀ flag entries, entries ≠ [] →
      let answer := (context.step .newSecret (flag :: entries)).1
      let validity := if holds flag then "Valid" else "Invalid"
      let heading := Remark.text s!"{validity} secret generated:"
      let cells := configuration.secretCells entries
      (∀ (position : Nat) (entry : UInt16), entries[position]? = some entry →
        keySize ≤ entry / valSize →
        (∀ earlier < position, ∀ other, entries[earlier]? = some other →
          other / valSize < keySize) →
        answer = .ok [heading,
          .note (.secretKeyOutOfRange entry (entry / valSize) keySize)]) ∧
      ((∀ entry ∈ entries, entry / valSize < keySize) →
        configuration.Expansion entries cells ∧
        ((∀ index < cells.length, (grid.labelAt? cells index).isSome) →
          answer = .ok (heading ::
            (grid.rowLines (grid.cellText cells) entries.length).map .text)) ∧
        ∀ (index : Nat) (value : UInt16), cells[index]? = some value →
          grid.labelAt? cells index = none →
          (∀ earlier < index, (grid.labelAt? cells earlier).isSome) →
          ∃ column, configuration.vocabulary.columns[
              index % keySize.toNat]? = some column ∧
            answer = .ok [heading,
              .note (.grid (.valueOutOfRange column.key value))])) ∧
    ∀ pairs : List (Nat × Nat),
      (∀ pair ∈ pairs, pair.1 < keySize.toNat ∧ pair.2 < valSize.toNat ∧
        pair.1 * valSize.toNat + pair.2 ≤ 65535) →
      let entries := pairs.map fun pair =>
        UInt16.ofNat (pair.1 * valSize.toNat + pair.2)
      let cells := configuration.secretCells entries
      (∀ entry ∈ entries, entry / valSize < keySize) ∧
      ∀ (digit : Nat) (pair : Nat × Nat), pairs[digit]? = some pair →
        ∀ key < keySize.toNat, ∃ value,
          cells[digit * keySize.toNat + key]? = some value ∧
          value.toNat = if pair.1 = key then pair.2 + 1 else 0 := by
  intro context keySize valSize grid
  have usable := usable_of_reached reached
  refine ⟨?expanded, ?packed⟩
  case expanded =>
    intro flag entries nonempty answer validity heading cells
    have told : answer =
        .ok (heading :: gridRemarks (configuration.secretGrid entries)) :=
      congrArg Prod.fst (step_newSecret reached flag entries)
    refine ⟨?outside, fun inside => ⟨?expansion, ?drawn, ?unlabelled⟩⟩
    case outside =>
      intro position entry here outside before
      rw [told, Configuration.secretGrid_of_outside here outside before]
      rfl
    case expansion =>
      exact Configuration.expansion_secretCells usable entries
    case drawn =>
      intro labelled
      have drawn := (Configuration.secretGrid_eq_ok_iff usable nonempty).mpr
        ⟨inside, labelled, rfl⟩
      rw [told, drawn]
      rfl
    case unlabelled =>
      intro index value found unlabelled first
      obtain ⟨column, named, failed⟩ :=
        Configuration.secretGrid_of_unlabelledCell usable nonempty inside found
          unlabelled first
      refine ⟨column, named, ?_⟩
      rw [told, failed]
      rfl
  case packed =>
    intro pairs bounds entries cells
    constructor
    · intro entry member
      obtain ⟨pair, listed, rfl⟩ := List.mem_map.mp member
      obtain ⟨key, value, word⟩ := bounds pair listed
      exact Configuration.inside_entryOf key value word
    · intro digit pair listed key inside
      obtain ⟨_, value, word⟩ := bounds pair (List.mem_of_getElem? listed)
      exact Configuration.cell_of_packed usable listed value word inside

/-- Figures of three keys with ten values, of which the greatest has no label. -/
def tenValues : ControlReset :=
  ⟨⟨3, 10, 1⟩, "grid", "random", ControlReset.defaultGeometry⟩

/-- A fourth key is told although the value before it has no label.  Alone, that
value is told, and a secret of a rectangle and a green background is drawn and
expanded. -/
theorem rectangle_and_green_expanded :
    let context := (fresh .builtin).after [(.controlReset, tenValues.payload)]
    let configuration : Configuration := .of tenValues.layout .grid
    (context.step .newSecret [1, 9, 30]).1 =
      .ok [.text "Valid secret generated:",
        .note (.secretKeyOutOfRange 30 3 3)] ∧
    (context.step .newSecret [0, 9]).1 =
      .ok [.text "Invalid secret generated:",
        .note (.grid (.valueOutOfRange "shape" 10))] ∧
    (context.step .newSecret [1, 1, 21]).1 =
      .ok [.text "Valid secret generated:",
        .text " ---------------", .text "|Hrect  |       |",
        .text "|       |       |", .text "|       |green  |",
        .text " ---------------"] ∧
    ∃ value, (configuration.secretCells [1, 21])[5]? = some value ∧
      value.toNat = 2 := by
  intro context configuration
  have reached : context.state = .configured (.of tenValues.layout .grid) := by
    decide
  obtain ⟨expanded, packed⟩ := secret_expansion_exact reached
  refine ⟨?outside, ?unlabelled, ?drawn, ?recovered⟩
  case outside =>
    have before : ∀ earlier < 1, ∀ other,
        ([9, 30] : List UInt16)[earlier]? = some other → other / 10 < 3 := by
      intro earlier smaller other here
      obtain rfl := Nat.lt_one_iff.mp smaller
      cases here
      decide
    exact (expanded 1 [9, 30] (by decide)).1 1 30 rfl (by decide) before
  case unlabelled =>
    have inside : ∀ entry ∈ ([9] : List UInt16), entry / 10 < 3 :=
      List.forall_mem_singleton.mpr (by decide)
    obtain ⟨column, named, told⟩ :=
      ((expanded 0 [9] (by decide)).2 inside).2.2 0 10 (by decide) (by decide)
        (by decide)
    cases named
    exact told
  case drawn =>
    have inside : ∀ entry ∈ ([1, 21] : List UInt16), entry / 10 < 3 :=
      List.forall_mem_cons.mpr
        ⟨by decide, List.forall_mem_singleton.mpr (by decide)⟩
    rw [((expanded 1 [1, 21] (by decide)).2 inside).2.1 (by decide)]
    decide
  case recovered =>
    exact (packed [(0, 1), (2, 1)] (by decide)).2 1 (2, 1) rfl 2 (by decide)

/-- No label of a secret is wider than a cell, the absent attribute's included.
The width of a cell is that of the layout and the vocabulary that the last reset
chose, so a secret that is drawn after it is a rectangle: its label lines are
exactly as wide as their row, and the rules stop one character before. -/
theorem drawn_secret_rectangular {registry : Registry}
    {events : List EventInput} {configuration : Configuration}
    (reached : ((fresh registry).after events).state =
      .configured configuration) :
    let context := (fresh registry).after events
    let grid := configuration.grid
    (∃ reset later vocabulary, lastReset? events = some (reset, later) ∧
      registry.covering? reset = some vocabulary ∧
      grid.cellWidth =
        vocabulary.cellWidth reset.layout.keySize reset.layout.valSize) ∧
    (∀ entries index label,
      grid.labelAt? (configuration.secretCells entries) index = some label →
        label.length ≤ grid.cellWidth) ∧
    ∀ flag entries remarks, entries ≠ [] →
      (context.step .newSecret (flag :: entries)).1 = .ok remarks →
      (∀ advisory, .note advisory ∉ remarks) →
      (∀ index < (configuration.secretCells entries).length,
        (grid.labelAt? (configuration.secretCells entries) index).isSome) ∧
      let validity := if holds flag then "Valid" else "Invalid"
      ∃ (rule : String) (labelLines : List String),
        remarks = .text s!"{validity} secret generated:" ::
          (rule :: labelLines ++ [rule]).map .text ∧
        rule.length + 1 = grid.rowWidth entries.length ∧
        labelLines.length = grid.keySize ∧
        ∀ line ∈ labelLines, line.length = grid.rowWidth entries.length := by
  intro context grid
  have usable := usable_of_reached reached
  refine ⟨?width, ?labels, ?rectangle⟩
  case width =>
    obtain ⟨reset, later, vocabulary, last, covering, rfl⟩ :=
      reset_of_reached reached
    exact ⟨reset, later, vocabulary, last, covering, rfl⟩
  case labels =>
    intro entries index label named
    exact Configuration.length_le_of_secretCells usable named
  case rectangle =>
    intro flag entries remarks nonempty outcome noNote
    rw [step_newSecret reached flag entries] at outcome
    cases outcome
    obtain ⟨lines, drawn⟩ := drawn_of_noNote ⟨_, rfl⟩ noNote
    obtain ⟨_, labelled, rfl⟩ :=
      (Configuration.secretGrid_eq_ok_iff usable nonempty).mp drawn
    refine ⟨labelled, " " ++ grid.rule entries.length,
      (List.range grid.keySize).map (Grid.rowLine
        (grid.cellText (configuration.secretCells entries)) entries.length),
      ?_, ?_, ?_, ?_⟩
    · rw [drawn]
      rfl
    · apply Grid.length_outerRule
      exact mt List.eq_nil_of_length_eq_zero nonempty
    · rw [List.length_map, List.length_range]
    · intro line member
      obtain ⟨key, _, rfl⟩ := List.mem_map.mp member
      apply Grid.length_rowLine
      intro digit _ label named
      exact Configuration.length_le_of_secretCells usable named

/-- The numeral ten is the value size of the last of two resets.  A secret that
shows it beside the numeral one is seven characters wide. -/
theorem ten_and_one_rectangular :
    let tens : ControlReset :=
      ⟨⟨1, 10, 1⟩, "grid-numeric", "random", ControlReset.defaultGeometry⟩
    let context := (fresh .builtin).after
      [(.controlReset, (numerals 1).payload), (.controlReset, tens.payload)]
    let lines := [" -----", "|10|1 |", " -----"]
    (context.step .newSecret [1, 9, 0]).1 =
      .ok (.text "Valid secret generated:" :: lines.map .text) ∧
    ∃ (rule : String) (labelLines : List String),
      lines = rule :: labelLines ++ [rule] ∧ rule.length + 1 = 7 ∧
      ∀ line ∈ labelLines, line.length = 7 := by
  intro tens context lines
  have reached :
      context.state = .configured (.of tens.layout .gridNumeric) := by
    decide
  have nonempty : ([9, 0] : List UInt16) ≠ [] := by decide
  have drawn : Configuration.secretGrid (.of tens.layout .gridNumeric) [9, 0] =
      .ok lines := by
    apply (Configuration.secretGrid_eq_ok_iff (usable_of_reached reached)
      nonempty).mpr
    refine ⟨?_, by decide, by decide⟩
    exact List.forall_mem_cons.mpr
      ⟨by decide, List.forall_mem_singleton.mpr (by decide)⟩
  have outcome : (context.step .newSecret [1, 9, 0]).1 =
      .ok (.text "Valid secret generated:" :: lines.map .text) := by
    rw [step_newSecret reached, drawn]
    rfl
  obtain ⟨_, rule, labelLines, shown, short, _, wide⟩ :=
    (drawn_secret_rectangular reached).2.2 1 [9, 0] _ nonempty outcome (by simp)
  refine ⟨outcome, rule, labelLines, ?_, short, wide⟩
  have texts := (List.cons.inj shown).2
  exact List.map_injective_iff.mpr (fun _ _ => Remark.text.inj) texts

end Context

end SessionCapture
