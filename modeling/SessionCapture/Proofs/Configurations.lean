import SessionCapture.Proofs.Grids
import SessionCapture.Proofs.History
import SessionCapture.Proofs.ResetGrammar

/-!
# What a configured layout can address

A reset that can be read states no size of zero, and a vocabulary configures a
context only if it covers the layout.  So all values below the value size have
labels.  A secret also uses the value size itself, as entries leave out the
absent attribute and values do not; a vocabulary that just covers a layout has
no label for it.
-/

namespace SessionCapture

/-! ## Labels that coverage provides -/

theorem mem_take_of_getElem? {α : Type} {items : List α} {item : α}
    {index count : Nat} (before : index < count)
    (found : items[index]? = some item) : item ∈ items.take count := by
  apply List.mem_of_getElem?
  rw [List.getElem?_take_of_lt before]
  exact found

namespace Vocabulary

variable {vocabulary : Vocabulary} {keySize valSize : UInt16} {key : Nat}

/-- A covering vocabulary has a column for each key, with at least as many
labels as there are values. -/
theorem column_of_covers (covered : vocabulary.covers keySize valSize)
    (inside : key < keySize.toNat) :
    ∃ column, vocabulary.columns[key]? = some column ∧
      valSize.toNat ≤ column.labels.length := by
  unfold covers at covered
  rw [Bool.and_eq_true, decide_eq_true_iff, List.all_eq_true] at covered
  obtain ⟨enough, tall⟩ := covered
  have present : key < vocabulary.columns.length :=
    Nat.lt_of_lt_of_le inside enough
  have found := List.getElem?_eq_getElem present
  refine ⟨vocabulary.columns[key], found, ?_⟩
  apply of_decide_eq_true
  apply tall
  exact mem_take_of_getElem? inside found

theorem label?_of_column {column : Column} {value : UInt16}
    (found : vocabulary.columns[key]? = some column) :
    vocabulary.label? key value = column.labels[value.toNat]? := by
  rw [label?, found]
  rfl

theorem isSome_label?_of_covers (covered : vocabulary.covers keySize valSize)
    (inside : key < keySize.toNat) {value : UInt16} (below : value < valSize) :
    (vocabulary.label? key value).isSome := by
  obtain ⟨column, found, tall⟩ := column_of_covers covered inside
  have within : value.toNat < column.labels.length :=
    Nat.lt_of_lt_of_le (UInt16.lt_iff_toNat_lt.mp below) tall
  rw [label?_of_column found, List.getElem?_eq_getElem within]
  rfl

/-- The value size itself has no label if the column just suffices. -/
theorem label?_valSize_eq_none_iff
    (covered : vocabulary.covers keySize valSize)
    (inside : key < keySize.toNat) :
    vocabulary.label? key valSize = none ↔
      ∃ column, vocabulary.columns[key]? = some column ∧
        column.labels.length = valSize.toNat := by
  obtain ⟨column, found, tall⟩ := column_of_covers covered inside
  rw [label?_of_column found, List.getElem?_eq_none_iff]
  constructor
  · intro short
    exact ⟨column, found, Nat.le_antisymm short tall⟩
  · rintro ⟨_, same, exactly⟩
    cases found.symm.trans same
    exact Nat.le_of_eq exactly

end Vocabulary

namespace Configuration

/-- What every configuration that events lead to satisfies. -/
structure Usable (configuration : Configuration) : Prop where
  covers : configuration.vocabulary.covers configuration.layout.keySize
    configuration.layout.valSize
  keySize_ne_zero : configuration.layout.keySize ≠ 0
  valSize_ne_zero : configuration.layout.valSize ≠ 0
  gridX_ne_zero : configuration.layout.gridX ≠ 0

theorem Usable.keySize_pos {configuration : Configuration}
    (usable : configuration.Usable) : 0 < configuration.keySize := by
  apply Nat.pos_of_ne_zero
  intro zero
  exact usable.keySize_ne_zero (UInt16.toNat_inj.mp zero)

theorem Usable.valSize_pos {configuration : Configuration}
    (usable : configuration.Usable) :
    0 < configuration.layout.valSize.toNat := by
  apply Nat.pos_of_ne_zero
  intro zero
  exact usable.valSize_ne_zero (UInt16.toNat_inj.mp zero)

end Configuration

theorem Context.usable_of_reached {registry : Registry}
    {events : List EventInput} {configuration : Configuration}
    (reached : ((Context.fresh registry).after events).state =
      .configured configuration) :
    configuration.Usable := by
  obtain ⟨reset, later, vocabulary, last, covering, rfl⟩ :=
    reset_of_reached reached
  obtain ⟨_, event, _, stated, _⟩ := lastReset?_eq_some_iff.mp last
  obtain ⟨payload, _, parsed⟩ := EventInput.reset?_eq_some_iff.mp stated
  have statable := (ControlReset.parse_eq_ok_iff.mp parsed).1
  exact ⟨(Option.filter_eq_some_iff.mp covering).2, statable.keySize,
    statable.valSize, statable.gridX⟩

/-! ## The cells of a secret -/

namespace Configuration

variable {configuration : Configuration} {entries : List UInt16}

/-- The tuple of an entry whose key the layout has. -/
def entryTuple (configuration : Configuration) (entry : UInt16) :
    List UInt16 :=
  (List.replicate configuration.keySize 0).set
    (entry / configuration.layout.valSize).toNat
    (entry % configuration.layout.valSize + 1)

theorem length_entryTuple (entry : UInt16) :
    (configuration.entryTuple entry).length = configuration.keySize := by
  rw [entryTuple, List.length_set, List.length_replicate]

theorem getElem?_entryTuple (entry : UInt16) {key : Nat}
    (inside : key < configuration.keySize) :
    (configuration.entryTuple entry)[key]? =
      some (if (entry / configuration.layout.valSize).toNat = key then
        entry % configuration.layout.valSize + 1 else 0) := by
  rw [entryTuple, List.getElem?_set, List.length_replicate,
    List.getElem?_replicate]
  split
  · next same => rw [same, if_pos inside]
  · rfl

theorem secretTuple_of_inside {entry : UInt16}
    (inside : entry / configuration.layout.valSize <
      configuration.layout.keySize) :
    configuration.secretTuple entry = .ok (configuration.entryTuple entry) := by
  unfold secretTuple
  exact if_neg (UInt16.not_le.mpr inside)

theorem length_of_mem_secretTuples :
    ∀ tuple ∈ entries.map configuration.entryTuple,
      tuple.length = configuration.keySize := by
  intro tuple member
  obtain ⟨entry, _, rfl⟩ := List.mem_map.mp member
  exact length_entryTuple entry

/-- The cells of a secret whose entries all have keys of the layout. -/
def secretCells (configuration : Configuration) (entries : List UInt16) :
    List UInt16 :=
  (entries.map configuration.entryTuple).flatten

theorem length_secretCells :
    (configuration.secretCells entries).length =
      configuration.keySize * entries.length := by
  rw [secretCells, length_flatten_of_sized length_of_mem_secretTuples,
    List.length_map]

theorem secretGrid_of_inside
    (inside : ∀ entry ∈ entries, entry / configuration.layout.valSize <
      configuration.layout.keySize) :
    configuration.secretGrid entries =
      configuration.render (configuration.secretCells entries)
        entries.length := by
  have tuples : entries.mapM configuration.secretTuple =
      .ok (entries.map configuration.entryTuple) := by
    apply mapM_eq_ok_map
    intro entry member
    exact secretTuple_of_inside (inside entry member)
  rw [secretGrid, tuples]
  rfl

/-- Every entry fills one digit of the secret's cells. -/
theorem getElem?_secretCells (entries : List UInt16) (digit : Nat)
    {key : Nat} (inside : key < configuration.keySize) :
    (configuration.secretCells entries)[
        configuration.keySize * digit + key]? =
      entries[digit]?.map fun entry =>
        if (entry / configuration.layout.valSize).toNat = key then
          entry % configuration.layout.valSize + 1 else 0 := by
  rw [secretCells, getElem?_flatten length_of_mem_secretTuples digit inside,
    List.getElem?_map, Option.bind_map, Option.map_eq_bind]
  congr 1
  funext entry
  exact getElem?_entryTuple entry inside

/-- A value that a secret shows runs from one to the value size. -/
theorem toNat_secretValue (usable : configuration.Usable) (entry : UInt16) :
    (entry % configuration.layout.valSize + 1).toNat =
      entry.toNat % configuration.layout.valSize.toNat + 1 ∧
    entry.toNat % configuration.layout.valSize.toNat <
      configuration.layout.valSize.toNat := by
  have below := Nat.mod_lt entry.toNat usable.valSize_pos
  have bound := configuration.layout.valSize.toNat_lt
  refine ⟨?_, below⟩
  rw [UInt16.toNat_add, UInt16.toNat_mod, UInt16.toNat_one]
  omega

/-- An entry that stands for the value size of a key which has no label for
it. -/
def Unlabelled (configuration : Configuration) (entry : UInt16) : Prop :=
  let valSize := configuration.layout.valSize
  entry % valSize + 1 = valSize ∧
    configuration.vocabulary.label? (entry / valSize).toNat valSize = none

/-- A cell of a secret has no label only if it shows an unlabelled entry. -/
theorem unlabelled_of_secretCells (usable : configuration.Usable)
    {index : Nat} {value : UInt16}
    (found : (configuration.secretCells entries)[index]? = some value)
    (unlabelled : configuration.vocabulary.label?
      (index % configuration.keySize) value = none) :
    value = configuration.layout.valSize ∧
      ∃ entry ∈ entries, configuration.Unlabelled entry := by
  have inside : index % configuration.keySize < configuration.keySize :=
    Nat.mod_lt index usable.keySize_pos
  have labelled (below : value < configuration.layout.valSize) : False := by
    have label := Vocabulary.isSome_label?_of_covers usable.covers inside below
    rw [unlabelled] at label
    cases label
  rw [← Nat.div_add_mod index configuration.keySize,
    getElem?_secretCells entries _ inside] at found
  obtain ⟨entry, here, same⟩ := Option.map_eq_some_iff.mp found
  obtain ⟨shifted, below⟩ := toNat_secretValue usable entry
  split at same
  · next key =>
      have greatest : value = configuration.layout.valSize := by
        apply UInt16.toNat_inj.mp
        by_contra different
        apply labelled
        rw [UInt16.lt_iff_toNat_lt]
        rw [same] at shifted
        omega
      rw [greatest] at same unlabelled
      refine ⟨greatest, entry, List.mem_of_getElem? here, same, ?_⟩
      rw [key]
      exact unlabelled
  · exfalso
    apply labelled
    rw [← same, UInt16.lt_iff_toNat_lt]
    exact Nat.lt_of_le_of_lt (Nat.zero_le _) below

/-- A secret whose keys the layout has is drawn if its cells have labels. -/
theorem secretGrid_eq_draw (usable : configuration.Usable)
    (nonempty : entries ≠ [])
    (inside : ∀ entry ∈ entries, entry / configuration.layout.valSize <
      configuration.layout.keySize) :
    configuration.secretGrid entries =
      ((configuration.grid.labels (configuration.secretCells entries)).map
        fun labels =>
          configuration.grid.draw labels entries.length).mapError .grid := by
  have someColumns : entries.length ≠ 0 := by
    intro zero
    exact nonempty (List.eq_nil_of_length_eq_zero zero)
  have someKeys : configuration.grid.keySize ≠ 0 :=
    Nat.ne_of_gt usable.keySize_pos
  have whole : (configuration.secretCells entries).length %
      configuration.grid.keySize = 0 := by
    rw [length_secretCells]
    exact Nat.mul_mod_right _ _
  rw [secretGrid_of_inside inside, render,
    Grid.render_of_whole someColumns someKeys whole]

/-- A secret that cannot be drawn shows the value size. -/
theorem valueOutOfRange_of_secretGrid (usable : configuration.Usable)
    (nonempty : entries ≠ [])
    (inside : ∀ entry ∈ entries, entry / configuration.layout.valSize <
      configuration.layout.keySize)
    {advisory : Advisory}
    (failure : configuration.secretGrid entries = .error advisory) :
    (∃ key, advisory =
        .grid (.valueOutOfRange key configuration.layout.valSize)) ∧
      ∃ entry ∈ entries, configuration.Unlabelled entry := by
  rw [secretGrid_eq_draw usable nonempty inside] at failure
  cases labelled : configuration.grid.labels
      (configuration.secretCells entries) with
  | ok labels =>
      rw [labelled] at failure
      cases failure
  | error error =>
      rw [labelled] at failure
      cases failure
      obtain ⟨index, value, key, found, unlabelled, rfl⟩ :=
        Grid.labels_eq_error labelled
      obtain ⟨rfl, missing⟩ :=
        unlabelled_of_secretCells usable found unlabelled
      exact ⟨⟨key, rfl⟩, missing⟩

/-- A secret with an unlabelled entry cannot be drawn. -/
theorem secretGrid_of_unlabelled (usable : configuration.Usable)
    (inside : ∀ entry ∈ entries, entry / configuration.layout.valSize <
      configuration.layout.keySize)
    {entry : UInt16} (member : entry ∈ entries)
    (overrun : configuration.Unlabelled entry) :
    ∃ advisory, configuration.secretGrid entries = .error advisory := by
  rw [secretGrid_eq_draw usable (List.ne_nil_of_mem member) inside]
  cases labelled : configuration.grid.labels
      (configuration.secretCells entries) with
  | error error => exact ⟨.grid error, rfl⟩
  | ok labels =>
      exfalso
      obtain ⟨greatest, unlabelled⟩ := overrun
      obtain ⟨digit, here⟩ := List.mem_iff_getElem?.mp member
      have key : (entry / configuration.layout.valSize).toNat <
          configuration.keySize :=
        UInt16.lt_iff_toNat_lt.mp (inside entry member)
      have found := getElem?_secretCells entries digit key
      rw [here, Option.map_some, if_pos rfl, greatest] at found
      obtain ⟨label, _, named⟩ := Grid.getElem?_labels labelled found
      change configuration.vocabulary.label?
        ((configuration.keySize * digit + _) % configuration.keySize) _ = _
        at named
      rw [Nat.mul_add_mod, Nat.mod_eq_of_lt key, unlabelled] at named
      cases named

end Configuration

theorem note_mem_iff {heading : String} {drawn : Except Advisory (List String)}
    {advisory : Advisory} :
    .note advisory ∈ Remark.text heading :: gridRemarks drawn ↔
      drawn = .error advisory := by
  cases drawn with
  | ok lines => simp [gridRemarks]
  | error found => simp [gridRemarks, eq_comm]

/-! ## Secrets of a configured interpreter -/

namespace Context

theorem step_newSecret {context : Context} {configuration : Configuration}
    (configured : context.state = .configured configuration) (flag : UInt16)
    (entries : List UInt16) :
    let validity := if holds flag then "Valid" else "Invalid"
    context.step .newSecret (flag :: entries) =
      (.ok (.text s!"{validity} secret generated:" ::
        gridRemarks (configuration.secretGrid entries)), context) := by
  intro validity
  have known := configuration_of_configured configured
  have same : context.secretGrid entries =
      configuration.secretGrid entries := by
    rw [Context.secretGrid, known]
    rfl
  rw [← same]
  rfl

/-- Every value of a configured layout below its value size has a label.  The
value size itself has none where the column is just tall enough, and a secret
whose keys the layout has is drawn unless an entry stands for that. -/
theorem configured_layout_addressable {registry : Registry}
    {events : List EventInput} {configuration : Configuration}
    (reached : ((fresh registry).after events).state =
      .configured configuration) :
    let context := (fresh registry).after events
    let layout := configuration.layout
    let vocabulary := configuration.vocabulary
    (∀ key < layout.keySize.toNat,
      (∀ value < layout.valSize, (vocabulary.label? key value).isSome) ∧
      (vocabulary.label? key layout.valSize = none ↔
        ∃ column, vocabulary.columns[key]? = some column ∧
          column.labels.length = layout.valSize.toNat)) ∧
    ∀ flag entries, entries ≠ [] →
      (∀ entry ∈ entries, entry / layout.valSize < layout.keySize) →
      ∃ remarks,
        context.step .newSecret (flag :: entries) = (.ok remarks, context) ∧
        (∀ advisory, .note advisory ∈ remarks →
          ∃ key, advisory = .grid (.valueOutOfRange key layout.valSize)) ∧
        ((∃ advisory, .note advisory ∈ remarks) ↔
          ∃ entry ∈ entries, configuration.Unlabelled entry) := by
  intro context layout vocabulary
  have usable := usable_of_reached reached
  refine ⟨?labels, ?secrets⟩
  case labels =>
    intro key inside
    constructor
    · intro value below
      exact Vocabulary.isSome_label?_of_covers usable.covers inside below
    · exact Vocabulary.label?_valSize_eq_none_iff usable.covers inside
  case secrets =>
    intro flag entries nonempty inside
    refine ⟨_, step_newSecret reached flag entries, ?_, ?_⟩
    · intro advisory member
      exact (Configuration.valueOutOfRange_of_secretGrid usable nonempty
        inside (note_mem_iff.mp member)).1
    · constructor
      · rintro ⟨advisory, member⟩
        exact (Configuration.valueOutOfRange_of_secretGrid usable nonempty
          inside (note_mem_iff.mp member)).2
      · rintro ⟨entry, member, unlabelled⟩
        obtain ⟨advisory, failure⟩ :=
          Configuration.secretGrid_of_unlabelled usable inside member
            unlabelled
        exact ⟨advisory, note_mem_iff.mpr failure⟩

/-- With ten labels and a value size of ten, the values up to nine have labels.
-/
theorem nine_of_ten_addressable :
    let reset : ControlReset :=
      ⟨⟨1, 10, 1⟩, "grid", "random", ControlReset.defaultGeometry⟩
    let context :=
      (fresh .builtin).after [(.controlReset, reset.payload)]
    context.state = .configured (.of reset.layout .grid) ∧
    (Vocabulary.grid.label? 0 9).isSome ∧
    ∃ remarks,
      context.step .newSecret [1, 8] = (.ok remarks, context) ∧
      ∀ advisory, .note advisory ∉ remarks := by
  intro reset context
  have reached : context.state = .configured (.of reset.layout .grid) := by
    decide
  obtain ⟨labels, secrets⟩ := configured_layout_addressable reached
  refine ⟨reached, (labels 0 (by decide)).1 9 (by decide), ?_⟩
  have inside : ∀ entry ∈ ([8] : List UInt16), entry / 10 < 1 := by
    intro entry listed
    cases List.mem_singleton.mp listed
    decide
  obtain ⟨remarks, outcome, _, noted⟩ := secrets 1 [8] (by decide) inside
  refine ⟨remarks, outcome, ?_⟩
  intro advisory member
  obtain ⟨entry, listed, greatest, _⟩ := noted.mp ⟨advisory, member⟩
  cases List.mem_singleton.mp listed
  revert greatest
  decide

/-- A configured interpreter may have no label for the value size: ten labels
cover ten values, and with the absent one there are eleven. -/
theorem configured_layout_not_addressable :
    let reset : ControlReset :=
      ⟨⟨1, 10, 1⟩, "grid", "random", ControlReset.defaultGeometry⟩
    let context :=
      (fresh .builtin).after [(.controlReset, reset.payload)]
    context.state = .configured (.of reset.layout .grid) ∧
    Vocabulary.grid.label? 0 reset.layout.valSize = none ∧
    context.step .newSecret [1, 9] =
      (.ok [.text "Valid secret generated:",
        .note (.grid (.valueOutOfRange "shape" 10))], context) := by
  decide

end Context

end SessionCapture
