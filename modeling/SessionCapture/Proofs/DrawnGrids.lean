import Mathlib.Data.List.Intervals
import Mathlib.Data.List.Nodup
import SessionCapture.Proofs.Grids

/-!
# What a drawn grid consists of

A grid is drawn if its cells split into digits and every cell has a label, and a
refusal tells which of this fails first.  What is drawn is settled to the last
character: the rules, and in the label line of each key the digits of the visual
row from left to right.  The label lines share out the cells among them, so none
is left out and none is shown twice.
-/

namespace SessionCapture.Grid

variable {grid : Grid} {cells : List UInt16} {labels lines : List String}
  {columns digits row key index : Nat}

/-! ## Which grids are drawn -/

/-- The label of the cell at an index, if there is such a cell and it has
one. -/
def labelAt? (grid : Grid) (cells : List UInt16) (index : Nat) :
    Option String :=
  cells[index]?.bind (grid.vocabulary.label? (index % grid.keySize))

structure Drawable (grid : Grid) (cells : List UInt16) (columns : Nat) :
    Prop where
  someColumns : 1 ≤ columns
  someKeys : 1 ≤ grid.keySize
  whole : grid.keySize ∣ cells.length
  labelled : ∀ index < cells.length, (grid.labelAt? cells index).isSome

/-- Why a grid is not drawn: the first of the conditions that fails, and the
first of the cells without a label. -/
inductive Refused (grid : Grid) (cells : List UInt16) :
    Nat → GridError → Prop where
  | noColumns : Refused grid cells 0 .noColumns
  | ragged {columns : Nat} (someColumns : 1 ≤ columns)
      (uneven : grid.keySize = 0 ∨ ¬grid.keySize ∣ cells.length) :
      Refused grid cells columns (.ragged cells.length grid.keySize)
  | valueOutOfRange {columns index : Nat} {value : UInt16}
      (someColumns : 1 ≤ columns) (someKeys : 1 ≤ grid.keySize)
      (whole : grid.keySize ∣ cells.length)
      (found : cells[index]? = some value)
      (unlabelled : grid.labelAt? cells index = none)
      (first : ∀ earlier < index, (grid.labelAt? cells earlier).isSome) :
      Refused grid cells columns
        (.valueOutOfRange
          ((grid.vocabulary.keyName? (index % grid.keySize)).getD "?") value)

theorem labelAt?_of_getElem? {value : UInt16}
    (found : cells[index]? = some value) :
    grid.labelAt? cells index =
      grid.vocabulary.label? (index % grid.keySize) value := by
  rw [labelAt?, found]
  rfl

theorem isSome_labelAt?_iff {value : UInt16}
    (found : cells[index]? = some value) :
    (grid.labelAt? cells index).isSome ↔
      ∃ label, grid.cellLabel value index = .ok label := by
  rw [labelAt?_of_getElem? found, Option.isSome_iff_exists]
  apply exists_congr
  intro label
  exact cellLabel_eq_ok_iff.symm

theorem getElem?_zipIdx_eq_some_iff {α : Type} {items : List α}
    {entry : α × Nat} :
    items.zipIdx[index]? = some entry ↔
      items[index]? = some entry.1 ∧ entry.2 = index := by
  rw [List.getElem?_zipIdx, Nat.zero_add, Option.map_eq_some_iff]
  constructor
  · rintro ⟨item, found, rfl⟩
    exact ⟨found, rfl⟩
  · rintro ⟨found, rfl⟩
    exact ⟨entry.1, found, rfl⟩

theorem exists_labels_iff :
    (∃ labels, grid.labels cells = .ok labels) ↔
      ∀ index < cells.length, (grid.labelAt? cells index).isSome := by
  rw [Grid.labels, exists_mapM_eq_ok_iff]
  constructor
  · intro labelled index inside
    have found := List.getElem?_eq_getElem inside
    apply (isSome_labelAt?_iff found).mpr
    exact labelled _ (List.mk_mem_zipIdx_iff_getElem?.mpr found)
  · rintro labelled ⟨value, index⟩ member
    have found := List.mk_mem_zipIdx_iff_getElem?.mp member
    have inside := (List.getElem?_eq_some_iff.mp found).1
    exact (isSome_labelAt?_iff found).mp (labelled index inside)

/-- Labels are refused for the first cell without one. -/
theorem labels_eq_error_iff {error : GridError} :
    grid.labels cells = .error error ↔
      ∃ index value, cells[index]? = some value ∧
        grid.labelAt? cells index = none ∧
        (∀ earlier < index, (grid.labelAt? cells earlier).isSome) ∧
        error = .valueOutOfRange
          ((grid.vocabulary.keyName? (index % grid.keySize)).getD "?")
          value := by
  rw [Grid.labels, mapM_eq_error_iff]
  constructor
  · rintro ⟨index, ⟨value, _⟩, numbered, failed, before⟩
    obtain ⟨found, rfl⟩ := getElem?_zipIdx_eq_some_iff.mp numbered
    obtain ⟨unlabelled, same⟩ := cellLabel_eq_error_iff.mp failed
    refine ⟨_, value, found, ?_, ?_, same⟩
    · rw [labelAt?_of_getElem? found]
      exact unlabelled
    · intro earlier smaller
      have inside := (List.getElem?_eq_some_iff.mp found).1
      have here := List.getElem?_eq_getElem (Nat.lt_trans smaller inside)
      apply (isSome_labelAt?_iff here).mpr
      exact before earlier smaller ⟨_, earlier⟩
        (getElem?_zipIdx_eq_some_iff.mpr ⟨here, rfl⟩)
  · rintro ⟨index, value, found, unlabelled, first, rfl⟩
    rw [labelAt?_of_getElem? found] at unlabelled
    refine ⟨index, ⟨value, index⟩,
      getElem?_zipIdx_eq_some_iff.mpr ⟨found, rfl⟩,
      cellLabel_eq_error_iff.mpr ⟨unlabelled, rfl⟩, ?_⟩
    rintro earlier smaller ⟨other, _⟩ numbered
    obtain ⟨here, rfl⟩ := getElem?_zipIdx_eq_some_iff.mp numbered
    exact (isSome_labelAt?_iff here).mp (first _ smaller)

theorem render_eq_ok_iff_drawable :
    grid.render cells columns = .ok lines ↔
      grid.Drawable cells columns ∧
        ∃ labels, grid.labels cells = .ok labels ∧
          grid.draw labels columns = lines := by
  rw [render_eq_ok_iff]
  constructor
  · rintro ⟨someColumns, someKeys, whole, labels, labelled, drawn⟩
    exact ⟨⟨Nat.pos_of_ne_zero someColumns, Nat.pos_of_ne_zero someKeys,
      Nat.dvd_of_mod_eq_zero whole, exists_labels_iff.mp ⟨labels, labelled⟩⟩,
      labels, labelled, drawn⟩
  · rintro ⟨drawable, drawn⟩
    exact ⟨Nat.ne_of_gt drawable.someColumns, Nat.ne_of_gt drawable.someKeys,
      Nat.mod_eq_zero_of_dvd drawable.whole, drawn⟩

theorem render_of_refused {error : GridError}
    (refused : grid.Refused cells columns error) :
    grid.render cells columns = .error error := by
  cases refused with
  | noColumns => rfl
  | ragged someColumns uneven =>
      rw [Nat.dvd_iff_mod_eq_zero] at uneven
      rw [render, if_neg (Nat.ne_of_gt someColumns), if_pos uneven]
  | valueOutOfRange someColumns someKeys whole found unlabelled first =>
      have failed := labels_eq_error_iff.mpr
        ⟨_, _, found, unlabelled, first, rfl⟩
      rw [render_of_whole (Nat.ne_of_gt someColumns) (Nat.ne_of_gt someKeys)
        (Nat.mod_eq_zero_of_dvd whole), failed]
      rfl

/-- A grid that is not drawable is refused. -/
theorem drawable_or_refused (grid : Grid) (cells : List UInt16)
    (columns : Nat) :
    grid.Drawable cells columns ∨ ∃ error, grid.Refused cells columns error := by
  by_cases noColumns : columns = 0
  · subst noColumns
    exact .inr ⟨_, .noColumns⟩
  have someColumns : 1 ≤ columns := Nat.pos_of_ne_zero noColumns
  by_cases uneven : grid.keySize = 0 ∨ ¬grid.keySize ∣ cells.length
  · exact .inr ⟨_, .ragged someColumns uneven⟩
  rw [not_or, Decidable.not_not] at uneven
  have someKeys : 1 ≤ grid.keySize := Nat.pos_of_ne_zero uneven.1
  cases outcome : grid.labels cells with
  | ok labels =>
      exact .inl ⟨someColumns, someKeys, uneven.2,
        exists_labels_iff.mp ⟨labels, outcome⟩⟩
  | error error =>
      obtain ⟨index, value, found, unlabelled, first, rfl⟩ :=
        labels_eq_error_iff.mp outcome
      exact .inr ⟨_, .valueOutOfRange someColumns someKeys uneven.2 found
        unlabelled first⟩

theorem Drawable.exists_render (drawable : grid.Drawable cells columns) :
    ∃ lines, grid.render cells columns = .ok lines := by
  obtain ⟨labels, labelled⟩ := exists_labels_iff.mpr drawable.labelled
  exact ⟨_, render_eq_ok_iff_drawable.mpr ⟨drawable, labels, labelled, rfl⟩⟩

theorem render_eq_error_iff {error : GridError} :
    grid.render cells columns = .error error ↔
      grid.Refused cells columns error := by
  constructor
  · intro failed
    rcases drawable_or_refused grid cells columns with
      drawable | ⟨found, refused⟩
    · obtain ⟨lines, drawn⟩ := drawable.exists_render
      cases failed.symm.trans drawn
    · cases failed.symm.trans (render_of_refused refused)
      exact refused
  · exact render_of_refused

/-! ## Which cells a line shows -/

/-- So many rows of so many columns hold all digits. -/
def visualRows (columns digits : Nat) : Nat :=
  (digits + columns - 1) / columns

/-- The indexes of the cells on the label line of a key in a visual row, from
left to right. -/
def cellsOn (grid : Grid) (columns digits row key : Nat) : List Nat :=
  (List.Ico (row * columns) (min ((row + 1) * columns) digits)).map
    fun digit => digit * grid.keySize + key

/-- The indexes of the cells on all label lines, from top to bottom. -/
def cellsDrawn (grid : Grid) (columns digits : Nat) : List Nat :=
  (List.range (visualRows columns digits)).flatMap fun row =>
    (List.range grid.keySize).flatMap (grid.cellsOn columns digits row)

theorem lt_visualRows_iff (someColumns : 1 ≤ columns) :
    row < visualRows columns digits ↔ columns * row < digits := by
  rw [visualRows, ← Nat.succ_le_iff, Nat.le_div_iff_mul_le someColumns,
    Nat.succ_mul, Nat.mul_comm columns row]
  omega

theorem mem_cellsOn_iff (someColumns : 1 ≤ columns)
    (inside : key < grid.keySize) :
    index ∈ grid.cellsOn columns digits row key ↔
      index / grid.keySize < digits ∧ index / grid.keySize / columns = row ∧
        index % grid.keySize = key := by
  have someKeys : 0 < grid.keySize := Nat.zero_lt_of_lt inside
  rw [cellsOn, List.mem_map]
  constructor
  · rintro ⟨digit, member, rfl⟩
    obtain ⟨least, most⟩ := List.Ico.mem.mp member
    have quotient : (digit * grid.keySize + key) / grid.keySize = digit := by
      rw [Nat.mul_comm, Nat.mul_add_div someKeys, Nat.div_eq_of_lt inside,
        Nat.add_zero]
    rw [quotient]
    refine ⟨Nat.lt_of_lt_of_le most (Nat.min_le_right _ _), ?_, ?_⟩
    · exact Nat.div_eq_of_lt_le least
        (Nat.lt_of_lt_of_le most (Nat.min_le_left _ _))
    · rw [Nat.mul_comm, Nat.mul_add_mod, Nat.mod_eq_of_lt inside]
  · rintro ⟨held, rfl, rfl⟩
    refine ⟨index / grid.keySize, List.Ico.mem.mpr ⟨?_, ?_⟩, ?_⟩
    · exact Nat.div_mul_le_self _ columns
    · apply Nat.lt_min.mpr ⟨_, held⟩
      exact (Nat.div_lt_iff_lt_mul someColumns).mp (Nat.lt_succ_self _)
    · exact Nat.div_add_mod' index grid.keySize

theorem nodup_cellsOn (someKeys : 1 ≤ grid.keySize) :
    (grid.cellsOn columns digits row key).Nodup := by
  apply List.Nodup.map _ (List.Ico.nodup _ _)
  intro digit other same
  exact Nat.eq_of_mul_eq_mul_right someKeys (Nat.add_right_cancel same)

theorem mem_cellsDrawn_iff (someColumns : 1 ≤ columns)
    (someKeys : 1 ≤ grid.keySize) :
    index ∈ grid.cellsDrawn columns digits ↔
      index / grid.keySize < digits := by
  simp only [cellsDrawn, List.mem_flatMap, List.mem_range]
  constructor
  · rintro ⟨row, _, key, inside, member⟩
    exact ((mem_cellsOn_iff someColumns inside).mp member).1
  · intro held
    have inside : index % grid.keySize < grid.keySize :=
      Nat.mod_lt index someKeys
    refine ⟨index / grid.keySize / columns, ?_, index % grid.keySize, inside,
      (mem_cellsOn_iff someColumns inside).mpr ⟨held, rfl, rfl⟩⟩
    apply (lt_visualRows_iff someColumns).mpr
    exact Nat.lt_of_le_of_lt (Nat.mul_div_le _ columns) held

theorem nodup_cellsDrawn (someColumns : 1 ≤ columns)
    (someKeys : 1 ≤ grid.keySize) :
    (grid.cellsDrawn columns digits).Nodup := by
  rw [cellsDrawn, List.nodup_flatMap]
  constructor
  -- Lines of one visual row differ in the key of their cells, and visual rows
  -- in the digits.
  · intro row _
    rw [List.nodup_flatMap]
    refine ⟨fun key _ => nodup_cellsOn someKeys, ?_⟩
    apply List.Pairwise.imp_of_mem _ List.nodup_range
    intro key other here there different index member again
    rw [mem_cellsOn_iff someColumns (List.mem_range.mp here)] at member
    rw [mem_cellsOn_iff someColumns (List.mem_range.mp there)] at again
    exact different (member.2.2.symm.trans again.2.2)
  · apply List.Pairwise.imp _ List.nodup_range
    intro row other different index member again
    obtain ⟨key, here, member⟩ := List.mem_flatMap.mp member
    obtain ⟨later, there, again⟩ := List.mem_flatMap.mp again
    rw [mem_cellsOn_iff someColumns (List.mem_range.mp here)] at member
    rw [mem_cellsOn_iff someColumns (List.mem_range.mp there)] at again
    exact different (member.2.1.symm.trans again.2.1)

/-- Every cell stands on one label line, and once. -/
theorem cellsDrawn_perm (drawable : grid.Drawable cells columns) :
    (grid.cellsDrawn columns (cells.length / grid.keySize)).Perm
      (List.range cells.length) := by
  have someKeys := drawable.someKeys
  apply (List.perm_ext_iff_of_nodup
    (nodup_cellsDrawn drawable.someColumns someKeys) List.nodup_range).mpr
  intro index
  rw [mem_cellsDrawn_iff drawable.someColumns someKeys, List.mem_range,
    Nat.div_lt_iff_lt_mul someKeys, Nat.div_mul_cancel drawable.whole]

/-! ## What the lines are -/

def rule (grid : Grid) (columns : Nat) : String :=
  dashes (grid.rowWidth columns - 2)

/-- A label with blanks up to the width of a cell, and the delimiter. -/
def padded (grid : Grid) (label : String) : String :=
  label ++ String.ofList
    (List.replicate (grid.cellWidth - label.length) ' ') ++ "|"

/-- What stands on each of the lines of a drawn grid. -/
structure Drawing (grid : Grid) (cells : List UInt16) (columns : Nat)
    (lines : List String) : Prop where
  length : lines.length =
    if cells.length / grid.keySize = 0 then 2
    else
      visualRows columns (cells.length / grid.keySize) *
        (grid.keySize + 1) + 1
  first : lines.head? = some (" " ++ grid.rule columns)
  last : lines.getLast? = some (" " ++ grid.rule columns)
  labelLine : ∀ row < visualRows columns (cells.length / grid.keySize),
    ∀ key < grid.keySize, ∃ labels : List String,
      (grid.cellsOn columns (cells.length / grid.keySize) row key).map
          (grid.labelAt? cells) = labels.map some ∧
        lines[1 + row * (grid.keySize + 1) + key]? =
          some ("|" ++ String.join (labels.map grid.padded))
  between : ∀ row,
    row + 1 < visualRows columns (cells.length / grid.keySize) →
      lines[(row + 1) * (grid.keySize + 1)]? =
        some ("|" ++ grid.rule columns ++ "|")

theorem cell_eq_padded : grid.cell = grid.padded := by
  funext label
  rw [cell, padded, List.rightpad, String.ofList_append, String.ofList_toList,
    String.length_toList]

theorem shown_eq_cellsOn {α : Type} (items : List α) :
    grid.shown items columns row key =
      (grid.cellsOn columns (items.length / grid.keySize) row key).filterMap
        (items[·]?) := by
  have count : min ((row + 1) * columns) (items.length / grid.keySize) -
      row * columns =
        digitsIn columns (items.length / grid.keySize) row := by
    rw [digitsIn, Nat.succ_mul, Nat.mul_comm columns row]
    omega
  rw [cellsOn, List.Ico, count, List.range'_eq_map_range, List.map_map,
    List.filterMap_map, shown]
  congr 1
  funext place
  rw [Function.comp_apply, Function.comp_apply, Nat.mul_comm grid.keySize,
    Nat.mul_comm columns]

/-- The cells on a line have the labels it shows. -/
theorem map_labelAt?_cellsOn (drawable : grid.Drawable cells columns)
    (labelled : grid.labels cells = .ok labels) (inside : key < grid.keySize) :
    (grid.cellsOn columns (cells.length / grid.keySize) row key).map
        (grid.labelAt? cells) =
      (grid.shown labels columns row key).map some := by
  have found : grid.labelAt? cells = (labels[·]?) := by
    funext index
    exact (getElem?_labels_eq_bind labelled index).symm
  rw [shown_eq_cellsOn, List.map_filterMap_some_eq_filter_map_isSome,
    length_labels labelled, found, eq_comm, List.filter_eq_self]
  intro label member
  obtain ⟨index, here, rfl⟩ := List.mem_map.mp member
  obtain ⟨held, _⟩ := (mem_cellsOn_iff drawable.someColumns inside).mp here
  rw [Nat.div_lt_iff_lt_mul drawable.someKeys,
    Nat.div_mul_cancel drawable.whole, ← length_labels labelled] at held
  rw [List.getElem?_eq_getElem held]
  rfl

/-- The lines between the outer rules: those of the visual rows, with a rule
between any two of them. -/
def inner (grid : Grid) (labels : List String) (columns : Nat) : List String :=
  (((pieces columns (pieces grid.keySize labels)).map
    grid.labelLines).intersperse ["|" ++ grid.rule columns ++ "|"]).flatten

theorem draw_eq_inner :
    grid.draw labels columns =
      (" " ++ grid.rule columns) :: grid.inner labels columns ++
        [" " ++ grid.rule columns] :=
  rfl

section Lines

variable (someColumns : 1 ≤ columns) (someKeys : 1 ≤ grid.keySize)
  (whole : grid.keySize ∣ labels.length)

include someColumns someKeys whole

theorem length_rows :
    (pieces columns (pieces grid.keySize labels)).length =
      visualRows columns (labels.length / grid.keySize) := by
  rw [length_pieces (Nat.ne_of_gt someColumns),
    length_pieces_of_whole (Nat.ne_of_gt someKeys)
      (Nat.mod_eq_zero_of_dvd whole),
    visualRows, Nat.add_sub_assoc someColumns]

theorem length_inner (someDigits : labels.length / grid.keySize ≠ 0) :
    (grid.inner labels columns).length + 1 =
      visualRows columns (labels.length / grid.keySize) *
        (grid.keySize + 1) := by
  have count := length_rows someColumns someKeys whole
  have someRows : 0 < visualRows columns (labels.length / grid.keySize) := by
    apply (lt_visualRows_iff someColumns).mpr
    exact Nat.pos_of_ne_zero someDigits
  rw [inner, length_flatten_intersperse (sized_labelLines grid _),
    List.length_map, count, Nat.mul_comm]
  apply List.ne_nil_of_length_pos
  rw [List.length_map, count]
  exact someRows

theorem length_draw :
    (grid.draw labels columns).length =
      if labels.length / grid.keySize = 0 then 2
      else
        visualRows columns (labels.length / grid.keySize) *
          (grid.keySize + 1) + 1 := by
  rw [draw_eq_inner, List.length_append, List.length_cons,
    List.length_singleton]
  split
  · next noDigits =>
      have empty : labels = [] := by
        apply List.eq_nil_of_length_eq_zero
        rw [← Nat.div_mul_cancel whole, noDigits, Nat.zero_mul]
      rw [empty, inner, pieces_nil, pieces_nil]
      rfl
  · next someDigits =>
      rw [length_inner someColumns someKeys whole someDigits]

theorem getElem?_draw_between
    (inside : row + 1 < visualRows columns (labels.length / grid.keySize)) :
    (grid.draw labels columns)[(row + 1) * (grid.keySize + 1)]? =
      some ("|" ++ grid.rule columns ++ "|") := by
  rw [← length_rows someColumns someKeys whole,
    ← List.length_map grid.labelLines] at inside
  have placed : (grid.inner labels columns)[
      (grid.keySize + 1) * row + grid.keySize]? =
        some ("|" ++ grid.rule columns ++ "|") :=
    getElem?_flatten_intersperse_between (sized_labelLines grid _) _ inside
  have bound := (List.getElem?_eq_some_iff.mp placed).1
  have place : (row + 1) * (grid.keySize + 1) =
      (grid.keySize + 1) * row + grid.keySize + 1 := by
    rw [Nat.succ_mul, Nat.mul_comm]
    rfl
  rw [draw_eq_inner, place, List.cons_append, List.getElem?_cons_succ,
    List.getElem?_append_left bound, placed]

end Lines

theorem drawing_draw (drawable : grid.Drawable cells columns)
    (labelled : grid.labels cells = .ok labels) :
    grid.Drawing cells columns (grid.draw labels columns) := by
  have someColumns := drawable.someColumns
  have someKeys := drawable.someKeys
  have count := length_labels labelled
  have whole := drawable.whole
  rw [← count] at whole
  refine ⟨?length, rfl, ?last, ?labelLine, ?between⟩
  case length =>
    rw [length_draw someColumns someKeys whole, count]
  case last =>
    rw [draw_eq_inner]
    exact List.getLast?_concat
  case labelLine =>
    intro row held key inside
    refine ⟨grid.shown labels columns row key,
      map_labelAt?_cellsOn drawable labelled inside, ?_⟩
    rw [lt_visualRows_iff someColumns, ← count] at held
    have place : 1 + row * (grid.keySize + 1) + key =
        grid.lineIndex row key := by
      rw [lineIndex, Nat.mul_comm]
      omega
    rw [place, getElem?_draw (Nat.ne_of_gt someColumns)
      (Nat.mod_eq_zero_of_dvd whole) held inside, line, cell_eq_padded]
  case between =>
    intro row inside
    rw [← count] at inside
    exact getElem?_draw_between someColumns someKeys whole inside

/-- A line between the outer rules is a label line or a rule between two visual
rows. -/
theorem lineIndex_cases {size rows : Nat} (below : 0 < index)
    (above : index < rows * (size + 1)) :
    (∃ row < rows, ∃ key < size, index = 1 + row * (size + 1) + key) ∨
      ∃ row, row + 1 < rows ∧ index = (row + 1) * (size + 1) := by
  -- Each visual row takes up `size + 1` lines with the rule below it; the last
  -- one's is the outer rule.
  have split := Nat.div_add_mod' (index - 1) (size + 1)
  have small := Nat.mod_lt (index - 1) (Nat.succ_pos size)
  generalize (index - 1) / (size + 1) = row at split
  generalize (index - 1) % (size + 1) = place at split small
  by_cases key : place < size
  · have before : row * (size + 1) < rows * (size + 1) := by omega
    exact .inl ⟨row, Nat.lt_of_mul_lt_mul_right before, place, key, by omega⟩
  · have here : index = (row + 1) * (size + 1) := by
      rw [Nat.succ_mul]
      omega
    refine .inr ⟨row, ?_, here⟩
    rw [here] at above
    exact Nat.lt_of_mul_lt_mul_right above

/-- Nothing about a drawing is left open. -/
theorem Drawing.eq {others : List String}
    (drawing : grid.Drawing cells columns lines)
    (other : grid.Drawing cells columns others) : lines = others := by
  have count : lines.length = others.length :=
    drawing.length.trans other.length.symm
  apply List.ext_getElem?
  intro index
  by_cases first : index = 0
  · rw [first, ← List.head?_eq_getElem?, ← List.head?_eq_getElem?,
      drawing.first, other.first]
  · by_cases last : index = lines.length - 1
    · have lastLine := drawing.last.trans other.last.symm
      rw [List.getLast?_eq_getElem?, List.getLast?_eq_getElem?,
        ← count, ← last] at lastLine
      exact lastLine
    · by_cases inside : index < lines.length
      · have above : index <
            visualRows columns (cells.length / grid.keySize) *
              (grid.keySize + 1) := by
          have total := drawing.length
          split at total
          · omega
          · omega
        rcases lineIndex_cases (Nat.pos_of_ne_zero first) above with
          ⟨row, held, key, within, rfl⟩ | ⟨row, held, rfl⟩
        · obtain ⟨labels, shown, line⟩ := drawing.labelLine row held key within
          obtain ⟨same, again, otherLine⟩ :=
            other.labelLine row held key within
          have equal : labels = same :=
            List.map_injective_iff.mpr (fun _ _ => Option.some.inj)
              (shown.symm.trans again)
          rw [line, otherLine, equal]
        · rw [drawing.between row held, other.between row held]
      · rw [List.getElem?_eq_none (by omega), List.getElem?_eq_none (by omega)]

theorem render_eq_ok_iff_drawing :
    grid.render cells columns = .ok lines ↔
      grid.Drawable cells columns ∧ grid.Drawing cells columns lines := by
  rw [render_eq_ok_iff_drawable]
  constructor
  · rintro ⟨drawable, labels, labelled, rfl⟩
    exact ⟨drawable, drawing_draw drawable labelled⟩
  · rintro ⟨drawable, drawing⟩
    obtain ⟨labels, labelled⟩ := exists_labels_iff.mpr drawable.labelled
    exact ⟨drawable, labels, labelled,
      (drawing_draw drawable labelled).eq drawing⟩

/-- Drawing a grid is exact: it succeeds on the drawable ones, refuses the
others for the first reason there is, and what it draws is the drawing, on which
every cell is shown once. -/
theorem render_exact (grid : Grid) (cells : List UInt16) (columns : Nat) :
    ((∃ lines, grid.render cells columns = .ok lines) ↔
      grid.Drawable cells columns) ∧
    (∀ error, grid.render cells columns = .error error ↔
      grid.Refused cells columns error) ∧
    (∀ lines, grid.render cells columns = .ok lines ↔
      grid.Drawable cells columns ∧ grid.Drawing cells columns lines) ∧
    (grid.Drawable cells columns →
      (grid.cellsDrawn columns (cells.length / grid.keySize)).Perm
        (List.range cells.length)) := by
  refine ⟨?succeeds, fun error => render_eq_error_iff,
    fun lines => render_eq_ok_iff_drawing, cellsDrawn_perm⟩
  case succeeds =>
    constructor
    · rintro ⟨lines, drawn⟩
      exact (render_eq_ok_iff_drawing.mp drawn).1
    · intro drawable
      exact drawable.exists_render

/-- Cards of a suit and a rank. -/
def cards : Grid where
  vocabulary :=
    ⟨"cards", [⟨"suit", ["", "club", "heart"]⟩, ⟨"rank", ["", "ace", "king"]⟩]⟩
  keySize := 2
  cellWidth := 5

theorem short_row_drawn :
    cards.render [1, 2, 2, 1, 1, 0] 2 =
        .ok [" -----------", "|club |heart|", "|king |ace  |",
          "|-----------|", "|club |", "|     |", " -----------"] ∧
      (cards.cellsDrawn 2 3).Perm (List.range 6) := by
  obtain ⟨_, _, drawn, once⟩ := render_exact cards [1, 2, 2, 1, 1, 0] 2
  have drawable : cards.Drawable [1, 2, 2, 1, 1, 0] 2 :=
    ⟨by decide, by decide, by decide, by decide⟩
  refine ⟨(drawn _).mpr ⟨drawable, ⟨?length, ?first, ?last, ?labelLine,
    ?between⟩⟩, once drawable⟩
  case length | first | last => decide
  case labelLine =>
    intro row held key inside
    match row, held, key, inside with
    | 0, _, 0, _ => exact ⟨["club", "heart"], by decide, by decide⟩
    | 0, _, 1, _ => exact ⟨["king", "ace"], by decide, by decide⟩
    | 1, _, 0, _ => exact ⟨["club"], by decide, by decide⟩
    | 1, _, 1, _ => exact ⟨[""], by decide, by decide⟩
  case between =>
    intro row held
    match row, held with
    | 0, _ => decide

end SessionCapture.Grid
