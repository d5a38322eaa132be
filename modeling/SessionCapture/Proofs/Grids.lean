import Mathlib.Data.List.Basic
import SessionCapture.Grid.Render

/-!
# Where a drawn grid shows its cells

A grid is drawn if every cell has a label, and then the label line of a key in a
visual row stands at a fixed place among the drawn lines.  How wide that line is
depends on the labels on it: it has the grid's row width exactly when none of
them is wider than a cell.
-/

namespace SessionCapture

section Lists

variable {α β ε : Type}

theorem mapM_cons_eq_ok_iff {f : α → Except ε β} {first : α} {rest : List α}
    {results : List β} :
    (first :: rest).mapM f = .ok results ↔
      ∃ result later, f first = .ok result ∧ rest.mapM f = .ok later ∧
        results = result :: later := by
  rw [List.mapM_cons]
  cases f first with
  | error error =>
      constructor
      · intro impossible
        cases impossible
      · rintro ⟨_, _, impossible, _⟩
        cases impossible
  | ok result =>
      cases rest.mapM f with
      | error error =>
          constructor
          · intro impossible
            cases impossible
          · rintro ⟨_, _, _, impossible, _⟩
            cases impossible
      | ok later =>
          constructor
          · intro same
            cases same
            exact ⟨result, later, rfl, rfl, rfl⟩
          · rintro ⟨_, _, ⟨⟩, ⟨⟩, rfl⟩
            rfl

theorem mapM_eq_ok_map {f : α → Except ε β} {g : α → β} {items : List α}
    (success : ∀ item ∈ items, f item = .ok (g item)) :
    items.mapM f = .ok (items.map g) := by
  induction items with
  | nil => rfl
  | cons item items induction =>
      rw [List.forall_mem_cons] at success
      exact mapM_cons_eq_ok_iff.mpr
        ⟨g item, items.map g, success.1, induction success.2, rfl⟩

theorem length_of_mapM_ok {f : α → Except ε β} {items : List α}
    {results : List β} (success : items.mapM f = .ok results) :
    results.length = items.length := by
  induction items generalizing results with
  | nil =>
      cases success
      rfl
  | cons item items induction =>
      obtain ⟨_, later, _, rest, rfl⟩ := mapM_cons_eq_ok_iff.mp success
      rw [List.length_cons, List.length_cons, induction rest]

theorem getElem?_of_mapM_ok {f : α → Except ε β} {items : List α}
    {results : List β} (success : items.mapM f = .ok results) {index : Nat}
    {item : α} (found : items[index]? = some item) :
    ∃ result, results[index]? = some result ∧ f item = .ok result := by
  induction items generalizing results index with
  | nil => cases found
  | cons first items induction =>
      obtain ⟨result, later, here, rest, rfl⟩ :=
        mapM_cons_eq_ok_iff.mp success
      cases index with
      | zero =>
          cases found
          exact ⟨result, rfl, here⟩
      | succ index => exact induction rest found

theorem mapM_cons_eq_error_iff {f : α → Except ε β} {first : α}
    {rest : List α} {error : ε} :
    (first :: rest).mapM f = .error error ↔
      f first = .error error ∨
        (∃ result, f first = .ok result) ∧ rest.mapM f = .error error := by
  rw [List.mapM_cons]
  cases f first with
  | error found =>
      constructor
      · intro same
        cases same
        exact .inl rfl
      · rintro (same | ⟨⟨_, impossible⟩, _⟩)
        · cases same
          rfl
        · cases impossible
  | ok result =>
      cases rest.mapM f with
      | error found =>
          constructor
          · intro same
            cases same
            exact .inr ⟨⟨result, rfl⟩, rfl⟩
          · rintro (impossible | ⟨_, same⟩)
            · cases impossible
            · cases same
              rfl
      | ok later =>
          constructor
          · intro impossible
            cases impossible
          · rintro (impossible | ⟨_, impossible⟩)
            · cases impossible
            · cases impossible

/-- A pass fails with the error of the first of its elements that has one. -/
theorem mapM_eq_error_iff {f : α → Except ε β} {items : List α} {error : ε} :
    items.mapM f = .error error ↔
      ∃ (index : Nat) (item : α), items[index]? = some item ∧
        f item = .error error ∧
        ∀ earlier < index, ∀ before, items[earlier]? = some before →
          ∃ result, f before = .ok result := by
  induction items with
  | nil =>
      constructor
      · intro impossible
        cases impossible
      · rintro ⟨_, _, impossible, _⟩
        cases impossible
  | cons first items induction =>
      rw [mapM_cons_eq_error_iff, induction]
      constructor
      · rintro (failed | ⟨passed, index, item, found, failed, before⟩)
        · exact ⟨0, first, rfl, failed, nofun⟩
        · refine ⟨index + 1, item, found, failed, ?_⟩
          intro earlier smaller other here
          cases earlier with
          | zero =>
              cases here
              exact passed
          | succ earlier =>
              exact before earlier (Nat.lt_of_succ_lt_succ smaller) other here
      · rintro ⟨index, item, found, failed, before⟩
        cases index with
        | zero =>
            cases found
            exact .inl failed
        | succ index =>
            refine .inr ⟨before 0 (Nat.succ_pos index) first rfl,
              index, item, found, failed, ?_⟩
            intro earlier smaller other here
            exact before (earlier + 1) (Nat.succ_lt_succ smaller) other here

theorem exists_mem_of_mapM_error {f : α → Except ε β} {items : List α}
    {error : ε} (failure : items.mapM f = .error error) :
    ∃ item ∈ items, f item = .error error := by
  obtain ⟨_, item, found, failed, _⟩ := mapM_eq_error_iff.mp failure
  exact ⟨item, List.mem_of_getElem? found, failed⟩

/-- A pass succeeds if each of its elements does. -/
theorem exists_mapM_eq_ok_iff {f : α → Except ε β} {items : List α} :
    (∃ results, items.mapM f = .ok results) ↔
      ∀ item ∈ items, ∃ result, f item = .ok result := by
  constructor
  · rintro ⟨results, success⟩ item member
    obtain ⟨index, found⟩ := List.mem_iff_getElem?.mp member
    obtain ⟨result, _, passed⟩ := getElem?_of_mapM_ok success found
    exact ⟨result, passed⟩
  · intro passed
    cases outcome : items.mapM f with
    | ok results => exact ⟨results, rfl⟩
    | error error =>
        obtain ⟨item, member, failed⟩ := exists_mem_of_mapM_error outcome
        obtain ⟨result, success⟩ := passed item member
        rw [failed] at success
        cases success

theorem length_flatten_of_sized {size : Nat} {lists : List (List α)}
    (sized : ∀ list ∈ lists, list.length = size) :
    lists.flatten.length = size * lists.length := by
  induction lists with
  | nil => rfl
  | cons first lists induction =>
      rw [List.forall_mem_cons] at sized
      rw [List.flatten_cons, List.length_append, sized.1, induction sized.2,
        List.length_cons, Nat.mul_succ, Nat.add_comm]

/-- Lists of one size, put together, keep each element at its place. -/
theorem getElem?_flatten {size : Nat} {lists : List (List α)}
    (sized : ∀ list ∈ lists, list.length = size) (index : Nat) {place : Nat}
    (inside : place < size) :
    lists.flatten[size * index + place]? = lists[index]?.bind (·[place]?) := by
  induction lists generalizing index with
  | nil => simp
  | cons first lists induction =>
      have count := sized first List.mem_cons_self
      have later : ∀ list ∈ lists, list.length = size := by
        intro list member
        exact sized list (List.mem_cons_of_mem _ member)
      rw [List.flatten_cons]
      cases index with
      | zero =>
          rw [Nat.mul_zero, Nat.zero_add,
            List.getElem?_append_left (by omega)]
          rfl
      | succ index =>
          rw [List.getElem?_append_right (by rw [count, Nat.mul_succ]; omega),
            count, List.getElem?_cons_succ, ← induction later]
          congr 1
          rw [Nat.mul_succ]
          omega

/-- The same with one element between any two lists. -/
theorem getElem?_flatten_intersperse {size : Nat} {lists : List (List α)}
    (sized : ∀ list ∈ lists, list.length = size) (between : α) {index : Nat}
    {list : List α} (found : lists[index]? = some list) {place : Nat}
    (inside : place < size) :
    (lists.intersperse [between]).flatten[(size + 1) * index + place]? =
      list[place]? := by
  induction lists generalizing index with
  | nil => cases found
  | cons first lists induction =>
      have count := sized first List.mem_cons_self
      have later : ∀ list ∈ lists, list.length = size := by
        intro list member
        exact sized list (List.mem_cons_of_mem _ member)
      cases lists with
      | nil =>
          cases index with
          | zero =>
              cases found
              simp
          | succ index => cases found
      | cons second lists =>
          rw [List.intersperse_cons_cons, List.flatten_cons, List.flatten_cons]
          cases index with
          | zero =>
              cases found
              rw [Nat.mul_zero, Nat.zero_add,
                List.getElem?_append_left (by omega)]
          | succ index =>
              rw [← induction later found, ← List.append_assoc,
                List.getElem?_append_right]
              · congr 1
                rw [List.length_append, count, List.length_singleton,
                  Nat.mul_succ]
                omega
              · rw [List.length_append, count, List.length_singleton,
                  Nat.mul_succ]
                omega

/-- Where the element between two lists stands. -/
theorem getElem?_flatten_intersperse_between {size : Nat}
    {lists : List (List α)} (sized : ∀ list ∈ lists, list.length = size)
    (between : α) {index : Nat} (inside : index + 1 < lists.length) :
    (lists.intersperse [between]).flatten[(size + 1) * index + size]? =
      some between := by
  induction lists generalizing index with
  | nil => cases inside
  | cons first lists induction =>
      rw [List.forall_mem_cons] at sized
      cases lists with
      | nil =>
          rw [List.length_singleton] at inside
          omega
      | cons second lists =>
          rw [List.intersperse_cons_cons, List.flatten_cons, List.flatten_cons]
          cases index with
          | zero =>
              rw [Nat.mul_zero, Nat.zero_add, ← sized.1,
                List.getElem?_append_right (Nat.le_refl _), Nat.sub_self]
              rfl
          | succ index =>
              have later : index + 1 < (second :: lists).length :=
                Nat.lt_of_succ_lt_succ inside
              rw [← induction sized.2 later, ← List.append_assoc,
                List.getElem?_append_right]
              · congr 1
                rw [List.length_append, sized.1, List.length_singleton,
                  Nat.mul_succ]
                omega
              · rw [List.length_append, sized.1, List.length_singleton,
                  Nat.mul_succ]
                omega

theorem length_flatten_intersperse {size : Nat} {lists : List (List α)}
    (sized : ∀ list ∈ lists, list.length = size) (between : α)
    (nonempty : lists ≠ []) :
    (lists.intersperse [between]).flatten.length + 1 =
      (size + 1) * lists.length := by
  induction lists with
  | nil => exact absurd rfl nonempty
  | cons first lists induction =>
      rw [List.forall_mem_cons] at sized
      cases lists with
      | nil => simp [sized.1]
      | cons second lists =>
          have later := induction sized.2 (List.cons_ne_nil second lists)
          have count : (first :: second :: lists).length =
              (second :: lists).length + 1 := List.length_cons
          rw [List.intersperse_cons_cons, List.flatten_cons, List.flatten_cons,
            List.length_append, List.length_append, sized.1,
            List.length_singleton, count, Nat.mul_succ]
          omega

end Lists

namespace Grid

variable {grid : Grid} {cells : List UInt16} {labels lines : List String}
  {columns : Nat}

/-! ## Labels of cells -/

theorem cellLabel_eq_ok_iff {value : UInt16} {index : Nat} {label : String} :
    grid.cellLabel value index = .ok label ↔
      grid.vocabulary.label? (index % grid.keySize) value = some label := by
  unfold cellLabel
  dsimp only
  cases grid.vocabulary.label? (index % grid.keySize) value with
  | some found =>
      constructor
      · intro same
        cases same
        rfl
      · intro same
        cases same
        rfl
  | none =>
      constructor
      · intro impossible
        cases impossible
      · intro impossible
        cases impossible

theorem cellLabel_eq_error_iff {value : UInt16} {index : Nat}
    {error : GridError} :
    grid.cellLabel value index = .error error ↔
      grid.vocabulary.label? (index % grid.keySize) value = none ∧
        error = .valueOutOfRange
          ((grid.vocabulary.keyName? (index % grid.keySize)).getD "?")
          value := by
  unfold cellLabel
  dsimp only
  cases grid.vocabulary.label? (index % grid.keySize) value with
  | some label =>
      constructor
      · intro impossible
        cases impossible
      · rintro ⟨impossible, _⟩
        cases impossible
  | none =>
      constructor
      · intro same
        cases same
        exact ⟨rfl, rfl⟩
      · rintro ⟨_, rfl⟩
        rfl

theorem length_labels (labelled : grid.labels cells = .ok labels) :
    labels.length = cells.length := by
  rw [length_of_mapM_ok labelled, List.length_zipIdx]

/-- Every cell has its label. -/
theorem getElem?_labels (labelled : grid.labels cells = .ok labels)
    {index : Nat} {value : UInt16} (found : cells[index]? = some value) :
    ∃ label, labels[index]? = some label ∧
      grid.vocabulary.label? (index % grid.keySize) value = some label := by
  have numbered : cells.zipIdx[index]? = some (value, index) := by
    rw [List.getElem?_zipIdx, found, Nat.zero_add]
    rfl
  obtain ⟨label, shown, named⟩ := getElem?_of_mapM_ok labelled numbered
  exact ⟨label, shown, cellLabel_eq_ok_iff.mp named⟩

theorem getElem?_labels_eq_bind (labelled : grid.labels cells = .ok labels)
    (index : Nat) :
    labels[index]? =
      cells[index]?.bind (grid.vocabulary.label? (index % grid.keySize)) := by
  cases found : cells[index]? with
  | some value =>
      obtain ⟨label, shown, named⟩ := getElem?_labels labelled found
      rw [shown, Option.bind_some, named]
  | none =>
      have outside := List.getElem?_eq_none_iff.mp found
      rw [← length_labels labelled] at outside
      rw [List.getElem?_eq_none outside, Option.bind_none]

/-- Labels are missing only if a cell has none. -/
theorem labels_eq_error {error : GridError}
    (failure : grid.labels cells = .error error) :
    ∃ index value key, cells[index]? = some value ∧
      grid.vocabulary.label? (index % grid.keySize) value = none ∧
      error = .valueOutOfRange key value := by
  obtain ⟨⟨value, index⟩, member, failed⟩ := exists_mem_of_mapM_error failure
  obtain ⟨unlabelled, same⟩ := cellLabel_eq_error_iff.mp failed
  exact ⟨index, value, _, List.mk_mem_zipIdx_iff_getElem?.mp member,
    unlabelled, same⟩

/-- Cells that split into digits are drawn if they have labels. -/
theorem render_of_whole (someColumns : columns ≠ 0)
    (someKeys : grid.keySize ≠ 0) (whole : cells.length % grid.keySize = 0) :
    grid.render cells columns =
      (grid.labels cells).map fun labels => grid.draw labels columns := by
  have unragged : ¬(grid.keySize = 0 ∨ cells.length % grid.keySize ≠ 0) := by
    rintro (zero | rest)
    · exact someKeys zero
    · exact rest whole
  rw [render, if_neg someColumns, if_neg unragged]

theorem render_eq_ok_iff :
    grid.render cells columns = .ok lines ↔
      columns ≠ 0 ∧ grid.keySize ≠ 0 ∧ cells.length % grid.keySize = 0 ∧
        ∃ labels, grid.labels cells = .ok labels ∧
          grid.draw labels columns = lines := by
  constructor
  · intro drawn
    unfold render at drawn
    by_cases noColumns : columns = 0
    · rw [if_pos noColumns] at drawn
      cases drawn
    · by_cases ragged : grid.keySize = 0 ∨ cells.length % grid.keySize ≠ 0
      · rw [if_neg noColumns, if_pos ragged] at drawn
        cases drawn
      · rw [if_neg noColumns, if_neg ragged] at drawn
        rw [not_or, Decidable.not_not] at ragged
        refine ⟨noColumns, ragged.1, ragged.2, ?_⟩
        cases labelled : grid.labels cells with
        | error error =>
            rw [labelled] at drawn
            cases drawn
        | ok labels =>
            rw [labelled] at drawn
            cases drawn
            exact ⟨labels, rfl, rfl⟩
  · rintro ⟨someColumns, someKeys, whole, labels, labelled, rfl⟩
    rw [render_of_whole someColumns someKeys whole, labelled]
    rfl

/-! ## The width of a line -/

/-- A line that shows the given labels. -/
def line (grid : Grid) (labels : List String) : String :=
  "|" ++ String.join (labels.map grid.cell)

theorem length_cell (label : String) :
    (grid.cell label).length = max grid.cellWidth label.length + 1 := by
  rw [cell, String.length_append, String.length_ofList, List.length_rightpad,
    String.length_toList]
  rfl

theorem length_dashes (count : Nat) : (dashes count).length = count := by
  rw [dashes, String.length_ofList, List.length_replicate]

/-- The outer rules stop just before the last delimiter of a full row. -/
theorem length_outerRule (someColumns : columns ≠ 0) :
    (" " ++ dashes (grid.rowWidth columns - 2)).length + 1 =
      grid.rowWidth columns := by
  have single : " ".length = 1 := by decide
  have wide : 2 ≤ grid.rowWidth columns := by
    unfold rowWidth
    omega
  rw [String.length_append, length_dashes, single]
  omega

theorem rowWidth_succ (count : Nat) :
    grid.rowWidth (count + 1) = grid.rowWidth count + grid.cellWidth + 1 := by
  unfold rowWidth
  rw [Nat.mul_succ]
  omega

theorem length_line_nil : (grid.line []).length = grid.rowWidth 0 := by
  have single : "|".length = 1 := by decide
  simp [line, rowWidth, single]

theorem length_line_cons (label : String) (labels : List String) :
    (grid.line (label :: labels)).length =
      (grid.line labels).length + (max grid.cellWidth label.length + 1) := by
  unfold line
  rw [List.map_cons, String.join_cons, String.length_append,
    String.length_append, String.length_append, length_cell]
  omega

theorem line_closed (labels : List String) :
    ∃ front, grid.line labels = front ++ "|" := by
  rcases List.eq_nil_or_concat labels with rfl | ⟨before, last, rfl⟩
  · exact ⟨"", by rw [line]; rfl⟩
  · refine ⟨"|" ++ String.join (before.map grid.cell) ++
      String.ofList (last.toList.rightpad grid.cellWidth ' '), ?_⟩
    rw [line, List.concat_eq_append, List.map_append, String.join_append]
    simp [cell, String.append_assoc]

/-- A line is never narrower than its row. -/
theorem rowWidth_le_length_line (labels : List String) :
    grid.rowWidth labels.length ≤ (grid.line labels).length := by
  induction labels with
  | nil => exact Nat.le_of_eq length_line_nil.symm
  | cons label labels induction =>
      rw [List.length_cons, rowWidth_succ, length_line_cons]
      have widened := Nat.le_max_left grid.cellWidth label.length
      omega

/-- A line has the width of its row if and only if every label on it fits into
a cell. -/
theorem length_line_eq_iff (labels : List String) :
    (grid.line labels).length = grid.rowWidth labels.length ↔
      ∀ label ∈ labels, label.length ≤ grid.cellWidth := by
  induction labels with
  | nil => exact iff_of_true length_line_nil nofun
  | cons label labels induction =>
      have least : grid.rowWidth labels.length ≤ (grid.line labels).length :=
        rowWidth_le_length_line labels
      rw [List.forall_mem_cons, ← induction, List.length_cons, rowWidth_succ,
        length_line_cons]
      omega

/-! ## Where a line is drawn -/

/-- Where the label line of a key in a visual row stands among the lines of a
drawn grid. -/
def lineIndex (grid : Grid) (row key : Nat) : Nat :=
  (grid.keySize + 1) * row + key + 1

/-- How many of so many digits a visual row holds. -/
def digitsIn (columns digits row : Nat) : Nat :=
  min columns (digits - columns * row)

/-- What the label line of a key in a visual row shows, from left to right. -/
def shown {α : Type} (grid : Grid) (items : List α) (columns row key : Nat) :
    List α :=
  (List.range (digitsIn columns (items.length / grid.keySize) row)).filterMap
    fun place => items[grid.keySize * (columns * row + place) + key]?

section Shown

variable {α : Type} {items : List α} {row key : Nat}

theorem cellIndex_lt (whole : items.length % grid.keySize = 0) {place : Nat}
    (held : place < digitsIn columns (items.length / grid.keySize) row)
    (inside : key < grid.keySize) :
    grid.keySize * (columns * row + place) + key < items.length := by
  have digit : columns * row + place + 1 ≤ items.length / grid.keySize := by
    unfold digitsIn at held
    omega
  calc grid.keySize * (columns * row + place) + key
    _ < grid.keySize * (columns * row + place + 1) := by
      rw [Nat.mul_succ]
      omega
    _ ≤ grid.keySize * (items.length / grid.keySize) :=
      Nat.mul_le_mul_left grid.keySize digit
    _ = items.length := Nat.mul_div_cancel' (Nat.dvd_of_mod_eq_zero whole)

theorem length_shown (whole : items.length % grid.keySize = 0)
    (inside : key < grid.keySize) :
    (grid.shown items columns row key).length =
      digitsIn columns (items.length / grid.keySize) row := by
  have every : ∀ place ∈
      List.range (digitsIn columns (items.length / grid.keySize) row),
      (items[grid.keySize * (columns * row + place) + key]?).isSome := by
    intro place member
    have held := List.mem_range.mp member
    rw [List.getElem?_eq_getElem (cellIndex_lt whole held inside)]
    rfl
  rw [shown, List.filterMap_length_eq_length.mpr every, List.length_range]

/-- The digits of a visual row, cut out of all items. -/
theorem getElem?_visualRows (someColumns : columns ≠ 0)
    (whole : items.length % grid.keySize = 0)
    (held : columns * row < items.length / grid.keySize) :
    (pieces columns (pieces grid.keySize items))[row]? =
      some ((List.range
          (digitsIn columns (items.length / grid.keySize) row)).map
        fun place =>
          (items.drop (grid.keySize * (columns * row + place))).take
            grid.keySize) := by
  have someKeys : grid.keySize ≠ 0 := by
    intro zero
    rw [zero, Nat.div_zero] at held
    cases held
  have count : (pieces grid.keySize items).length =
      items.length / grid.keySize :=
    length_pieces_of_whole someKeys whole
  rw [getElem?_pieces someColumns, if_pos (by rw [count]; exact held)]
  congr 1
  apply List.ext_getElem?
  intro place
  rw [List.getElem?_map]
  by_cases here : place < digitsIn columns (items.length / grid.keySize) row
  · have before : place < columns := Nat.lt_of_lt_of_le here
      (Nat.min_le_left _ _)
    have within : grid.keySize * (columns * row + place) < items.length :=
      Nat.lt_of_le_of_lt (Nat.le_add_right _ 0)
        (cellIndex_lt whole here (Nat.pos_of_ne_zero someKeys))
    rw [List.getElem?_range here, List.getElem?_take_of_lt before,
      List.getElem?_drop, getElem?_pieces someKeys, if_pos within]
    rfl
  · rw [List.getElem?_eq_none, List.getElem?_eq_none]
    · rfl
    · rw [List.length_range]
      omega
    · rw [List.length_take, List.length_drop, count]
      unfold digitsIn at here
      omega

end Shown

/-- The label line of digits that are cut out of the labels. -/
theorem labelLine_eq_line {row key : Nat}
    (whole : labels.length % grid.keySize = 0) (inside : key < grid.keySize) :
    grid.labelLine
        ((List.range
            (digitsIn columns (labels.length / grid.keySize) row)).map
          fun place =>
            (labels.drop (grid.keySize * (columns * row + place))).take
              grid.keySize) key =
      grid.line (grid.shown labels columns row key) := by
  rw [labelLine, line, List.map_map, shown, List.map_filterMap]
  congr 2
  symm
  apply List.filterMap_eq_map_iff_forall_eq_some.mpr
  intro place member
  have held := List.mem_range.mp member
  have within := cellIndex_lt whole held inside
  rw [Function.comp_apply, List.getD_eq_getElem?_getD,
    List.getElem?_take_of_lt inside, List.getElem?_drop,
    List.getElem?_eq_getElem within]
  rfl

theorem length_labelLines (digits : List (List String)) :
    (grid.labelLines digits).length = grid.keySize := by
  rw [labelLines, List.length_map, List.length_range]

theorem sized_labelLines (grid : Grid) (rows : List (List (List String))) :
    ∀ block ∈ rows.map grid.labelLines, block.length = grid.keySize := by
  intro block member
  obtain ⟨digits, _, rfl⟩ := List.mem_map.mp member
  exact length_labelLines digits

/-- Each label line of each visual row is drawn at its place. -/
theorem getElem?_draw {row key : Nat} (someColumns : columns ≠ 0)
    (whole : labels.length % grid.keySize = 0)
    (held : columns * row < labels.length / grid.keySize)
    (inside : key < grid.keySize) :
    (grid.draw labels columns)[grid.lineIndex row key]? =
      some (grid.line (grid.shown labels columns row key)) := by
  let rows := pieces columns (pieces grid.keySize labels)
  obtain ⟨digits, found⟩ : ∃ digits, rows[row]? = some digits :=
    ⟨_, getElem?_visualRows someColumns whole held⟩
  have block : (rows.map grid.labelLines)[row]? =
      some (grid.labelLines digits) := by
    rw [List.getElem?_map, found]
    rfl
  have line : (grid.labelLines digits)[key]? =
      some (grid.labelLine digits key) := by
    rw [labelLines, List.getElem?_map, List.getElem?_range inside]
    rfl
  have placed := getElem?_flatten_intersperse (grid.sized_labelLines rows)
    ("|" ++ dashes (grid.rowWidth columns - 2) ++ "|") block inside
  rw [line] at placed
  have bound := (List.getElem?_eq_some_iff.mp placed).1
  have same := found.symm.trans (getElem?_visualRows someColumns whole held)
  rw [← labelLine_eq_line whole inside, ← Option.some.inj same, ← placed]
  unfold draw lineIndex
  dsimp only
  rw [List.cons_append, List.getElem?_cons_succ,
    List.getElem?_append_left bound]

/-- The labels on a line are those of the cells on it. -/
theorem shown_labels (labelled : grid.labels cells = .ok labels)
    {row key : Nat} (inside : key < grid.keySize) :
    grid.shown labels columns row key =
      (grid.shown cells columns row key).filterMap
        (grid.vocabulary.label? key) := by
  rw [shown, shown, List.filterMap_filterMap, length_labels labelled]
  congr 1
  funext place
  rw [getElem?_labels_eq_bind labelled, Nat.mul_add_mod,
    Nat.mod_eq_of_lt inside]

end Grid

end SessionCapture
