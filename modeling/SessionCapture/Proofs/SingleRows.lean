import SessionCapture.Proofs.DrawnGrids

/-!
# Grids of a single visual row

Secrets and responses are drawn as a single visual row: a rule, a line for each
key with the texts of all digits side by side, and a rule.  The text in a cell
depends on the label of its value alone, so a digit is shown with the same texts
in whatever column and visual row it stands.
-/

namespace SessionCapture.Grid

variable {grid : Grid} {cells : List UInt16} {lines : List String}
  {text : Nat → Nat → String} {columns digits digit row key : Nat}

/-- What stands in the cell of a key of a digit: its label with blanks up to the
width of a cell, and the delimiter. -/
def cellText (grid : Grid) (cells : List UInt16) (digit key : Nat) : String :=
  grid.padded ((grid.labelAt? cells (digit * grid.keySize + key)).getD "")

/-- The texts on the line of a key in a visual row, from left to right. -/
def textsOn (text : Nat → Nat → String) (columns digits row key : Nat) :
    List String :=
  (List.Ico (row * columns) (min ((row + 1) * columns) digits)).map (text · key)

/-- The line of a key in a single visual row. -/
def rowLine (text : Nat → Nat → String) (digits key : Nat) : String :=
  "|" ++ String.join ((List.range digits).map (text · key))

/-- The lines of a single visual row. -/
def rowLines (grid : Grid) (text : Nat → Nat → String) (digits : Nat) :
    List String :=
  (" " ++ grid.rule digits) ::
    (List.range grid.keySize).map (rowLine text digits) ++
      [" " ++ grid.rule digits]

/-! ## Texts on the lines of any drawing -/

/-- A drawn line shows the texts of the cells on it. -/
theorem Drawing.getElem?_textsOn (drawing : grid.Drawing cells columns lines)
    (held : row < visualRows columns (cells.length / grid.keySize))
    (inside : key < grid.keySize) :
    lines[1 + row * (grid.keySize + 1) + key]? =
      some ("|" ++ String.join (textsOn (grid.cellText cells) columns
        (cells.length / grid.keySize) row key)) := by
  obtain ⟨labels, labelled, line⟩ := drawing.labelLine row held key inside
  have named : labels =
      ((grid.cellsOn columns (cells.length / grid.keySize) row key).map
        (grid.labelAt? cells)).map (·.getD "") := by
    rw [labelled, List.map_map]
    exact (List.map_id labels).symm
  have shown : labels.map grid.padded =
      textsOn (grid.cellText cells) columns (cells.length / grid.keySize) row
        key := by
    rw [named, cellsOn, List.map_map, List.map_map, List.map_map]
    rfl
  rw [line, shown]

/-- Every digit stands in its column of its visual row. -/
theorem getElem?_textsOn (someColumns : 1 ≤ columns) (held : digit < digits) :
    (textsOn text columns digits (digit / columns) key)[digit % columns]? =
      some (text digit key) := by
  have whole := Nat.div_add_mod' digit columns
  have before := Nat.mod_lt digit someColumns
  have inside : digit % columns <
      min ((digit / columns + 1) * columns) digits -
        digit / columns * columns := by
    rw [Nat.succ_mul]
    omega
  rw [textsOn, List.getElem?_map, List.Ico, List.getElem?_range' inside,
    Nat.one_mul, whole]
  rfl

/-! ## A single visual row -/

theorem visualRows_self (someDigits : 1 ≤ digits) :
    visualRows digits digits = 1 := by
  rw [visualRows, Nat.div_eq_of_lt_le]
  · omega
  · omega

theorem textsOn_self :
    textsOn text digits digits 0 key = (List.range digits).map (text · key) := by
  rw [textsOn, Nat.zero_mul, Nat.zero_add, Nat.one_mul, Nat.min_self,
    List.Ico.zero_bot]

theorem length_rowLines :
    (grid.rowLines text digits).length = grid.keySize + 2 := by
  simp [rowLines]

theorem getElem?_rowLines (inside : key < grid.keySize) :
    (grid.rowLines text digits)[1 + key]? = some (rowLine text digits key) := by
  rw [rowLines, Nat.add_comm, List.cons_append, List.getElem?_cons_succ,
    List.getElem?_append_left (by simpa using inside), List.getElem?_map,
    List.getElem?_range inside]
  rfl

/-- Digits that are drawn as one visual row take up these lines. -/
theorem Drawing.eq_rowLines (drawing : grid.Drawing cells digits lines)
    (count : cells.length / grid.keySize = digits) (someDigits : 1 ≤ digits) :
    lines = grid.rowLines (grid.cellText cells) digits := by
  have total : lines.length = grid.keySize + 2 := by
    rw [drawing.length, count, if_neg (Nat.ne_of_gt someDigits),
      visualRows_self someDigits, Nat.one_mul]
  apply List.ext_getElem?
  intro index
  have position : index = 0 ∨ (∃ key < grid.keySize, index = 1 + key) ∨
      index = grid.keySize + 1 ∨ grid.keySize + 2 ≤ index := by
    by_cases first : index = 0
    · exact .inl first
    · by_cases inside : index - 1 < grid.keySize
      · exact .inr (.inl ⟨index - 1, inside, by omega⟩)
      · omega
  rcases position with rfl | ⟨key, inside, rfl⟩ | rfl | outside
  · rw [← List.head?_eq_getElem?, drawing.first]
    rfl
  · have here : 0 < visualRows digits (cells.length / grid.keySize) := by
      rw [count, visualRows_self someDigits]
      exact Nat.one_pos
    have line := drawing.getElem?_textsOn here inside
    rw [Nat.zero_mul, Nat.add_zero, count, textsOn_self] at line
    rw [line, getElem?_rowLines inside, rowLine]
  · have last := drawing.last
    rw [List.getLast?_eq_getElem?, total] at last
    have bottom : (grid.rowLines (grid.cellText cells) digits).getLast? =
        some (" " ++ grid.rule digits) := List.getLast?_concat
    rw [List.getLast?_eq_getElem?, length_rowLines] at bottom
    exact last.trans bottom.symm
  · rw [List.getElem?_eq_none (by rw [total]; exact outside),
      List.getElem?_eq_none (by rw [length_rowLines]; exact outside)]

/-- A line is as wide as its row if its labels fit into cells. -/
theorem length_rowLine (fits : ∀ digit < digits, ∀ label,
      grid.labelAt? cells (digit * grid.keySize + key) = some label →
        label.length ≤ grid.cellWidth) :
    (rowLine (grid.cellText cells) digits key).length =
      grid.rowWidth digits := by
  let labels := (List.range digits).map fun digit =>
    (grid.labelAt? cells (digit * grid.keySize + key)).getD ""
  have count : labels.length = digits := by
    rw [List.length_map, List.length_range]
  have same : rowLine (grid.cellText cells) digits key = grid.line labels := by
    rw [rowLine, line, cell_eq_padded, List.map_map]
    rfl
  have short : ∀ label ∈ labels, label.length ≤ grid.cellWidth := by
    intro label member
    obtain ⟨digit, among, rfl⟩ := List.mem_map.mp member
    cases found : grid.labelAt? cells (digit * grid.keySize + key) with
    | none => exact Nat.zero_le _
    | some label => exact fits digit (List.mem_range.mp among) label found
  have exactly := (grid.length_line_eq_iff labels).mpr short
  rw [count] at exactly
  rw [same, exactly]

/-- Cells are drawn as one visual row if each of them has a label. -/
theorem render_eq_rowLines (drawable : grid.Drawable cells digits)
    (count : cells.length / grid.keySize = digits) :
    grid.render cells digits =
      .ok (grid.rowLines (grid.cellText cells) digits) := by
  obtain ⟨lines, drawn⟩ := drawable.exists_render
  have drawing := (render_eq_ok_iff_drawing.mp drawn).2
  rw [drawn, drawing.eq_rowLines count drawable.someColumns]

end SessionCapture.Grid
