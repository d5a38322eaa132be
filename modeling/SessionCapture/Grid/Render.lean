import SessionCapture.Grid.Vocabulary
import SessionCapture.Pieces

/-!
# Drawing attribute tuples as a bordered grid

A grid shows digits, each a tuple of attribute values, in visual rows of
`columns` digits.  A visual row is drawn as one line of labels for each key.
Rules run above, below and between the visual rows; those between are closed at
both ends.  A short last row stops at its last digit.
-/

namespace SessionCapture

inductive GridError where
  | noColumns
  | ragged (cells keySize : Nat)
  | valueOutOfRange (key : String) (value : UInt16)
deriving DecidableEq, Repr

def GridError.message : GridError → String
  | noColumns => "Grid has no columns."
  | ragged cells keySize =>
      s!"Grid of {cells} cells does not split into tuples of {keySize}."
  | valueOutOfRange key value =>
      s!"Attribute value {value} is outside the {key} vocabulary."

structure Grid where
  vocabulary : Vocabulary
  keySize : Nat
  cellWidth : Nat
deriving DecidableEq, Repr

namespace Grid

/-- Characters in a full line of labels, delimiters included.  Like the lines
themselves the width is unbounded here; that of a line for which a machine has
room is below `2 ^ 64`. -/
def rowWidth (grid : Grid) (columns : Nat) : Nat :=
  grid.cellWidth * columns + columns + 1

/-- The label of the cell at `index` in reading order. -/
def cellLabel (grid : Grid) (value : UInt16) (index : Nat) :
    Except GridError String :=
  let key := index % grid.keySize
  match grid.vocabulary.label? key value with
  | some label => .ok label
  | none =>
      .error (.valueOutOfRange ((grid.vocabulary.keyName? key).getD "?") value)

/-- The labels of all cells, or the error of the first cell without one. -/
def labels (grid : Grid) (cells : List UInt16) :
    Except GridError (List String) :=
  cells.zipIdx.mapM fun (value, index) => grid.cellLabel value index

def dashes (count : Nat) : String :=
  String.ofList (List.replicate count '-')

def cell (grid : Grid) (label : String) : String :=
  String.ofList (label.toList.rightpad grid.cellWidth ' ') ++ "|"

/-- The line of labels for one key in a row of digits. -/
def labelLine (grid : Grid) (digits : List (List String)) (key : Nat) :
    String :=
  "|" ++ String.join (digits.map fun digit => grid.cell (digit.getD key ""))

def labelLines (grid : Grid) (digits : List (List String)) : List String :=
  (List.range grid.keySize).map (grid.labelLine digits)

/-- The lines of a grid whose cells have the given labels. -/
def draw (grid : Grid) (labels : List String) (columns : Nat) :
    List String :=
  let rule := dashes (grid.rowWidth columns - 2)
  let outer := " " ++ rule
  let inner := "|" ++ rule ++ "|"
  let rows := pieces columns (pieces grid.keySize labels)
  outer :: ((rows.map grid.labelLines).intersperse [inner]).flatten ++ [outer]

def render (grid : Grid) (cells : List UInt16) (columns : Nat) :
    Except GridError (List String) :=
  if columns = 0 then
    .error .noColumns
  else if grid.keySize = 0 ∨ cells.length % grid.keySize ≠ 0 then
    .error (.ragged cells.length grid.keySize)
  else
    (grid.labels cells).map fun labels => grid.draw labels columns

end Grid

end SessionCapture
