import SessionCapture.Proofs.DrawnGrids

/-!
# Drawing a grid with checked steps

On a machine a zero divisor, a sum or difference that does not fit its word and
an index outside of an array are faults, where ours are made up for.  `Checked`
computations stop at such a fault, and `Yields` says that one meets none and how
it ends.  Drawing a grid by the indexes of its labels yields what `Grid.render`
does, whatever the grid and its cells are.  Checked are its divisions, its
indexes and the subtraction by which a rule is shorter than its row; the width
of a row itself is limited only by the length that a line can have.
-/

namespace SessionCapture

/-- What stops a computation on machine words and arrays. -/
inductive Fault where
  | zeroDivisor
  | overflow
  | outOfBounds
deriving DecidableEq, Repr

/-- Computations that can end in an error and can meet a fault on the way. -/
abbrev Checked (ε : Type) : Type → Type :=
  ExceptT ε (Except Fault)

namespace Checked

variable {ε ε' α β : Type}

def fault (found : Fault) : Checked ε α :=
  ExceptT.mk (.error found)

/-- The value, unless the condition for it fails. -/
def guarded (found : Fault) (condition : Prop) [Decidable condition]
    (value : α) : Checked ε α :=
  if condition then pure value else fault found

def div (dividend divisor : Nat) : Checked ε Nat :=
  guarded .zeroDivisor (divisor ≠ 0) (dividend / divisor)

def mod (dividend divisor : Nat) : Checked ε Nat :=
  guarded .zeroDivisor (divisor ≠ 0) (dividend % divisor)

def divCeil (dividend divisor : Nat) : Checked ε Nat :=
  guarded .zeroDivisor (divisor ≠ 0) ((dividend + divisor - 1) / divisor)

def sub (minuend subtrahend : Nat) : Checked ε Nat :=
  guarded .overflow (subtrahend ≤ minuend) (minuend - subtrahend)

def get (items : List α) (index : Nat) : Checked ε α :=
  match items[index]? with
  | some item => pure item
  | none => fault .outOfBounds

/-- What has no step that is checked. -/
def of (outcome : Except ε α) : Checked ε α :=
  ExceptT.mk (.ok outcome)

/-- How a computation ends, as a value. -/
def ending (steps : Checked ε α) : Checked ε' (Except ε α) :=
  ExceptT.lift steps.run

/-- No fault is met, and the computation ends in this way. -/
def Yields (steps : Checked ε α) (outcome : Except ε α) : Prop :=
  steps.run = .ok outcome

variable {steps : Checked ε α} {outcome : Except ε α}

theorem Yields.pure (value : α) :
    (Pure.pure value : Checked ε α).Yields (.ok value) := rfl

theorem Yields.throw (error : ε) :
    (MonadExcept.throw error : Checked ε α).Yields (.error error) := rfl

theorem Yields.of (outcome : Except ε α) : (of outcome).Yields outcome := rfl

theorem Yields.guarded {found : Fault} {condition : Prop}
    [Decidable condition] (holds : condition) (value : α) :
    (guarded found condition value : Checked ε α).Yields (.ok value) := by
  rw [Checked.guarded, if_pos holds]
  exact .pure value

theorem Yields.get {items : List α} {index : Nat} {item : α}
    (found : items[index]? = some item) :
    (get items index : Checked ε α).Yields (.ok item) := by
  rw [Checked.get, found]
  exact .pure item

theorem Yields.bind {next : α → Checked ε β} {later : α → Except ε β}
    (first : steps.Yields outcome)
    (rest : ∀ value, outcome = .ok value → (next value).Yields (later value)) :
    Yields (steps >>= next) (outcome >>= later) := by
  change (steps.run >>= ExceptT.bindCont next) = _
  rw [first]
  cases outcome with
  | error error => rfl
  | ok value => exact rest value rfl

/-- After a step that yields a value. -/
theorem Yields.bind_ok {value : α} {next : α → Checked ε β}
    {later : Except ε β} (first : steps.Yields (.ok value))
    (rest : (next value).Yields later) : Yields (steps >>= next) later := by
  have reached : ∀ found, (.ok value : Except ε α) = .ok found →
      (next found).Yields later := by
    rintro _ ⟨⟩
    exact rest
  exact first.bind reached

theorem Yields.map (yields : steps.Yields outcome) (change : α → β) :
    Yields (change <$> steps) (outcome.map change) := by
  rw [map_eq_pure_bind]
  have mapped := yields.bind fun value _ => Yields.pure (change value)
  cases outcome <;> exact mapped

theorem Yields.adapt (yields : steps.Yields outcome) (change : ε → ε') :
    Yields (ExceptT.adapt change steps) (outcome.mapError change) := by
  change Except.map _ steps.run = _
  rw [yields]
  rfl

theorem Yields.ending (yields : steps.Yields outcome) :
    (steps.ending : Checked ε' (Except ε α)).Yields (.ok outcome) := by
  change Except.map _ steps.run = _
  rw [yields]
  rfl

theorem Yields.mapM {step : α → Checked ε β} {answer : α → Except ε β}
    {items : List α}
    (each : ∀ item ∈ items, (step item).Yields (answer item)) :
    Yields (items.mapM step) (items.mapM answer) := by
  induction items with
  | nil => exact .pure []
  | cons item items induction =>
      rw [List.forall_mem_cons] at each
      rw [List.mapM_cons, List.mapM_cons]
      refine each.1.bind fun first _ => ?_
      exact (induction each.2).bind fun rest _ => .pure (first :: rest)

/-- Steps that all yield a value. -/
theorem Yields.mapM_ok {step : α → Checked ε β} {value : α → β}
    {items : List α}
    (each : ∀ item ∈ items, (step item).Yields (.ok (value item))) :
    Yields (items.mapM step) (.ok (items.map value)) := by
  have yields := Yields.mapM each
  rw [mapM_eq_ok_map fun _ _ => rfl] at yields
  exact yields

end Checked

/-! ## Drawing -/

namespace Grid

variable {grid : Grid} {cells : List UInt16} {labels : List String}
  {columns row key : Nat}

open Checked (Yields)

def checkedLabel (grid : Grid) (value : UInt16) (index : Nat) :
    Checked GridError String := do
  let key ← Checked.mod index grid.keySize
  match grid.vocabulary.label? key value with
  | some label => return label
  | none =>
      throw (.valueOutOfRange ((grid.vocabulary.keyName? key).getD "?") value)

/-- The line of labels for one key in a visual row, by their indexes. -/
def checkedLine (grid : Grid) (labels : List String)
    (columns digits row key : Nat) : Checked GridError String := do
  let shown ← (grid.cellsOn columns digits row key).mapM (Checked.get labels)
  return grid.line shown

def checkedDraw (grid : Grid) (labels : List String) (columns : Nat) :
    Checked GridError (List String) := do
  let digits ← Checked.div labels.length grid.keySize
  let rows ← Checked.divCeil digits columns
  let rule := dashes (← Checked.sub (grid.rowWidth columns) 2)
  let blocks ← (List.range rows).mapM fun row =>
    (List.range grid.keySize).mapM (grid.checkedLine labels columns digits row)
  let between := ["|" ++ rule ++ "|"]
  return (" " ++ rule) :: (blocks.intersperse between).flatten ++ [" " ++ rule]

/-- The key size is looked at before anything is divided by it. -/
def checkedRender (grid : Grid) (cells : List UInt16) (columns : Nat) :
    Checked GridError (List String) :=
  let ragged := GridError.ragged cells.length grid.keySize
  if columns = 0 then
    throw .noColumns
  else if grid.keySize = 0 then
    throw ragged
  else do
    if (← Checked.mod cells.length grid.keySize) ≠ 0 then
      throw ragged
    else do
      let labels ← cells.zipIdx.mapM fun (value, index) =>
        grid.checkedLabel value index
      grid.checkedDraw labels columns

theorem yields_checkedLabel (someKeys : grid.keySize ≠ 0) (value : UInt16)
    (index : Nat) :
    (grid.checkedLabel value index).Yields (grid.cellLabel value index) := by
  refine Yields.bind_ok (.guarded someKeys _) ?_
  unfold cellLabel
  dsimp only
  cases grid.vocabulary.label? (index % grid.keySize) value with
  | some label => exact .pure label
  | none => exact .throw _

section Draw

variable (someColumns : 1 ≤ columns) (someKeys : 1 ≤ grid.keySize)
  (whole : grid.keySize ∣ labels.length)

include someColumns someKeys whole

/-- Every index on a line is that of a label. -/
theorem yields_checkedLine (inside : key < grid.keySize) :
    (grid.checkedLine labels columns (labels.length / grid.keySize) row
        key).Yields
      (.ok (grid.line (grid.shown labels columns row key))) := by
  have found : ∀ index ∈
      grid.cellsOn columns (labels.length / grid.keySize) row key,
      labels[index]? = some (labels.getD index "") := by
    intro index member
    obtain ⟨held, _⟩ := (mem_cellsOn_iff someColumns inside).mp member
    rw [Nat.div_lt_iff_lt_mul someKeys, Nat.div_mul_cancel whole] at held
    rw [List.getD_eq_getElem?_getD, List.getElem?_eq_getElem held]
    rfl
  have shown : grid.shown labels columns row key =
      (grid.cellsOn columns (labels.length / grid.keySize) row key).map
        (labels.getD · "") := by
    rw [shown_eq_cellsOn]
    exact List.filterMap_eq_map_iff_forall_eq_some.mpr found
  rw [shown]
  refine Yields.bind_ok (Yields.mapM_ok fun index member => ?_) (.pure _)
  exact .get (found index member)

/-- The blocks of label lines, by the numbers of their rows and keys. -/
theorem map_labelLines :
    (pieces columns (pieces grid.keySize labels)).map grid.labelLines =
      (List.range (visualRows columns (labels.length / grid.keySize))).map
        fun row => (List.range grid.keySize).map fun key =>
          grid.line (grid.shown labels columns row key) := by
  have count := length_rows someColumns someKeys whole
  apply List.ext_getElem?
  intro row
  rw [List.getElem?_map, List.getElem?_map]
  by_cases held : row < visualRows columns (labels.length / grid.keySize)
  · have even := Nat.mod_eq_zero_of_dvd whole
    rw [List.getElem?_range held, getElem?_visualRows
      (Nat.ne_of_gt someColumns) even ((lt_visualRows_iff someColumns).mp held)]
    apply congrArg some
    apply List.map_congr_left
    intro key member
    exact labelLine_eq_line even (List.mem_range.mp member)
  · rw [List.getElem?_eq_none, List.getElem?_eq_none]
    · rfl
    · rw [List.length_range]
      exact Nat.le_of_not_lt held
    · rw [count]
      exact Nat.le_of_not_lt held

theorem yields_checkedDraw :
    (grid.checkedDraw labels columns).Yields
      (.ok (grid.draw labels columns)) := by
  have wide : 2 ≤ grid.rowWidth columns := by
    rw [rowWidth]
    omega
  refine .bind_ok (.guarded (Nat.ne_of_gt someKeys) _) ?_
  refine .bind_ok (.guarded (Nat.ne_of_gt someColumns) _) ?_
  refine .bind_ok (.guarded wide _) ?_
  refine .bind_ok (.mapM_ok fun row _ => .mapM_ok fun key member =>
    yields_checkedLine someColumns someKeys whole (List.mem_range.mp member)) ?_
  rw [draw, map_labelLines someColumns someKeys whole]
  exact .pure _

end Draw

/-- No grid makes a division, an index or the subtraction fail when it is
drawn. -/
theorem yields_checkedRender (grid : Grid) (cells : List UInt16)
    (columns : Nat) :
    (grid.checkedRender cells columns).Yields (grid.render cells columns) := by
  unfold checkedRender
  by_cases noColumns : columns = 0
  · rw [if_pos noColumns, render, if_pos noColumns]
    exact .throw _
  by_cases noKeys : grid.keySize = 0
  · rw [if_neg noColumns, if_pos noKeys, render, if_neg noColumns,
      if_pos (.inl noKeys)]
    exact .throw _
  rw [if_neg noColumns, if_neg noKeys]
  refine .bind_ok (.guarded noKeys _) ?_
  by_cases whole : cells.length % grid.keySize = 0
  · rw [if_neg (not_not.mpr whole), render_of_whole noColumns noKeys whole]
    have labels : Yields (cells.zipIdx.mapM fun (value, index) =>
        grid.checkedLabel value index) (grid.labels cells) :=
      .mapM fun item _ => yields_checkedLabel noKeys item.1 item.2
    have draws : ∀ found, grid.labels cells = .ok found →
        (grid.checkedDraw found columns).Yields
          (.ok (grid.draw found columns)) := by
      intro found labelled
      apply yields_checkedDraw (Nat.pos_of_ne_zero noColumns)
        (Nat.pos_of_ne_zero noKeys)
      rw [length_labels labelled]
      exact Nat.dvd_of_mod_eq_zero whole
    have drawn := labels.bind draws
    cases outcome : grid.labels cells <;> rw [outcome] at drawn <;> exact drawn
  · rw [if_pos whole, render, if_neg noColumns, if_pos (.inr whole)]
    exact .throw _

end Grid

end SessionCapture
