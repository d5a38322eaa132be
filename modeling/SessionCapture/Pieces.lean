/-!
# Cutting a list into consecutive pieces

`pieces size items` cuts `items` from the front into pieces of `size` elements.
Only the last piece may be shorter, and no piece is empty.  There are no pieces
of size zero.  The pieces put together are the list, and the piece at an index
is what stands at that multiple of the size.
-/

namespace SessionCapture

variable {α : Type}

private def piecesOnto (size : Nat) (items : List α) (done : List (List α)) :
    List (List α) :=
  if items = [] ∨ size = 0 then
    done.reverse
  else
    piecesOnto size (items.drop size) (items.take size :: done)
termination_by items.length
decreasing_by
  rename_i continues
  have nonempty := List.length_pos_iff.mpr (fun empty => continues (.inl empty))
  have positive : size ≠ 0 := fun zero => continues (.inr zero)
  simp only [List.length_drop]
  omega

def pieces (size : Nat) (items : List α) : List (List α) :=
  piecesOnto size items []

/-- The pieces that have their full size. -/
def wholePieces (size : Nat) (items : List α) : List (List α) :=
  (pieces size items).filter (·.length = size)

private theorem piecesOnto_append (size : Nat) (items : List α)
    (done base : List (List α)) :
    piecesOnto size items (done ++ base) =
      base.reverse ++ piecesOnto size items done := by
  fun_induction piecesOnto size items done with
  | case1 items done stop =>
      rw [piecesOnto, if_pos stop, List.reverse_append]
  | case2 items done continues induction =>
      rw [piecesOnto, if_neg continues]
      exact induction

@[simp] theorem pieces_nil (size : Nat) : pieces size ([] : List α) = [] := by
  rw [pieces, piecesOnto]
  simp

@[simp] theorem pieces_zero (items : List α) : pieces 0 items = [] := by
  rw [pieces, piecesOnto]
  simp

theorem pieces_of_ne_nil {size : Nat} {items : List α}
    (positive : size ≠ 0) (nonempty : items ≠ []) :
    pieces size items =
      items.take size :: pieces size (items.drop size) := by
  rw [pieces, piecesOnto, if_neg (by simp [positive, nonempty])]
  exact piecesOnto_append size (items.drop size) [] [items.take size]

/-- Proves a property of all lists by cutting off one piece at a time. -/
private theorem pieces_induction {size : Nat} (positive : size ≠ 0)
    {motive : List α → Prop} (nil : motive [])
    (cut : ∀ items, items ≠ [] → motive (items.drop size) → motive items) :
    ∀ items, motive items := by
  intro items
  if empty : items = [] then
    rw [empty]
    exact nil
  else
    exact cut items empty
      (pieces_induction positive nil cut (items.drop size))
termination_by items => items.length
decreasing_by
  have nonempty := List.length_pos_iff.mpr empty
  simp only [List.length_drop]
  omega

theorem flatten_pieces {size : Nat} (positive : size ≠ 0) (items : List α) :
    (pieces size items).flatten = items := by
  induction items using pieces_induction positive with
  | nil => simp
  | cut items nonempty induction =>
      rw [pieces_of_ne_nil positive nonempty, List.flatten_cons, induction,
        List.take_append_drop]

/-- A short list is its own only piece. -/
theorem pieces_of_length_le {size : Nat} {items : List α}
    (nonempty : items ≠ []) (short : items.length ≤ size) :
    pieces size items = [items] := by
  have count := List.length_pos_iff.mpr nonempty
  have positive : size ≠ 0 := by omega
  rw [pieces_of_ne_nil positive nonempty, List.take_of_length_le short,
    List.drop_eq_nil_of_le short, pieces_nil]

/-- A list that falls into whole pieces does so whatever follows it. -/
theorem pieces_append {size : Nat} (positive : size ≠ 0) {front : List α}
    (whole : front.length % size = 0) (back : List α) :
    pieces size (front ++ back) = pieces size front ++ pieces size back := by
  induction front using pieces_induction positive with
  | nil => rw [pieces_nil, List.nil_append, List.nil_append]
  | cut front nonempty induction =>
      have count := List.length_pos_iff.mpr nonempty
      have enough : size ≤ front.length :=
        Nat.le_of_dvd count (Nat.dvd_of_mod_eq_zero whole)
      have rest : (front.drop size).length % size = 0 := by
        rw [List.length_drop, ← Nat.mod_eq_sub_mod enough]
        exact whole
      rw [pieces_of_ne_nil positive nonempty,
        pieces_of_ne_nil positive
          (List.append_ne_nil_of_left_ne_nil nonempty _),
        List.take_append_of_le_length enough,
        List.drop_append_of_le_length enough, induction rest]
      rfl

theorem getElem?_pieces {size : Nat} (positive : size ≠ 0) (items : List α)
    (index : Nat) :
    (pieces size items)[index]? =
      if size * index < items.length then
        some ((items.drop (size * index)).take size)
      else
        none := by
  induction items using pieces_induction positive generalizing index with
  | nil => simp
  | cut items nonempty induction =>
      rw [pieces_of_ne_nil positive nonempty]
      cases index with
      | zero => simp [List.length_pos_iff.mpr nonempty]
      | succ index =>
          rw [List.getElem?_cons_succ, induction, List.length_drop,
            List.drop_drop, Nat.mul_succ, Nat.add_comm (size * index)]
          congr 1
          exact propext (by omega)

/-- A whole number of pieces leaves no short one. -/
theorem length_of_mem_pieces {size : Nat} {items : List α}
    (whole : items.length % size = 0) :
    ∀ piece ∈ pieces size items, piece.length = size := by
  intro piece member
  by_cases zero : size = 0
  · rw [zero, pieces_zero] at member
    cases member
  · obtain ⟨index, found⟩ := List.mem_iff_getElem?.mp member
    rw [getElem?_pieces zero] at found
    split at found
    · next inside =>
        cases found
        obtain ⟨count, total⟩ := Nat.dvd_of_mod_eq_zero whole
        rw [total] at inside
        have before : index + 1 ≤ count := Nat.lt_of_mul_lt_mul_left inside
        have enough : size * index + size ≤ items.length := by
          rw [total, ← Nat.mul_succ]
          exact Nat.mul_le_mul_left size before
        rw [List.length_take, List.length_drop]
        omega
    · cases found

theorem wholePieces_eq_pieces {size : Nat} {items : List α}
    (whole : items.length % size = 0) :
    wholePieces size items = pieces size items := by
  rw [wholePieces, List.filter_eq_self]
  intro piece member
  exact decide_eq_true (length_of_mem_pieces whole piece member)

theorem length_pieces {size : Nat} (positive : size ≠ 0) (items : List α) :
    (pieces size items).length = (items.length + (size - 1)) / size := by
  induction items using pieces_induction positive with
  | nil =>
      rw [pieces_nil, List.length_nil, List.length_nil, Nat.zero_add,
        Nat.div_eq_of_lt (by omega)]
  | cut items nonempty induction =>
      have count := List.length_pos_iff.mpr nonempty
      rw [pieces_of_ne_nil positive nonempty, List.length_cons, induction,
        List.length_drop]
      by_cases last : items.length ≤ size
      · rw [Nat.div_eq_of_lt (by omega)]
        symm
        rw [Nat.div_eq_iff (by omega)]
        omega
      · rw [← Nat.add_div_right _ (by omega)]
        congr 1
        omega

theorem length_pieces_of_whole {size : Nat} (positive : size ≠ 0)
    {items : List α} (whole : items.length % size = 0) :
    (pieces size items).length = items.length / size := by
  obtain ⟨count, total⟩ := Nat.dvd_of_mod_eq_zero whole
  rw [length_pieces positive, total, Nat.mul_add_div (by omega),
    Nat.div_eq_of_lt (by omega), Nat.mul_div_cancel_left count (by omega)]
  rfl

end SessionCapture
