import SessionCapture.Proofs.CheckedGrids
import SessionCapture.Proofs.InPlace
import SessionCapture.Proofs.ReachedContexts
import SessionCapture.Proofs.RemarkCounts

/-!
# Arithmetic that meets no fault

Interpreting an event divides by sizes that an earlier event stated, and fills
the cells of a secret by their indexes.  Sizes are looked at only when a reset
is read and takes effect; that no later event divides by zero, or writes beyond
the cells, is an invariant of the contexts that events lead to.  In such a
context every event is interpreted without a fault, and a grid is refused for
want of columns only if it has no digits.
-/

namespace SessionCapture

open Checked (Yields)

namespace Checked

variable {ε α : Type}

def divWord (dividend divisor : UInt16) : Checked ε UInt16 :=
  guarded .zeroDivisor (divisor ≠ 0) (dividend / divisor)

def modWord (dividend divisor : UInt16) : Checked ε UInt16 :=
  guarded .zeroDivisor (divisor ≠ 0) (dividend % divisor)

def addWord (augend addend : UInt16) : Checked ε UInt16 :=
  guarded .overflow (augend.toNat + addend.toNat < UInt16.size)
    (augend + addend)

def set (items : List α) (index : Nat) (item : α) : Checked ε (List α) :=
  guarded .outOfBounds (index < items.length) (items.set index item)

def wholePieces (size : Nat) (items : List α) : Checked ε (List (List α)) :=
  guarded .zeroDivisor (size ≠ 0) (SessionCapture.wholePieces size items)

end Checked

/-! ## Secrets -/

/-- Writing into the first of the blank tuples fills it in. -/
theorem set_blank (filled : List UInt16) (count : Nat) {size key : Nat}
    (inside : key < size) (value : UInt16) :
    (filled ++ List.replicate ((count + 1) * size) 0).set
        (filled.length + key) value =
      (filled ++ (List.replicate size 0).set key value) ++
        List.replicate (count * size) 0 := by
  have within : key < (List.replicate size (0 : UInt16)).length := by
    rw [List.length_replicate]
    exact inside
  rw [List.set_append_right _ _ (Nat.le_add_right _ _),
    Nat.add_sub_cancel_left, Nat.succ_mul, Nat.add_comm,
    List.replicate_add, List.set_append_left _ _ within, List.append_assoc]

namespace Configuration

variable {configuration : Configuration} {entries : List UInt16}

def checkedRender (configuration : Configuration) (cells : List UInt16)
    (columns : Nat) : Checked Advisory (List String) :=
  (configuration.grid.checkedRender cells columns).adapt .grid

/-- Fills in the cells of the entries, the first of which is the one numbered
`digit`. -/
def fillSecret (configuration : Configuration) :
    Nat → List UInt16 → List UInt16 → Checked Advisory (List UInt16)
  | _, [], cells => pure cells
  | digit, entry :: entries, cells => do
      let layout := configuration.layout
      let key ← Checked.divWord entry layout.valSize
      let value ← Checked.modWord entry layout.valSize
      if layout.keySize ≤ key then
        throw (.secretKeyOutOfRange entry key layout.keySize)
      else do
        let shown ← Checked.addWord value 1
        let cells ← Checked.set cells
          (digit * configuration.keySize + key.toNat) shown
        configuration.fillSecret (digit + 1) entries cells

def checkedSecretGrid (configuration : Configuration)
    (entries : List UInt16) : Checked Advisory (List String) := do
  let blank := List.replicate (entries.length * configuration.keySize) 0
  let cells ← configuration.fillSecret 0 entries blank
  configuration.checkedRender cells entries.length

theorem yields_checkedRender (configuration : Configuration)
    (cells : List UInt16) (columns : Nat) :
    (configuration.checkedRender cells columns).Yields
      (configuration.render cells columns) :=
  (configuration.grid.yields_checkedRender cells columns).adapt Advisory.grid

section Usable

variable (usable : configuration.Usable)

include usable

theorem remainder_succ_lt (entry : UInt16) :
    (entry % configuration.layout.valSize).toNat + (1 : UInt16).toNat <
      UInt16.size := by
  have bound := configuration.layout.valSize.toNat_lt
  have below := Nat.mod_lt entry.toNat usable.valSize_pos
  rw [UInt16.toNat_mod]
  change _ + 1 < 65536
  omega

/-- Before an entry is filled in, the cells are those of the entries before it
and blanks for the others. -/
theorem yields_fillSecret (digit : Nat) (filled : List UInt16)
    (full : filled.length = digit * configuration.keySize) :
    (configuration.fillSecret digit entries
        (filled ++
          List.replicate (entries.length * configuration.keySize) 0)).Yields
      ((entries.mapM configuration.secretTuple).map fun tuples =>
        filled ++ tuples.flatten) := by
  induction entries generalizing digit filled with
  | nil =>
      rw [List.length_nil, Nat.zero_mul]
      exact .pure _
  | cons entry entries induction =>
      refine .bind_ok (.guarded usable.valSize_ne_zero _) ?_
      refine .bind_ok (.guarded usable.valSize_ne_zero _) ?_
      by_cases outside : configuration.layout.keySize ≤
          entry / configuration.layout.valSize
      · have refused : configuration.secretTuple entry =
            .error (.secretKeyOutOfRange entry _ _) := if_pos outside
        rw [if_pos outside, List.mapM_cons, refused]
        exact .throw _
      · have inside := UInt16.not_le.mp outside
        have key : (entry / configuration.layout.valSize).toNat <
            configuration.keySize := UInt16.lt_iff_toNat_lt.mp inside
        rw [if_neg outside]
        refine .bind_ok (.guarded (remainder_succ_lt usable entry) _) ?_
        refine .bind_ok (.guarded ?_ _) ?_
        · rw [List.length_append, List.length_replicate, full,
            List.length_cons, Nat.succ_mul]
          omega
        · rw [← full, List.length_cons, set_blank filled _ key]
          change Checked.Yields (configuration.fillSecret (digit + 1) entries
            ((filled ++ configuration.entryTuple entry) ++ _)) _
          have rest := induction (digit + 1)
            (filled ++ configuration.entryTuple entry) (by
              rw [List.length_append, full, length_entryTuple, Nat.succ_mul])
          rw [List.mapM_cons, secretTuple_of_inside inside]
          cases later : entries.mapM configuration.secretTuple with
          | error advisory =>
              rw [later] at rest
              exact rest
          | ok tuples =>
              rw [later] at rest
              change Yields _ (.ok (filled ++
                (configuration.entryTuple entry :: tuples).flatten))
              rw [List.flatten_cons, ← List.append_assoc]
              exact rest

theorem yields_checkedSecretGrid (entries : List UInt16) :
    (configuration.checkedSecretGrid entries).Yields
      (configuration.secretGrid entries) := by
  have filled : (configuration.fillSecret 0 entries _).Yields _ :=
    yields_fillSecret usable 0 [] (Nat.zero_mul _).symm
  have drawn := filled.bind (fun cells _ =>
    configuration.yields_checkedRender cells entries.length)
  rw [secretGrid]
  cases tuples : entries.mapM configuration.secretTuple <;>
    rw [tuples] at drawn <;> exact drawn

end Usable

end Configuration

/-! ## Events -/

namespace Context

variable {registry : Registry} {context : Context}

def checkedSecretGrid (context : Context) (entries : List UInt16) :
    Checked Advisory (List String) := do
  let configuration ← Checked.of context.configuration
  configuration.checkedSecretGrid entries

def checkedResponseGrid (context : Context) (digits : List UInt16) :
    Checked Advisory (List String) := do
  let configuration ← Checked.of context.configuration
  let tuples ← digits.mapM fun digit => Checked.of (context.resolveDigit digit)
  configuration.checkedRender tuples.flatten digits.length

def checkedNewSecret (context : Context) :
    List UInt16 → Checked PayloadError (List Remark)
  | [] => throw (.missing "validity flag")
  | flag :: entries => do
      let validity := if holds flag then "Valid" else "Invalid"
      let drawn ← (context.checkedSecretGrid entries).ending
      return .text s!"{validity} secret generated:" :: gridRemarks drawn

def checkedSubmit (context : Context) :
    List UInt16 → Checked PayloadError (List Remark)
  | [] => throw (.missing "correctness flag")
  | flag :: digits => do
      let verdict := if holds flag then "Correct" else "Incorrect"
      let drawn ← (context.checkedResponseGrid digits).ending
      return .text s!"{verdict} response submitted:" :: gridRemarks drawn

/-- There are no tuples of size zero. -/
def checkedStoreChallenge {ε : Type} (context : Context)
    (cells : List UInt16) (keySize : Nat) : Checked ε Context :=
  if keySize = 0 then
    return { context with challenge := #[] }
  else do
    let tuples ← Checked.wholePieces keySize cells
    return { context with challenge := tuples.toArray }

def checkedNewChallenge (context : Context) (cells : List UInt16) :
    Checked PayloadError (List Remark × Context) :=
  let heading := Remark.text "Valid challenge generated:"
  match context.configuration with
  | .error advisory => return ([heading, .note advisory], context)
  | .ok configuration => do
      if (← Checked.mod cells.length configuration.keySize) ≠ 0 then
        throw (.ragged cells.length configuration.layout.keySize)
      else do
        let drawn ← (configuration.checkedRender cells
          configuration.layout.gridX.toNat).ending
        let stored ← context.checkedStoreChallenge cells configuration.keySize
        return (heading :: gridRemarks drawn, stored)

/-- Other events have no step that is checked. -/
def checkedInterpret (context : Context) (kind : EventKind)
    (payload : List UInt16) : Checked InterpretError (List Remark × Context) :=
  let unchanged (remarks : List Remark) := (remarks, context)
  match kind with
  | .newSecret =>
      (unchanged <$> context.checkedNewSecret payload).adapt (.malformed kind)
  | .submit =>
      (unchanged <$> context.checkedSubmit payload).adapt (.malformed kind)
  | .newChallenge =>
      (context.checkedNewChallenge payload).adapt (.malformed kind)
  | _ => .of (context.interpret kind payload)

theorem yields_checkedStoreChallenge {ε : Type} (context : Context)
    (cells : List UInt16) (keySize : Nat) :
    (context.checkedStoreChallenge cells keySize : Checked ε Context).Yields
      (.ok (context.storeChallenge cells keySize)) := by
  unfold checkedStoreChallenge
  by_cases zero : keySize = 0
  · rw [if_pos zero, zero, storeChallenge, wholePieces, pieces_zero]
    exact .pure _
  · rw [if_neg zero]
    exact .bind_ok (.guarded zero _) (.pure _)

theorem yields_checkedResponseGrid (digits : List UInt16) :
    (context.checkedResponseGrid digits).Yields
      (context.responseGrid digits) := by
  refine (Yields.of _).bind fun configuration _ => ?_
  refine (Yields.mapM fun digit _ => .of _).bind fun tuples _ => ?_
  exact configuration.yields_checkedRender tuples.flatten digits.length

section Reached

variable (reached : context.Reached registry)

include reached

theorem yields_checkedSecretGrid (entries : List UInt16) :
    (context.checkedSecretGrid entries).Yields
      (context.secretGrid entries) := by
  refine (Yields.of _).bind fun configuration known => ?_
  have usable := reached.usable (state_of_configuration known)
  exact Configuration.yields_checkedSecretGrid usable entries

theorem yields_checkedNewChallenge (cells : List UInt16) :
    (context.checkedNewChallenge cells).Yields
      (context.newChallenge cells) := by
  unfold checkedNewChallenge newChallenge
  cases known : context.configuration with
  | error advisory => exact .pure _
  | ok configuration =>
      have usable := reached.usable (state_of_configuration known)
      refine .bind_ok (.guarded (Nat.ne_of_gt usable.keySize_pos) _) ?_
      by_cases whole : cells.length % configuration.keySize = 0
      · simp only [ne_eq, whole, not_true_eq_false, if_false, if_true]
        refine .bind_ok (configuration.yields_checkedRender _ _).ending ?_
        exact .bind_ok (yields_checkedStoreChallenge _ _ _) (.pure _)
      · simp only [ne_eq, whole, not_false_eq_true, if_true, if_false]
        exact .throw _

/-- No event makes a division, an index, a sum of words or the subtraction fail
when it is interpreted. -/
theorem yields_checkedInterpret (kind : EventKind) (payload : List UInt16) :
    (context.checkedInterpret kind payload).Yields
      (context.interpret kind payload) := by
  cases kind with
  | newSecret =>
      refine (Yields.map ?_ _).adapt _
      cases payload with
      | nil => exact .throw _
      | cons flag entries =>
          exact .bind_ok (yields_checkedSecretGrid reached entries).ending
            (.pure _)
  | submit =>
      refine (Yields.map ?_ _).adapt _
      cases payload with
      | nil => exact .throw _
      | cons flag digits =>
          exact .bind_ok (yields_checkedResponseGrid digits).ending (.pure _)
  | newChallenge =>
      exact (yields_checkedNewChallenge reached payload).adapt _
  | _ => exact .of _

end Reached

end Context

/-! ## Grids that are refused -/

/-- The advisory is not about cells that are no tuples, and it is about a grid
without columns only if there are none. -/
def Advisory.Regular (columns : Nat) (advisory : Advisory) : Prop :=
  (∀ cells keySize, advisory ≠ .grid (.ragged cells keySize)) ∧
    (advisory = .grid .noColumns → columns = 0)

namespace Configuration

variable {configuration : Configuration} {advisory : Advisory}

section Usable

variable (usable : configuration.Usable)

include usable

theorem regular_of_render {cells : List UInt16} {columns : Nat}
    (whole : configuration.keySize ∣ cells.length)
    (refused : configuration.render cells columns = .error advisory) :
    advisory.Regular columns := by
  unfold render at refused
  cases drawn : configuration.grid.render cells columns with
  | ok lines =>
      rw [drawn] at refused
      cases refused
  | error error =>
      rw [drawn] at refused
      cases refused
      cases Grid.render_eq_error_iff.mp drawn with
      | noColumns => exact ⟨nofun, fun _ => rfl⟩
      | ragged _ uneven =>
          exfalso
          rcases uneven with zero | uneven
          · exact Nat.ne_of_gt usable.keySize_pos zero
          · exact uneven whole
      | valueOutOfRange => exact ⟨nofun, nofun⟩

theorem regular_of_secretGrid {entries : List UInt16}
    (refused : configuration.secretGrid entries = .error advisory) :
    advisory.Regular entries.length := by
  unfold secretGrid at refused
  cases stated : entries.mapM configuration.secretTuple with
  | error outside =>
      rw [stated] at refused
      cases refused
      obtain ⟨entry, _, failed⟩ := exists_mem_of_mapM_error stated
      unfold secretTuple at failed
      dsimp only at failed
      split at failed
      · cases failed
        exact ⟨nofun, nofun⟩
      · cases failed
  | ok tuples =>
      rw [stated] at refused
      apply regular_of_render usable _ refused
      rw [length_flatten_of_mapM_ok (fun _ _ => length_secretTuple) stated]
      exact Nat.dvd_mul_right _ _

end Usable

end Configuration

namespace Context

variable {registry : Registry} {context : Context} {advisory : Advisory}

/-- Without a configuration there is no grid to refuse. -/
theorem regular_of_configured {α : Type} {columns : Nat}
    {next : Configuration → Except Advisory α}
    (refused : context.configuration >>= next = .error advisory)
    (each : ∀ configuration, context.state = .configured configuration →
      next configuration = .error advisory → advisory.Regular columns) :
    advisory.Regular columns := by
  cases known : context.configuration with
  | error unknown =>
      rw [known] at refused
      cases refused
      unfold configuration at known
      split at known
      · cases known
      · cases known
        exact ⟨nofun, nofun⟩
  | ok configuration =>
      rw [known] at refused
      exact each configuration (state_of_configuration known) refused

theorem regular_of_unresolved {digits : List UInt16} (columns : Nat)
    (failed : digits.mapM context.resolveDigit = .error advisory) :
    advisory.Regular columns := by
  obtain ⟨digit, _, unresolved⟩ := exists_mem_of_mapM_error failed
  unfold resolveDigit at unresolved
  split at unresolved
  · cases unresolved
  · cases unresolved
    exact ⟨nofun, nofun⟩

/-- A challenge that is told in a configured context splits into tuples. -/
theorem whole_of_newChallenge {cells : List UInt16} {remarks : List Remark}
    {next : Context} {configuration : Configuration}
    (success : context.newChallenge cells = .ok (remarks, next))
    (configured : context.state = .configured configuration) :
    cells.length % configuration.keySize = 0 := by
  unfold newChallenge at success
  rw [configuration_of_configured configured] at success
  dsimp only at success
  split at success
  · next whole => exact whole
  · cases success

section Reached

variable (reached : context.Reached registry)

include reached

theorem regular_of_secretGrid {entries : List UInt16}
    (refused : context.secretGrid entries = .error advisory) :
    advisory.Regular entries.length := by
  apply regular_of_configured refused
  intro configuration configured refused
  exact Configuration.regular_of_secretGrid (reached.usable configured) refused

theorem regular_of_responseGrid {digits : List UInt16}
    (refused : context.responseGrid digits = .error advisory) :
    advisory.Regular digits.length := by
  apply regular_of_configured refused
  intro configuration configured refused
  cases resolved : digits.mapM context.resolveDigit with
  | error unresolved =>
      rw [resolved] at refused
      cases refused
      exact regular_of_unresolved _ resolved
  | ok tuples =>
      rw [resolved] at refused
      apply Configuration.regular_of_render (reached.usable configured) _
        refused
      obtain ⟨events, rfl⟩ := reached
      rw [length_tuples configured (map_challengeDigit?_of_mapM resolved)]
      exact Nat.dvd_mul_right _ _

theorem regular_of_newChallenge {cells : List UInt16} {remarks : List Remark}
    {next : Context}
    (success : context.newChallenge cells = .ok (remarks, next))
    (noted : .note advisory ∈ remarks) : advisory.Regular 1 := by
  rw [remarks_newChallenge success, note_mem_iff] at noted
  apply regular_of_configured noted
  intro configuration configured refused
  have usable := reached.usable configured
  have whole := whole_of_newChallenge success configured
  obtain ⟨split, someColumns⟩ := Configuration.regular_of_render usable
    (Nat.dvd_of_mod_eq_zero whole) refused
  refine ⟨split, fun same => absurd (someColumns same) ?_⟩
  intro zero
  exact usable.gridX_ne_zero (UInt16.toNat_inj.mp zero)

end Reached

theorem regular_of_stateAfterReset {layout : Layout} {uiType : String}
    (noted : (stateAfterReset registry layout uiType).2 = some advisory) :
    advisory.Regular 1 := by
  unfold stateAfterReset at noted
  split at noted
  · cases noted
    exact ⟨nofun, nofun⟩
  · split at noted
    · cases noted
    · cases noted
      exact ⟨nofun, nofun⟩

theorem regular_of_controlReset {payload : List UInt16}
    {remarks : List Remark} {next : Context}
    (success : context.controlReset payload = .ok (remarks, next))
    (noted : .note advisory ∈ remarks) : advisory.Regular 1 := by
  obtain ⟨reset, _, rfl, _⟩ := controlReset_eq_ok_iff.mp success
  rw [List.mem_cons, List.mem_append] at noted
  rcases noted with heading | reported | noted
  · cases heading
  · simp at reported
  · obtain ⟨found, stated, same⟩ := List.mem_map.mp noted
    cases same
    exact regular_of_stateAfterReset (Option.mem_toList.mp stated)

theorem regular_of_formData {payload : List UInt16}
    (noted : .note advisory ∈ formData payload) : advisory.Regular 1 := by
  unfold formData at noted
  split at noted
  · simp at noted
  · simp only [List.mem_cons, reduceCtorEq, List.not_mem_nil, or_false,
      false_or, Remark.note.injEq] at noted
    rw [noted]
    exact ⟨nofun, nofun⟩

/-- What a further event can refuse to draw. -/
theorem regular_of_interpret (reached : context.Reached registry)
    {kind : EventKind} {payload : List UInt16} {remarks : List Remark}
    {next : Context}
    (success : context.interpret kind payload = .ok (remarks, next))
    (noted : .note advisory ∈ remarks) :
    ∃ columns, advisory.Regular columns ∧
      (columns = 0 → (kind = .newSecret ∨ kind = .submit) ∧
        ∃ flag, payload = [flag]) := by
  cases kind with
  | newSecret =>
      cases payload with
      | nil => cases success
      | cons flag entries =>
          cases success
          refine ⟨entries.length,
            regular_of_secretGrid reached (note_mem_iff.mp noted), ?_⟩
          intro empty
          rw [List.eq_nil_of_length_eq_zero empty]
          exact ⟨.inl rfl, flag, rfl⟩
  | submit =>
      cases payload with
      | nil => cases success
      | cons flag digits =>
          cases success
          refine ⟨digits.length,
            regular_of_responseGrid reached (note_mem_iff.mp noted), ?_⟩
          intro empty
          rw [List.eq_nil_of_length_eq_zero empty]
          exact ⟨.inr rfl, flag, rfl⟩
  | newChallenge =>
      exact ⟨1, regular_of_newChallenge reached (ok_of_mapError success) noted,
        nofun⟩
  | controlReset =>
      exact ⟨1, regular_of_controlReset (ok_of_mapError success) noted, nofun⟩
  | otherData =>
      cases success
      exact ⟨1, regular_of_formData noted, nofun⟩
  | timeSync =>
      match payload with
      | low :: high :: _ =>
          cases success
          simp at noted
      | [_] => cases success
      | [] => cases success
  | unknown tag => cases success
  | _ =>
      cases success
      simp at noted

/-- In every context that events lead to from a fresh one, the sizes of a
configured layout are such that interpreting any event meets no fault.  No grid
is refused as ragged, and one is refused for want of columns only where a secret
or a response names no digits. -/
theorem interpreting_meets_no_fault (registry : Registry)
    (events : List EventInput) :
    let context := (fresh registry).after events
    (∀ configuration, context.state = .configured configuration →
      let layout := configuration.layout
      layout.keySize ≠ 0 ∧ layout.valSize ≠ 0 ∧ layout.gridX ≠ 0 ∧
        layout.keySize.toNat ≤ configuration.vocabulary.columns.length) ∧
    ∀ kind payload,
      (context.checkedInterpret kind payload).run =
        .ok (context.interpret kind payload) ∧
      ∀ remarks, (context.step kind payload).1 = .ok remarks →
        (∀ cells keySize,
          .note (.grid (.ragged cells keySize)) ∉ remarks) ∧
        (.note (.grid .noColumns) ∈ remarks →
          (kind = .newSecret ∨ kind = .submit) ∧ ∃ flag, payload = [flag]) := by
  intro context
  have reached : context.Reached registry := ⟨events, rfl⟩
  constructor
  · intro configuration configured
    have usable := reached.usable configured
    exact ⟨usable.keySize_ne_zero, usable.valSize_ne_zero,
      usable.gridX_ne_zero, Vocabulary.keySize_le_of_covers usable.covers⟩
  · intro kind payload
    refine ⟨yields_checkedInterpret reached kind payload, ?_⟩
    intro remarks told
    rw [step_fst] at told
    cases outcome : context.interpret kind payload with
    | error error =>
        rw [outcome] at told
        cases told
    | ok interpreted =>
        obtain ⟨found, next⟩ := interpreted
        rw [outcome] at told
        cases told
        constructor
        · intro cells keySize noted
          obtain ⟨_, regular, _⟩ := regular_of_interpret reached outcome noted
          exact regular.1 cells keySize rfl
        · intro noted
          obtain ⟨_, regular, flagOnly⟩ :=
            regular_of_interpret reached outcome noted
          exact flagOnly (regular.2 rfl)

end Context

end SessionCapture
