/-!
# Vocabularies

A vocabulary names the attribute values of a challenge digit: one column of
labels for each key, such as shape or colour.  The label with index zero stands
for an absent attribute.  A registry holds the vocabularies a controller can
choose from, each under its own name: registering one changes what its name
stands for and nothing else.
-/

namespace SessionCapture

structure Column where
  key : String
  labels : List String
deriving DecidableEq, Repr

structure Vocabulary where
  name : String
  columns : List Column
deriving DecidableEq, Repr

namespace Vocabulary

def keyName? (vocabulary : Vocabulary) (key : Nat) : Option String :=
  vocabulary.columns[key]?.map (·.key)

def label? (vocabulary : Vocabulary) (key : Nat) (value : UInt16) :
    Option String :=
  vocabulary.columns[key]?.bind (·.labels[value.toNat]?)

/-- Whether each of the first `keySize` keys has at least `valSize` labels. -/
def covers (vocabulary : Vocabulary) (keySize valSize : UInt16) : Bool :=
  keySize.toNat ≤ vocabulary.columns.length &&
    (vocabulary.columns.take keySize.toNat).all
      (valSize.toNat ≤ ·.labels.length)

/-- The greatest number of characters in a label that a layout can address.
Values run from zero up to `valSize` itself. -/
def cellWidth (vocabulary : Vocabulary) (keySize valSize : UInt16) : Nat :=
  let labels := (vocabulary.columns.take keySize.toNat).flatMap
    (·.labels.take (valSize.toNat + 1))
  (labels.map String.length).foldl max 0

/-- Shape, foreground and background of a drawn figure. -/
def grid : Vocabulary where
  name := "grid"
  columns :=
    [⟨"shape",
        ["", "diamond", "Hrect", "Vrect", "circle", "tri-up", "tri-dwn",
          "tri-Rt", "tri-Lt", "square"]⟩,
      ⟨"fg colour", colours⟩,
      ⟨"bg colour", colours⟩]
where
  colours : List String :=
    ["", "red", "green", "blue", "yellow", "brown", "magenta", "cyan",
      "white", "orange"]

/-- The numerals from 0 to 99. -/
def gridNumeric : Vocabulary where
  name := "grid-numeric"
  columns := [⟨"Numeral", (List.range 100).map Nat.repr⟩]

end Vocabulary

structure Registry where
  vocabularies : List Vocabulary
deriving DecidableEq, Repr

namespace Registry

def empty : Registry :=
  ⟨[]⟩

def builtin : Registry :=
  ⟨[.grid, .gridNumeric]⟩

def names (registry : Registry) : List String :=
  registry.vocabularies.map (·.name)

def get? (registry : Registry) (name : String) : Option Vocabulary :=
  registry.vocabularies.find? (·.name = name)

/-- Takes the place of a vocabulary of the same name, or comes last. -/
def register (registry : Registry) (vocabulary : Vocabulary) : Registry :=
  if vocabulary.name ∈ registry.names then
    ⟨registry.vocabularies.map fun old =>
      if old.name = vocabulary.name then vocabulary else old⟩
  else
    ⟨registry.vocabularies ++ [vocabulary]⟩

private theorem find?_replaced {vocabulary : Vocabulary}
    {vocabularies : List Vocabulary}
    (member : vocabulary.name ∈ vocabularies.map (·.name)) :
    (vocabularies.map fun old =>
        if old.name = vocabulary.name then vocabulary else old).find?
          (·.name = vocabulary.name) = some vocabulary := by
  induction vocabularies with
  | nil => cases member
  | cons old rest induction =>
      rw [List.map_cons, List.find?_cons]
      by_cases same : old.name = vocabulary.name
      · simp [same]
      · have later : vocabulary.name ∈ rest.map (·.name) := by
          simpa [Ne.symm same] using member
        simpa [same] using induction later

private theorem find?_other {vocabulary : Vocabulary} {name : String}
    (different : vocabulary.name ≠ name) (vocabularies : List Vocabulary) :
    (vocabularies.map fun old =>
        if old.name = vocabulary.name then vocabulary else old).find?
          (·.name = name) = vocabularies.find? (·.name = name) := by
  induction vocabularies with
  | nil => rfl
  | cons old rest induction =>
      rw [List.map_cons, List.find?_cons, List.find?_cons, induction]
      by_cases same : old.name = vocabulary.name
      · simp [same, different]
      · simp [same]

/-- Registering a vocabulary changes what its own name stands for and nothing
else. -/
theorem get?_register (registry : Registry) (vocabulary : Vocabulary)
    (name : String) :
    (registry.register vocabulary).get? name =
      if vocabulary.name = name then some vocabulary
      else registry.get? name := by
  rw [register]
  by_cases wanted : vocabulary.name = name
  · subst wanted
    rw [if_pos rfl]
    split
    · next member => exact find?_replaced member
    · next absent =>
        have unheld : registry.get? vocabulary.name = none := by
          simpa [get?, names] using absent
        rw [get?] at unheld ⊢
        rw [List.find?_append, unheld]
        simp
  · rw [if_neg wanted]
    split
    · exact find?_other wanted registry.vocabularies
    · rw [get?, List.find?_append]
      simp [get?, wanted]

end Registry

end SessionCapture
