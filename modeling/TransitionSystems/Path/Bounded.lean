import TransitionSystems.Path

/-!
# Lines with bounded indices

The indices of a line are computed in words of 32 bits with a sign. A sum that does not fit into a
word has no value, and a line whose indices have no values is not found.
-/

namespace TransitionSystems.Path.Bounded

/-- A word of 32 bits with a sign. -/
abbrev Word := Int32

/-- The sum of two words, if it fits into a word. -/
def add? (left right : Word) : Option Word :=
  let sum := left.toInt + right.toInt
  if Int32.minValue.toInt ≤ sum ∧ sum ≤ Int32.maxValue.toInt then
    some (.ofInt sum)
  else
    none

/-- A sum that has a value is the sum of the integers. -/
theorem add?_eq_some_iff {left right sum : Word} :
    add? left right = some sum ↔ sum.toInt = left.toInt + right.toInt := by
  have lower := sum.minValue_le_toInt
  have upper := sum.toInt_le
  rw [add?]
  constructor
  · intro found
    split at found
    · next fits =>
        obtain rfl := Option.some.inj found
        exact Int32.toInt_ofInt_of_le fits.1 (Int.lt_add_one_of_le fits.2)
    · cases found
  · intro same
    rw [if_pos (by omega), ← same, Int32.ofInt_toInt]

/-- The name of a state with a number. -/
def index (number : Word) : Symbol :=
  .atom (Text.ofInt number.toInt)

/-- Goes through the places of a line from one of them on, and appends its states and edges. -/
def collect (start count place : Word) (states : List Symbol) (edges : List DescribedEdge) :
    Option (List Symbol × List DescribedEdge) :=
  if place < count then
    match step : add? place 1 with
    | none => none
    | some next => do
      let number ← add? start place
      let edges ←
        if next < count then do
          let following ← add? number 1
          pure (edges ++ [{ source := index number, target := index following }])
        else
          pure edges
      collect start count next (states ++ [index number]) edges
  else
    some (states, edges)
termination_by (count.toInt - place.toInt).toNat
decreasing_by
  have below : place.toInt < count.toInt := Int32.lt_iff_toInt_lt.1 ‹_›
  have next : next.toInt = place.toInt + 1 := add?_eq_some_iff.1 step
  omega

/-- The line of states with the given labels, numbered from `start`, if its indices have values. -/
def line? (labels : List Label) (start : Word := 0) : Option (Except Error System) := do
  let (states, edges) ← collect start (.ofNat labels.length) 0 [] []
  return do
    let occurring := OrderedSet.ofList (labels.flatMap (·.toList))
    let propositions ← Symbol.negationClosure occurring.toList
    Description.build { states, propositions, labeling := .inOrder labels, edges, stem := some "s" }

/-- The cycle of states with the given labels, if the indices of its line have values. -/
def cycle? (labels : List Label) : Option (Except Error System) := do
  let line ← line? labels
  return do
    let system ← line
    if labels.isEmpty then
      return system
    else
      system.addTransition (state (labels.length - 1)) (state 0)

end TransitionSystems.Path.Bounded
