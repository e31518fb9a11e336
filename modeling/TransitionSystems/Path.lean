import TransitionSystems.Symbol.Negation
import TransitionSystems.Description

/-!
# Lines and cycles

Systems whose states carry given labels one after the other: a line, numbered from some index, and a
cycle, which also leads back from the last state to the first. Their propositions are those of the
labels with their negations and `true`. They have no actions and no initial states.
-/

namespace TransitionSystems.Path

/-- The description of a line whose states are numbered from `start`. -/
def description (labels : List Label) (start : Int) : Except Error Description := do
  let occurring := OrderedSet.ofList (labels.flatMap (·.toList))
  let propositions ← Symbol.negationClosure occurring.toList
  let index (place : Nat) : Symbol := .atom (Text.ofInt (start + place))
  return {
    states := (List.range labels.length).map index
    propositions := propositions
    labeling := .inOrder labels
    edges := (List.range (labels.length - 1)).map fun place =>
      { source := index place, target := index (place + 1) }
    stem := some "s" }

/-- The line of states with the given labels, numbered from `start`. -/
def line (labels : List Label) (start : Int := 0) : Except Error System := do
  (← description labels start).build

/-- The state of a cycle with a number. -/
def state (number : Nat) : Symbol :=
  .atom ("s" ++ Text.ofNat number)

/-- The cycle of states with the given labels. -/
def cycle (labels : List Label) : Except Error System := do
  let system ← line labels
  if labels.isEmpty then
    return system
  else
    system.addTransition (state (labels.length - 1)) (state 0)

end TransitionSystems.Path
