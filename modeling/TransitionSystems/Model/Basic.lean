import TransitionSystems.Automaton
import TransitionSystems.System.Basic

/-!
# Models

A model file holds either a transition system or an automaton.
-/

namespace TransitionSystems

/-- What a model file holds. -/
inductive Model where
  | system (content : System)
  | automaton (content : Automaton)

/-- How an edge value is marked in a model file: with the name of its side in an open system, and
not at all in a closed one. -/
def edgeMark (field : Text) : Text :=
  if field = actionsField then
    []
  else if field = systemActionsField then
    "sys="
  else
    "env="

/-- The label of a state that is labeled with the empty set. -/
def emptyLabelWord : Text := "\x7b\x7d"

end TransitionSystems
