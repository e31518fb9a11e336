import TransitionSystems.Model.Basic

/-!
# Writing models

A model is written as one declaration on a line: the header, the universe, the states with their
labels, the initial states and the transitions. Empty sets are not written, and the set without
elements as a state label has a word of its own.
-/

namespace TransitionSystems

/-- A keyword and words on a line. -/
def declarationLine (keyword : Text) (words : List Text) : Text :=
  Text.join " " (keyword :: words) ++ "\n"

/-- A keyword and the elements of a set on a line; nothing for the empty set. -/
def setLine (keyword : Text) (set : OrderedSet) : Text :=
  if set.isEmpty then [] else declarationLine keyword (set.toList.map Symbol.compact)

namespace System

/-- The words for the label of a state. -/
def labelWords (system : System) (state : Symbol) : List Text :=
  match system.label? state with
  | none => []
  | some label => if label.isEmpty then [emptyLabelWord] else label.toList.map Symbol.compact

/-- The declaration of a state. -/
def writtenState (system : System) (state : Symbol) : Text :=
  declarationLine "state" (state.compact :: system.labelWords state)

/-- The declaration of a transition. -/
def writtenTransition (transition : Transition) : Text :=
  declarationLine "trans"
    (transition.source.compact :: transition.target.compact ::
      transition.label.entries.map fun entry => edgeMark entry.1 ++ entry.2.compact)

/-- The model file of a system. -/
def written (system : System) : Text :=
  declarationLine "system" [system.kind.name, system.name] ++
    (if system.isMutable then Text.ofString "mutable\n" else []) ++
    setLine "ap" system.propositions ++
    system.schema.alphabets.entries.flatMap (fun entry => setLine entry.1 entry.2) ++
    system.states.toList.flatMap system.writtenState ++
    setLine "initial" system.initial ++
    system.transitions.toList.flatMap writtenTransition

end System

namespace Automaton

/-- The declaration of an edge. -/
def writtenEdge (automaton : Automaton) (edge : GuardedEdge) : Text :=
  declarationLine "trans"
    [edge.source.compact, edge.target.compact, ":", automaton.guardText edge]

/-- The model file of an automaton. -/
def written (automaton : Automaton) : Text :=
  declarationLine "automaton" [automaton.name] ++
    setLine "state" automaton.states ++
    setLine "initial" automaton.initial ++
    setLine "accepting" automaton.accepting ++
    automaton.edges.toList.flatMap automaton.writtenEdge

end Automaton

/-- The model file of a model. -/
def Model.written : Model → Text
  | .system content => content.written
  | .automaton content => content.written

end TransitionSystems
