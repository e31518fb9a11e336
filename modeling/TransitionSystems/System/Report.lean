import TransitionSystems.System.Basic

/-!
# Reports

The description of a system that is shown to people: its propositions, states with their labels,
initial states, alphabets and transitions, between ruled lines.
-/

namespace TransitionSystems.System

/-- A line of sixty dashes. -/
def rule : Text :=
  List.replicate 60 (45 : UInt8) ++ "\n"

/-- A state and its label on a line. -/
def stateLine (system : System) (state : Symbol) : Text :=
  "\t" ++ state.text ++ " : " ++ (system.holding state).text ++ "\n"

/-- A field and its alphabet in a paragraph. -/
def alphabetParagraph (entry : Text × OrderedSet) : Text :=
  entry.1 ++ ":\n\t" ++ entry.2.text ++ "\n\n"

/-- The label of a transition after a space; nothing for an unlabeled one. -/
def labelText (transition : Transition) : Text :=
  if transition.label.isEmpty then [] else " " ++ transition.label.text

/-- The ends of a transition and its label on a line. -/
def transitionLine (transition : Transition) : Text :=
  "\t" ++ transition.source.text ++ " -> " ++ transition.target.text ++ labelText transition ++
    "\n"

/-- The description of a system. -/
def text (system : System) : Text :=
  rule ++ "Finite Transition System (" ++ system.kind.name ++ ") : " ++ system.name ++ "\n" ++
    rule ++
    "Atomic Propositions:\n\t" ++ system.propositions.text ++ "\n\n" ++
    "States and State Labels (in 2^AP):\n" ++ system.states.toList.flatMap system.stateLine ++
    "\n" ++
    "Initial States:\n\t" ++ system.initial.text ++ "\n\n" ++
    system.schema.alphabets.entries.flatMap alphabetParagraph ++
    "Transitions & Labels:\n" ++ system.transitions.toList.flatMap transitionLine ++
    rule

end TransitionSystems.System
