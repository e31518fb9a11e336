import TransitionSystems.Automaton
import TransitionSystems.Product.Exploration

/-!
# Products of a system and an automaton

The automaton reads the labels of the states that the system enters. A pair of the product is
labeled with its automaton state, so the propositions of the product are the states of the
automaton, and it is accepting when its automaton state is.
-/

namespace TransitionSystems

/-- A product with its accepting states and the account of its exploration. -/
structure AutomatonProduct where
  system : System
  accepting : OrderedSet
  stats : ProductStats

namespace System

/-- The pairs of an initial state and a state that the automaton reaches by reading its label. -/
def initialRuns (system : System) (automaton : Automaton) : List (Symbol × Symbol) :=
  system.initial.toList.flatMap fun state =>
    automaton.initial.toList.flatMap fun control =>
      (automaton.targets control (system.holding state)).map fun target => (state, target)

/-- The system moves, and the automaton reads the label of the state that it enters. -/
def automatonMoves (system : System) (automaton : Automaton) (state control : Symbol) :
    List Move :=
  (system.leaving state).flatMap fun edge =>
    (automaton.targets control (system.holding edge.target)).map fun target =>
      ⟨edge.target, target, edge.label⟩

/-- The product of a closed system with an automaton. -/
def automatonProduct (system : System) (automaton : Automaton) :
    Except Error AutomatonProduct :=
  match system.schema.alphabets with
  | .opened _ _ => .error (.openFactor system.name)
  | .closed actions => do
    let rules : Rules := {
      initial := system.initialRuns automaton
      label := fun _ control => some (Label.ofList [control])
      moves := system.automatonMoves automaton
      bound :=
        (system.initial.size + system.transitions.size) *
          (automaton.initial.size + automaton.edges.size) }
    let result ← rules.explore
      (.empty (.closed automaton.states actions) (system.name ++ "*" ++ automaton.name)
        system.isMutable)
    let accepting := result.found.toList.filter (·.second ∈ automaton.accepting)
    return {
      system := result.system
      accepting := .ofList (accepting.map (·.state)) system.isMutable
      stats := result.stats }

end System

end TransitionSystems
