import TransitionSystems.System.Basic

/-!
# Updates in place

Updates are the changes of a system as data. A sequence of updates is carried out on a system in
place: it stops at the first update that fails, and what came before it stays.

Merging a system into another of the same kind is such a sequence. It first grows the universe of
the target, so that everything the source holds is within it, and then adds the states, labels,
initial states and transitions of the source. A label of the source replaces that of the target
unless it is empty.
-/

namespace TransitionSystems

/-- A change of a system. -/
inductive Update where
  | addState (state : Symbol)
  | addLabeledState (state : Symbol) (label : Label)
  | addStates (states : List Symbol)
  | labelState (state : Symbol) (label : Label)
  | setInitial (states : List Symbol)
  | addTransition (source target : Symbol) (label : EdgeLabel)
  | addAction (source target action : Symbol)
  | addActions (source target systemAction environmentAction : Symbol)
  | growPropositions (more : OrderedSet)
  | growAlphabet (field : Text) (more : OrderedSet)
  | setFactors (state first second : Symbol)
  | rename (name : Text)
  | setMutable (isMutable : Bool)

namespace System

/-- Carries out one update. -/
def perform (system : System) : Update → Except Error System
  | .addState state => .ok (system.addState state)
  | .addLabeledState state label => system.addLabeledState state label
  | .addStates states => .ok (system.addStates states)
  | .labelState state label => system.labelState state label
  | .setInitial states => system.setInitial states
  | .addTransition source target label => system.addTransition source target label
  | .addAction source target action => system.addAction source target action
  | .addActions source target systemAction environmentAction =>
    system.addActions source target systemAction environmentAction
  | .growPropositions more => .ok (system.growPropositions more)
  | .growAlphabet field more => system.growAlphabet field more
  | .setFactors state first second => system.setFactors state first second
  | .rename name => .ok (system.rename name)
  | .setMutable isMutable => .ok (system.setMutable isMutable)

/-- Carries out updates in order up to the first one that fails, with the system that is left. -/
def run (system : System) : List Update → Except Error Unit × System
  | [] => (.ok (), system)
  | update :: updates =>
    match system.perform update with
    | .ok next => next.run updates
    | .error error => (.error error, system)

/-- The updates that bring the universe and the flag of a system to another one. -/
def universeUpdates (source : System) : List Update :=
  [.growPropositions source.propositions] ++
    source.schema.alphabets.entries.map (fun entry => .growAlphabet entry.1 entry.2) ++
    if source.isMutable then [.setMutable true] else []

/-- The updates that bring a state to another system, and its label unless it is empty. -/
def stateUpdates (source : System) (state : Symbol) : List Update :=
  let label := source.holding state
  .addState state :: if label.isEmpty then [] else [.labelState state label]

/-- The update that brings a transition to another system. -/
def transitionUpdate (transition : Transition) : Update :=
  .addTransition transition.source transition.target transition.label

/-- The updates that bring everything of a system to another one. -/
def contents (source : System) : List Update :=
  source.universeUpdates ++ source.states.toList.flatMap source.stateUpdates ++
    [.setInitial source.initial.toList] ++ source.transitions.toList.map transitionUpdate

/-- Adds everything of a system to a system of the same kind. -/
def merge (target source : System) : Except Error Unit × System :=
  if target.kind = source.kind then
    target.run source.contents
  else
    (.error (.kindsDiffer "merge" target.kind target.name source.kind source.name), target)

end System

end TransitionSystems
