import TransitionSystems.InPlace
import TransitionSystems.System.Update

/-!
# Updates, written step by step

An update checks its arguments and then writes the containers of the system one after the other.

A system can be merged into itself. The source is then the target, which is being written while the
source is read; so whatever is read is looked up in the system as it is at that moment.
-/

namespace TransitionSystems

/-- The alphabet of a field. A field that the kind lacks has no values. -/
def Schema.alphabetOf (schema : Schema) (field : Text) : OrderedSet :=
  (schema.alphabets.entries.lookup field).getD .empty

/-- Accepts systems of the same kind, on behalf of an operation. -/
def System.requireKindOf (operation : Text) (left right : System) : Except Error Unit :=
  if left.kind = right.kind then
    .ok ()
  else
    .error (.kindsDiffer operation left.kind left.name right.kind right.name)

namespace System.InPlace

open TransitionSystems.InPlace

/-- A change of a system in place. -/
abbrev Action :=
  InPlace System Unit

/-- Accepts the states of the system, on behalf of an operation. -/
def requireState (operation : Text) (state : Symbol) : Action :=
  check (·.requireState operation state)

/-! ## States and labels -/

/-- Adds a state without a label unless it is there already. -/
def addState (state : Symbol) : Action := do
  if (← get).hasState state then
    return
  write fun system => { system with states := system.states.push state }
  write fun system => { system with labels := system.labels.insert state none }

/-- Writes the label of a state. -/
def writeLabel (state : Symbol) (label : Label) : Action :=
  write fun system => { system with labels := system.labels.insert state (some label) }

/-- Adds a state with a label, or labels a state that has no label yet. -/
def addLabeledState (state : Symbol) (label : Label) : Action := do
  check (·.schema.checkLabel label)
  match (← get).labels[state]? with
  | none =>
    write fun system => { system with states := system.states.push state }
    writeLabel state label
  | some none => writeLabel state label
  | some (some present) =>
    if present = label then
      writeLabel state label
    else
      throw (.conflictingLabel state present label)

/-- Gives a state a label in place of the one that it may have. -/
def labelState (state : Symbol) (label : Label) : Action := do
  requireState "label_state" state
  check (·.schema.checkLabel label)
  writeLabel state label

/-- Makes states initial, all of them or none. -/
def setInitial (states : System → List Symbol) : Action := do
  forEach states (requireState "set_initial")
  forEach states fun state =>
    write fun system => { system with initial := system.initial.insert state }

/-! ## Transitions -/

/-- Adds a transition, its label arranged in the order of the schema, unless it is there already. -/
def addTransition (source target : Symbol) (label : EdgeLabel) : Action := do
  requireState "add_transition" source
  requireState "add_transition" target
  check (·.schema.checkEdgeLabel label)
  let transition : Transition := ⟨source, target, (← get).schema.arrange label⟩
  if transition ∈ (← get).edges then
    return
  write fun system => { system with edges := system.edges.insert transition }
  write fun system => { system with
    outgoing := system.outgoing.insert source
      ((system.positions source).push system.transitions.size) }
  write fun system => { system with transitions := system.transitions.push transition }

/-! ## Universe and factors -/

/-- Changes the propositions. -/
def changePropositions (change : OrderedSet → OrderedSet) (system : System) : System :=
  { system with
    schema := { system.schema with propositions := change system.schema.propositions } }

/-- Changes the alphabet of a field. -/
def changeAlphabet (field : Text) (change : OrderedSet → OrderedSet) (system : System) : System :=
  { system with
    schema := { system.schema with alphabets := system.schema.alphabets.modify field change } }

/-- Adds the elements of a set to a set of the system one after the other, and then its flag. -/
def unite (change : (OrderedSet → OrderedSet) → System → System) (more : System → OrderedSet) :
    Action := do
  forEach (fun system => (more system).toList) fun symbol => write (change (·.insert symbol))
  let flag := (more (← get)).isMutable
  write (change fun set => set.withMutable (set.isMutable || flag))

/-- Adds values to the alphabet of a field, which must be one of the kind's. -/
def growAlphabet (field : Text) (more : System → OrderedSet) : Action := do
  let _ ← check (·.schema.alphabet field)
  unite (changeAlphabet field) more

/-- Records the pair that a state stands for. -/
def setFactors (state first second : Symbol) : Action := do
  requireState "set_factors" state
  write fun system => { system with factors := system.factors.insert state (first, second) }

/-! ## Merges and updates -/

/-- Adds a state of a source, and its label unless it is empty. -/
def takeState (source : System → System) (state : Symbol) : Action := do
  addState state
  let label := (source (← get)).holding state
  if label.isEmpty then
    return
  else
    labelState state label

/-- Sets the mutability flag if it is set in a source. -/
def takeFlag (source : System → System) : Action := do
  if (source (← get)).isMutable then
    write (·.setMutable true)

/-- Adds everything of a source of the same kind. The source is looked up in the target: it is
another system, or the target itself. -/
def merge (source : System → System) : Action := do
  check fun target => requireKindOf "merge" target (source target)
  unite changePropositions fun target => (source target).propositions
  forEach (fun target => (source target).kind.fields) fun field =>
    growAlphabet field fun target => (source target).schema.alphabetOf field
  takeFlag source
  forEach (fun target => (source target).states.toList) (takeState source)
  setInitial fun target => (source target).initial.toList
  forEach (fun target => (source target).transitions.toList) fun transition =>
    addTransition transition.source transition.target transition.label

/-- Carries out one update. -/
def perform : Update → Action
  | .addState state => addState state
  | .addLabeledState state label => addLabeledState state label
  | .addStates states => states.forM addState
  | .labelState state label => labelState state label
  | .setInitial states => setInitial fun _ => states
  | .addTransition source target label => addTransition source target label
  | .addAction source target action => do
    check requireClosed
    addTransition source target (.action action)
  | .addActions source target systemAction environmentAction => do
    check requireOpen
    addTransition source target
      (.ofList [(systemActionsField, systemAction), (environmentActionsField, environmentAction)])
  | .growPropositions more => unite changePropositions fun _ => more
  | .growAlphabet field more => growAlphabet field fun _ => more
  | .setFactors state first second => setFactors state first second
  | .rename name => write (·.rename name)
  | .setMutable isMutable => write (·.setMutable isMutable)

end System.InPlace

end TransitionSystems
