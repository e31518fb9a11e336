import Std.Data.ExtTreeMap
import TransitionSystems.Schema

/-!
# Transition systems

A transition system has states, some of them labeled with a set of propositions, initial states, and
transitions between states. States and transitions keep the order in which they came in, and no
transition is stored twice. Indices find the label of a state, the transitions that leave a state
and whether a transition is there.

Every change is checked against the states and the schema before anything is stored.
-/

namespace TransitionSystems

/-- A labeled edge between two states. -/
structure Transition where
  source : Symbol
  target : Symbol
  label : EdgeLabel := .unlabeled
  deriving DecidableEq, Inhabited

namespace Transition

/-- Compares two transitions by source, then target, then label. -/
def order : Transition → Transition → Ordering :=
  compareLex (compareOn source) (compareLex (compareOn target) (compareOn label))

instance : Ord Transition := ⟨order⟩

instance : Std.TransOrd Transition :=
  inferInstanceAs (Std.TransCmp
    (compareLex (compareOn source) (compareLex (compareOn target) (compareOn label))))

instance : Std.LawfulEqOrd Transition where
  eq_of_compare {left right} equal := by
    change order left right = .eq at equal
    rw [order, compareLex_eq_eq, compareLex_eq_eq] at equal
    simp only [compareOn, Std.LawfulEqOrd.compare_eq_iff_eq] at equal
    cases left
    cases right
    simp_all

end Transition

/-- A finite transition system with its indices. -/
structure System where
  schema : Schema
  name : Text
  /-- Whether products with the system give their states fresh names. -/
  isMutable : Bool
  /-- The states in the order of their insertion. -/
  states : Array Symbol
  /-- The label of every state, or nothing for a state that has not been labeled. -/
  labels : Std.ExtTreeMap Symbol (Option Label)
  initial : OrderedSet
  /-- The transitions in the order of their insertion. -/
  transitions : Array Transition
  /-- The transitions as a set. -/
  edges : Std.ExtTreeSet Transition
  /-- The positions of the transitions that leave a state, in ascending order. -/
  outgoing : Std.ExtTreeMap Symbol (Array Nat)
  /-- The pairs of states that product states with fresh names stand for. -/
  factors : Std.ExtTreeMap Symbol (Symbol × Symbol)

namespace System

/-- The system without states over a schema. -/
def empty (schema : Schema) (name : Text) (isMutable : Bool := false) : System where
  schema := schema
  name := name
  isMutable := isMutable
  states := #[]
  labels := ∅
  initial := .empty isMutable
  transitions := #[]
  edges := ∅
  outgoing := ∅
  factors := ∅

instance : Inhabited System := ⟨empty default []⟩

/-- The kind of the system. -/
def kind (system : System) : Kind :=
  system.schema.kind

/-- The propositions of the universe. -/
def propositions (system : System) : OrderedSet :=
  system.schema.propositions

/-- Whether a symbol is a state of the system. -/
def hasState (system : System) (state : Symbol) : Bool :=
  state ∈ system.labels

/-- Accepts the states of the system, on behalf of an operation. -/
def requireState (system : System) (operation : Text) (state : Symbol) : Except Error Unit :=
  if system.hasState state then
    .ok ()
  else
    .error (.unknownState operation state system.name)

/-! ## States and labels -/

/-- Adds a state without a label unless it is there already. -/
def addState (system : System) (state : Symbol) : System :=
  if system.hasState state then
    system
  else
    { system with
      states := system.states.push state
      labels := system.labels.insert state none }

/-- Adds states without labels one after the other. -/
def addStates (system : System) (states : List Symbol) : System :=
  states.foldl addState system

/-- Adds a state with a label, or labels a state that has no label yet. A state may be added again
with the label that it has. -/
def addLabeledState (system : System) (state : Symbol) (label : Label) : Except Error System := do
  system.schema.checkLabel label
  match system.labels[state]? with
  | none =>
    return { system with
      states := system.states.push state
      labels := system.labels.insert state (some label) }
  | some none => return { system with labels := system.labels.insert state (some label) }
  | some (some present) =>
    if present = label then
      return system
    else
      throw (.conflictingLabel state present label)

/-- Gives a state a label in place of the one that it may have. -/
def labelState (system : System) (state : Symbol) (label : Label) : Except Error System := do
  system.requireState "label_state" state
  system.schema.checkLabel label
  return { system with labels := system.labels.insert state (some label) }

/-- The label of a state; a state that has not been labeled, or does not exist, has none. -/
def label? (system : System) (state : Symbol) : Option Label :=
  system.labels[state]?.join

/-- The propositions that hold in a state: those of its label, if it has one. -/
def holding (system : System) (state : Symbol) : Label :=
  (system.label? state).getD ∅

/-- The propositions that hold in a state of the system. -/
def labelOf (system : System) (state : Symbol) : Except Error Label := do
  system.requireState "label_of" state
  return system.holding state

/-- Whether a state of the system has been labeled. -/
def isLabeled (system : System) (state : Symbol) : Except Error Bool := do
  system.requireState "is_labeled" state
  return (system.label? state).isSome

/-- Makes states initial, all of them or none. -/
def setInitial (system : System) (states : List Symbol) : Except Error System := do
  states.forM (system.requireState "set_initial")
  return { system with initial := system.initial.insertMany states }

/-! ## Transitions -/

/-- The positions of the transitions that leave a state. -/
def positions (system : System) (source : Symbol) : Array Nat :=
  system.outgoing.getD source #[]

/-- Adds a transition, its label arranged in the order of the schema, unless it is there already. -/
def addTransition (system : System) (source target : Symbol) (label : EdgeLabel := .unlabeled) :
    Except Error System := do
  system.requireState "add_transition" source
  system.requireState "add_transition" target
  system.schema.checkEdgeLabel label
  let transition : Transition := ⟨source, target, system.schema.arrange label⟩
  if transition ∈ system.edges then
    return system
  else
    return { system with
      transitions := system.transitions.push transition
      edges := system.edges.insert transition
      outgoing := system.outgoing.insert source
        ((system.positions source).push system.transitions.size) }

/-- The transitions that leave a state, in the order of their insertion. -/
def leaving (system : System) (source : Symbol) : List Transition :=
  (system.positions source).toList.filterMap (system.transitions[·]?)

/-- The transitions with a given source and a given target, where these are given, in the order of
their insertion. -/
def find (system : System) (source target : Option Symbol) : List Transition :=
  let candidates :=
    match source with
    | none => system.transitions.toList
    | some source => system.leaving source
  match target with
  | none => candidates
  | some target => candidates.filter (·.target = target)

/-! ## Universe, name and factors -/

/-- Adds propositions to the universe. -/
def growPropositions (system : System) (more : OrderedSet) : System :=
  { system with
    schema := { system.schema with propositions := system.schema.propositions.union more } }

/-- Adds values to the alphabet of a field. -/
def growAlphabet (system : System) (field : Text) (more : OrderedSet) : Except Error System := do
  return { system with schema := ← system.schema.modify field (·.union more) }

/-- Gives the system another name. -/
def rename (system : System) (name : Text) : System :=
  { system with name := name }

/-- Sets the mutability flag of the system. -/
def setMutable (system : System) (isMutable : Bool) : System :=
  { system with isMutable := isMutable }

/-- Records the pair that a state stands for. -/
def setFactors (system : System) (state first second : Symbol) : Except Error System := do
  system.requireState "set_factors" state
  return { system with factors := system.factors.insert state (first, second) }

/-- The pair that a state stands for: the recorded one, or the parts of a state that is a pair. -/
def factorsOf (system : System) (state : Symbol) : Option (Symbol × Symbol) :=
  match system.factors[state]?, state with
  | some factors, _ => some factors
  | none, .tuple [first, second] => some (first, second)
  | none, _ => none

/-! ## Kinds -/

/-- Accepts closed systems. -/
def requireClosed (system : System) : Except Error Unit :=
  match system.kind with
  | .closed => .ok ()
  | .opened => .error (.notClosed system.name)

/-- Accepts open systems. -/
def requireOpen (system : System) : Except Error Unit :=
  match system.kind with
  | .opened => .ok ()
  | .closed => .error (.notOpen system.name)

/-- Adds a transition with an action to a closed system. -/
def addAction (system : System) (source target action : Symbol) : Except Error System := do
  system.requireClosed
  system.addTransition source target (.action action)

/-- Adds a transition with an action of the system and one of its environment to an open system. -/
def addActions (system : System) (source target systemAction environmentAction : Symbol) :
    Except Error System := do
  system.requireOpen
  system.addTransition source target
    (.ofList [(systemActionsField, systemAction), (environmentActionsField, environmentAction)])

end System

/-- The operations on systems that are deliberately not provided. -/
def unsupportedOperations : List Text :=
  ["intersection", "difference", "composition", "project", "simulate", "is_simulation",
    "load_spin_automaton"]

end TransitionSystems
