import TransitionSystems.Guard.Table

/-!
# Büchi automata

An automaton reads sequences of state labels. Its edges are guarded by formulas of a table that
belongs to the automaton, and some of its states are accepting. Parallel edges are all kept, in the
order in which they came in.
-/

namespace TransitionSystems

/-- An edge between two states, guarded by a formula of the table. -/
structure GuardedEdge where
  source : Symbol
  target : Symbol
  guard : Nat
  deriving DecidableEq, Inhabited

/-- A Büchi automaton with the table of its guards. -/
structure Automaton where
  name : Text
  guards : Guard.Table := .initial
  states : OrderedSet := .empty
  initial : OrderedSet := .empty
  accepting : OrderedSet := .empty
  edges : Array GuardedEdge := #[]
  /-- The positions of the edges that leave a state, in ascending order. -/
  outgoing : Std.ExtTreeMap Symbol (Array Nat) := ∅
  deriving Inhabited

namespace Automaton

/-- Accepts the states of the automaton, on behalf of an operation. -/
def requireState (automaton : Automaton) (operation : Text) (state : Symbol) :
    Except Error Unit :=
  if state ∈ automaton.states then
    .ok ()
  else
    .error (.unknownAutomatonState operation state)

/-- Adds a state unless it is there already. -/
def addState (automaton : Automaton) (state : Symbol) : Automaton :=
  { automaton with states := automaton.states.insert state }

/-- Makes states initial, all of them or none. -/
def setInitial (automaton : Automaton) (states : List Symbol) : Except Error Automaton := do
  states.forM (automaton.requireState "set_initial")
  return { automaton with initial := automaton.initial.insertMany states }

/-- Makes states accepting, all of them or none. -/
def setAccepting (automaton : Automaton) (states : List Symbol) : Except Error Automaton := do
  states.forM (automaton.requireState "set_accepting")
  return { automaton with accepting := automaton.accepting.insertMany states }

/-- The positions of the edges that leave a state. -/
def positions (automaton : Automaton) (source : Symbol) : Array Nat :=
  automaton.outgoing.getD source #[]

/-- Accepts two ends of an edge. -/
def requireEnds (automaton : Automaton) (source target : Symbol) : Except Error Unit := do
  automaton.requireState "add_transition" source
  automaton.requireState "add_transition" target

/-- Adds an edge guarded by a formula of the table. -/
def addEdge (automaton : Automaton) (source target : Symbol) (guard : Nat) :
    Except Error Automaton := do
  automaton.requireEnds source target
  let _ ← automaton.guards.node guard
  return { automaton with
    edges := automaton.edges.push ⟨source, target, guard⟩
    outgoing := automaton.outgoing.insert source
      ((automaton.positions source).push automaton.edges.size) }

/-- Adds an edge in place with a guard that is read from a text on a given line. A guard that cannot
be read adds no edge, but the formulas completed before its fault stay in the table. -/
def addReadEdge (automaton : Automaton) (source target : Symbol) (guard : Text) (line : Nat := 1) :
    Except Error Unit × Automaton :=
  match automaton.requireEnds source target with
  | .error error => (.error error, automaton)
  | .ok () =>
    match automaton.guards.readText guard line with
    | (.error error, guards) => (.error error, { automaton with guards := guards })
    | (.ok number, guards) =>
      let automaton := { automaton with guards := guards }
      match automaton.addEdge source target number with
      | .error error => (.error error, automaton)
      | .ok automaton => (.ok (), automaton)

/-- The edges that leave a state, in the order of their insertion. -/
def leaving (automaton : Automaton) (source : Symbol) : List GuardedEdge :=
  (automaton.positions source).toList.filterMap (automaton.edges[·]?)

/-- Whether the guard of an edge is true where exactly the propositions of a label hold. -/
def enables (automaton : Automaton) (label : Label) (edge : GuardedEdge) : Bool :=
  (automaton.guards.formula? edge.guard).any (·.holds label)

/-- The targets of the edges out of a state whose guards a label satisfies, each at its first edge.
-/
def targets (automaton : Automaton) (state : Symbol) (label : Label) : List Symbol :=
  (OrderedSet.ofList
    (((automaton.leaving state).filter (automaton.enables label)).map (·.target))).toList

/-- The targets out of a state of the automaton. -/
def successors (automaton : Automaton) (state : Symbol) (label : Label) :
    Except Error (List Symbol) := do
  automaton.requireState "successors" state
  return automaton.targets state label

/-- Gives the automaton another name. -/
def rename (automaton : Automaton) (name : Text) : Automaton :=
  { automaton with name := name }

/-- The written form of the guard of an edge. -/
def guardText (automaton : Automaton) (edge : GuardedEdge) : Text :=
  ((automaton.guards.formula? edge.guard).map Guard.Formula.text).getD []

/-- An edge and its guard on a line. -/
def edgeLine (automaton : Automaton) (edge : GuardedEdge) : Text :=
  "  " ++ edge.source.text ++ " -> " ++ edge.target.text ++ " : " ++ automaton.guardText edge ++
    "\n"

/-- The description of an automaton that is shown to people. -/
def text (automaton : Automaton) : Text :=
  "Buchi automaton : " ++ automaton.name ++ "\n" ++
    "States: " ++ automaton.states.text ++ "\n" ++
    "Initial: " ++ automaton.initial.text ++ "\n" ++
    "Accepting: " ++ automaton.accepting.text ++ "\n" ++
    automaton.edges.toList.flatMap automaton.edgeLine

end Automaton

end TransitionSystems
