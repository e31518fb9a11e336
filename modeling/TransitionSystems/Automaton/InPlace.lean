import TransitionSystems.Automaton
import TransitionSystems.InPlace

/-!
# Automata, changed step by step

A call checks its arguments and then writes the containers of the automaton one after the other. A
guard that is read is written to the table before its edge is checked.
-/

namespace TransitionSystems.Automaton.InPlace

open TransitionSystems.InPlace

/-- A change of an automaton in place. -/
abbrev Action :=
  InPlace Automaton Unit

/-- Accepts the states of the automaton, on behalf of an operation. -/
def requireState (operation : Text) (state : Symbol) : Action :=
  check (·.requireState operation state)

/-- Adds a state unless it is there already. -/
def addState (state : Symbol) : Action :=
  write (·.addState state)

/-- Changes the initial states. -/
def changeInitial (change : OrderedSet → OrderedSet) (automaton : Automaton) : Automaton :=
  { automaton with initial := change automaton.initial }

/-- Changes the accepting states. -/
def changeAccepting (change : OrderedSet → OrderedSet) (automaton : Automaton) : Automaton :=
  { automaton with accepting := change automaton.accepting }

/-- Inserts states into a set of the automaton, on behalf of an operation, all of them or none. -/
def insertAll (operation : Text) (change : (OrderedSet → OrderedSet) → Automaton → Automaton)
    (states : List Symbol) : Action := do
  states.forM (requireState operation)
  states.forM fun state => write (change (·.insert state))

/-- Makes states initial, all of them or none. -/
def setInitial : List Symbol → Action :=
  insertAll "set_initial" changeInitial

/-- Makes states accepting, all of them or none. -/
def setAccepting : List Symbol → Action :=
  insertAll "set_accepting" changeAccepting

/-- Accepts two ends of an edge. -/
def requireEnds (source target : Symbol) : Action := do
  requireState "add_transition" source
  requireState "add_transition" target

/-- Adds an edge guarded by a formula of the table. -/
def addEdge (source target : Symbol) (guard : Nat) : Action := do
  requireEnds source target
  let _ ← check (·.guards.node guard)
  write fun automaton => { automaton with
    outgoing := automaton.outgoing.insert source
      ((automaton.positions source).push automaton.edges.size) }
  write fun automaton => { automaton with edges := automaton.edges.push ⟨source, target, guard⟩ }

/-- Reads a guard on a given line into the table. -/
def readGuard (guard : Text) (line : Nat) : InPlace Automaton Nat := do
  let (answer, guards) := (← get).guards.readText guard line
  write fun automaton => { automaton with guards := guards }
  ofExcept answer

/-- Adds an edge with a guard that is read from a text on a given line. -/
def addReadEdge (source target : Symbol) (guard : Text) (line : Nat := 1) : Action := do
  requireEnds source target
  addEdge source target (← readGuard guard line)

end TransitionSystems.Automaton.InPlace
