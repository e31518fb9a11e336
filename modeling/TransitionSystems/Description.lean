import TransitionSystems.System.Basic
import TransitionSystems.Text.Log

/-!
# Descriptions

A closed system described by plain lists. Labels are given for named states or in the order of the
states; edges carry no actions, or, when actions are given, exactly one each. A stem can be put in
front of the names of all states. Building checks the initial states first, then the labels, then
the edges, each in the order given.
-/

namespace TransitionSystems

/-- The labels of a description. -/
inductive Labeling where
  /-- Labels of named states. -/
  | named (pairs : List (Symbol × Label))
  /-- One label for each of the first states. -/
  | inOrder (labels : List Label)

namespace Labeling

/-- Labels with one proposition each, in the order of the states. -/
def singletons (propositions : List Symbol) : Labeling :=
  .inOrder (propositions.map fun proposition => .ofList [proposition])

/-- Whether labels are given in the order of the states. -/
def isPositional : Labeling → Bool
  | .named _ => false
  | .inOrder _ => true

end Labeling

/-- An edge of a description. -/
structure DescribedEdge where
  source : Symbol
  target : Symbol
  action : Option Symbol := none

/-- A closed system in plain lists. -/
structure Description where
  states : List Symbol := []
  initial : List Symbol := []
  propositions : List Symbol := []
  labeling : Labeling := .inOrder []
  /-- The actions; without them no edge carries one. -/
  actions : Option (List Symbol) := none
  edges : List DescribedEdge := []
  name : Text := "fts"
  /-- What is put in front of the name of every state. -/
  stem : Option Text := none

namespace Description

/-- The state of the system that a symbol stands for. -/
def stateOf (description : Description) (symbol : Symbol) : Symbol :=
  match description.stem with
  | none => symbol
  | some stem => .atom (stem ++ symbol.text)

/-- The described states with their labels; there must be no more labels than states. -/
def labeledStates (description : Description) : Except Error (List (Symbol × Label)) :=
  match description.labeling with
  | .named pairs => .ok pairs
  | .inOrder labels =>
    if labels.length ≤ description.states.length then
      .ok (description.states.zip labels)
    else
      .error (.labelCount labels.length description.states.length)

/-- Adds an edge, which must carry an action exactly when actions are given. -/
def addEdge (description : Description) (system : System) (edge : DescribedEdge) :
    Except Error System :=
  let source := description.stateOf edge.source
  let target := description.stateOf edge.target
  match description.actions, edge.action with
  | none, none => system.addTransition source target
  | none, some _ => .error (.unexpectedAction edge.source edge.target)
  | some _, none => .error (.missingAction edge.source edge.target)
  | some _, some action => system.addAction source target action

/-- The described system, or the first inconsistency of the description. -/
def build (description : Description) : Except Error System := do
  let schema : Schema :=
    .closed (.ofList description.propositions) (.ofList (description.actions.getD []))
  let unlabeled ←
    ((System.empty schema description.name).addStates
      (description.states.map description.stateOf)).setInitial
        (description.initial.map description.stateOf)
  let labeled ← (← description.labeledStates).foldlM
    (fun system (state, label) => system.labelState (description.stateOf state) label) unlabeled
  description.edges.foldlM description.addEdge labeled

/-! ## Log -/

/-- The message about a label. -/
def labelMessage (description : Description) (entry : Symbol × Label) : Text :=
  "Labeling state " ++ (description.stateOf entry.1).text ++ " with " ++ entry.2.text

/-- The message about an edge. -/
def edgeMessage (description : Description) (edge : DescribedEdge) : Text :=
  let source := (description.stateOf edge.source).text
  let target := (description.stateOf edge.target).text
  match edge.action with
  | none => "Added unlabeled edge " ++ source ++ " ---> " ++ target
  | some action => "Added labeled edge " ++ source ++ " ---[" ++ action.text ++ "]---> " ++ target

/-- The messages of a successful construction. -/
def messages (description : Description) : List Text :=
  let stem := description.stem.toList.map fun stem =>
    ("Prefix '" ++ stem ++ "' will be prepended to all states." : Text)
  let positional : List Text :=
    if description.labeling.isPositional then
      ["State labels given without states, zipping with states."]
    else
      []
  let labels := (description.labeledStates.toOption.getD []).map description.labelMessage
  stem ++ positional ++ labels ++ description.edges.map description.edgeMessage

/-- The log of a successful construction. -/
def log (description : Description) : Text :=
  description.messages.flatMap Text.logLine

end Description

end TransitionSystems
