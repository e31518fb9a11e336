import TransitionSystems.Symbol.Negation
import TransitionSystems.System.Basic

/-!
# Export to Promela

A closed system becomes a Promela process: every state is a label of the program, its block sets the
variables of the propositions, and a choice leads on to the targets of its transitions. Negated
propositions and the constant `true` have no variables of their own.
-/

namespace TransitionSystems.System

/-- Whether a symbol is the constant `true` or its negation. -/
def isConstant (symbol : Symbol) : Bool :=
  symbol = .truth || symbol.isNegated && symbol.unsignedName == Symbol.truth.name

/-- The declaration of the variable of a proposition. -/
def declaration (proposition : Symbol) : Text :=
  if proposition.isNegated || isConstant proposition then
    []
  else
    "bool " ++ proposition.text ++ ";\n"

/-- A choice of the initial state. -/
def initialChoice (state : Symbol) : Text :=
  "\t :: goto " ++ state.text ++ "\n"

/-- The assignments of the propositions that hold in a state, then those of the negated ones. -/
def assignments (label : Label) : Text :=
  let (negated, present) := (label.toList.filter (!isConstant ·)).partition (·.isNegated)
  Text.join " " (present.map fun symbol => symbol.text ++ " = 1;") ++
    Text.join " " (negated.map fun symbol => symbol.unsignedName ++ " = 0;")

/-- A choice of a transition. -/
def transitionChoice (transition : Transition) : Text :=
  "\t :: printf(\"" ++ transition.label.text ++ "\\n\");\n" ++
    "\t\t goto " ++ transition.target.text ++ "\n"

/-- The block of a state. -/
def stateBlock (system : System) (state : Symbol) : Text :=
  state.text ++ ":\n" ++
    "\t printf(\"State: " ++ state.text ++ "\\n\");\n" ++
    "\t atomic\x7b" ++ assignments (system.holding state) ++ "\x7d\n" ++
    "\t if\n" ++ (system.leaving state).flatMap transitionChoice ++ "\t fi;\n\n"

/-- The Promela text of a closed system as a process, named like the system unless a name is given.
-/
def promela (system : System) (process : Option Text := none) : Except Error Text :=
  match system.kind with
  | .opened => .error (.openExport system.name)
  | .closed =>
    .ok <|
      system.propositions.toList.flatMap declaration ++
        "\nactive proctype " ++ process.getD system.name ++ "()\x7b\n" ++
        "\t if\n" ++ system.initial.toList.flatMap initialChoice ++ "\t fi;\n" ++
        system.states.toList.flatMap system.stateBlock ++
        "\x7d\n"

/-- The file for the Promela text: the given one, or the name of the system with the ending `.pml`.
-/
def promelaPath (system : System) (path : Text) : Text :=
  if !path.isEmpty then
    path
  else if (Text.ofString ".pml").isSuffixOf system.name then
    system.name
  else
    system.name ++ ".pml"

/-- The Promela file of a system, headed by the date of its writing. -/
def promelaFile (system : System) (date : Text) : Except Error Text := do
  return "/*\n * Promela file generated with transys\n * Date: " ++ date ++ "\n */\n\n" ++
    (← system.promela)

end TransitionSystems.System
