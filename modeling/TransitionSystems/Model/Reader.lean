import TransitionSystems.Model.Basic
import TransitionSystems.Symbol.Identifier
import TransitionSystems.Text.Lines

/-!
# Reading models

A model file is read line by line. Comments and blank lines are skipped, the first declaration says
whether the model is a system or an automaton, and every further declaration adds to the model.
Reading stops at the first line that is wrong, and the error names that line; later lines have no
influence on it.
-/

namespace TransitionSystems.Model

/-- The symbols that words identify. -/
def symbols (words : List Text) : Except Error (List Symbol) :=
  words.mapM Symbol.ofIdentifier

/-- The set of the symbols that words identify. -/
def symbolSet (words : List Text) : Except Error OrderedSet := do
  return .ofList (← symbols words)

/-! ## Headers -/

/-- The name of a system of a kind that is declared without a name. -/
def defaultName : Kind → Text
  | .closed => "fts"
  | .opened => "ofts"

/-- The kind that a word stands for. -/
def kindOf? (word : Text) : Option Kind :=
  [Kind.closed, Kind.opened].find? (·.name = word)

/-- Begins a system. -/
def declareSystem (number : Nat) (arguments : List Text) : Except Error Model :=
  match arguments with
  | [word] => declare word none
  | [word, name] => declare word (some name)
  | _ => .error (.line number .systemForm)
where
  declare (word : Text) (name : Option Text) : Except Error Model :=
    match kindOf? word with
    | none => .error (.line number (.systemKind word))
    | some kind => .ok (.system (.empty (.empty kind) (name.getD (defaultName kind))))

/-- Begins an automaton. -/
def declareAutomaton (number : Nat) (arguments : List Text) : Except Error Model :=
  match arguments with
  | [] => .ok (.automaton { name := "ba" })
  | [name] => .ok (.automaton { name := name })
  | _ => .error (.line number .automatonForm)

/-- Begins a model. -/
def declare (number : Nat) (keyword : Text) (arguments : List Text) : Except Error Model :=
  if keyword = "system" then
    declareSystem number arguments
  else if keyword = "automaton" then
    declareAutomaton number arguments
  else
    .error (.line number (.notDeclared keyword))

/-! ## Systems -/

/-- Reads a state with its label: without further words it is unlabeled. -/
def readState (number : Nat) (system : System) (arguments : List Text) : Except Error System :=
  match arguments with
  | [] => .error (.line number .stateForm)
  | identifier :: words => do
    let state ← Symbol.ofIdentifier identifier
    match words with
    | [] => return system.addState state
    | word :: more =>
      if word = emptyLabelWord then
        if more.isEmpty then
          system.addLabeledState state ∅
        else
          throw (.line number (.emptyLabelNotAlone identifier))
      else
        system.addLabeledState state (.ofList (← symbols words))

/-- Reads a word of an edge in an open system and sets the field of its side. -/
def readSide (number : Nat) (label : EdgeLabel) (word : Text) : Except Error EdgeLabel := do
  let key := word.takeWhile (· != 61)
  match word.dropWhile (· != 61) with
  | [] => throw (.line number (.edgeFieldForm word))
  | _ :: identifier =>
    let value ← Symbol.ofIdentifier identifier
    if key = "sys" then
      return label.set systemActionsField value
    else if key = "env" then
      return label.set environmentActionsField value
    else
      throw (.line number (.edgeField key))

/-- Reads the label of an edge: at most one action in a closed system, and the marked actions of
both sides in an open one. -/
def readEdgeLabel (number : Nat) (kind : Kind) (words : List Text) : Except Error EdgeLabel :=
  match kind, words with
  | .closed, [] => .ok .unlabeled
  | .closed, [word] => do return .action (← Symbol.ofIdentifier word)
  | .closed, _ => .error (.line number .tooManyActions)
  | .opened, words => words.foldlM (readSide number) .unlabeled

/-- Reads a transition. -/
def readTransition (number : Nat) (system : System) (arguments : List Text) :
    Except Error System :=
  match arguments with
  | source :: target :: words => do
    let source ← Symbol.ofIdentifier source
    let target ← Symbol.ofIdentifier target
    system.addTransition source target (← readEdgeLabel number system.kind words)
  | _ => .error (.line number .transitionForm)

/-- Reads an alphabet of the kind. -/
def readAlphabet (number : Nat) (system : System) (field : Text) (arguments : List Text) :
    Except Error System :=
  if field ∈ system.kind.fields then do
    system.growAlphabet field (← symbolSet arguments)
  else
    .error (.line number (.fieldNotAllowed field system.kind))

/-- Reads a declaration of a system. -/
def readSystemLine (number : Nat) (system : System) (keyword : Text) (arguments : List Text) :
    Except Error System :=
  if keyword = "mutable" then
    .ok (system.setMutable true)
  else if keyword = "ap" then do
    return system.growPropositions (← symbolSet arguments)
  else if keyword ∈ Kind.closed.fields ++ Kind.opened.fields then
    readAlphabet number system keyword arguments
  else if keyword = "state" then
    readState number system arguments
  else if keyword = "initial" then do
    system.setInitial (← symbols arguments)
  else if keyword = "trans" then
    readTransition number system arguments
  else
    .error (.line number (.systemKeyword keyword))

/-! ## Automata -/

/-- Reads an edge, whose guard is everything after the first colon. -/
def readGuardedEdge (number : Nat) (automaton : Automaton) (content : Text) :
    Except Error Automaton :=
  match Text.words (content.takeWhile (· != 58)), content.dropWhile (· != 58) with
  | [_, source, target], _ :: rest => do
    let guard := Text.trim rest
    if guard.isEmpty then
      throw (.line number .missingGuard)
    let source ← Symbol.ofIdentifier source
    let target ← Symbol.ofIdentifier target
    automaton.requireState "trans" source
    automaton.requireState "trans" target
    let added := automaton.addReadEdge source target guard number
    added.1
    return added.2
  | _, _ => .error (.line number .automatonTransitionForm)

/-- Reads a declaration of an automaton. -/
def readAutomatonLine (number : Nat) (automaton : Automaton) (content keyword : Text)
    (arguments : List Text) : Except Error Automaton :=
  if keyword = "state" then
    if arguments.isEmpty then
      .error (.line number .automatonStateForm)
    else do
      return (← symbols arguments).foldl Automaton.addState automaton
  else if keyword = "initial" then do
    automaton.setInitial (← symbols arguments)
  else if keyword = "accepting" then do
    automaton.setAccepting (← symbols arguments)
  else if keyword = "trans" then
    readGuardedEdge number automaton content
  else
    .error (.line number (.automatonKeyword keyword))

/-! ## Files -/

/-- Names the line of an error that does not name one itself. -/
def located {α : Type} (number : Nat) : Except Error α → Except Error α
  | .ok value => .ok value
  | .error error => .error (if error.isModelError then .atLine number error else error)

/-- Reads a line into what has been read so far. -/
def readLine (model : Option Model) (number : Nat) (line : Text) : Except Error (Option Model) :=
  let content := line.content
  match content.words with
  | [] => .ok model
  | keyword :: arguments =>
    located number <| some <$>
      match model with
      | none => declare number keyword arguments
      | some (.system current) => .system <$> readSystemLine number current keyword arguments
      | some (.automaton current) =>
        .automaton <$> readAutomatonLine number current content keyword arguments

/-- Reads lines, the first of which has the given number. -/
def readLines (model : Option Model) (number : Nat) : List Text → Except Error (Option Model)
  | [] => .ok model
  | line :: lines => do readLines (← readLine model number line) (number + 1) lines

/-- The model that lines declare. -/
def ofLines (lines : List Text) : Except Error Model := do
  match ← readLines none 1 lines with
  | some model => return model
  | none => throw .noDeclaration

end TransitionSystems.Model
