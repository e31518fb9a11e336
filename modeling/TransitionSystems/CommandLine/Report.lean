import TransitionSystems.CommandLine.Options
import TransitionSystems.CommandLine.SelfCheck
import TransitionSystems.Model.Reader
import TransitionSystems.Model.Writer
import TransitionSystems.Product.Automaton
import TransitionSystems.Product.Systems
import TransitionSystems.System.Promela
import TransitionSystems.System.Report
import TransitionSystems.System.Update
import TransitionSystems.Text.Log

/-!
# Reports of the command

What the command prints and writes, as a function of its arguments and of the files that it reads.
The last thing that it does is to write a file; what it says about that depends on whether the file
can be written.
-/

namespace TransitionSystems.CommandLine

/-- A file to be written. -/
structure Saving where
  path : Text
  content : Text

/-- What the command prints on its two outputs, its exit code and the file that it writes at the
end. -/
structure Report where
  output : Text := []
  log : Text := []
  exitCode : Nat := 0
  saving : Option Saving := none

/-- The line about an error. -/
def errorLine (error : Error) : Text :=
  "ERROR: " ++ error.message ++ "\n"

namespace Report

/-- The report after its file has been written, or could not be. -/
def afterSaving (report : Report) (saved : Bool) : Report :=
  match report.saving with
  | none => report
  | some saving =>
    if saved then
      { report with output := report.output ++ "Promela : " ++ saving.path ++ "\n" }
    else
      { report with
        log := report.log ++ errorLine (.file saving.path .notOpenedForWriting)
        exitCode := 1 }

end Report

/-- What has been printed so far on the two outputs. -/
structure Printed where
  output : Text := []
  log : Text := []

/-- A part of the command, which prints and can fail. -/
abbrev Action := ExceptT Error (StateM Printed)

namespace Action

/-- Prints on the standard output. -/
def print (text : Text) : Action Unit :=
  modify fun printed => { printed with output := printed.output ++ text }

/-- Prints a log message if the options ask for messages. -/
def note (options : Options) (message : Text) : Action Unit :=
  if options.verbose then
    modify fun printed => { printed with log := printed.log ++ Text.logLine message }
  else
    pure ()

end Action

/-- The content of a file, or why it cannot be had. -/
abbrev Files := Text → Except FileFault Text

/-- The model in a file. -/
def load (files : Files) (path : Text) : Except Error Model :=
  match files path with
  | .ok content => Model.ofLines (Text.lines content)
  | .error fault => .error (.file path fault)

/-- The system in a file, which must not hold an automaton. -/
def asSystem (path : Text) : Model → Except Error System
  | .system content => .ok content
  | .automaton _ => .error (.automatonOperand path)

/-- The result of the command with the accepting states and the statistics of a product. -/
structure Combined where
  system : System
  accepting : Option OrderedSet := none
  stats : ProductStats := {}

/-- The synchronous product with a model. -/
def synchronous (left : System) : Model → Except Error Combined
  | .system right => do
    let product ← left.synchronousProduct right
    return { system := product.system, stats := product.stats }
  | .automaton right => do
    let product ← left.automatonProduct right
    return {
      system := product.system
      accepting := some product.accepting
      stats := product.stats }

/-- The asynchronous product with a model, which must be a system. -/
def asynchronous (left : System) : Model → Except Error Combined
  | .system right => do
    let product ← left.asynchronousProduct right
    return { system := product.system, stats := product.stats }
  | .automaton _ => .error (.unsupported "asynchronous product with an automaton")

/-- The first system with the content of the second model. -/
def merged (options : Options) (left : System) (right : Model) : Except Error Combined := do
  let (result, system) := left.merge (← asSystem options.second right)
  result
  return { system := system }

/-- Makes what the options ask for of the first system and the second file. -/
def combine (options : Options) (files : Files) (left : System) : Action Combined := do
  match options.combination with
  | none => return { system := left }
  | some combination =>
    Action.note options ("Loading " ++ options.second)
    let right ← load files options.second
    match combination with
    | .synchronous =>
      Action.note options "Synchronous product"
      synchronous left right
    | .asynchronous =>
      Action.note options "Asynchronous product"
      asynchronous left right
    | .merge =>
      Action.note options ("Merging " ++ options.second ++ " into " ++ options.first)
      merged options left right

/-- Prints the result and returns the file to be written. -/
def present (options : Options) (date : Text) (result : Combined) : Action (Option Saving) := do
  let system := result.system
  Action.note options
    ("Result has " ++ Text.ofNat system.states.size ++ " states and " ++
      Text.ofNat system.transitions.size ++ " transitions")
  Action.print (if options.dump then system.written else system.text)
  if let some accepting := result.accepting then
    Action.print ("Accepting States:\n\t" ++ accepting.text ++ "\n")
  if options.stats && options.combination.isSome then
    Action.print result.stats.text
  if options.promela.isEmpty then
    return none
  else
    let content ← system.promelaFile date
    return some { path := options.promela, content := content }

/-- Prints an automaton, which cannot be exported. -/
def presentAutomaton (options : Options) (automaton : Automaton) : Action (Option Saving) := do
  if !options.promela.isEmpty then
    throw .automatonExport
  Action.print (if options.dump then automaton.written else automaton.text)
  return none

/-- The work of the command. -/
def work (options : Options) (files : Files) (date : Text) : Action (Option Saving) := do
  Action.note options ("Loading " ++ options.first)
  let model ← load files options.first
  match options.combination, model with
  | none, .automaton content => presentAutomaton options content
  | _, _ =>
    let left ← asSystem options.first model
    present options date (← combine options files left)

/-- The report of the command with given options. -/
def report (options : Options) (files : Files) (date : Text) : Report :=
  match (work options files date).run.run {} with
  | (.ok saving, printed) =>
    { output := printed.output, log := printed.log, saving := saving }
  | (.error error, printed) =>
    { output := printed.output, log := printed.log ++ errorLine error, exitCode := 1 }

/-- The report of the command with given arguments. -/
def respond (program : Text) (arguments : List Text) (files : Files) (date : Text) : Report :=
  match Options.ofArguments arguments with
  | .error error => { log := errorLine error ++ "\n" ++ usage program, exitCode := 1 }
  | .ok options =>
    if options.help then
      { log := usage program }
    else if options.selfCheck then
      let account := CheckRun.ofSuites selfCheckSuites
      { log := account.written ++ account.summary, exitCode := account.exitCode }
    else
      report options files date

end TransitionSystems.CommandLine
