import TransitionSystems.Error

/-!
# Options

The arguments of the command, read from left to right. Options may stand anywhere and in any order;
the arguments that are no options name the model files. Whether the options make sense together is
judged at the end, unless help or the self-check is asked for.
-/

namespace TransitionSystems.CommandLine

/-- What is made of two models. -/
inductive Combination where
  | synchronous
  | asynchronous
  | merge
  deriving DecidableEq, Inhabited

/-- What the arguments ask for. -/
structure Options where
  /-- The first model file; empty while none is given. -/
  first : Text := []
  /-- The second model file; empty while none is given. -/
  second : Text := []
  combination : Option Combination := none
  /-- The file for the Promela text; empty when none is asked for. -/
  promela : Text := []
  dump : Bool := false
  stats : Bool := false
  verbose : Bool := false
  selfCheck : Bool := false
  help : Bool := false
  deriving DecidableEq, Inhabited

namespace Options

/-- Chooses what is made of two models; this can be chosen once. -/
def combine (options : Options) (argument : Text) (combination : Combination) :
    Except UsageFault Options :=
  match options.combination with
  | none => .ok { options with combination := some combination }
  | some _ => .error (.secondCombination argument)

/-- Takes a model file; an empty name is forgotten by the next one. -/
def addModel (options : Options) (argument : Text) : Except UsageFault Options :=
  if options.first.isEmpty then
    .ok { options with first := argument }
  else if options.second.isEmpty then
    .ok { options with second := argument }
  else
    .error .thirdModel

/-- Takes an argument that is not followed by a value. -/
def add (options : Options) (argument : Text) : Except UsageFault Options :=
  if argument = "--selftest" then
    .ok { options with selfCheck := true }
  else if argument = "--sync" then
    options.combine argument .synchronous
  else if argument = "--async" then
    options.combine argument .asynchronous
  else if argument = "--merge" then
    options.combine argument .merge
  else if argument = "--dump" then
    .ok { options with dump := true }
  else if argument = "--stats" then
    .ok { options with stats := true }
  else if argument = "--verbose" ∨ argument = "-v" then
    .ok { options with verbose := true }
  else if argument = "--help" ∨ argument = "-h" then
    .ok { options with help := true }
  else if argument.head? = some 45 then
    .error (.unknownOption argument)
  else
    options.addModel argument

/-- The option that takes the next argument as its value. -/
def promelaOption : Text := "--promela"

/-- Takes arguments from left to right. -/
def addAll (options : Options) : List Text → Except UsageFault Options
  | [] => .ok options
  | [argument] =>
    if argument = promelaOption then
      .error .promelaWithoutFile
    else
      options.add argument
  | argument :: value :: rest =>
    if argument = promelaOption then
      addAll { options with promela := value } rest
    else do
      addAll (← options.add argument) (value :: rest)

/-- Accepts options that make sense together. -/
def check (options : Options) : Except UsageFault Unit :=
  if options.selfCheck || options.help then
    .ok ()
  else if options.first.isEmpty then
    .error .noModel
  else if options.combination.isSome && options.second.isEmpty then
    .error .secondModelMissing
  else if options.combination.isNone && !options.second.isEmpty then
    .error .combinationMissing
  else
    .ok ()

/-- The options that arguments stand for. An argument ends before its first zero byte. -/
def ofArguments (arguments : List Text) : Except Error Options :=
  let read : Except UsageFault Options := do
    let options ← addAll {} (arguments.map (·.takeWhile (· != 0)))
    options.check
    return options
  match read with
  | .ok options => .ok options
  | .error fault => .error (.usage fault)

end Options

/-- The explanation of the command. -/
def usage (program : Text) : Text :=
  "Usage: " ++ program ++ " [OPTIONS] <model> [<model2>]\n" ++
    "       " ++ program ++ " --selftest\n" ++
    "\n" ++
    "Finite transition system toolkit.\n" ++
    "\n" ++
    "Options:\n" ++
    "  --sync            Synchronous product model * model2\n" ++
    "                    (model2 may be a Buchi automaton)\n" ++
    "  --async           Asynchronous product model | model2\n" ++
    "  --merge           Merge model2 into model\n" ++
    "  --promela <file>  Write the result as Promela\n" ++
    "  --dump            Print the result in the model format\n" ++
    "  --stats           Print product statistics\n" ++
    "  --verbose, -v     Diagnostic log on stderr\n" ++
    "  --selftest        Run built-in tests\n" ++
    "  --help, -h        Show this message\n" ++
    "\n" ++
    "Model format:\n" ++
    "  system closed|open <name> | automaton <name>, then one\n" ++
    "  declaration per line (ap, actions, state, initial, trans, ...).\n" ++
    "  Empty lines are ignored, everything after # is a comment.\n"

end TransitionSystems.CommandLine
