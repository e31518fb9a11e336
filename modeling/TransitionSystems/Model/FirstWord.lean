import TransitionSystems.Model.Reader

/-!
# Reading with unchecked first words

The functions below skip a line only when it has no content. Of every other line they take the first
word without a look at how many words there are. An access to a word that is missing gives nothing,
and then nothing comes of the whole reading.
-/

namespace TransitionSystems.Model.FirstWord

/-- Reads a declaration into what has been read so far. -/
def enter (model : Option Model) (number : Nat) (content keyword : Text) (arguments : List Text) :
    Except Error Model :=
  match model with
  | none => declare number keyword arguments
  | some (.system current) => .system <$> readSystemLine number current keyword arguments
  | some (.automaton current) =>
    .automaton <$> readAutomatonLine number current content keyword arguments

/-- Reads a line into what has been read so far. -/
def readLine (model : Option Model) (number : Nat) (line : Text) :
    Option (Except Error (Option Model)) :=
  let content := line.content
  if content.isEmpty then
    some (.ok model)
  else do
    let words := content.words
    let keyword ← words[0]?
    return located number (some <$> enter model number content keyword (words.drop 1))

/-- Reads lines, the first of which has the given number, up to the first one that is wrong. -/
def readLines (model : Option Model) (number : Nat) :
    List Text → Option (Except Error (Option Model))
  | [] => some (.ok model)
  | line :: lines => do
    match ← readLine model number line with
    | .error error => return .error error
    | .ok next => readLines next (number + 1) lines

/-- The model that lines declare. -/
def ofLines (lines : List Text) : Option (Except Error Model) := do
  match ← readLines none 1 lines with
  | .error error => return .error error
  | .ok none => return .error .noDeclaration
  | .ok (some model) => return .ok model

end TransitionSystems.Model.FirstWord
