import TransitionSystems.Text.Basic

/-!
# Log lines

Diagnostic messages are marked with the name of the program, one on a line.
-/

namespace TransitionSystems.Text

/-- A message as a line of the log. -/
def logLine (message : Text) : Text :=
  "[transys] " ++ message ++ "\n"

end TransitionSystems.Text
