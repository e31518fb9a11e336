import Std.Data.ExtTreeSet
import TransitionSystems.Symbol.Basic

/-!
# State labels

The label of a state is the finite set of the propositions that hold in it. Its elements are listed
in the order of symbols.
-/

namespace TransitionSystems

/-- A finite set of symbols. -/
abbrev Label := Std.ExtTreeSet Symbol

namespace Label

/-- The set of the listed symbols. -/
def ofList (symbols : List Symbol) : Label :=
  Std.ExtTreeSet.ofList symbols

/-- The elements between braces, in their order. -/
def text (label : Label) : Text :=
  Text.braced (label.toList.map Symbol.text)

end Label

end TransitionSystems
