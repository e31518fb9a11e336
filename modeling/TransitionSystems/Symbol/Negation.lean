import TransitionSystems.Error

/-!
# Negated propositions

An atom whose name starts with `!` is the negation of the atom with the rest of the name. Negating
toggles the mark, so negating twice gives back every atom whose name has at most one mark in front.
-/

namespace TransitionSystems.Symbol

/-- The byte `!`, which starts the name of a negated proposition. -/
def negationMark : UInt8 := 33

/-- Whether a symbol is an atom whose name starts with the mark. -/
def isNegated : Symbol → Bool
  | .atom name => name.head? == some negationMark
  | .tuple _ => false

/-- The name of an atom without its negation mark. -/
def unsignedName (symbol : Symbol) : Text :=
  if symbol.isNegated then symbol.name.tail else symbol.name

/-- Toggles the negation mark of an atom; a tuple has no negation. -/
def negate : Symbol → Except Error Symbol
  | .atom name =>
    .ok (.atom (if (atom name).isNegated then name.tail else negationMark :: name))
  | .tuple parts => .error (.negatedTuple (.tuple parts))

/-- Each proposition followed by its negation, and the constant `true` at the end, every symbol at
its first occurrence. -/
def negationClosure (propositions : List Symbol) : Except Error (List Symbol) := do
  let signed ← propositions.mapM fun proposition => do
    return [proposition, ← proposition.negate]
  return (OrderedSet.ofList (signed.flatten ++ [truth])).toList

end TransitionSystems.Symbol
