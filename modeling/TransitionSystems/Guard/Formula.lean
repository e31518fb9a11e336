import Std.Data.ExtTreeSet
import TransitionSystems.Label

/-!
# Guard formulas

Guards of automaton edges are propositional formulas. A formula is written with parentheses around
every compound, and it is evaluated in a state label by taking the atoms outside the label to be
false.
-/

namespace TransitionSystems.Guard

/-- The binary connectives. -/
inductive Connective where
  | conjunction
  | disjunction
  | implication
  | equivalence
  deriving DecidableEq, Inhabited

namespace Connective

/-- The sign of a connective in a written formula. -/
def sign : Connective → Text
  | .conjunction => "&"
  | .disjunction => "|"
  | .implication => "->"
  | .equivalence => "<->"

/-- The truth table of a connective. -/
def apply : Connective → Bool → Bool → Bool
  | .conjunction, left, right => left && right
  | .disjunction, left, right => left || right
  | .implication, left, right => !left || right
  | .equivalence, left, right => left == right

end Connective

/-- A propositional formula over named atoms. -/
inductive Formula where
  | truth
  | falsity
  | atom (name : Text)
  | negation (formula : Formula)
  | binary (connective : Connective) (left right : Formula)
  deriving DecidableEq, Inhabited

namespace Formula

/-- The fully parenthesised form, `(p & (!q))`. -/
def text : Formula → Text
  | .truth => "true"
  | .falsity => "false"
  | .atom name => name
  | .negation formula => "(!" ++ formula.text ++ ")"
  | .binary connective left right =>
    "(" ++ left.text ++ " " ++ connective.sign ++ " " ++ right.text ++ ")"

/-- The names of the atoms from left to right. -/
def atoms : Formula → List Text
  | .truth | .falsity => []
  | .atom name => [name]
  | .negation formula => formula.atoms
  | .binary _ left right => left.atoms ++ right.atoms

/-- Whether a formula is true where exactly the propositions of the label are. -/
def holds (label : Label) : Formula → Bool
  | .truth => true
  | .falsity => false
  | .atom name => .atom name ∈ label
  | .negation formula => !formula.holds label
  | .binary connective left right => connective.apply (left.holds label) (right.holds label)

end Formula

end TransitionSystems.Guard
