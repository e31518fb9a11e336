import TransitionSystems.Guard.Parse

/-!
# The grammar of guards

Formulas are layered by how strongly their connectives bind. A chain of equivalences, disjunctions
or conjunctions is folded to the left, a chain of implications to the right:

    formula      = implication { "<->" implication }
    implication  = disjunction [ "->" implication ]
    disjunction  = conjunction { "|" conjunction }
    conjunction  = unary { "&" unary }
    unary        = "!" unary | primary
    primary      = "true" | "false" | identifier | "(" formula ")"
-/

namespace TransitionSystems.Guard

/-- The kind of the tokens that stand for a connective. -/
def Connective.tokenKind : Connective → TokenKind
  | .conjunction => .ampersand
  | .disjunction => .bar
  | .implication => .arrow
  | .equivalence => .doubleArrow

theorem connective?_eq_some_iff {kind : TokenKind} {connective : Connective} :
    kind.connective? = some connective ↔ kind = connective.tokenKind := by
  cases kind <;> cases connective <;> decide

/-- The layers of the grammar. -/
inductive Stratum where
  /-- Operands that one connective joins. -/
  | chain (connective : Connective)
  /-- An operand with negations in front of it. -/
  | unary
  /-- A constant, an atom or a formula in parentheses. -/
  | primary

namespace Stratum

/-- The layer of whole formulas. -/
def formula : Stratum :=
  .chain .equivalence

/-- The layer of the operands that a connective joins. -/
def operand : Connective → Stratum
  | .equivalence => .chain .implication
  | .implication => .chain .disjunction
  | .disjunction => .chain .conjunction
  | .conjunction => .unary

end Stratum

/-- The formula that a layer of the grammar derives for a token sequence. -/
inductive Derives : Stratum → List Token → Formula → Prop
  | truth {token : Token} (kind : token.kind = .truth) : Derives .primary [token] .truth
  | falsity {token : Token} (kind : token.kind = .falsity) : Derives .primary [token] .falsity
  | atom {token : Token} (kind : token.kind = .identifier) :
      Derives .primary [token] (.atom token.text)
  | parentheses {opening closing : Token} {tokens : List Token} {formula : Formula}
      (opens : opening.kind = .leftParenthesis) (inside : Derives .formula tokens formula)
      (closes : closing.kind = .rightParenthesis) :
      Derives .primary (opening :: (tokens ++ [closing])) formula
  | primary {tokens : List Token} {formula : Formula} (bare : Derives .primary tokens formula) :
      Derives .unary tokens formula
  | negation {bang : Token} {tokens : List Token} {formula : Formula} (kind : bang.kind = .bang)
      (negated : Derives .unary tokens formula) :
      Derives .unary (bang :: tokens) (.negation formula)
  | operand {connective : Connective} {tokens : List Token} {formula : Formula}
      (single : Derives (.operand connective) tokens formula) :
      Derives (.chain connective) tokens formula
  | leftward {connective : Connective} {front back : List Token} {sign : Token}
      {left right : Formula} (associates : connective ≠ .implication)
      (first : Derives (.chain connective) front left) (kind : sign.kind = connective.tokenKind)
      (last : Derives (.operand connective) back right) :
      Derives (.chain connective) (front ++ sign :: back) (.binary connective left right)
  | rightward {front back : List Token} {sign : Token} {left right : Formula}
      (first : Derives (.operand .implication) front left) (kind : sign.kind = .arrow)
      (rest : Derives (.chain .implication) back right) :
      Derives (.chain .implication) (front ++ sign :: back) (.binary .implication left right)

namespace Derives

variable {stratum : Stratum} {tokens : List Token} {formula : Formula}

theorem formula_of_unary (unary : Derives .unary tokens formula) :
    Derives .formula tokens formula :=
  operand (operand (operand (operand unary)))

/-- No sentence has the end of the input in it. -/
theorem kind_ne_endOfInput (derives : Derives stratum tokens formula) :
    ∀ token ∈ tokens, token.kind ≠ .endOfInput := by
  induction derives with
  | truth kind | falsity kind | atom kind => simp [kind]
  | parentheses opens _ closes induction =>
      simpa [opens, closes, or_imp, forall_and] using induction
  | primary _ induction | operand _ induction => exact induction
  | negation kind _ induction => simpa [kind] using induction
  | @leftward connective _ _ _ _ _ _ _ kind _ first last =>
      have sign : connective.tokenKind ≠ .endOfInput := by cases connective <;> decide
      simpa [kind, sign, or_imp, forall_and] using And.intro first last
  | rightward _ kind _ first rest =>
      simpa [kind, or_imp, forall_and] using And.intro first rest

end Derives

end TransitionSystems.Guard
