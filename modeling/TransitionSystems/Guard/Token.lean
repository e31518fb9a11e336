import TransitionSystems.Text.Basic

/-!
# Guard tokens

The lexemes of guard texts with their positions, and the ways in which a guard text can be wrong.
-/

namespace TransitionSystems.Guard

/-- What a lexeme is. -/
inductive TokenKind where
  | identifier
  | truth
  | falsity
  | bang
  | ampersand
  | bar
  | arrow
  | doubleArrow
  | leftParenthesis
  | rightParenthesis
  | endOfInput
  deriving DecidableEq, Inhabited

namespace TokenKind

/-- The kinds in the order of their numbers. -/
def all : List TokenKind :=
  [.identifier, .truth, .falsity, .bang, .ampersand, .bar, .arrow, .doubleArrow, .leftParenthesis,
    .rightParenthesis, .endOfInput]

/-- The description of a kind in messages. -/
def name : TokenKind → Text
  | .identifier => "identifier"
  | .truth => "true"
  | .falsity => "false"
  | .bang => "'!'"
  | .ampersand => "'&'"
  | .bar => "'|'"
  | .arrow => "'->'"
  | .doubleArrow => "'<->'"
  | .leftParenthesis => "'('"
  | .rightParenthesis => "')'"
  | .endOfInput => "end of input"

end TokenKind

/-- A line and a column, both counted from one. They have no bound here; unsigned words of 32 bits
hold the lines of texts of fewer than `2 ^ 32` lines, and the columns of guards of fewer than
`2 ^ 32 - 1` bytes. -/
structure Position where
  line : Nat := 1
  column : Nat := 1
  deriving DecidableEq, Inhabited

/-- A lexeme; the default one is the end of an input at its first column. -/
structure Token where
  kind : TokenKind := .endOfInput
  text : Text := []
  position : Position := {}
  deriving DecidableEq

/-- What is wrong with a guard text at the position where reading stops. -/
inductive GuardFault where
  /-- A byte that starts no token. -/
  | byte (found : UInt8)
  /-- The end of the input where an operand is due. -/
  | endOfInput
  /-- A token that starts no operand. -/
  | token (found : Text)
  /-- Something other than a closing parenthesis or an operator inside parentheses. -/
  | unclosed (found : TokenKind)
  /-- Something other than an operator after a complete formula. -/
  | trailing (found : Text)
  deriving DecidableEq

/-- The wording of a fault. -/
def GuardFault.text : GuardFault → Text
  | .byte found => "unexpected character '" ++ [found] ++ "'"
  | .endOfInput => "unexpected end of input"
  | .token found => "unexpected token '" ++ found ++ "'"
  | .unclosed found => "expected ')' to close '(', got " ++ found.name
  | .trailing found => "unexpected token '" ++ found ++ "' after formula"

end TransitionSystems.Guard
