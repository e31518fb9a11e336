import TransitionSystems.Error

/-!
# Scanning guards

Cuts a guard text into tokens. At every place the scan takes the longest lexeme that starts there,
skips spaces, and stops at the first byte that starts no lexeme. The last token is the end of the
input, one column after the last byte.
-/

namespace TransitionSystems.Guard

/-- The spellings of the operators, no spelling after one of its beginnings. -/
def operators : List (Text × TokenKind) :=
  [("<->", .doubleArrow), ("->", .arrow), ("&&", .ampersand), ("||", .bar), ("&", .ampersand),
    ("|", .bar), ("!", .bang), ("(", .leftParenthesis), (")", .rightParenthesis)]

/-- The underscore and the letters. -/
def startsIdentifier (byte : UInt8) : Bool :=
  Text.isAlpha byte || byte == 95

/-- The underscore, the letters and the digits. -/
def continuesIdentifier (byte : UInt8) : Bool :=
  startsIdentifier byte || Text.isDigit byte

/-- The kind of a word: a constant in one of its two spellings, or an identifier. -/
def wordKind (word : Text) : TokenKind :=
  if word = "true" ∨ word = "True" then
    .truth
  else if word = "false" ∨ word = "False" then
    .falsity
  else
    .identifier

/-- The longest lexeme at the start of a text. -/
def lexeme? (source : Text) : Option (Text × TokenKind) :=
  if source.head?.any startsIdentifier then
    let word := source.takeWhile continuesIdentifier
    some (word, wordKind word)
  else
    operators.find? fun operator => operator.1.isPrefixOf source

/-- The tokens of a text that starts at `column`, of which the first `passing` bytes belong to a
lexeme that has been taken already. -/
def scan (line : Nat) : (column passing : Nat) → Text → Except Error (List Token)
  | column, _, [] => .ok [⟨.endOfInput, [], ⟨line, column⟩⟩]
  | column, passing + 1, _ :: rest => scan line (column + 1) passing rest
  | column, 0, byte :: rest =>
    if Text.isSpace byte then
      scan line (column + 1) 0 rest
    else
      match lexeme? (byte :: rest) with
      | none => .error (.guard ⟨line, column⟩ (.byte byte))
      | some (text, kind) => do
        let tokens ← scan line (column + 1) (text.length - 1) rest
        return ⟨kind, text, ⟨line, column⟩⟩ :: tokens

/-- The tokens of a guard text on a given line. -/
def tokenise (source : Text) (line : Nat := 1) : Except Error (List Token) :=
  scan line 1 0 source

end TransitionSystems.Guard
