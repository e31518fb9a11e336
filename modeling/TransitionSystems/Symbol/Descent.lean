import TransitionSystems.Symbol.Identifier

/-!
# Identifiers by recursive descent

An element is an atom, or a tuple whose parts are elements that are followed by a comma each, the
last one by the closing parenthesis. The functions below read an element and its parts at the
beginning of a text and return what remains of it. Every element takes at least one byte, so what
remains is shorter.
-/

namespace TransitionSystems.Symbol.Descent

/-- What remains of a text when something has been read at its beginning. -/
abbrev Rest (text : Text) :=
  {rest : Text // rest.length < text.length}

/-- Whether a byte belongs to an atom. -/
def isPlain (byte : UInt8) : Bool :=
  byte != opening && byte != comma && byte != closing

mutual

/-- Reads an element. -/
def element (text : Text) : Except IdentifierFault (Symbol × Rest text) :=
  match text with
  | [] => .error .empty
  | byte :: tail =>
    if byte = opening then
      match tuple [] tail with
      | .error fault => .error fault
      | .ok (parts, rest) => .ok (.tuple parts, ⟨rest.val, Nat.lt_succ_of_lt rest.property⟩)
    else if isPlain byte then
      .ok (.atom (byte :: tail.takeWhile isPlain),
        ⟨tail.dropWhile isPlain, Nat.lt_succ_of_le (List.dropWhile_sublist isPlain).length_le⟩)
    else
      .error .empty
termination_by (text.length, 0)

/-- Reads the parts of a tuple after `former` ones, up to the parenthesis that closes it. -/
def tuple (former : List Symbol) (text : Text) :
    Except IdentifierFault (List Symbol × Rest text) :=
  match element text with
  | .error fault => .error fault
  | .ok (_, ⟨[], _⟩) => .error .unterminated
  | .ok (part, ⟨byte :: tail, shorter⟩) =>
    have shorter : tail.length < text.length := Nat.lt_of_succ_lt shorter
    if byte = comma then
      match tuple (former ++ [part]) tail with
      | .error fault => .error fault
      | .ok (parts, rest) => .ok (parts, ⟨rest.val, Nat.lt_trans rest.property shorter⟩)
    else if byte = closing then
      .ok (former ++ [part], ⟨tail, shorter⟩)
    else
      .error .malformed
termination_by (text.length, 1)

end

/-- The symbol with a given identifier, which must be one element and nothing else. -/
def identify (word : Text) : Except IdentifierFault Symbol :=
  match element word with
  | .error fault => .error fault
  | .ok (symbol, ⟨[], _⟩) => .ok symbol
  | .ok (_, ⟨_ :: _, _⟩) => .error .trailing

end TransitionSystems.Symbol.Descent
