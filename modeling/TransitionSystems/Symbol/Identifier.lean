import TransitionSystems.Error

/-!
# Identifiers

The identifier of a symbol in a model file is its compact form. Reading it is the work of a pushdown
machine that goes once over the bytes: its stack holds the parts of the tuples that are open, and
its control says whether an element is due, an atom is being read or an element is complete.
-/

namespace TransitionSystems.Symbol

/-- The byte `(`. -/
def opening : UInt8 := 40

/-- The byte `)`. -/
def closing : UInt8 := 41

/-- The byte `,`. -/
def comma : UInt8 := 44

/-- How far the current element has been read. -/
inductive Progress where
  /-- An element is due. -/
  | due
  /-- An atom is being read; its bytes so far, the last one first. -/
  | atom (bytes : Text)
  /-- An element is complete. -/
  | complete (symbol : Symbol)

/-- A position in an identifier: the progress in the current element, and the parts of the open
tuples around it, the innermost tuple and its last part first. -/
structure Reader where
  progress : Progress
  frames : List (List Symbol)

namespace Reader

/-- Before the first byte. -/
def start : Reader where
  progress := .due
  frames := []

/-- Goes over a byte that follows a complete element. -/
def afterElement (symbol : Symbol) (frames : List (List Symbol)) (byte : UInt8) :
    Except IdentifierFault Reader :=
  match frames with
  | [] => .error .trailing
  | parts :: outer =>
    if byte = comma then
      .ok ⟨.due, (symbol :: parts) :: outer⟩
    else if byte = closing then
      .ok ⟨.complete (.tuple (symbol :: parts).reverse), outer⟩
    else
      .error .malformed

/-- Goes over one byte. -/
def step (reader : Reader) (byte : UInt8) : Except IdentifierFault Reader :=
  match reader.progress with
  | .due =>
    if byte = opening then
      .ok ⟨.due, [] :: reader.frames⟩
    else if byte = comma ∨ byte = closing then
      .error .empty
    else
      .ok ⟨.atom [byte], reader.frames⟩
  | .atom bytes =>
    if byte = opening ∨ byte = comma ∨ byte = closing then
      afterElement (.atom bytes.reverse) reader.frames byte
    else
      .ok ⟨.atom (byte :: bytes), reader.frames⟩
  | .complete symbol => afterElement symbol reader.frames byte

/-- The symbol that ends with the input. -/
def finish (reader : Reader) : Except IdentifierFault Symbol :=
  match reader.progress, reader.frames with
  | .due, _ => .error .empty
  | .atom bytes, [] => .ok (.atom bytes.reverse)
  | .complete symbol, [] => .ok symbol
  | .atom _, _ :: _ => .error .unterminated
  | .complete _, _ :: _ => .error .unterminated

end Reader

/-- The symbol with a given identifier. -/
def ofIdentifier (word : Text) : Except Error Symbol :=
  match word.foldlM Reader.step Reader.start >>= Reader.finish with
  | .ok symbol => .ok symbol
  | .error fault => .error (.identifier word fault)

end TransitionSystems.Symbol
