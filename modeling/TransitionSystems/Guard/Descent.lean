import TransitionSystems.Guard.Table

/-!
# Reading guards by precedence climbing

The functions below read a formula from a vector of tokens and put every part of it into a table as
soon as the part is complete. A cursor stands at the token that comes next and does not move past an
end of the input. An access outside the vector gives nothing, and then nothing comes of the whole
computation.

Every expression takes at least one token, and the cursor never passes the end of the vector.
-/

namespace TransitionSystems.Guard

namespace Connective

/-- How strongly a connective binds. -/
def level : Connective → Nat
  | .equivalence => 1
  | .implication => 2
  | .disjunction => 3
  | .conjunction => 4

/-- Whether a chain of a connective is folded to the right. -/
def associatesRight : Connective → Bool
  | .implication => true
  | .equivalence | .disjunction | .conjunction => false

/-- The least level of the connectives in the right operand of a connective. -/
def rightLevel (connective : Connective) : Nat :=
  if connective.associatesRight then connective.level else connective.level + 1

end Connective

namespace Descent

/-- What comes of reading an expression at a place: its number, the table with it and the place
behind it, or an error and the table as it is by then. -/
inductive Outcome (tokens : Array Token) (start : Nat) where
  | done (number : Nat) (table : Table) (place : Nat) (moved : start < place)
      (inside : place ≤ tokens.size)
  | failed (error : Error) (table : Table)

/-- The token at a place, which is inside the vector then. -/
def peek (tokens : Array Token) (place : Nat) : Option {_token : Token // place < tokens.size} :=
  if present : place < tokens.size then some ⟨tokens[place], present⟩ else none

/-- The place behind a token that is taken. The cursor stays at an end of the input. -/
def behind (token : Token) (place : Nat) : Nat :=
  if token.kind = .endOfInput then place else place + 1

theorem behind_eq {token : Token} (inside : token.kind ≠ .endOfInput) (place : Nat) :
    behind token place = place + 1 :=
  if_neg inside

theorem lt_behind {token : Token} (inside : token.kind ≠ .endOfInput) (place : Nat) :
    place < behind token place := by
  rw [behind_eq inside]
  exact Nat.lt_succ_self place

theorem behind_le {place size : Nat} (token : Token) (present : place < size) :
    behind token place ≤ size := by
  rw [behind]
  split
  · exact Nat.le_of_lt present
  · exact present

theorem kind_ne_of_connective? {token : Token} {connective : Connective}
    (found : token.kind.connective? = some connective) : token.kind ≠ .endOfInput := by
  intro ends
  rw [ends] at found
  cases found

/-- Takes the parenthesis that closes a formula. -/
def close (tokens : Array Token) (start inner : Nat) (table : Table) (place : Nat)
    (moved : start < place) : Option (Outcome tokens start) := do
  let ⟨closing, present⟩ ← peek tokens place
  if closes : closing.kind = .rightParenthesis then
    have passed := lt_behind (fun ends => nomatch closes.symm.trans ends) place
    return .done inner table (behind closing place) (Nat.lt_trans moved passed)
      (behind_le closing present)
  else
    return .failed (.guard closing.position (.unclosed closing.kind)) table

mutual

/-- Reads operands that connectives of at least a level join. -/
def binary (tokens : Array Token) (least place : Nat) (table : Table) :
    Option (Outcome tokens place) := do
  match ← unary tokens place table with
  | .failed error table => return .failed error table
  | .done left table after moved inside => chain tokens least place left table after moved inside
termination_by (tokens.size - place, 2)

/-- Goes on behind a left operand. -/
def chain (tokens : Array Token) (least start left : Nat) (table : Table) (place : Nat)
    (moved : start < place) (inside : place ≤ tokens.size) : Option (Outcome tokens start) := do
  let ⟨sign, _present⟩ ← peek tokens place
  match found : sign.kind.connective? with
  | none => return .done left table place moved inside
  | some connective =>
    if connective.level < least then
      return .done left table place moved inside
    else
      have passed := lt_behind (kind_ne_of_connective? found) place
      match ← binary tokens connective.rightLevel (behind sign place) table with
      | .failed error table => return .failed error table
      | .done right table after moved' inside' =>
        match table.binary (.binary connective) left right with
        | .error error => return .failed error table
        | .ok (joined, table) =>
          chain tokens least start joined table after
            (Nat.lt_trans moved (Nat.lt_trans passed moved')) inside'
termination_by (tokens.size - place, 0)

/-- Reads an operand with the negations in front of it. -/
def unary (tokens : Array Token) (place : Nat) (table : Table) :
    Option (Outcome tokens place) := do
  let ⟨token, _present⟩ ← peek tokens place
  if bang : token.kind = .bang then
    have passed := lt_behind (fun ends => nomatch bang.symm.trans ends) place
    match ← unary tokens (behind token place) table with
    | .failed error table => return .failed error table
    | .done child table after moved inside =>
      match table.negation child with
      | .error error => return .failed error table
      | .ok (negated, table) =>
        return .done negated table after (Nat.lt_trans passed moved) inside
  else
    primary tokens place table
termination_by (tokens.size - place, 1)

/-- Reads a constant, an atom or a formula in parentheses. -/
def primary (tokens : Array Token) (place : Nat) (table : Table) :
    Option (Outcome tokens place) := do
  let ⟨token, present⟩ ← peek tokens place
  if ends : token.kind = .endOfInput then
    return .failed (.guard token.position .endOfInput) table
  else
    have passed := lt_behind ends place
    have inside := behind_le token present
    match token.kind with
    | .truth => return .done Table.truth table (behind token place) passed inside
    | .falsity => return .done Table.falsity table (behind token place) passed inside
    | .identifier =>
      let (number, table) := table.atom token.text
      return .done number table (behind token place) passed inside
    | .leftParenthesis =>
      match ← binary tokens 1 (behind token place) table with
      | .failed error table => return .failed error table
      | .done inner table after moved _ =>
        close tokens place inner table after (Nat.lt_trans passed moved)
    | _ => return .failed (.guard token.position (.token token.text)) table
termination_by (tokens.size - place, 0)

end

/-- The vector with an end of the input as its last token. -/
def terminate (tokens : Array Token) : Array Token :=
  if tokens.back?.any (·.kind = .endOfInput) then tokens else tokens.push {}

/-- Reads the formula of a token vector into a table. -/
def parse (tokens : Array Token) (table : Table) : Option (Except Error Nat × Table) := do
  let vector := terminate tokens
  match ← binary vector 1 0 table with
  | .failed error table => return (.error error, table)
  | .done number table place _ _ =>
    let ⟨next, _⟩ ← peek vector place
    if next.kind = .endOfInput then
      return (.ok number, table)
    else
      return (.error (.guard next.position (.trailing next.text)), table)

end Descent

end TransitionSystems.Guard
