import TransitionSystems.Error

/-!
# Parsing guards

From the weakest connective to the strongest, `<->`, `->`, `|` and `&` join operands that are
constants, atoms, negations or formulas in parentheses. Chains of `->` associate to the right, all
others to the left.

A pushdown machine reads the tokens one at a time. For every open parenthesis it keeps a group: one
field for each stratum of the grammar, holding what has been completed of that stratum. A token that
the machine refuses is the first one that no formula can continue with. What had been completed by
then is part of the failure.
-/

namespace TransitionSystems.Guard

/-- The completed parts of the formula inside one pair of parentheses. -/
structure Group where
  /-- The chain of equivalences before the last `<->`. -/
  equivalences : Option Formula := none
  /-- The antecedents of the open implications, the last one first. -/
  antecedents : List Formula := []
  /-- The chain of disjunctions before the last `|`. -/
  disjunction : Option Formula := none
  /-- The chain of conjunctions before the last `&`. -/
  conjunction : Option Formula := none
  /-- The number of negations in front of the operand that is due. -/
  negations : Nat := 0

/-- Continues a chain to the right of its connective. -/
def chain (connective : Connective) : Option Formula → Formula → Formula
  | none, last => last
  | some before, last => .binary connective before last

namespace Group

/-- The operand with the negations in front of it. -/
def signed (group : Group) (operand : Formula) : Formula :=
  group.negations.repeat .negation operand

/-- The chain of conjunctions that ends with `last`. -/
def endConjunction (group : Group) (last : Formula) : Formula :=
  chain .conjunction group.conjunction last

/-- The chain of disjunctions that ends with `last`. -/
def endDisjunction (group : Group) (last : Formula) : Formula :=
  chain .disjunction group.disjunction (group.endConjunction last)

/-- The chain of implications that ends with `last`. -/
def endImplication (group : Group) (last : Formula) : Formula :=
  group.antecedents.foldl (fun consequent antecedent => .binary .implication antecedent consequent)
    (group.endDisjunction last)

/-- The formula of the group that ends with `last`. -/
def endFormula (group : Group) (last : Formula) : Formula :=
  chain .equivalence group.equivalences (group.endImplication last)

/-- The group after `last` and a connective. -/
def continueWith (group : Group) (last : Formula) : Connective → Group
  | .conjunction => { group with conjunction := some (group.endConjunction last) }
  | .disjunction =>
    { group with disjunction := some (group.endDisjunction last), conjunction := none }
  | .implication =>
    { group with
      antecedents := group.endDisjunction last :: group.antecedents
      disjunction := none
      conjunction := none }
  | .equivalence => { equivalences := some (group.endFormula last) }

/-- The completed formulas that still wait for their right sides, from left to right. -/
def pending (group : Group) : List Formula :=
  group.equivalences.toList ++ group.antecedents.reverse ++ group.disjunction.toList ++
    group.conjunction.toList

end Group

/-- What may come next. -/
inductive Due where
  /-- An operand. -/
  | operand
  /-- A connective or an end, after a complete operand. -/
  | connective (last : Formula)

/-- A place in the token sequence: what is due, the innermost group and the groups around it, from
the inside out. -/
structure Parser where
  due : Due := .operand
  group : Group := {}
  outer : List Group := []

/-- Why and where parsing stops, and the formulas that were complete by then, from left to right. -/
structure ParseFailure where
  position : Position
  fault : GuardFault
  complete : List Formula

/-- The connective of a token. -/
def TokenKind.connective? : TokenKind → Option Connective
  | .ampersand => some .conjunction
  | .bar => some .disjunction
  | .arrow => some .implication
  | .doubleArrow => some .equivalence
  | _ => none

namespace Parser

/-- The formulas that are complete, from left to right. -/
def complete (parser : Parser) : List Formula :=
  parser.outer.reverse.flatMap Group.pending ++
    match parser.due with
    | .operand => parser.group.pending
    | .connective last => [parser.group.endFormula last]

/-- Stops at a token. -/
def fail {α : Type} (parser : Parser) (token : Token) (fault : GuardFault) :
    Except ParseFailure α :=
  .error ⟨token.position, fault, parser.complete⟩

/-- The parser after an operand of the innermost group. -/
def afterOperand (group : Group) (outer : List Group) (operand : Formula) : Parser where
  due := .connective (group.signed operand)
  group := { group with negations := 0 }
  outer := outer

/-- Reads a token where an operand is due. -/
def readOperand (parser : Parser) (token : Token) : Except ParseFailure Parser :=
  match token.kind with
  | .bang =>
    .ok { parser with group := { parser.group with negations := parser.group.negations + 1 } }
  | .leftParenthesis => .ok { outer := parser.group :: parser.outer }
  | .truth => .ok (afterOperand parser.group parser.outer .truth)
  | .falsity => .ok (afterOperand parser.group parser.outer .falsity)
  | .identifier => .ok (afterOperand parser.group parser.outer (.atom token.text))
  | _ => parser.fail token (.token token.text)

/-- Reads a token after an operand. -/
def readConnective (parser : Parser) (last : Formula) (token : Token) :
    Except ParseFailure Parser :=
  match token.kind.connective?, parser.outer with
  | some connective, outer => .ok { group := parser.group.continueWith last connective, outer }
  | none, [] => parser.fail token (.trailing token.text)
  | none, group :: outer =>
    if token.kind = .rightParenthesis then
      .ok (afterOperand group outer (parser.group.endFormula last))
    else
      parser.fail token (.unclosed token.kind)

/-- Reads one token. -/
def read (parser : Parser) (token : Token) : Except ParseFailure Parser :=
  match parser.due with
  | .operand => parser.readOperand token
  | .connective last => parser.readConnective last token

/-- Reads the end of the input. -/
def finish (parser : Parser) (token : Token) : Except ParseFailure Formula :=
  match parser.due, parser.outer with
  | .operand, _ => parser.fail token .endOfInput
  | .connective last, [] => .ok (parser.group.endFormula last)
  | .connective _, _ :: _ => parser.fail token (.unclosed .endOfInput)

/-- Reads tokens up to the first end of the input; a sequence without one ends with the default
token. -/
def run (parser : Parser) : List Token → Except ParseFailure Formula
  | [] => parser.finish {}
  | token :: tokens =>
    if token.kind = .endOfInput then
      parser.finish token
    else
      match parser.read token with
      | .ok next => next.run tokens
      | .error failure => .error failure

end Parser

/-- The formula of a token sequence. -/
def parse (tokens : List Token) : Except ParseFailure Formula :=
  Parser.run {} tokens

end TransitionSystems.Guard
