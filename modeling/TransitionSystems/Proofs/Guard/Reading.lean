import TransitionSystems.Proofs.Guard.Descent

/-!
# Reading guards into tables

A token sequence is read into a table exactly when it is a sentence of the grammar, and the number
that is the answer stands for the formula that the grammar derives. This is so for precedence
climbing as for the machine, since the two agree.
-/

namespace TransitionSystems.Guard.Table

variable {table : Table}

theorem read_of_parse {tokens : List Token} {formula : Formula}
    (parsed : parse tokens = .ok formula) :
    table.read tokens = (.ok (table.insert formula).1, (table.insert formula).2) := by
  rw [read, parsed]

/-- Before the end of the input, precedence climbing and the machine read exactly the sentences of
the grammar. The number that is the answer stands for the formula that the grammar derives, and for
no other. -/
theorem Reachable.read_follows_grammar (reachable : table.Reachable) {tokens : List Token}
    {last : Token} (inside : ∀ token ∈ tokens, token.kind ≠ .endOfInput)
    (ends : last.kind = .endOfInput) :
    ∃ answer next, Descent.parse (tokens ++ [last]).toArray table = some (answer, next) ∧
      table.read (tokens ++ [last]) = (answer, next) ∧
      ((∃ number, answer = .ok number) ↔ ∃ formula, Derives .formula tokens formula) ∧
      ∀ number, answer = .ok number →
        ∀ formula, next.formula number = .ok formula ↔ Derives .formula tokens formula := by
  have climbs : Descent.parse (tokens ++ [last]).toArray table =
      some (table.read (tokens ++ [last])) :=
    Descent.parse_eq reachable.coherent (tokens ++ [last]).toArray
  have derives_iff (formula : Formula) :
      parse (tokens ++ [last]) = .ok formula ↔ Derives .formula tokens formula :=
    parse_eq_ok_iff inside ends
  refine ⟨(table.read (tokens ++ [last])).1, (table.read (tokens ++ [last])).2, climbs, rfl, ?_⟩
  cases parsed : parse (tokens ++ [last]) with
  | error failure =>
      have none (formula : Formula) : ¬Derives .formula tokens formula := by
        intro derives
        cases parsed.symm.trans ((derives_iff formula).2 derives)
      have failed (number : Nat) : (table.read (tokens ++ [last])).1 ≠ .ok number := by
        intro answer
        rw [Table.read, parsed] at answer
        cases answer
      simp [failed, none]
  | ok formula =>
      have derives : Derives .formula tokens formula := (derives_iff formula).1 parsed
      obtain ⟨coherent, -, denotes⟩ := reachable.coherent.insert formula
      rw [read_of_parse parsed]
      refine ⟨⟨fun _ => ⟨formula, derives⟩, fun _ => ⟨_, rfl⟩⟩, fun number answer other => ?_⟩
      obtain rfl := Except.ok.inj answer
      rw [coherent.formula_eq_ok_iff]
      constructor
      · intro denotes'
        rwa [← denotes.unique denotes']
      · intro derives'
        rwa [← derives.unique derives']

/-- The tokens of `!q & p` on their places in `p -> !q & p`. -/
def consequentTokens : List Token :=
  [⟨.bang, "!", ⟨1, 6⟩⟩, ⟨.identifier, "q", ⟨1, 7⟩⟩, ⟨.ampersand, "&", ⟨1, 9⟩⟩,
    ⟨.identifier, "p", ⟨1, 11⟩⟩]

/-- The tokens of `p -> !q & p` before the end of the input. -/
def implicationTokens : List Token :=
  [⟨.identifier, "p", ⟨1, 1⟩⟩] ++ ⟨.arrow, "->", ⟨1, 3⟩⟩ :: consequentTokens

/-- The formula of `p -> !q & p`. -/
def implicationFormula : Formula :=
  .binary .implication (.atom "p") (.binary .conjunction (.negation (.atom "q")) (.atom "p"))

theorem derives_implicationFormula : Derives .formula implicationTokens implicationFormula := by
  have name {text : Text} (position : Position) :
      Derives .unary [⟨.identifier, text, position⟩] (.atom text) :=
    .primary (.atom rfl)
  have negated : Derives (.operand .conjunction)
      [⟨.bang, "!", ⟨1, 6⟩⟩, ⟨.identifier, "q", ⟨1, 7⟩⟩] (.negation (.atom "q")) :=
    .negation rfl (name ⟨1, 7⟩)
  have conjunction : Derives (.operand .disjunction) consequentTokens
      (.binary .conjunction (.negation (.atom "q")) (.atom "p")) :=
    .leftward (by decide) negated.operand rfl (name ⟨1, 11⟩)
  have consequent : Derives (.operand .implication) consequentTokens
      (.binary .conjunction (.negation (.atom "q")) (.atom "p")) :=
    conjunction.operand
  have antecedent : Derives (.operand .implication) [⟨.identifier, "p", ⟨1, 1⟩⟩] (.atom "p") :=
    .operand (.operand (name ⟨1, 1⟩))
  have implication : Derives (.operand .equivalence) implicationTokens implicationFormula :=
    .rightward antecedent rfl consequent.operand
  exact implication.operand

/-- The tokens of `p -> !q & p` are read into the initial table as the formula that they derive. -/
theorem exists_read_implication :
    ∃ number next,
      Descent.parse (implicationTokens ++ [({} : Token)]).toArray initial =
        some (.ok number, next) ∧
      initial.read (implicationTokens ++ [({} : Token)]) = (.ok number, next) ∧
      next.formula number = .ok implicationFormula := by
  have inside : ∀ token ∈ implicationTokens, token.kind ≠ .endOfInput := by decide
  have ends : ({} : Token).kind = .endOfInput := rfl
  obtain ⟨answer, next, climbs, read, reads, formula⟩ :=
    Reachable.read_follows_grammar .initial inside ends
  obtain ⟨number, rfl⟩ := reads.2 ⟨_, derives_implicationFormula⟩
  exact ⟨number, next, climbs, read, (formula number rfl _).2 derives_implicationFormula⟩

end TransitionSystems.Guard.Table
