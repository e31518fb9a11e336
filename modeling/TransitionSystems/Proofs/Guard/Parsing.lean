import TransitionSystems.Proofs.Guard.Grammar

/-!
# Parsing follows the grammar

The machine that reads guards accepts exactly the sentences of the grammar and answers with the
formula that the grammar derives.

Completeness is an induction on derivations: to everything that comes later, an expression that has
been read is as good as a single operand that denotes the same formula. Soundness is an invariant:
what has been read so far consists of beginnings of expressions, one for each completed part.
-/

namespace TransitionSystems.Guard

namespace Parser

/-- Reading tokens leads from one place to another. -/
def Reads (before : Parser) (tokens : List Token) (after : Parser) : Prop :=
  tokens.foldlM read before = .ok after

namespace Reads

variable {before middle after : Parser} {front back : List Token}

theorem append (first : before.Reads front middle) (second : middle.Reads back after) :
    before.Reads (front ++ back) after := by
  rw [Reads, List.foldlM_append, first]
  exact second

theorem single {token : Token} (reads : before.read token = .ok after) :
    before.Reads [token] after := by
  rw [Reads, List.foldlM_cons, reads]
  rfl

theorem cons {token : Token} (first : before.read token = .ok middle)
    (rest : middle.Reads back after) : before.Reads (token :: back) after :=
  (single first).append rest

end Reads

theorem read_connective {sign : Token} {connective : Connective}
    (kind : sign.kind = connective.tokenKind) (last : Formula) (group : Group)
    (outer : List Group) :
    read ⟨.connective last, group, outer⟩ sign =
      .ok ⟨.operand, group.continueWith last connective, outer⟩ := by
  have found : sign.kind.connective? = some connective := connective?_eq_some_iff.2 kind
  simp only [read, readConnective, found]

theorem read_closing {closing : Token} (kind : closing.kind = .rightParenthesis) (last : Formula)
    (group enclosing : Group) (outer : List Group) :
    read ⟨.connective last, group, enclosing :: outer⟩ closing =
      .ok (afterOperand enclosing outer (group.endFormula last)) := by
  simp [read, readConnective, kind, TokenKind.connective?]

/-- Tokens before the end of the input are read one after the other. -/
theorem run_append_endOfInput {tokens : List Token} {last : Token}
    (inside : ∀ token ∈ tokens, token.kind ≠ .endOfInput) (ends : last.kind = .endOfInput)
    (parser : Parser) :
    parser.run (tokens ++ [last]) =
      tokens.foldlM read parser >>= fun after => after.finish last := by
  induction tokens generalizing parser with
  | nil => exact if_pos ends
  | cons token tokens induction =>
      rw [List.forall_mem_cons] at inside
      rw [List.cons_append, run, if_neg inside.1, List.foldlM_cons]
      cases parser.read token with
      | error failure => rfl
      | ok next => exact induction inside.2 next

end Parser

/-! ## Every sentence is read -/

namespace Stratum

/-- The connectives that may follow a complete expression of a layer. -/
def followers : Stratum → List Connective
  | .unary | .primary | .chain .conjunction =>
    [.conjunction, .disjunction, .implication, .equivalence]
  | .chain .disjunction => [.disjunction, .implication, .equivalence]
  | .chain .implication | .chain .equivalence => [.equivalence]

end Stratum

theorem mem_followers {connective : Connective} (associates : connective ≠ .implication) :
    connective ∈ (Stratum.chain connective).followers := by
  cases connective with
  | implication => exact absurd rfl associates
  | conjunction | disjunction | equivalence => decide

namespace Group

/-- A group in which an expression of a layer may begin: nothing is pending that binds its first
operand more strongly than the expression does. -/
def Awaits (group : Group) : Stratum → Prop
  | .unary | .primary => True
  | .chain .conjunction => group.negations = 0 ∧ group.conjunction = none
  | .chain .disjunction | .chain .implication =>
    group.negations = 0 ∧ group.conjunction = none ∧ group.disjunction = none
  | .chain .equivalence => group = {}

/-- After the expression, the group goes on as `before` does after an operand that denotes the
formula. -/
structure Completes (before : Group) (stratum : Stratum) (formula : Formula) (after : Group)
    (last : Formula) : Prop where
  continueWith : ∀ connective ∈ stratum.followers,
    after.continueWith last connective =
      { before with negations := 0 }.continueWith (before.signed formula) connective
  endFormula : after.endFormula last =
    { before with negations := 0 }.endFormula (before.signed formula)

variable {group : Group}

theorem signed_negation (group : Group) (formula : Formula) :
    { group with negations := group.negations + 1 }.signed formula =
      group.signed (.negation formula) := by
  simp only [signed]
  induction group.negations with
  | zero => rfl
  | succ count induction => exact congrArg Formula.negation induction

theorem Awaits.operand {connective : Connective} (awaits : group.Awaits (.chain connective)) :
    group.Awaits (.operand connective) := by
  cases connective with
  | conjunction => trivial
  | disjunction => exact ⟨awaits.1, awaits.2.1⟩
  | implication => exact awaits
  | equivalence =>
      obtain rfl := awaits
      exact ⟨rfl, rfl, rfl⟩

theorem Awaits.negations {connective : Connective} (awaits : group.Awaits (.chain connective)) :
    group.negations = 0 := by
  cases connective with
  | conjunction | disjunction | implication => exact awaits.1
  | equivalence =>
      obtain rfl := awaits
      rfl

theorem Awaits.signed {connective : Connective} (awaits : group.Awaits (.chain connective))
    (formula : Formula) : group.signed formula = formula := by
  rw [Group.signed, awaits.negations]
  rfl

theorem Awaits.clear {connective : Connective} (awaits : group.Awaits (.chain connective)) :
    { group with negations := 0 } = group := by
  rw [← awaits.negations]

theorem Awaits.continueWith {connective : Connective} (awaits : group.Awaits (.chain connective))
    (first : Formula) :
    (group.continueWith first connective).Awaits (.operand connective) := by
  cases connective with
  | conjunction => trivial
  | disjunction => exact ⟨awaits.1, rfl⟩
  | implication => exact ⟨awaits.1, rfl, rfl⟩
  | equivalence => exact ⟨rfl, rfl, rfl⟩

theorem Awaits.continueWith_implication (awaits : group.Awaits (.chain .implication))
    (first : Formula) :
    (group.continueWith first .implication).Awaits (.chain .implication) :=
  ⟨awaits.1, rfl, rfl⟩

/-- A group that awaits a chain goes on after the chain as it does after one operand. -/
theorem completes_chain_iff {before after : Group} {connective : Connective}
    {formula last : Formula} (awaits : before.Awaits (.chain connective)) :
    before.Completes (.chain connective) formula after last ↔
      (∀ other ∈ (Stratum.chain connective).followers,
        after.continueWith last other = before.continueWith formula other) ∧
      after.endFormula last = before.endFormula formula := by
  constructor
  · intro completes
    have continueWith := completes.continueWith
    have endFormula := completes.endFormula
    rw [awaits.clear, awaits.signed] at continueWith endFormula
    exact ⟨continueWith, endFormula⟩
  · rintro ⟨continueWith, endFormula⟩
    rw [← awaits.clear, ← awaits.signed formula] at continueWith endFormula
    exact ⟨continueWith, endFormula⟩

theorem Completes.read_connective {before after : Group} {connective next : Connective}
    {formula last : Formula} {sign : Token}
    (completes : before.Completes (.chain connective) formula after last)
    (awaits : before.Awaits (.chain connective))
    (follows : next ∈ (Stratum.chain connective).followers) (kind : sign.kind = next.tokenKind)
    (outer : List Group) :
    Parser.read ⟨.connective last, after, outer⟩ sign =
      .ok ⟨.operand, before.continueWith formula next, outer⟩ := by
  rw [Parser.read_connective kind, ((completes_chain_iff awaits).1 completes).1 next follows]

theorem Completes.operand {before after : Group} {connective : Connective} {formula last : Formula}
    (completes : before.Completes (.operand connective) formula after last) :
    before.Completes (.chain connective) formula after last where
  endFormula := completes.endFormula
  continueWith other follows := by
    refine completes.continueWith other ?_
    cases connective <;> revert follows <;> revert other <;> decide

/-- A further operand makes a longer chain, which goes on as its formula does. -/
theorem Completes.leftward {before after : Group} {connective : Connective}
    {left right last : Formula} (awaits : before.Awaits (.chain connective))
    (associates : connective ≠ .implication)
    (completes : (before.continueWith left connective).Completes (.operand connective) right
      after last) :
    before.Completes (.chain connective) (.binary connective left right) after last := by
  have follows : ∀ other ∈ (Stratum.chain connective).followers,
      other ∈ (Stratum.operand connective).followers := by
    cases connective <;> decide
  rw [completes_chain_iff awaits]
  obtain ⟨equivalences, antecedents, disjunction, conjunction, negations⟩ := before
  obtain rfl : negations = 0 := awaits.negations
  cases connective with
  | implication => exact absurd rfl associates
  | conjunction =>
      obtain rfl : conjunction = none := awaits.2
      refine ⟨fun other member => ?_, completes.endFormula⟩
      rw [completes.continueWith other (follows other member)]
      cases other <;> rfl
  | disjunction =>
      obtain ⟨-, rfl : conjunction = none, rfl : disjunction = none⟩ := awaits
      refine ⟨fun other member => ?_, completes.endFormula⟩
      rw [completes.continueWith other (follows other member)]
      cases other with
      | conjunction => simp [Stratum.followers] at member
      | disjunction | implication | equivalence => rfl
  | equivalence =>
      obtain ⟨⟩ := awaits
      refine ⟨fun other member => ?_, completes.endFormula⟩
      obtain rfl := List.mem_singleton.1 member
      exact completes.continueWith .equivalence (follows _ member)

theorem Completes.rightward {before after : Group} {left right last : Formula}
    (awaits : before.Awaits (.chain .implication))
    (completes : (before.continueWith left .implication).Completes (.chain .implication) right
      after last) :
    before.Completes (.chain .implication) (.binary .implication left right) after last := by
  rw [completes_chain_iff awaits]
  obtain ⟨equivalences, antecedents, disjunction, conjunction, negations⟩ := before
  obtain ⟨rfl : negations = 0, rfl : conjunction = none, rfl : disjunction = none⟩ := awaits
  refine ⟨fun other member => ?_, completes.endFormula⟩
  obtain rfl := List.mem_singleton.1 member
  exact completes.continueWith .equivalence member

end Group

theorem completes_afterOperand (group : Group) (operand : Formula) :
    group.Completes .primary operand { group with negations := 0 } (group.signed operand) where
  continueWith _ _ := rfl
  endFormula := rfl

/-- An expression is read in every group in which it may begin. -/
theorem Derives.reads {stratum : Stratum} {tokens : List Token} {formula : Formula}
    (derives : Derives stratum tokens formula) (group : Group) (outer : List Group)
    (awaits : group.Awaits stratum) :
    ∃ after last,
      Parser.Reads ⟨.operand, group, outer⟩ tokens ⟨.connective last, after, outer⟩ ∧
      group.Completes stratum formula after last := by
  induction derives generalizing group outer with
  | truth kind | falsity kind | atom kind =>
      refine ⟨_, _, .single ?_, completes_afterOperand group _⟩
      rw [Parser.read, Parser.readOperand, kind]
      rfl
  | @parentheses opening closing tokens formula opens inside closes induction =>
      obtain ⟨after, last, reads, completes⟩ := induction {} (group :: outer) rfl
      have inner : after.endFormula last = formula := completes.endFormula
      have closed := Parser.read_closing closes last after group outer
      rw [inner] at closed
      refine ⟨_, _, .cons ?_ (reads.append (.single closed)), completes_afterOperand group _⟩
      rw [Parser.read, Parser.readOperand, opens]
  | primary _ induction =>
      obtain ⟨after, last, reads, completes⟩ := induction group outer trivial
      exact ⟨after, last, reads, completes.continueWith, completes.endFormula⟩
  | @negation bang tokens formula kind _ induction =>
      obtain ⟨after, last, reads, completes⟩ :=
        induction { group with negations := group.negations + 1 } outer trivial
      refine ⟨after, last, .cons ?_ reads, ?_⟩
      · rw [Parser.read, Parser.readOperand, kind]
      · have continueWith := completes.continueWith
        have endFormula := completes.endFormula
        rw [Group.signed_negation] at continueWith endFormula
        exact ⟨continueWith, endFormula⟩
  | operand _ induction =>
      obtain ⟨after, last, reads, completes⟩ := induction group outer awaits.operand
      exact ⟨after, last, reads, completes.operand⟩
  | @leftward connective front back sign left right associates _ kind _ first second =>
      obtain ⟨middle, operand, reads, completes⟩ := first group outer awaits
      obtain ⟨after, last, reads', completes'⟩ :=
        second (group.continueWith left connective) outer (awaits.continueWith left)
      have joined := completes.read_connective awaits (mem_followers associates) kind outer
      exact ⟨after, last, reads.append (.cons joined reads'),
        completes'.leftward awaits associates⟩
  | @rightward front back sign left right _ kind _ first rest =>
      obtain ⟨middle, operand, reads, completes⟩ := first group outer awaits.operand
      obtain ⟨after, last, reads', completes'⟩ :=
        rest (group.continueWith left .implication) outer (awaits.continueWith_implication left)
      have joined : Parser.read _ sign =
          .ok ⟨.operand, group.continueWith left .implication, outer⟩ :=
        completes.read_connective awaits.operand (by decide) kind outer
      exact ⟨after, last, reads.append (.cons joined reads'), completes'.rightward awaits⟩

/-! ## What is read is a sentence -/

/-- Tokens after which an expression of one layer makes one of another layer. -/
def Begins (tokens : List Token) (inner outer : Stratum) (fill : Formula → Formula) : Prop :=
  ∀ rest formula, Derives inner rest formula → Derives outer (tokens ++ rest) (fill formula)

namespace Group

/-- The completed parts of a group have been read from these tokens, one sequence for each part. -/
structure Holds (group : Group) (equivalences antecedents disjunction conjunction negations :
    List Token) : Prop where
  equivalences : Begins equivalences (.operand .equivalence) (.chain .equivalence)
    (chain .equivalence group.equivalences)
  antecedents : Begins antecedents (.chain .implication) (.chain .implication) fun consequent =>
    group.antecedents.foldl
      (fun consequent antecedent => .binary .implication antecedent consequent) consequent
  disjunction : Begins disjunction (.operand .disjunction) (.chain .disjunction)
    (chain .disjunction group.disjunction)
  conjunction : Begins conjunction (.operand .conjunction) (.chain .conjunction)
    (chain .conjunction group.conjunction)
  negations : Begins negations .unary .unary group.signed

/-- What a group has read since its opening parenthesis. -/
def HasRead (group : Group) (tokens : List Token) : Prop :=
  ∃ equivalences antecedents disjunction conjunction negations,
    group.Holds equivalences antecedents disjunction conjunction negations ∧
      tokens = equivalences ++ antecedents ++ disjunction ++ conjunction ++ negations

variable {group : Group} {tokens operand : List Token} {last : Formula}

theorem begins_nil {connective : Connective} :
    Begins [] (.operand connective) (.chain connective) (chain connective none) :=
  fun _ _ derives => .operand derives

theorem begins_chain {connective : Connective} {tokens : List Token} {sign : Token}
    {first : Formula} (associates : connective ≠ .implication)
    (derives : Derives (.chain connective) tokens first)
    (kind : sign.kind = connective.tokenKind) :
    Begins (tokens ++ [sign]) (.operand connective) (.chain connective)
      (chain connective (some first)) := by
  intro rest formula last
  rw [List.append_assoc]
  exact .leftward associates derives kind last

theorem holds_empty : Holds {} [] [] [] [] [] :=
  ⟨begins_nil, fun _ _ derives => derives, begins_nil, begins_nil, fun _ _ derives => derives⟩

theorem hasRead_empty : HasRead {} [] :=
  ⟨[], [], [], [], [], holds_empty, rfl⟩

theorem HasRead.bang (hasRead : group.HasRead tokens) {token : Token} (kind : token.kind = .bang) :
    HasRead { group with negations := group.negations + 1 } (tokens ++ [token]) := by
  obtain ⟨equivalences, antecedents, disjunction, conjunction, negations, holds, rfl⟩ := hasRead
  refine ⟨equivalences, antecedents, disjunction, conjunction, negations ++ [token],
    { holds with negations := ?_ }, by rw [List.append_assoc]⟩
  intro rest formula derives
  rw [signed_negation, List.append_assoc]
  exact holds.negations _ _ (.negation kind derives)

theorem HasRead.primary {rest : List Token} {formula : Formula} (hasRead : group.HasRead tokens)
    (derives : Derives .primary rest formula) :
    ∃ before operand, tokens ++ rest = before ++ operand ∧
      HasRead { group with negations := 0 } before ∧
      Derives .unary operand (group.signed formula) := by
  obtain ⟨equivalences, antecedents, disjunction, conjunction, negations, holds, rfl⟩ := hasRead
  refine ⟨_, _, List.append_assoc .., ⟨equivalences, antecedents, disjunction, conjunction, [], 
    { holds with negations := fun _ _ derives => derives }, (List.append_nil _).symm⟩,
    holds.negations rest formula (.primary derives)⟩

section Ends

variable {equivalences antecedents disjunction conjunction negations : List Token}
  (holds : group.Holds equivalences antecedents disjunction conjunction negations)
  (unsigned : group.negations = 0) (derives : Derives .unary operand last)

include holds unsigned derives

theorem Holds.endConjunction :
    Derives (.chain .conjunction) (conjunction ++ (negations ++ operand))
      (group.endConjunction last) := by
  have signed : group.signed last = last := by
    rw [Group.signed, unsigned]
    rfl
  have unary := holds.negations operand last derives
  rw [signed] at unary
  exact holds.conjunction _ _ unary

theorem Holds.endDisjunction :
    Derives (.chain .disjunction) (disjunction ++ (conjunction ++ (negations ++ operand)))
      (group.endDisjunction last) :=
  holds.disjunction _ _ (holds.endConjunction unsigned derives)

theorem Holds.endFormula :
    Derives .formula
      (equivalences ++ (antecedents ++ (disjunction ++ (conjunction ++ (negations ++ operand)))))
      (group.endFormula last) :=
  holds.equivalences _ _
    (holds.antecedents _ _ (.operand (holds.endDisjunction unsigned derives)))

end Ends

theorem HasRead.endFormula (hasRead : group.HasRead tokens) (unsigned : group.negations = 0)
    (derives : Derives .unary operand last) :
    Derives .formula (tokens ++ operand) (group.endFormula last) := by
  obtain ⟨equivalences, antecedents, disjunction, conjunction, negations, holds, rfl⟩ := hasRead
  simpa using holds.endFormula unsigned derives

/-- A group without pending negations goes on with an operand and a connective. -/
theorem HasRead.continueWith {connective : Connective} {sign : Token}
    (hasRead : group.HasRead tokens) (unsigned : group.negations = 0)
    (derives : Derives .unary operand last) (kind : sign.kind = connective.tokenKind) :
    HasRead (group.continueWith last connective) (tokens ++ operand ++ [sign]) := by
  obtain ⟨equivalences, antecedents, disjunction, conjunction, negations, holds, rfl⟩ := hasRead
  have unsigned' : Begins [] .unary .unary group.signed := by
    intro rest formula derives
    rw [Group.signed, unsigned]
    exact derives
  cases connective with
  | conjunction =>
      have chain := begins_chain (by decide) (holds.endConjunction unsigned derives) kind
      exact ⟨_, _, _, _, [], { holds with conjunction := chain, negations := unsigned' }, by simp⟩
  | disjunction =>
      have chain := begins_chain (by decide) (holds.endDisjunction unsigned derives) kind
      exact ⟨_, _, _, [], [],
        { holds with disjunction := chain, conjunction := begins_nil, negations := unsigned' },
        by simp⟩
  | implication =>
      have first := holds.endDisjunction unsigned derives
      refine ⟨equivalences,
        antecedents ++ (disjunction ++ (conjunction ++ (negations ++ operand)) ++ [sign]), [], [],
        [],
        { holds with
          antecedents := ?_
          disjunction := begins_nil
          conjunction := begins_nil
          negations := unsigned' },
        by simp⟩
      intro rest formula derives
      rw [List.append_assoc, List.append_assoc]
      exact holds.antecedents _ _ (.rightward first kind derives)
  | equivalence =>
      have chain := begins_chain (by decide) (holds.endFormula unsigned derives) kind
      exact ⟨_, [], [], [], [],
        { holds_empty with equivalences := chain }, by simp⟩

end Group

/-- The groups around the innermost one, with what has been read up to its opening parenthesis. -/
inductive Encloses : List Group → List Token → Prop
  | nil : Encloses [] []
  | cons {group : Group} {outer : List Group} {before tokens : List Token} {opening : Token}
      (encloses : Encloses outer before) (hasRead : group.HasRead tokens)
      (opens : opening.kind = .leftParenthesis) :
      Encloses (group :: outer) (before ++ tokens ++ [opening])

namespace Parser

/-- What has been read on the way to a place. -/
inductive HasRead : Parser → List Token → Prop
  | operand {group : Group} {outer : List Group} {before tokens : List Token}
      (encloses : Encloses outer before) (hasRead : group.HasRead tokens) :
      HasRead ⟨.operand, group, outer⟩ (before ++ tokens)
  | connective {group : Group} {outer : List Group} {before tokens operand : List Token}
      {last : Formula} (encloses : Encloses outer before) (hasRead : group.HasRead tokens)
      (unsigned : group.negations = 0) (derives : Derives .unary operand last) :
      HasRead ⟨.connective last, group, outer⟩ (before ++ (tokens ++ operand))

theorem hasRead_afterOperand {group : Group} {outer : List Group} {before tokens rest : List Token}
    {operand : Formula} (encloses : Encloses outer before) (hasRead : group.HasRead tokens)
    (derives : Derives .primary rest operand) :
    (afterOperand group outer operand).HasRead (before ++ (tokens ++ rest)) := by
  obtain ⟨inner, signed, same, hasRead', unary⟩ := hasRead.primary derives
  rw [same]
  exact .connective encloses hasRead' rfl unary

theorem HasRead.read {parser next : Parser} {tokens : List Token} {token : Token}
    (hasRead : parser.HasRead tokens) (reads : parser.read token = .ok next) :
    next.HasRead (tokens ++ [token]) := by
  cases hasRead with
  | @operand group outer before tokens encloses hasRead =>
      change readOperand _ token = .ok next at reads
      rw [List.append_assoc]
      rw [readOperand] at reads
      split at reads
      · next kind =>
          obtain rfl := Except.ok.inj reads
          exact .operand encloses (hasRead.bang kind)
      · next kind =>
          obtain rfl := Except.ok.inj reads
          have inner := HasRead.operand (encloses.cons hasRead kind) Group.hasRead_empty
          simpa using inner
      · next kind =>
          obtain rfl := Except.ok.inj reads
          exact hasRead_afterOperand encloses hasRead (.truth kind)
      · next kind =>
          obtain rfl := Except.ok.inj reads
          exact hasRead_afterOperand encloses hasRead (.falsity kind)
      · next kind =>
          obtain rfl := Except.ok.inj reads
          exact hasRead_afterOperand encloses hasRead (.atom kind)
      · cases reads
  | @connective group outer before tokens operand last encloses hasRead unsigned derives =>
      rw [List.append_assoc]
      cases found : token.kind.connective? with
      | some connective =>
          have kind := connective?_eq_some_iff.1 found
          rw [read_connective kind] at reads
          obtain rfl := Except.ok.inj reads
          exact .operand encloses (hasRead.continueWith unsigned derives kind)
      | none =>
          cases encloses with
          | nil =>
              simp only [Parser.read, readConnective, found] at reads
              cases reads
          | cons encloses hasRead' opens =>
              by_cases closes : token.kind = .rightParenthesis
              · rw [read_closing closes] at reads
                obtain rfl := Except.ok.inj reads
                have inside := hasRead.endFormula unsigned derives
                have closed :=
                  hasRead_afterOperand encloses hasRead' (.parentheses opens inside closes)
                simpa using closed
              · simp only [Parser.read, readConnective, found, if_neg closes] at reads
                cases reads

theorem HasRead.foldlM {parser after : Parser} {tokens more : List Token}
    (hasRead : parser.HasRead tokens) (reads : parser.Reads more after) :
    after.HasRead (tokens ++ more) := by
  induction more generalizing parser tokens with
  | nil =>
      obtain rfl := Except.ok.inj reads
      rwa [List.append_nil]
  | cons token more induction =>
      rw [Reads, List.foldlM_cons] at reads
      cases first : parser.read token with
      | error failure =>
          rw [first] at reads
          cases reads
      | ok next =>
          rw [first] at reads
          have rest := induction (hasRead.read first) reads
          rwa [List.append_assoc] at rest

theorem HasRead.finish {parser : Parser} {tokens : List Token} {last : Token} {formula : Formula}
    (hasRead : parser.HasRead tokens) (finished : parser.finish last = .ok formula) :
    Derives .formula tokens formula := by
  cases hasRead with
  | operand => cases finished
  | connective encloses hasRead unsigned derives =>
      cases encloses with
      | cons => cases finished
      | nil =>
          obtain rfl := Except.ok.inj finished
          exact hasRead.endFormula unsigned derives

end Parser

/-- Before the end of the input, exactly the sentences of the grammar are parsed, as the formulas
that the grammar derives. -/
theorem parse_eq_ok_iff {tokens : List Token} {last : Token} {formula : Formula}
    (inside : ∀ token ∈ tokens, token.kind ≠ .endOfInput) (ends : last.kind = .endOfInput) :
    parse (tokens ++ [last]) = .ok formula ↔ Derives .formula tokens formula := by
  rw [parse, Parser.run_append_endOfInput inside ends]
  constructor
  · intro parsed
    cases reads : tokens.foldlM Parser.read ({} : Parser) with
    | error failure =>
        rw [reads] at parsed
        cases parsed
    | ok after =>
        rw [reads] at parsed
        have start : Parser.HasRead {} [] := .operand .nil Group.hasRead_empty
        exact (start.foldlM reads).finish parsed
  · intro derives
    obtain ⟨after, operand, reads, completes⟩ := derives.reads {} [] rfl
    have reads : tokens.foldlM Parser.read ({} : Parser) = .ok ⟨.connective operand, after, []⟩ :=
      reads
    rw [reads]
    exact congrArg Except.ok completes.endFormula

theorem Derives.unique {tokens : List Token} {formula other : Formula}
    (derives : Derives .formula tokens formula) (derives' : Derives .formula tokens other) :
    formula = other := by
  have parsed {formula : Formula} (derives : Derives .formula tokens formula) :
      parse (tokens ++ [({} : Token)]) = .ok formula :=
    (parse_eq_ok_iff derives.kind_ne_endOfInput rfl).2 derives
  exact Except.ok.inj ((parsed derives).symm.trans (parsed derives'))

end TransitionSystems.Guard
