import TransitionSystems.Guard.Descent
import TransitionSystems.Proofs.Guard.Parsing
import TransitionSystems.Proofs.Guard.Sharing

/-!
# Precedence climbing agrees with the machine

Precedence climbing never leaves the vector: as long as an end of the input is at the cursor or
behind it, there is a token, and a cursor that moves on has not yet taken the end. What it reads is
what the machine reads. An expression of a layer that the functions read from a place on is one that
the machine completes in any group that awaits this layer, and the parts that are complete before a
failure are those that are pending in the groups of the machine.
-/

namespace TransitionSystems.Guard

/-! ## Levels and layers -/

theorem Connective.level_lt (connective : Connective) : connective.level < 5 := by
  cases connective <;> decide

namespace Stratum

/-- The least level of the connectives of a layer. -/
def level : Stratum → Nat
  | .chain connective => connective.level
  | .unary | .primary => 5

/-- The layer of the right operand of a connective. -/
def right (connective : Connective) : Stratum :=
  if connective.associatesRight then .chain connective else .operand connective

theorem level_right (connective : Connective) :
    (right connective).level = connective.rightLevel := by
  cases connective <;> rfl

end Stratum

theorem mem_followers_chain_iff {connective next : Connective} :
    next ∈ (Stratum.chain connective).followers ↔ next.level < connective.rightLevel := by
  cases connective <;> cases next <;> decide

theorem followers_subset_of_le {stratum : Stratum} {connective : Connective}
    (le : stratum.level ≤ connective.level) :
    ∀ next ∈ stratum.followers, next ∈ (Stratum.chain connective).followers := by
  cases stratum with
  | unary | primary => exact absurd le (Nat.not_le_of_lt connective.level_lt)
  | chain weaker =>
      revert le
      cases weaker <;> cases connective <;> decide

theorem mem_followers_unary (next : Connective) : next ∈ Stratum.unary.followers := by
  cases next <;> decide

namespace Group

variable {group : Group} {connective : Connective}

/-- Where a layer may begin, a chain of a connective that binds as strongly may begin. -/
theorem Awaits.chain_of_le {stratum : Stratum} (awaits : group.Awaits stratum)
    (le : stratum.level ≤ connective.level) : group.Awaits (.chain connective) := by
  cases stratum with
  | unary | primary => exact absurd le (Nat.not_le_of_lt connective.level_lt)
  | chain weaker =>
      cases weaker with
      | equivalence =>
          obtain rfl := awaits
          cases connective with
          | conjunction => exact ⟨rfl, rfl⟩
          | disjunction | implication => exact ⟨rfl, rfl, rfl⟩
          | equivalence => rfl
      | implication | disjunction =>
          cases connective with
          | conjunction => exact ⟨awaits.1, awaits.2.1⟩
          | disjunction | implication => exact awaits
          | equivalence => simp [Stratum.level, Connective.level] at le
      | conjunction =>
          cases connective with
          | conjunction => exact awaits
          | disjunction | implication | equivalence =>
              simp [Stratum.level, Connective.level] at le

theorem Awaits.right (awaits : group.Awaits (.chain connective)) (first : Formula) :
    (group.continueWith first connective).Awaits (.right connective) := by
  cases connective with
  | implication => exact awaits.continueWith_implication first
  | conjunction | disjunction | equivalence => exact awaits.continueWith first

theorem Awaits.pending_continueWith (awaits : group.Awaits (.chain connective)) (first : Formula) :
    (group.continueWith first connective).pending = group.pending ++ [first] := by
  obtain ⟨equivalences, antecedents, disjunction, conjunction, negations⟩ := group
  cases connective with
  | conjunction =>
      obtain ⟨-, rfl : conjunction = none⟩ := awaits
      simp [Group.continueWith, pending, endConjunction, chain]
  | disjunction | implication =>
      obtain ⟨-, rfl : conjunction = none, rfl : disjunction = none⟩ := awaits
      simp [Group.continueWith, pending, endConjunction, endDisjunction, chain]
  | equivalence =>
      obtain ⟨⟩ := awaits
      simp [Group.continueWith, pending, endConjunction, endDisjunction, endImplication,
        endFormula, chain]

variable {after : Group} {formula last : Formula} {stratum : Stratum}

theorem Completes.weaken {weaker : Stratum} (completes : group.Completes stratum formula after last)
    (follows : ∀ connective ∈ weaker.followers, connective ∈ stratum.followers) :
    group.Completes weaker formula after last where
  continueWith connective member := completes.continueWith connective (follows connective member)
  endFormula := completes.endFormula

theorem Completes.negation
    (completes : { group with negations := group.negations + 1 }.Completes .unary formula after
      last) : group.Completes .unary (.negation formula) after last := by
  have continueWith := completes.continueWith
  have endFormula := completes.endFormula
  rw [Group.signed_negation] at continueWith endFormula
  exact ⟨continueWith, endFormula⟩

theorem Completes.continueWith_eq (completes : group.Completes stratum formula after last)
    (awaits : group.Awaits (.chain connective)) (follows : connective ∈ stratum.followers) :
    after.continueWith last connective = group.continueWith formula connective := by
  rw [completes.continueWith connective follows, awaits.clear, awaits.signed]

theorem Completes.right {left right : Formula} (awaits : group.Awaits (.chain connective))
    (completes : (group.continueWith left connective).Completes (.right connective) right
      after last) :
    group.Completes (.chain connective) (.binary connective left right) after last := by
  cases connective with
  | implication => exact completes.rightward awaits
  | conjunction | disjunction | equivalence => exact completes.leftward awaits (by decide)

end Group

namespace Parser

variable {parser next : Parser} {token : Token} {failure : ParseFailure}

theorem run_of_read (inside : token.kind ≠ .endOfInput) (reads : parser.read token = .ok next)
    (tokens : List Token) : parser.run (token :: tokens) = next.run tokens := by
  rw [run, if_neg inside, reads]

theorem run_of_refused (inside : token.kind ≠ .endOfInput)
    (refused : parser.read token = .error failure) (tokens : List Token) :
    parser.run (token :: tokens) = .error failure := by
  rw [run, if_neg inside, refused]

theorem run_of_ends (ends : token.kind = .endOfInput) (tokens : List Token) :
    parser.run (token :: tokens) = parser.finish token :=
  if_pos ends

theorem run_of_unclosed {last : Formula} {after enclosing : Group} {outer : List Group}
    (noSign : token.kind.connective? = none) (closes : token.kind ≠ .rightParenthesis)
    (tokens : List Token) :
    Parser.run ⟨.connective last, after, enclosing :: outer⟩ (token :: tokens) =
      Parser.fail ⟨.connective last, after, enclosing :: outer⟩ token (.unclosed token.kind) := by
  by_cases ends : token.kind = .endOfInput
  · rw [run_of_ends ends, ends]
    rfl
  · refine run_of_refused ends ?_ tokens
    simp only [read, readConnective, noSign, if_neg closes]
    rfl

theorem run_of_trailing {last : Formula} {after : Group} (noSign : token.kind.connective? = none)
    (inside : token.kind ≠ .endOfInput) (tokens : List Token) :
    Parser.run ⟨.connective last, after, []⟩ (token :: tokens) =
      Parser.fail ⟨.connective last, after, []⟩ token (.trailing token.text) := by
  refine run_of_refused inside ?_ tokens
  simp only [read, readConnective, noSign]
  rfl

end Parser

namespace Table.Coherent

variable {table : Table}

theorem negation_insert (coherent : table.Coherent) (formula : Formula) :
    (table.insert formula).2.negation (table.insert formula).1 =
      .ok (table.insert (.negation formula)) :=
  negation_of_lt (coherent.insert formula).2.2.lt_size

theorem binary_insert (coherent : table.Coherent) (connective : Connective)
    (left right : Formula) :
    ((table.insert left).2.insert right).2.binary (.binary connective) (table.insert left).1
        ((table.insert left).2.insert right).1 =
      .ok (table.insert (.binary connective left right)) := by
  obtain ⟨coherent', -, denotes⟩ := coherent.insert left
  obtain ⟨-, grown, denotes'⟩ := coherent'.insert right
  exact binary_of_lt (grown.lt_size denotes.lt_size) denotes'.lt_size

end Table.Coherent

namespace Descent

variable {tokens : Array Token} {table : Table} {place : Nat}

/-! ## The cursor -/

/-- An end of the input is not behind the cursor. -/
def EndsFrom (tokens : Array Token) (place : Nat) : Prop :=
  ∃ token ∈ tokens.toList.drop place, token.kind = .endOfInput

/-- The connective at the cursor, if there is one. -/
def sign? (tokens : Array Token) (place : Nat) : Option Connective :=
  tokens[place]?.bind (·.kind.connective?)

/-- Where an end of the input is to come, there is a token. -/
theorem EndsFrom.exists_peek (ends : EndsFrom tokens place) :
    ∃ token present, peek tokens place = some ⟨token, present⟩ ∧
      sign? tokens place = token.kind.connective? ∧
      tokens.toList.drop place = token :: tokens.toList.drop (place + 1) ∧
      (token.kind ≠ .endOfInput → EndsFrom tokens (place + 1)) := by
  obtain ⟨last, member, kind⟩ := ends
  have present : place < tokens.size := by
    refine Nat.lt_of_not_le fun outside => ?_
    rw [List.drop_eq_nil_of_le (by simpa using outside)] at member
    cases member
  have split : tokens.toList.drop place = tokens[place] :: tokens.toList.drop (place + 1) := by
    rw [List.drop_eq_getElem_cons (by simpa using present), Array.getElem_toList]
  refine ⟨tokens[place], present, dif_pos present, ?_, split, fun inside => ?_⟩
  · rw [sign?, Array.getElem?_eq_getElem present]
    rfl
  · rw [split, List.mem_cons] at member
    rcases member with rfl | member
    · exact absurd kind inside
    · exact ⟨last, member, kind⟩

theorem run_behind {parser next : Parser} {token : Token}
    (split : tokens.toList.drop place = token :: tokens.toList.drop (place + 1))
    (kind : token.kind ≠ .endOfInput) (reads : parser.read token = .ok next) :
    parser.run (tokens.toList.drop place) = next.run (tokens.toList.drop (behind token place)) := by
  rw [split, behind_eq kind]
  exact Parser.run_of_read kind reads _

/-- The outcome of an expression is that of the machine: the expression is added to the table and
completed in the group, or reading fails at the same token and what was complete by then has been
added. -/
inductive Agrees (tokens : Array Token) (table : Table) (group : Group) (outer : List Group)
    (stratum : Stratum) {start : Nat} : Option (Outcome tokens start) → Prop
  | done {formula last : Formula} {after : Group} {place : Nat} {moved : start < place}
      {inside : place ≤ tokens.size}
      (runs : Parser.run ⟨.operand, group, outer⟩ (tokens.toList.drop start) =
        Parser.run ⟨.connective last, after, outer⟩ (tokens.toList.drop place))
      (completes : group.Completes stratum formula after last) (ends : EndsFrom tokens place)
      (stops : ∀ connective ∈ sign? tokens place, connective.level < stratum.level) :
      Agrees tokens table group outer stratum
        (some (.done (table.insert formula).1 (table.insert formula).2 place moved inside))
  | failed {failure : ParseFailure} {more : List Formula}
      (runs : Parser.run ⟨.operand, group, outer⟩ (tokens.toList.drop start) = .error failure)
      (complete : failure.complete =
        outer.reverse.flatMap Group.pending ++ group.pending ++ more) :
      Agrees tokens table group outer stratum
        (some (.failed (.guard failure.position failure.fault) (table.insertMany more)))

/-- Reading operands from a place on agrees with the machine. -/
def BinaryAgrees (tokens : Array Token) (place : Nat) : Prop :=
  ∀ table group outer stratum, table.Coherent → EndsFrom tokens place → group.Awaits stratum →
    Agrees tokens table group outer stratum (binary tokens stratum.level place table)

/-! ## Functions -/

section

variable {group : Group} {outer : List Group} {token : Token}

theorem agrees_operand (operand : Formula) (ends : EndsFrom tokens (place + 1))
    (split : tokens.toList.drop place = token :: tokens.toList.drop (place + 1))
    (kind : token.kind ≠ .endOfInput)
    (reads : Parser.read ⟨.operand, group, outer⟩ token =
      .ok (Parser.afterOperand group outer operand))
    (moved : place < behind token place) (inside : behind token place ≤ tokens.size) :
    Agrees tokens table group outer .primary
      (some (.done (table.insert operand).1 (table.insert operand).2 (behind token place)
        moved inside)) := by
  have ends : EndsFrom tokens (behind token place) := by rwa [behind_eq kind]
  exact .done (run_behind split kind reads) (completes_afterOperand group operand) ends
    fun connective _ => connective.level_lt

theorem agrees_refused {stratum : Stratum} {fault : GuardFault}
    (split : tokens.toList.drop place = token :: tokens.toList.drop (place + 1))
    (refused : Parser.run ⟨.operand, group, outer⟩ (token :: tokens.toList.drop (place + 1)) =
      Parser.fail ⟨.operand, group, outer⟩ token fault) :
    Agrees tokens table group outer stratum
      (some (.failed (.guard token.position fault) table) : Option (Outcome tokens place)) := by
  rw [← split] at refused
  exact @Agrees.failed tokens table group outer stratum place _ [] refused (List.append_nil _).symm

end

theorem sign?_eq_none (stops : ∀ connective ∈ sign? tokens place,
    connective.level < Stratum.formula.level) : sign? tokens place = none := by
  rw [Option.eq_none_iff_forall_not_mem]
  intro connective member
  have stops := stops connective member
  revert stops
  cases connective <;> decide

/-- A formula that is complete inside parentheses agrees with the machine when the parenthesis
behind it is taken, and when it is missing. -/
theorem close_agrees {group after : Group} {outer : List Group} {formula last : Formula}
    {start : Nat} (moved : start < place)
    (runs : Parser.run ⟨.operand, group, outer⟩ (tokens.toList.drop start) =
      Parser.run ⟨.connective last, after, group :: outer⟩ (tokens.toList.drop place))
    (complete : after.endFormula last = formula) (ends : EndsFrom tokens place)
    (stops : ∀ connective ∈ sign? tokens place, connective.level < Stratum.formula.level) :
    Agrees tokens table group outer .primary
      (close tokens start (table.insert formula).1 (table.insert formula).2 place moved) := by
  obtain ⟨closing, present, looks, sign, split, further⟩ := ends.exists_peek
  rw [sign?_eq_none stops] at sign
  rw [split] at runs
  rw [close, looks]
  simp only [Option.bind_eq_bind, Option.bind_some]
  by_cases closes : closing.kind = .rightParenthesis
  · rw [dif_pos closes]
    have kind : closing.kind ≠ .endOfInput := by simp [closes]
    have passed := behind_eq kind place
    have closed := Parser.read_closing closes last after group outer
    rw [complete] at closed
    rw [Parser.run_of_read kind closed, ← passed] at runs
    exact .done runs (completes_afterOperand group formula) (by rw [passed]; exact further kind)
      fun connective _ => connective.level_lt
  · rw [dif_neg closes]
    rw [Parser.run_of_unclosed sign.symm closes] at runs
    refine @Agrees.failed tokens table group outer .primary start _ [formula] runs ?_
    simp [Parser.complete, complete]

/-- A token that is taken for an operand agrees with the machine, and so does a formula in
parentheses. -/
theorem primary_agrees {token : Token} {present : place < tokens.size}
    (deeper : ∀ further > place, BinaryAgrees tokens further) (coherent : table.Coherent)
    (ends : EndsFrom tokens place) (looks : peek tokens place = some ⟨token, present⟩)
    (bare : token.kind ≠ .bang) (group : Group) (outer : List Group) :
    Agrees tokens table group outer .primary (primary tokens place table) := by
  obtain ⟨found, present', looks', -, split, further⟩ := ends.exists_peek
  obtain rfl : token = found := by simpa using looks.symm.trans looks'
  rw [primary, looks]
  simp only [Option.bind_eq_bind, Option.bind_some]
  by_cases kind : token.kind = .endOfInput
  · rw [dif_pos kind]
    exact agrees_refused split (Parser.run_of_ends kind _)
  rw [dif_neg kind]
  have passed := behind_eq kind place
  have rest := further kind
  split
  · next truth =>
      refine agrees_operand .truth rest split kind ?_ _ _
      simp only [Parser.read, Parser.readOperand, truth]
  · next falsity =>
      refine agrees_operand .falsity rest split kind ?_ _ _
      simp only [Parser.read, Parser.readOperand, falsity]
  · next identifier =>
      refine agrees_operand (.atom token.text) rest split kind ?_ _ _
      simp only [Parser.read, Parser.readOperand, identifier]
  · next opens =>
      have inner : Agrees tokens table {} (group :: outer) .formula
          (binary tokens 1 (behind token place) table) :=
        deeper _ (by omega) table {} (group :: outer) .formula coherent (by rwa [passed]) rfl
      have opened : Parser.run ⟨.operand, group, outer⟩ (tokens.toList.drop place) =
          Parser.run ⟨.operand, {}, group :: outer⟩ (tokens.toList.drop (behind token place)) := by
        refine run_behind split kind ?_
        simp only [Parser.read, Parser.readOperand, opens]
      generalize binary tokens 1 (behind token place) table = outcome at inner
      cases inner with
      | @failed failure more runs complete =>
          refine .failed (opened.trans runs) ?_
          simpa [Group.pending] using complete
      | @done formula last after place' moved inside runs completes ends stops =>
          exact close_agrees (by omega) (opened.trans runs) completes.endFormula ends stops
  · refine agrees_refused split (Parser.run_of_refused kind ?_ _)
    change Parser.readOperand _ token = _
    rw [Parser.readOperand]
    split <;> first | contradiction | rfl

/-- An operand agrees with the machine, its negations included. -/
theorem unary_agrees (deeper : ∀ further > place, BinaryAgrees tokens further)
    (coherent : table.Coherent) (ends : EndsFrom tokens place) (group : Group)
    (outer : List Group) :
    Agrees tokens table group outer .unary (unary tokens place table) := by
  induction remaining : tokens.size - place using Nat.strongRecOn generalizing place group with
  | ind remaining' induction =>
      subst remaining
      obtain ⟨token, present, looks, -, split, further⟩ := ends.exists_peek
      rw [unary, looks]
      simp only [Option.bind_eq_bind, Option.bind_some]
      by_cases bang : token.kind = .bang
      · rw [dif_pos bang]
        have kind : token.kind ≠ .endOfInput := by simp [bang]
        have passed := behind_eq kind place
        let negated : Group := { group with negations := group.negations + 1 }
        have inner : Agrees tokens table negated outer .unary
            (unary tokens (behind token place) table) :=
          induction _ (by omega) (fun further farther => deeper further (by omega))
            (by rw [passed]; exact further kind) negated rfl
        have signed : Parser.run ⟨.operand, group, outer⟩ (tokens.toList.drop place) =
            Parser.run ⟨.operand, negated, outer⟩ (tokens.toList.drop (behind token place)) := by
          refine run_behind split kind ?_
          simp only [Parser.read, Parser.readOperand, bang, negated]
        generalize unary tokens (behind token place) table = outcome at inner
        cases inner with
        | @failed failure more runs complete => exact .failed (signed.trans runs) complete
        | @done formula last after place' moved inside runs completes ends stops =>
            have made := coherent.negation_insert formula
            simp only [Option.bind_some, made]
            exact .done (signed.trans runs) completes.negation ends stops
      · rw [dif_neg bang]
        have bare := primary_agrees deeper coherent ends looks bang group outer
        generalize primary tokens place table = outcome at bare
        cases bare with
        | failed runs complete => exact .failed runs complete
        | done runs completes ends stops =>
            exact .done runs (completes.weaken (by decide)) ends stops

/-- Further operands agree with the machine once those before them do. -/
theorem chain_agrees {group after : Group} {outer : List Group} {stratum current : Stratum}
    {formula last : Formula} {start : Nat}
    (deeper : ∀ further > place, BinaryAgrees tokens further) (coherent : table.Coherent)
    (ends : EndsFrom tokens place) (awaits : group.Awaits stratum)
    (runs : Parser.run ⟨.operand, group, outer⟩ (tokens.toList.drop start) =
      Parser.run ⟨.connective last, after, outer⟩ (tokens.toList.drop place))
    (completes : group.Completes current formula after last)
    (weaker : ∀ connective ∈ stratum.followers, connective ∈ current.followers)
    (follows : ∀ connective ∈ sign? tokens place, connective ∈ current.followers)
    (moved : start < place) (inside : place ≤ tokens.size) :
    Agrees tokens table group outer stratum
      (chain tokens stratum.level start (table.insert formula).1 (table.insert formula).2 place
        moved inside) := by
  -- What has been read so far is the left operand of the next connective, so its layer and its
  -- formula change from one turn to the next while the group that awaits the chain does not.
  induction remaining : tokens.size - place using Nat.strongRecOn
    generalizing place formula last after current with
  | ind remaining' induction =>
      subst remaining
      obtain ⟨token, present, looks, sign, split, further⟩ := ends.exists_peek
      rw [chain, looks]
      simp only [Option.bind_eq_bind, Option.bind_some]
      split
      · next none =>
          rw [none] at sign
          exact .done runs (completes.weaken weaker) ends (by simp [sign])
      next connective found =>
      rw [found] at sign
      split
      · next less => exact .done runs (completes.weaken weaker) ends (by simpa [sign] using less)
      next least =>
      have le : stratum.level ≤ connective.level := Nat.le_of_not_lt least
      have awaits' := awaits.chain_of_le le
      have kind := kind_ne_of_connective? found
      have passed := behind_eq kind place
      have joined : Parser.run ⟨.operand, group, outer⟩ (tokens.toList.drop start) =
          Parser.run ⟨.operand, group.continueWith formula connective, outer⟩
            (tokens.toList.drop (behind token place)) := by
        refine runs.trans (run_behind split kind ?_)
        rw [Parser.read_connective (connective?_eq_some_iff.1 found),
          completes.continueWith_eq awaits' (follows connective sign)]
      have operand : Agrees tokens (table.insert formula).2 (group.continueWith formula connective)
          outer (.right connective)
          (binary tokens connective.rightLevel (behind token place) (table.insert formula).2) := by
        rw [← Stratum.level_right]
        exact deeper _ (by omega) _ _ _ _ (coherent.insert formula).1
          (by rw [passed]; exact further kind) (awaits'.right formula)
      generalize binary tokens connective.rightLevel (behind token place)
        (table.insert formula).2 = outcome at operand
      cases operand with
      | @failed failure more runs complete =>
          -- The left operand is in the table already, and it is pending in the machine.
          refine @Agrees.failed tokens table group outer stratum start failure (formula :: more)
            (joined.trans runs) ?_
          rw [complete, awaits'.pending_continueWith]
          simp
      | @done right last' after' place' moved' inside' runs' completes' ends' stops =>
          have made := coherent.binary_insert connective formula right
          simp only [Option.bind_some, made]
          rw [Stratum.level_right] at stops
          refine induction _ (by omega) (fun further farther => deeper further (by omega)) ends'
            (joined.trans runs') (completes'.right awaits') ?_ ?_ _ _ rfl
          · exact followers_subset_of_le le
          · exact fun next member => mem_followers_chain_iff.2 (stops next member)

/-- Reading operands agrees with the machine. -/
theorem binary_agrees (tokens : Array Token) (place : Nat) : BinaryAgrees tokens place := by
  induction remaining : tokens.size - place using Nat.strongRecOn generalizing place with
  | ind remaining' induction =>
      subst remaining
      intro table group outer stratum coherent ends awaits
      obtain ⟨-, present, -, -, -⟩ := ends.exists_peek
      have deeper : ∀ further > place, BinaryAgrees tokens further := fun further farther =>
        induction _ (by omega) further rfl
      have first := unary_agrees deeper coherent ends group outer
      rw [binary]
      generalize unary tokens place table = outcome at first
      cases first with
      | failed runs complete => exact .failed runs complete
      | @done formula last after place' moved inside runs completes ends stops =>
          exact chain_agrees (fun further farther => deeper further (by omega)) coherent ends awaits
            runs completes (fun next _ => mem_followers_unary next)
            (fun next _ => mem_followers_unary next) moved inside

/-! ## Whole formulas -/

/-- The tokens up to the first end of the input; the default token ends a sequence without one. -/
def throughEnd : List Token → List Token
  | [] => [{}]
  | token :: tokens =>
    if token.kind = .endOfInput then [token] else token :: throughEnd tokens

theorem run_throughEnd (parser : Parser) (tokens : List Token) :
    parser.run (throughEnd tokens) = parser.run tokens := by
  induction tokens generalizing parser with
  | nil => rfl
  | cons token tokens induction =>
      rw [throughEnd, Parser.run]
      split
      · next ends => exact Parser.run_of_ends ends _
      · next inside =>
          rw [Parser.run, if_neg inside]
          cases parser.read token with
          | error failure => rfl
          | ok next => exact induction next

theorem run_append_default (parser : Parser) (tokens : List Token) :
    parser.run (tokens ++ [({} : Token)]) = parser.run tokens := by
  induction tokens generalizing parser with
  | nil => rfl
  | cons token tokens induction =>
      rw [List.cons_append, Parser.run, Parser.run]
      split
      · rfl
      · cases parser.read token with
        | error failure => rfl
        | ok next => exact induction next

theorem run_terminate (parser : Parser) (tokens : Array Token) :
    parser.run (terminate tokens).toList = parser.run tokens.toList := by
  rw [terminate]
  split
  · rfl
  · rw [Array.toList_push]
    exact run_append_default parser tokens.toList

theorem endsFrom_terminate (tokens : Array Token) : EndsFrom (terminate tokens) 0 := by
  rw [EndsFrom, List.drop_zero, terminate]
  split
  · next last =>
      obtain ⟨token, found, kind⟩ := (Option.any_eq_true _ _).1 last
      exact ⟨token, Array.mem_toList_iff.2 (Array.mem_of_back? found), by simpa using kind⟩
  · exact ⟨{}, by simp, rfl⟩

/-- Whatever the tokens are, the vector is not left, and the answer and the table are those of the
machine. -/
theorem parse_eq (coherent : table.Coherent) (tokens : Array Token) :
    parse tokens table = some (table.read tokens.toList) := by
  have agrees : Agrees (terminate tokens) table {} [] .formula
      (binary (terminate tokens) 1 0 table) :=
    binary_agrees (terminate tokens) 0 table {} [] .formula coherent (endsFrom_terminate tokens) rfl
  have machine : Guard.parse tokens.toList =
      Parser.run ⟨.operand, {}, []⟩ ((terminate tokens).toList.drop 0) :=
    (run_terminate {} tokens).symm
  rw [parse, Table.read, machine]
  generalize binary (terminate tokens) 1 0 table = outcome at agrees
  cases agrees with
  | @failed failure more runs complete =>
      rw [runs]
      have complete : failure.complete = more := complete
      simp [complete]
  | @done formula last after place moved inside runs completes ends stops =>
      obtain ⟨next, present, looks, sign, split, -⟩ := ends.exists_peek
      rw [sign?_eq_none stops] at sign
      have complete : after.endFormula last = formula := completes.endFormula
      simp only [Option.bind_eq_bind, Option.bind_some, looks]
      rw [runs, split]
      by_cases ends : next.kind = .endOfInput
      · rw [if_pos ends, Parser.run_of_ends ends]
        simp [Parser.finish, complete]
      · rw [if_neg ends, Parser.run_of_trailing sign.symm ends]
        simp [Parser.fail, Parser.complete, complete, Table.insertMany]

/-- Whatever the tokens are, the computation comes to an end without leaving the vector. Its answer
and the table that it leaves are those of the machine, and only the tokens through the first end of
the input make a difference to them. -/
theorem parse_reads_through_end (reachable : table.Reachable) (tokens : Array Token) :
    parse tokens table = some (table.read tokens.toList) ∧
      ∀ others : Array Token, throughEnd others.toList = throughEnd tokens.toList →
        parse others table = parse tokens table := by
  have answers := parse_eq reachable.coherent
  refine ⟨answers tokens, fun others same => ?_⟩
  have parsed : Guard.parse others.toList = Guard.parse tokens.toList := by
    rw [Guard.parse, Guard.parse, ← run_throughEnd, same, run_throughEnd]
  rw [answers, answers, Table.read, Table.read, parsed]

/-- The tokens of `p` and their end, with a token behind it. -/
def atomTokens : Array Token :=
  #[⟨.identifier, "p", ⟨1, 1⟩⟩, ⟨.endOfInput, [], ⟨1, 2⟩⟩, ⟨.rightParenthesis, ")", ⟨1, 3⟩⟩]

/-- The token behind the end is not looked at. -/
theorem exists_parse_atomTokens :
    ∃ next, parse atomTokens .initial = some (.ok 2, next) ∧
      parse atomTokens.pop .initial = some (.ok 2, next) := by
  obtain ⟨answer, same⟩ := parse_reads_through_end .initial atomTokens
  exact ⟨_, answer, (same atomTokens.pop rfl).trans answer⟩

end Descent

end TransitionSystems.Guard
