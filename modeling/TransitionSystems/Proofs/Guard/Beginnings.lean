import TransitionSystems.Proofs.Guard.MaximalMunch
import TransitionSystems.Proofs.Guard.Names

/-!
# Faults of guards are found at once

Whatever has been read can be completed: an operand where one is due, and a closing parenthesis for
every open one. So a token that is refused is the first one with which no sentence goes on, and its
column is the one that is reported.
-/

namespace TransitionSystems.Guard

/-- The tokens are a beginning of a sentence. -/
def IsBeginning (tokens : List Token) : Prop :=
  ∃ more formula, Derives .formula (tokens ++ more) formula

/-- Tokens that are a beginning of a sentence cannot go on with this token, or, if it is the end of
the input, are no sentence. -/
inductive IsImpossible (before : List Token) (token : Token) : Prop
  | inside (beginning : IsBeginning before) (kind : token.kind ≠ .endOfInput)
      (refused : ¬IsBeginning (before ++ [token]))
  | endOfInput (beginning : IsBeginning before) (kind : token.kind = .endOfInput)
      (refused : ∀ formula, ¬Derives .formula before formula)

/-- A token stands at the place after these ones and is the first one that is impossible. -/
structure IsFirstImpossible (tokens before : List Token) (token : Token) : Prop where
  split : ∃ after, tokens = before ++ token :: after
  impossible : IsImpossible before token
  first : ∀ former earlier later, before = former ++ earlier :: later →
    ¬IsImpossible former earlier

theorem IsBeginning.of_append {front back : List Token} (beginning : IsBeginning (front ++ back)) :
    IsBeginning front := by
  obtain ⟨more, formula, derives⟩ := beginning
  rw [List.append_assoc] at derives
  exact ⟨back ++ more, formula, derives⟩

theorem IsImpossible.isBeginning {before : List Token} {token : Token}
    (impossible : IsImpossible before token) : IsBeginning before := by
  cases impossible with
  | inside beginning | endOfInput beginning => exact beginning

theorem IsImpossible.isFirst {before after : List Token} {token : Token}
    (impossible : IsImpossible before token) (inside : ∀ token ∈ before, token.kind ≠ .endOfInput) :
    IsFirstImpossible (before ++ token :: after) before token where
  split := ⟨after, rfl⟩
  impossible := impossible
  first := by
    rintro former earlier later rfl refuses
    have beginning := impossible.isBeginning
    rw [← List.singleton_append, ← List.append_assoc] at beginning
    cases refuses with
    | inside _ _ refused => exact refused beginning.of_append
    | endOfInput _ kind _ => exact inside earlier (by simp) kind

/-- The faults that a token can be. -/
def Token.faults (token : Token) : List GuardFault :=
  [.endOfInput, .token token.text, .unclosed token.kind, .trailing token.text]

/-- A failure is the fault of a token. -/
structure Token.IsBlamed (token : Token) (failure : ParseFailure) : Prop where
  position : failure.position = token.position
  fault : failure.fault ∈ token.faults

namespace Parser

/-! ## Whatever has been read can be completed -/

/-- As many parentheses as are open are closed, and then the input may end. -/
theorem exists_reads_closing {closing : Token} (kind : closing.kind = .rightParenthesis)
    (last : Formula) (group : Group) (outer : List Group) :
    ∃ last' group',
      Reads ⟨.connective last, group, outer⟩ (List.replicate outer.length closing)
        ⟨.connective last', group', []⟩ := by
  induction outer generalizing last group with
  | nil => exact ⟨last, group, rfl⟩
  | cons enclosing outer induction =>
      obtain ⟨last', group', reads⟩ :=
        induction (enclosing.signed (group.endFormula last)) { enclosing with negations := 0 }
      exact ⟨last', group', .cons (read_closing kind last group enclosing outer) reads⟩

theorem exists_completion (parser : Parser) :
    ∃ more last group, parser.Reads more ⟨.connective last, group, []⟩ ∧
      ∀ token ∈ more, token.kind ≠ .endOfInput := by
  let closing : Token := { kind := .rightParenthesis }
  have kind : closing.kind = .rightParenthesis := rfl
  obtain ⟨due, group, outer⟩ := parser
  cases due with
  | operand =>
      obtain ⟨last, group', reads⟩ :=
        exists_reads_closing kind (group.signed .truth) { group with negations := 0 } outer
      exact ⟨{ kind := .truth } :: List.replicate outer.length closing, last, group',
        .cons rfl reads, by simp [closing]⟩
  | connective last =>
      obtain ⟨last', group', reads⟩ := exists_reads_closing kind last group outer
      exact ⟨List.replicate outer.length closing, last', group', reads, by simp [closing]⟩

/-- What has been read is a beginning of a sentence. -/
theorem Reads.isBeginning {tokens : List Token} {after : Parser}
    (inside : ∀ token ∈ tokens, token.kind ≠ .endOfInput) (reads : Reads {} tokens after) :
    IsBeginning tokens := by
  obtain ⟨more, last, group, completes, inside'⟩ := after.exists_completion
  have all : ∀ token ∈ tokens ++ more, token.kind ≠ .endOfInput :=
    List.forall_mem_append.2 ⟨inside, inside'⟩
  have complete : Reads {} (tokens ++ more) ⟨.connective last, group, []⟩ := reads.append completes
  have ends : ({} : Token).kind = .endOfInput := rfl
  refine ⟨more, group.endFormula last, (parse_eq_ok_iff all ends).1 ?_⟩
  rw [parse, run_append_endOfInput all ends]
  exact congrArg (· >>= fun after => after.finish {}) complete

/-! ## What is refused is impossible -/

theorem isBlamed_of_read {parser : Parser} {token : Token} {failure : ParseFailure}
    (refused : parser.read token = .error failure) : token.IsBlamed failure := by
  obtain ⟨due, group, outer⟩ := parser
  cases due with
  | operand =>
      change readOperand _ token = .error failure at refused
      rw [readOperand] at refused
      split at refused <;> cases refused
      exact ⟨rfl, by simp [Token.faults]⟩
  | connective last =>
      change readConnective _ last token = .error failure at refused
      rw [readConnective] at refused
      split at refused
      · cases refused
      · cases refused
        exact ⟨rfl, by simp [Token.faults]⟩
      · split at refused <;> cases refused
        exact ⟨rfl, by simp [Token.faults]⟩

theorem isBlamed_of_finish {parser : Parser} {token : Token} {failure : ParseFailure}
    (ends : token.kind = .endOfInput) (refused : parser.finish token = .error failure) :
    token.IsBlamed failure := by
  rw [finish] at refused
  split at refused <;> cases refused
  · exact ⟨rfl, by simp [Token.faults]⟩
  · exact ⟨rfl, by simp [Token.faults, ends]⟩

/-- Reading stops at a token after those that have been read. -/
theorem exists_refused {parser : Parser} {tokens : List Token} {failure : ParseFailure}
    (failed : tokens.foldlM read parser = .error failure) :
    ∃ before token after next, tokens = before ++ token :: after ∧ parser.Reads before next ∧
      next.read token = .error failure := by
  induction tokens generalizing parser with
  | nil => cases failed
  | cons token tokens induction =>
      rw [List.foldlM_cons] at failed
      cases first : parser.read token with
      | error failure' =>
          rw [first] at failed
          cases failed
          exact ⟨[], token, tokens, parser, rfl, rfl, first⟩
      | ok next =>
          rw [first] at failed
          obtain ⟨before, refused, after, last, rfl, reads, fails⟩ := induction failed
          exact ⟨token :: before, refused, after, last, rfl, reads.cons first, fails⟩

theorem Reads.not_isBeginning {before : List Token} {next : Parser} {token : Token}
    {failure : ParseFailure} (reads : Reads {} before next)
    (refused : next.read token = .error failure) : ¬IsBeginning (before ++ [token]) := by
  rintro ⟨more, formula, derives⟩
  obtain ⟨after, last, complete, -⟩ := derives.reads {} [] rfl
  rw [List.append_assoc, List.singleton_append, Reads, List.foldlM_append] at complete
  have reads : before.foldlM read ({} : Parser) = .ok next := reads
  have stuck : (token :: more).foldlM read next = .error failure := by
    rw [List.foldlM_cons, refused]
    rfl
  cases complete.symm.trans ((congrArg (· >>= _) reads).trans stuck)

end Parser

/-- If no sentence comes before the end of the input, parsing stops at the first impossible
token. -/
theorem exists_isFirstImpossible {inside : List Token} {last : Token} {failure : ParseFailure}
    (inner : ∀ token ∈ inside, token.kind ≠ .endOfInput) (ends : last.kind = .endOfInput)
    (failed : parse (inside ++ [last]) = .error failure) :
    ∃ before token, IsFirstImpossible (inside ++ [last]) before token ∧ token.IsBlamed failure := by
  have parsed := failed
  rw [parse, Parser.run_append_endOfInput inner ends] at failed
  cases reads : inside.foldlM Parser.read ({} : Parser) with
  | error failure' =>
      rw [reads] at failed
      obtain rfl := Except.error.inj (failed : Except.error _ = Except.error failure)
      obtain ⟨before, token, after, next, rfl, reads, refused⟩ := Parser.exists_refused reads
      rw [List.forall_mem_append, List.forall_mem_cons] at inner
      have impossible : IsImpossible before token :=
        .inside (reads.isBeginning inner.1) inner.2.1 (reads.not_isBeginning refused)
      rw [List.append_assoc]
      exact ⟨before, token, impossible.isFirst inner.1, Parser.isBlamed_of_read refused⟩
  | ok after =>
      rw [reads] at failed
      have impossible : IsImpossible inside last := by
        refine .endOfInput (Parser.Reads.isBeginning inner reads) ends fun formula derives => ?_
        cases parsed.symm.trans ((parse_eq_ok_iff inner ends).2 derives)
      exact ⟨inside, last, impossible.isFirst inner, Parser.isBlamed_of_finish ends failed⟩

/-! ## Reports -/

theorem Token.ne_zero_of_mem_faults {token : Token} (solid : ∀ byte ∈ token.text, byte ≠ 0)
    {fault : GuardFault} (listed : fault ∈ token.faults) : ∀ byte ∈ fault.text, byte ≠ 0 := by
  simp only [faults, List.mem_cons, List.not_mem_nil, or_false] at listed
  rcases listed with rfl | rfl | rfl | rfl
  · decide +kernel
  · simp only [GuardFault.text, List.forall_mem_append]
    exact ⟨⟨by decide +kernel, solid⟩, by decide +kernel⟩
  · have name : ∀ byte ∈ token.kind.name, byte ≠ 0 := by
      cases token.kind <;> decide +kernel
    simp only [GuardFault.text, List.forall_mem_append]
    exact ⟨by decide +kernel, name⟩
  · simp only [GuardFault.text, List.forall_mem_append]
    exact ⟨⟨by decide +kernel, solid⟩, by decide +kernel⟩

theorem plain_of_tokenise {source : Text} {line : Nat} {tokens : List Token}
    (scanned : tokenise source line = .ok tokens) :
    ∀ token ∈ tokens, token.position.line = line ∧ ∀ byte ∈ token.text, byte ≠ 0 := by
  obtain ⟨inside, passed, rfl⟩ := tokenise_eq_ok_iff.1 scanned
  rw [List.forall_mem_append, List.forall_mem_singleton]
  refine ⟨fun token listed => ?_, rfl, by simp⟩
  obtain ⟨front, back, -, position, lexeme, -⟩ := passed.isCut.stands token listed
  exact ⟨congrArg Position.line position, fun byte member => (lexeme.bytes.2 byte member).2⟩

namespace Table

/-- A guard that can be scanned but not be read is reported at its first impossible token. -/
theorem readText_reports_first_impossible {table : Table} {source : Text} {line : Nat}
    {tokens : List Token} {error : Error} (scanned : tokenise source line = .ok tokens)
    (failed : (table.readText source line).1 = .error error) :
    ∃ before token, IsFirstImpossible tokens before token ∧ error.errorClass = .runtime ∧
      ∃ fault ∈ token.faults, error.message =
        Text.ofNat line ++ (": ERROR: " : Text) ++ fault.text ++ (" at column " : Text) ++
          Text.ofNat token.position.column := by
  obtain ⟨inside, last, rfl, ends, inner⟩ := exists_of_scan scanned
  have inner : ∀ token ∈ inside, token.kind ≠ .endOfInput := fun token listed =>
    (inner token listed).kind_ne
  simp only [readText, scanned, read] at failed
  split at failed
  · cases failed
  · next failure parsed =>
      obtain rfl := Except.error.inj failed
      obtain ⟨before, token, first, blamed⟩ := exists_isFirstImpossible inner ends parsed
      obtain ⟨after, split⟩ := first.split
      obtain ⟨on_line, solid⟩ := plain_of_tokenise scanned token (by simp [split])
      refine ⟨before, token, first, rfl, failure.fault, blamed.fault, ?_⟩
      rw [message_of_fault (Token.ne_zero_of_mem_faults solid blamed.fault), blamed.position,
        on_line]

/-- In `p & )` the closing parenthesis is reported. -/
theorem readText_reports_first_impossible_parenthesis :
    ∃ error, (initial.readText "p & )" 7).1 = .error error ∧
      error.message = "7: ERROR: unexpected token ')' at column 5" ∧
      ∃ tokens before token, tokenise "p & )" 7 = .ok tokens ∧
        IsFirstImpossible tokens before token := by
  have failed : (initial.readText "p & )" 7).1 = .error (.guard ⟨7, 5⟩ (.token ")")) := rfl
  have scanned : tokenise "p & )" 7 = .ok
      [⟨.identifier, "p", ⟨7, 1⟩⟩, ⟨.ampersand, "&", ⟨7, 3⟩⟩, ⟨.rightParenthesis, ")", ⟨7, 5⟩⟩,
        ⟨.endOfInput, [], ⟨7, 6⟩⟩] := rfl
  obtain ⟨before, token, first, -⟩ := readText_reports_first_impossible scanned failed
  exact ⟨_, failed, rfl, _, before, token, scanned, first⟩

end Table

end TransitionSystems.Guard
