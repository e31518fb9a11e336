import TransitionSystems.Guard.Table

/-!
# The line of a guard

A guard text is read in the same way on every line. Its tokens are the same but for the line in
their positions, and when the text is wrong, the same fault is found in the same column; only the
line in the report is another one.
-/

namespace TransitionSystems.Guard

/-- A token on another line. -/
def Token.onLine (line : Nat) (token : Token) : Token :=
  { token with position := { token.position with line := line } }

/-! ## Scanning -/

/-- The scan of a source gives the same tokens on every line, or stops in the same column. -/
theorem scan_onLine (column passing : Nat) (source : Text) :
    (∃ tokens : List Token, (∃ token ∈ tokens, token.kind = .endOfInput) ∧
      ∀ line, scan line column passing source = .ok (tokens.map (·.onLine line))) ∨
    ∃ column' fault, ∀ line,
      scan line column passing source = .error (.guard ⟨line, column'⟩ fault) := by
  induction source generalizing column passing with
  | nil =>
      exact .inl ⟨[⟨.endOfInput, [], ⟨1, column⟩⟩], ⟨_, List.mem_singleton_self _, rfl⟩,
        fun line => rfl⟩
  | cons byte rest induction =>
      cases passing with
      | succ passing =>
          simp only [scan]
          exact induction (column + 1) passing
      | zero =>
          simp only [scan]
          cases Text.isSpace byte with
          | true => exact induction (column + 1) 0
          | false =>
              cases lexeme? (byte :: rest) with
              | none => exact .inr ⟨column, .byte byte, fun line => rfl⟩
              | some lexeme =>
                  obtain ⟨text, kind⟩ := lexeme
                  rcases induction (column + 1) (text.length - 1) with
                    ⟨tokens, ⟨last, listed, ends⟩, scanned⟩ | ⟨column', fault, stopped⟩
                  · refine .inl ⟨⟨kind, text, ⟨1, column⟩⟩ :: tokens,
                      ⟨last, List.mem_cons_of_mem _ listed, ends⟩, fun line => ?_⟩
                    simp only [scanned]
                    rfl
                  · refine .inr ⟨column', fault, fun line => ?_⟩
                    simp only [stopped]
                    rfl

/-! ## Parsing -/

namespace Parser

/-- A token is read in the same way on every line, or refused for the same reason. -/
theorem read_onLine (parser : Parser) (token : Token) :
    (∃ next, ∀ line, parser.read (token.onLine line) = .ok next) ∨
      ∃ fault complete, ∀ line, parser.read (token.onLine line) =
        .error ⟨⟨line, token.position.column⟩, fault, complete⟩ := by
  obtain ⟨due, group, outer⟩ := parser
  cases due with
  | operand =>
      simp only [read, readOperand, Token.onLine]
      cases token.kind with
      | bang | leftParenthesis | truth | falsity | identifier => exact .inl ⟨_, fun _ => rfl⟩
      | _ => exact .inr ⟨_, _, fun _ => rfl⟩
  | connective last =>
      simp only [read, readConnective, Token.onLine]
      cases token.kind.connective? with
      | some connective => exact .inl ⟨_, fun _ => rfl⟩
      | none =>
          cases outer with
          | nil => exact .inr ⟨_, _, fun _ => rfl⟩
          | cons enclosing outer =>
              by_cases closes : token.kind = .rightParenthesis
              · exact .inl ⟨_, fun _ => if_pos closes⟩
              · exact .inr ⟨_, _, fun _ => if_neg closes⟩

theorem finish_onLine (parser : Parser) (token : Token) :
    (∃ formula, ∀ line, parser.finish (token.onLine line) = .ok formula) ∨
      ∃ fault complete, ∀ line, parser.finish (token.onLine line) =
        .error ⟨⟨line, token.position.column⟩, fault, complete⟩ := by
  obtain ⟨- | last, group, outer⟩ := parser
  · exact .inr ⟨_, _, fun _ => rfl⟩
  · cases outer with
    | nil => exact .inl ⟨_, fun _ => rfl⟩
    | cons enclosing outer => exact .inr ⟨_, _, fun _ => rfl⟩

/-- Tokens up to an end of the input are parsed in the same way on every line. -/
theorem run_onLine (parser : Parser) {tokens : List Token}
    (ends : ∃ token ∈ tokens, token.kind = .endOfInput) :
    (∃ formula, ∀ line, parser.run (tokens.map (·.onLine line)) = .ok formula) ∨
      ∃ column fault complete, ∀ line, parser.run (tokens.map (·.onLine line)) =
        .error ⟨⟨line, column⟩, fault, complete⟩ := by
  induction tokens generalizing parser with
  | nil => simp at ends
  | cons token tokens induction =>
      have kind (line : Nat) : (token.onLine line).kind = token.kind := rfl
      simp only [List.map_cons, run, kind]
      by_cases last : token.kind = .endOfInput
      · simp only [if_pos last]
        rcases parser.finish_onLine token with done | ⟨fault, complete, failed⟩
        · exact .inl done
        · exact .inr ⟨_, fault, complete, failed⟩
      · simp only [if_neg last]
        have ends : ∃ token ∈ tokens, token.kind = .endOfInput := by
          simpa [last] using ends
        rcases parser.read_onLine token with ⟨next, read⟩ | ⟨fault, complete, refused⟩
        · simp only [read]
          exact induction next ends
        · simp only [refused]
          exact .inr ⟨_, fault, complete, fun _ => rfl⟩

end Parser

/-! ## Reading into a table -/

/-- A guard is read into a table in the same way on every line, or the same fault is found in the
same column. -/
theorem Table.readText_onLine (table : Table) (source : Text) :
    (∃ number next, ∀ line, table.readText source line = (.ok number, next)) ∨
      ∃ column fault next, ∀ line,
        table.readText source line = (.error (.guard ⟨line, column⟩ fault), next) := by
  simp only [readText, tokenise]
  rcases scan_onLine 1 0 source with ⟨tokens, ends, scanned⟩ | ⟨column, fault, stopped⟩
  · simp only [scanned, read, parse]
    rcases Parser.run_onLine {} ends with ⟨formula, parsed⟩ | ⟨column, fault, complete, failed⟩
    · simp only [parsed]
      exact .inl ⟨_, _, fun _ => rfl⟩
    · simp only [failed]
      exact .inr ⟨column, fault, _, fun _ => rfl⟩
  · simp only [stopped]
    exact .inr ⟨column, fault, _, fun _ => rfl⟩

end TransitionSystems.Guard
