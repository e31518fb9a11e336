import TransitionSystems.Proofs.Guard.Lexemes
import TransitionSystems.Proofs.Guard.RoundTrip
import TransitionSystems.Proofs.Text.Phrases

/-!
# Names of atoms that are read

The scan only makes identifiers of words that it takes for identifiers again. So the atoms of a
formula that has been read are identifiers, and the formula is written as words with single spaces
between them.
-/

namespace TransitionSystems.Guard

/-- A token inside a guard text, whose text is an identifier if the token is one. -/
structure Token.IsInner (token : Token) : Prop where
  kind_ne : token.kind ≠ .endOfInput
  identifier : token.kind = .identifier → IsIdentifier token.text

theorem wordKind_cases {word : Text} (starts : word.head?.any startsIdentifier)
    (continues : ∀ byte ∈ word, continuesIdentifier byte) :
    wordKind word ≠ .endOfInput ∧ (wordKind word = .identifier → IsIdentifier word) := by
  by_cases truth : word = "true" ∨ word = "True"
  · rw [wordKind, if_pos truth]
    exact ⟨by decide, fun same => by cases same⟩
  by_cases falsity : word = "false" ∨ word = "False"
  · rw [wordKind, if_neg truth, if_pos falsity]
    exact ⟨by decide, fun same => by cases same⟩
  · rw [wordKind, if_neg truth, if_neg falsity]
    refine ⟨by decide, fun _ => ⟨starts, continues, ?_⟩⟩
    rw [not_or] at truth falsity
    simp [truth, falsity]

theorem kind_of_mem_operators (operator : Text × TokenKind) (member : operator ∈ operators) :
    operator.2 ≠ .endOfInput ∧ operator.2 ≠ .identifier := by
  revert operator
  decide

theorem isInner_of_lexeme? {source text : Text} {kind : TokenKind}
    (found : lexeme? source = some (text, kind)) (position : Position) :
    Token.IsInner ⟨kind, text, position⟩ := by
  obtain ⟨rest, -, lexeme⟩ := lexeme?_eq_some_iff.1 found
  cases lexeme with
  | word starts continues =>
      obtain ⟨inside, identifier⟩ := wordKind_cases starts continues
      exact ⟨inside, identifier⟩
  | operator spelling =>
      obtain ⟨inside, other⟩ := kind_of_mem_operators _ spelling
      exact ⟨inside, fun same => absurd same other⟩

/-- The end of the input is the last token and no other one. -/
theorem exists_of_scan {line column passing : Nat} {source : Text} {tokens : List Token}
    (scanned : scan line column passing source = .ok tokens) :
    ∃ inside last, tokens = inside ++ [last] ∧ last.kind = .endOfInput ∧
      ∀ token ∈ inside, token.IsInner := by
  induction source generalizing column passing tokens with
  | nil =>
      obtain rfl := Except.ok.inj (scanned : Except.ok _ = Except.ok tokens)
      exact ⟨[], _, rfl, rfl, by simp⟩
  | cons byte source induction =>
      cases passing with
      | succ passing => exact induction scanned
      | zero =>
          rw [scan] at scanned
          split at scanned
          · exact induction scanned
          split at scanned
          · cases scanned
          · next text kind found =>
              obtain ⟨rest, scanned', done⟩ := bind_eq_ok_iff.1 scanned
              obtain rfl := pure_eq_ok_iff.1 done
              obtain ⟨inside, last, rfl, ends, inner⟩ := induction scanned'
              exact ⟨_ :: inside, last, rfl, ends,
                List.forall_mem_cons.2 ⟨isInner_of_lexeme? found _, inner⟩⟩

/-- The atoms of a sentence are named by its identifiers. -/
theorem Derives.isIdentifier_of_mem_atoms {stratum : Stratum} {tokens : List Token}
    {formula : Formula} (derives : Derives stratum tokens formula)
    (inner : ∀ token ∈ tokens, token.IsInner) : ∀ name ∈ formula.atoms, IsIdentifier name := by
  induction derives with
  | truth | falsity => simp [Formula.atoms]
  | @atom token kind =>
      intro name member
      obtain rfl := List.mem_singleton.1 member
      exact (inner token List.mem_cons_self).identifier kind
  | parentheses _ _ _ induction =>
      rw [List.forall_mem_cons, List.forall_mem_append] at inner
      exact induction inner.2.1
  | primary _ induction | operand _ induction => exact induction inner
  | negation _ _ induction => exact induction (List.forall_mem_cons.1 inner).2
  | leftward _ _ _ _ first last | rightward _ _ _ first last =>
      rw [List.forall_mem_append, List.forall_mem_cons] at inner
      exact List.forall_mem_append.2 ⟨first inner.1, last inner.2.2⟩

theorem isIdentifier_of_parse {source : Text} {line : Nat} {tokens : List Token}
    {formula : Formula} (scanned : tokenise source line = .ok tokens)
    (parsed : parse tokens = .ok formula) : ∀ name ∈ formula.atoms, IsIdentifier name := by
  obtain ⟨inside, last, rfl, ends, inner⟩ := exists_of_scan scanned
  have kind_ne : ∀ token ∈ inside, token.kind ≠ .endOfInput := fun token member =>
    (inner token member).kind_ne
  exact ((parse_eq_ok_iff kind_ne ends).1 parsed).isIdentifier_of_mem_atoms inner

/-! ## Written formulas -/

/-- An identifier has neither spaces nor comment marks in it. -/
theorem IsIdentifier.isWord {name : Text} (identifier : IsIdentifier name) : name.IsWord where
  nonempty := by
    rintro rfl
    cases identifier.starts
  plain := by
    intro byte member
    have continues := identifier.continues byte member
    constructor
    · rw [← Bool.not_eq_true]
      intro space
      simp only [continuesIdentifier, startsIdentifier, Text.isAlpha, Text.isDigit, Text.isSpace,
        Bool.or_eq_true, Bool.and_eq_true, decide_eq_true_eq, beq_iff_eq, UInt8.le_iff_toNat_le,
        ← UInt8.toNat_inj, UInt8.reduceToNat] at continues space
      omega
    · rintro rfl
      exact absurd continues (by decide)

theorem Connective.isWord_sign (connective : Connective) : connective.sign.IsWord := by
  cases connective <;> exact ⟨by decide, by decide +kernel⟩

/-- A formula whose atoms are identifiers is written as a phrase. -/
theorem Formula.isPhrase_text {formula : Formula}
    (named : ∀ name ∈ formula.atoms, IsIdentifier name) : formula.text.IsPhrase := by
  induction formula with
  | truth | falsity => exact .word ⟨by decide, by decide +kernel⟩
  | atom name => exact .word (named name List.mem_cons_self).isWord
  | negation formula induction =>
      have phrase := induction named
      rw [Formula.text, List.append_assoc]
      exact (phrase.append (by decide +kernel)).prepend (by decide +kernel)
  | binary connective left right first second =>
      rw [Formula.atoms, List.forall_mem_append] at named
      have opened : Text.IsPhrase ("(" ++ left.text) := (first named.1).prepend (by decide +kernel)
      have closed : Text.IsPhrase (right.text ++ ")") := (second named.2).append (by decide +kernel)
      have joined := (opened.join (.word connective.isWord_sign)).join closed
      simpa [Formula.text] using joined

end TransitionSystems.Guard
