import TransitionSystems.Proofs.Guard.Reading
import TransitionSystems.Proofs.Guard.Scanning

/-!
# Written guards read back

The written form of a formula is a sentence of the grammar, and the grammar derives the formula from
it. A table that has the formula finds it under its number and does not grow; another table gets a
number for it that is written in the same way.

Names of atoms have to be words that the scan takes for identifiers: other names are cut into
several tokens, or are no tokens at all.
-/

namespace TransitionSystems.Guard

/-- A name that is scanned as an identifier: a letter or an underscore, then letters, underscores
and digits, other than the spellings of the constants. -/
structure IsIdentifier (name : Text) : Prop where
  starts : name.head?.any startsIdentifier
  continues : ∀ byte ∈ name, continuesIdentifier byte
  notConstant : name ∉ (["true", "True", "false", "False"] : List Text)

theorem IsIdentifier.wordKind {name : Text} (identifier : IsIdentifier name) :
    wordKind name = .identifier := by
  have notConstant := identifier.notConstant
  simp only [List.mem_cons, List.not_mem_nil, or_false, not_or] at notConstant
  obtain ⟨notTrue, notTrue', notFalse, notFalse'⟩ := notConstant
  rw [Guard.wordKind, if_neg (not_or.2 ⟨notTrue, notTrue'⟩),
    if_neg (not_or.2 ⟨notFalse, notFalse'⟩)]

/-- Two operands that bind most strongly, joined by any connective. -/
theorem Derives.formula_of_primaries {front back : List Token} {sign : Token}
    {connective : Connective} {left right : Formula} (first : Derives .primary front left)
    (kind : sign.kind = connective.tokenKind) (second : Derives .primary back right) :
    Derives .formula (front ++ sign :: back) (.binary connective left right) := by
  have first : Derives (.operand .conjunction) front left := .primary first
  have second : Derives (.operand .conjunction) back right := .primary second
  cases connective with
  | conjunction =>
      exact .operand (.operand (.operand (.leftward (by decide) (.operand first) kind second)))
  | disjunction =>
      exact .operand (.operand
        (.leftward (by decide) (.operand (.operand first)) kind (.operand second)))
  | implication =>
      exact .operand (.rightward (.operand (.operand first)) kind
        (.operand (.operand (.operand second))))
  | equivalence =>
      exact .leftward (by decide) (.operand (.operand (.operand (.operand first)))) kind
        (.operand (.operand (.operand second)))

theorem Derives.primary_of_primaries {front back : List Token} {opening sign closing : Token}
    {connective : Connective} {left right : Formula} (opens : opening.kind = .leftParenthesis)
    (first : Derives .primary front left) (kind : sign.kind = connective.tokenKind)
    (second : Derives .primary back right) (closes : closing.kind = .rightParenthesis) :
    Derives .primary ([opening] ++ front ++ [sign] ++ back ++ [closing])
      (.binary connective left right) := by
  simpa using parentheses opens (formula_of_primaries first kind second) closes

namespace Formula

/-- The written form of a formula is cut into tokens from which the grammar derives it. -/
theorem exists_scans_text {formula : Formula} (named : ∀ name ∈ formula.atoms, IsIdentifier name)
    (line column : Nat) (rest : Text)
    (stops : ∀ byte ∈ rest.head?, continuesIdentifier byte = false) :
    ∃ tokens, Scans line column formula.text tokens rest ∧ Derives .primary tokens formula := by
  induction formula generalizing column rest with
  | truth => exact ⟨_, .word rfl (by decide +kernel) stops, .truth rfl⟩
  | falsity => exact ⟨_, .word rfl (by decide +kernel) stops, .falsity rfl⟩
  | atom name =>
      have identifier := named name List.mem_cons_self
      exact ⟨_, .word identifier.starts identifier.continues stops, .atom identifier.wordKind⟩
  | negation formula induction =>
      obtain ⟨tokens, scans, derives⟩ := induction named (column + ("(!" : Text).length)
        ((")" : Text) ++ rest) (by rintro _ ⟨⟩; decide)
      have opens : Scans line column "(!" _ (formula.text ++ ((")" : Text) ++ rest)) :=
        Scans.openingParenthesis.append .bang
      refine ⟨_, (opens.append scans).append .closingParenthesis, ?_⟩
      exact .parentheses rfl (Derives.formula_of_unary (.negation rfl (.primary derives))) rfl
  | binary connective left right first second =>
      have namedLeft : ∀ name ∈ left.atoms, IsIdentifier name := fun name member =>
        named name (List.mem_append_left _ member)
      have namedRight : ∀ name ∈ right.atoms, IsIdentifier name := fun name member =>
        named name (List.mem_append_right _ member)
      let front : Text := "(" ++ left.text ++ " " ++ connective.sign ++ " "
      obtain ⟨backTokens, scans', derives'⟩ := second namedRight (column + front.length)
        ((")" : Text) ++ rest) (by rintro _ ⟨⟩; decide)
      obtain ⟨frontTokens, scans, derives⟩ := first namedLeft (column + ("(" : Text).length)
        ((" " : Text) ++
          (connective.sign ++ ((" " : Text) ++ (right.text ++ ((")" : Text) ++ rest)))))
        (by rintro _ ⟨⟩; decide)
      have opened := Scans.openingParenthesis.append scans
      have joined := ((opened.append .space).append (.sign connective)).append .space
      simp only [List.append_nil] at joined
      exact ⟨_, (joined.append scans').append .closingParenthesis,
        .primary_of_primaries rfl derives rfl derives' rfl⟩

theorem exists_parse_text {formula : Formula} (named : ∀ name ∈ formula.atoms, IsIdentifier name)
    (line : Nat) :
    ∃ tokens, tokenise formula.text line = .ok tokens ∧ parse tokens = .ok formula := by
  obtain ⟨tokens, scans, derives⟩ := exists_scans_text named line 1 [] (by nofun)
  let last : Token := ⟨.endOfInput, [], ⟨line, 1 + formula.text.length⟩⟩
  have sentence : Derives .formula tokens formula := .formula_of_unary (.primary derives)
  rw [Scans, List.append_nil] at scans
  exact ⟨tokens ++ [last], scans, (parse_eq_ok_iff sentence.kind_ne_endOfInput rfl).2 sentence⟩

end Formula

namespace Table

variable {table other : Table} {number : Nat}

theorem text_of_formula {formula : Formula} (found : table.formula number = .ok formula) :
    table.text number = .ok formula.text := by
  rw [text, found]
  rfl

theorem readText_of_parse {source : Text} {line : Nat} {tokens : List Token} {formula : Formula}
    (scanned : tokenise source line = .ok tokens) (parsed : parse tokens = .ok formula) :
    table.readText source line = (.ok (table.insert formula).1, (table.insert formula).2) := by
  rw [readText, scanned]
  exact read_of_parse parsed

/-- The written form of a formula of the table whose atoms are identifiers reads back as its number
and leaves the table as it is; in any other table it reads back as a number with the same written
form. -/
theorem Reachable.exists_text_reads_back (reachable : table.Reachable) (known : number < table.size)
    (named : ∀ formula, table.formula number = .ok formula →
      ∀ name ∈ formula.atoms, IsIdentifier name) :
    ∃ source, table.text number = .ok source ∧
      ∀ line, table.readText source line = (.ok number, table) ∧
        ∀ other : Table, other.Reachable →
          ∃ number', (other.readText source line).1 = .ok number' ∧
            (other.readText source line).2.text number' = .ok source := by
  have coherent := reachable.coherent
  obtain ⟨formula, denotes⟩ := coherent.exists_denotes known
  have found := coherent.formula_eq_ok_iff.2 denotes
  refine ⟨formula.text, text_of_formula found, fun line => ?_⟩
  obtain ⟨tokens, scanned, parsed⟩ := Formula.exists_parse_text (named formula found) line
  constructor
  · rw [readText_of_parse scanned parsed, coherent.insert_of_denotes denotes]
  · intro other reachable'
    obtain ⟨coherent', -, denotes'⟩ := reachable'.coherent.insert formula
    rw [readText_of_parse scanned parsed]
    exact ⟨_, rfl, text_of_formula (coherent'.formula_eq_ok_iff.2 denotes')⟩

/-- The table of `p -> !q & p`, in which this formula has the number 6. -/
def implicationTable : Table :=
  (initial.readText "p -> !q & p").2

theorem formula?_implicationTable : implicationTable.formula? 6 = some implicationFormula := by
  decide +kernel

/-- The formula `p -> !q & p` is written with parentheses and reads back as its number. -/
theorem implicationTable_text_reads_back :
    ∃ source, implicationTable.text 6 = .ok source ∧
      ∀ line, implicationTable.readText source line = (.ok 6, implicationTable) ∧
        ∀ other : Table, other.Reachable →
          ∃ number', (other.readText source line).1 = .ok number' ∧
            (other.readText source line).2.text number' = .ok source := by
  refine Reachable.exists_text_reads_back (.readText _ _ .initial) (by decide +kernel) ?_
  intro formula found name member
  rw [Table.formula, formula?_implicationTable] at found
  obtain rfl := Except.ok.inj found
  have names : name = "p" ∨ name = "q" := by
    simpa [implicationFormula, Formula.atoms, or_comm, or_assoc] using member
  rcases names with rfl | rfl
  · exact ⟨rfl, by decide +kernel, by decide⟩
  · exact ⟨rfl, by decide +kernel, by decide⟩

end Table

end TransitionSystems.Guard
