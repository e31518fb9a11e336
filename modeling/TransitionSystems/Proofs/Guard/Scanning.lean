import Mathlib.Data.List.Basic
import TransitionSystems.Guard.Scan
import TransitionSystems.Proofs.Guard.Grammar
import TransitionSystems.Proofs.Outcome

/-!
# Scanning lexemes

A text that is put together from lexemes is scanned lexeme by lexeme. A word has to be followed by a
byte that does not continue it, and an operator by one that does not make it a longer operator.
-/

namespace TransitionSystems.Guard

theorem isSpace_of_startsIdentifier {byte : UInt8} (starts : startsIdentifier byte) :
    Text.isSpace byte = false := by
  rw [← Bool.not_eq_true]
  intro space
  simp only [startsIdentifier, Text.isAlpha, Text.isSpace, Bool.or_eq_true, Bool.and_eq_true,
    decide_eq_true_eq, beq_iff_eq, UInt8.le_iff_toNat_le, ← UInt8.toNat_inj, UInt8.reduceToNat]
    at starts space
  omega

/-- A word in front of a byte that does not continue it is the longest lexeme. -/
theorem lexeme?_word {text rest : Text} (starts : text.head?.any startsIdentifier)
    (continues : ∀ byte ∈ text, continuesIdentifier byte)
    (stops : ∀ byte ∈ rest.head?, continuesIdentifier byte = false) :
    lexeme? (text ++ rest) = some (text, wordKind text) := by
  have taken : (text ++ rest).takeWhile continuesIdentifier = text := by
    rw [List.takeWhile_append_of_pos continues]
    cases rest with
    | nil => simp
    | cons next rest => simp [stops next rfl]
  have starts' : (text ++ rest).head?.any startsIdentifier = true := by
    cases text with
    | nil => cases starts
    | cons byte more => exact starts
  rw [lexeme?, if_pos starts', taken]

/-- A beginning of a text is cut into these tokens before the scan goes on with the rest. -/
def Scans (line column : Nat) (text : Text) (tokens : List Token) (rest : Text) : Prop :=
  scan line column 0 (text ++ rest) = (tokens ++ ·) <$> scan line (column + text.length) 0 rest

namespace Scans

variable {line column : Nat} {rest : Text}

theorem nil : Scans line column [] [] rest :=
  (LawfulFunctor.id_map (scan line column 0 rest)).symm

theorem append {text text' : Text} {tokens tokens' : List Token}
    (first : Scans line column text tokens (text' ++ rest))
    (second : Scans line (column + text.length) text' tokens' rest) :
    Scans line column (text ++ text') (tokens ++ tokens') rest := by
  rw [Scans, List.append_assoc, first, second, List.length_append, ← Nat.add_assoc]
  cases scan line (column + text.length + text'.length) 0 rest with
  | error error => rfl
  | ok more => exact congrArg Except.ok (List.append_assoc ..).symm

theorem passing (line column : Nat) (text rest : Text) :
    scan line column text.length (text ++ rest) = scan line (column + text.length) 0 rest := by
  induction text generalizing column with
  | nil => rfl
  | cons byte text induction =>
      rw [List.length_cons, List.cons_append, scan, induction, Nat.add_right_comm, Nat.add_assoc]

theorem lexeme {text : Text} {kind : TokenKind} (nonempty : text ≠ [])
    (solid : text.head?.any Text.isSpace = false)
    (longest : lexeme? (text ++ rest) = some (text, kind)) :
    Scans line column text [⟨kind, text, ⟨line, column⟩⟩] rest := by
  obtain ⟨byte, more, rfl⟩ := List.exists_cons_of_ne_nil nonempty
  rw [List.cons_append] at longest
  have solid : Text.isSpace byte = false := solid
  have passed := passing line (column + 1) more rest
  rw [Scans, List.cons_append, scan, if_neg (by simp [solid]), longest]
  simp only [List.length_cons, Nat.add_sub_cancel, passed]
  rw [Nat.add_assoc, Nat.add_comm 1]
  cases scan line (column + (more.length + 1)) 0 rest <;> rfl

theorem blank {byte : UInt8} (space : Text.isSpace byte) : Scans line column [byte] [] rest := by
  change scan line column 0 (byte :: rest) =
    (([] : List Token) ++ ·) <$> scan line (column + 1) 0 rest
  rw [scan, if_pos space]
  exact (LawfulFunctor.id_map _).symm

theorem space : Scans line column " " [] rest :=
  blank (show Text.isSpace 32 = true by decide)

theorem openingParenthesis :
    Scans line column "(" [⟨.leftParenthesis, "(", ⟨line, column⟩⟩] rest :=
  lexeme (by decide) rfl rfl

theorem closingParenthesis :
    Scans line column ")" [⟨.rightParenthesis, ")", ⟨line, column⟩⟩] rest :=
  lexeme (by decide) rfl rfl

theorem bang : Scans line column "!" [⟨.bang, "!", ⟨line, column⟩⟩] rest :=
  lexeme (by decide) rfl rfl

theorem sign (connective : Connective) :
    Scans line column connective.sign
      [⟨connective.tokenKind, connective.sign, ⟨line, column⟩⟩] ((" " : Text) ++ rest) := by
  apply lexeme
  · cases connective <;> decide
  · cases connective <;> rfl
  · cases connective <;> rfl

theorem word {text : Text} (starts : text.head?.any startsIdentifier)
    (continues : ∀ byte ∈ text, continuesIdentifier byte)
    (stops : ∀ byte ∈ rest.head?, continuesIdentifier byte = false) :
    Scans line column text [⟨wordKind text, text, ⟨line, column⟩⟩] rest := by
  cases text with
  | nil => cases starts
  | cons byte more =>
      exact lexeme (by simp) (isSpace_of_startsIdentifier starts)
        (lexeme?_word starts continues stops)

end Scans

end TransitionSystems.Guard
