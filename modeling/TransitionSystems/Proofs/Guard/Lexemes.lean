import Mathlib.Data.List.TakeWhile
import TransitionSystems.Proofs.Guard.Scanning

/-!
# Lexemes

At every place the scan takes the longest lexeme: a whole word, or the longest spelling of an
operator. Only the byte behind a lexeme decides that it is the longest one, so a lexeme stays the
longest one in front of a space and at the end of a source.
-/

namespace TransitionSystems.Guard

/-- The longest lexeme in front of the rest of a source. -/
inductive IsLexeme (rest : Text) : Text → TokenKind → Prop
  | word {text : Text} (starts : text.head?.any startsIdentifier)
      (continues : ∀ byte ∈ text, continuesIdentifier byte)
      (stops : ∀ byte ∈ rest.head?, continuesIdentifier byte = false) :
      IsLexeme rest text (wordKind text)
  | operator {text : Text} {kind : TokenKind} (spelling : (text, kind) ∈ operators)
      (longest : ∀ other ∈ operators, other.1 <+: text ++ rest → other.1.length ≤ text.length) :
      IsLexeme rest text kind

/-! ## Bytes of lexemes -/

theorem continuesIdentifier_of_starts {byte : UInt8} (starts : startsIdentifier byte) :
    continuesIdentifier byte := by
  rw [continuesIdentifier, starts, Bool.true_or]

theorem continuesIdentifier_of_isSpace {byte : UInt8} (space : Text.isSpace byte) :
    continuesIdentifier byte = false := by
  rw [← Bool.not_eq_true]
  intro continues
  simp only [continuesIdentifier, startsIdentifier, Text.isAlpha, Text.isDigit, Text.isSpace,
    Bool.or_eq_true, Bool.and_eq_true, decide_eq_true_eq, beq_iff_eq, UInt8.le_iff_toNat_le,
    ← UInt8.toNat_inj, UInt8.reduceToNat] at continues space
  omega

theorem operators_signs : ∀ operator ∈ operators, operator.1 ≠ [] ∧
    ∀ byte ∈ operator.1,
      Text.isSpace byte = false ∧ continuesIdentifier byte = false ∧ byte ≠ 0 := by
  decide +kernel

theorem operators_ordered : operators.Pairwise fun former later => ¬former.1 <+: later.1 := by
  decide +kernel

theorem operators_distinct : ∀ former ∈ operators, ∀ later ∈ operators,
    former.1 = later.1 → former = later := by
  decide +kernel

theorem operators_inside : ∀ operator ∈ operators, operator.2 ≠ .endOfInput := by
  decide

namespace IsLexeme

variable {rest text : Text} {kind : TokenKind}

/-- No byte of a lexeme is a space or zero. -/
theorem bytes (lexeme : IsLexeme rest text kind) :
    text ≠ [] ∧ ∀ byte ∈ text, Text.isSpace byte = false ∧ byte ≠ 0 := by
  cases lexeme with
  | word starts continues =>
      refine ⟨?_, fun byte member => ⟨?_, ?_⟩⟩
      · rintro rfl
        cases starts
      · rw [← Bool.not_eq_true]
        intro space
        have stops := continuesIdentifier_of_isSpace space
        rw [continues byte member] at stops
        cases stops
      · rintro rfl
        exact absurd (continues 0 member) (by decide)
  | operator spelling =>
      obtain ⟨nonempty, signs⟩ := operators_signs _ spelling
      exact ⟨nonempty, fun byte member => ⟨(signs byte member).1, (signs byte member).2.2⟩⟩

theorem kind_ne_endOfInput (lexeme : IsLexeme rest text kind) : kind ≠ .endOfInput := by
  cases lexeme with
  | word =>
      rw [wordKind]
      split
      · decide
      · split <;> decide
  | operator spelling => exact operators_inside _ spelling

/-- A lexeme is the longest one in front of a space and at the end, whatever came behind it. -/
theorem apart (lexeme : IsLexeme rest text kind) {other : Text}
    (separated : ∀ byte ∈ other.head?, Text.isSpace byte) : IsLexeme other text kind := by
  cases lexeme with
  | word starts continues =>
      exact .word starts continues fun byte first =>
        continuesIdentifier_of_isSpace (separated byte first)
  | operator spelling =>
      refine .operator spelling fun longer listed spelled => Nat.le_of_not_lt fun less => ?_
      -- A longer spelling would have the space in it.
      obtain ⟨more, same⟩ :=
        List.prefix_of_prefix_length_le (List.prefix_append text other) spelled (Nat.le_of_lt less)
      rw [← same, List.prefix_append_right_inj] at spelled
      have longer' : more ≠ [] := by
        rintro rfl
        rw [← same, List.append_nil] at less
        exact Nat.lt_irrefl _ less
      obtain ⟨byte, more, rfl⟩ := List.exists_cons_of_ne_nil longer'
      obtain ⟨further, rfl⟩ := spelled
      have sign := (operators_signs longer listed).2 byte (by simp [← same])
      rw [separated byte rfl] at sign
      cases sign.1

end IsLexeme

/-! ## What the scan takes -/

private theorem isLexeme_takeWhile {source : Text} (starts : source.head?.any startsIdentifier) :
    IsLexeme (source.dropWhile continuesIdentifier) (source.takeWhile continuesIdentifier)
      (wordKind (source.takeWhile continuesIdentifier)) := by
  refine .word ?_ (fun byte => List.mem_takeWhile_imp) fun byte first => ?_
  · cases source with
    | nil => cases starts
    | cons byte source =>
        have starts : startsIdentifier byte = true := starts
        rw [List.takeWhile_cons_of_pos (continuesIdentifier_of_starts starts)]
        exact starts
  · have stops := List.head?_dropWhile_not continuesIdentifier source
    rw [Option.mem_def.1 first] at stops
    simpa using stops

/-- The first operator of the list that a source begins with is the longest one. -/
private theorem longest_of_find? {source : Text} {operator : Text × TokenKind}
    (found : operators.find? (fun operator => operator.1.isPrefixOf source) = some operator) :
    operator ∈ operators ∧ operator.1 <+: source ∧
      ∀ other ∈ operators, other.1 <+: source → other.1.length ≤ operator.1.length := by
  obtain ⟨spelled, former, later, split, skipped⟩ := List.find?_eq_some_iff_append.1 found
  have spelled := List.isPrefixOf_iff_prefix.1 spelled
  refine ⟨by simp [split], spelled, fun other listed spelled' => ?_⟩
  have ordered := operators_ordered
  rw [split, List.pairwise_append, List.pairwise_cons] at ordered
  rw [split, List.mem_append, List.mem_cons] at listed
  rcases listed with listed | rfl | listed
  · have skipped := skipped other listed
    rw [List.isPrefixOf_iff_prefix.2 spelled'] at skipped
    cases skipped
  · exact Nat.le_refl _
  · refine Nat.le_of_not_lt fun less => ordered.2.1.1 other listed ?_
    exact List.prefix_of_prefix_length_le spelled spelled' (Nat.le_of_lt less)

/-- The longest spelling is found wherever it stands. -/
private theorem find?_of_longest {rest text : Text} {kind : TokenKind}
    (spelling : (text, kind) ∈ operators)
    (longest : ∀ other ∈ operators, other.1 <+: text ++ rest → other.1.length ≤ text.length) :
    operators.find? (fun operator => operator.1.isPrefixOf (text ++ rest)) = some (text, kind) := by
  have prefix_text : text <+: text ++ rest := List.prefix_append text rest
  cases found : operators.find? fun operator => operator.1.isPrefixOf (text ++ rest) with
  | none =>
      exact absurd (List.isPrefixOf_iff_prefix.2 prefix_text)
        (List.find?_eq_none.1 found (text, kind) spelling)
  | some operator =>
      obtain ⟨listed, prefix_operator, longest'⟩ := longest_of_find? found
      have same : operator.1 = text :=
        (List.prefix_of_prefix_length_le prefix_operator prefix_text
          (longest operator listed prefix_operator)).eq_of_length_le
          (longest' (text, kind) spelling prefix_text)
      rw [operators_distinct operator listed (text, kind) spelling same]

/-- The longest lexeme is found, and nothing else is. -/
theorem lexeme?_eq_some_iff {source text : Text} {kind : TokenKind} :
    lexeme? source = some (text, kind) ↔
      ∃ rest, source = text ++ rest ∧ IsLexeme rest text kind := by
  constructor
  · intro found
    rw [lexeme?] at found
    split at found
    · next starts =>
        obtain ⟨rfl, rfl⟩ := Prod.mk.inj (Option.some.inj found)
        exact ⟨_, List.takeWhile_append_dropWhile.symm, isLexeme_takeWhile starts⟩
    · obtain ⟨spelling, ⟨rest, rfl⟩, longest⟩ := longest_of_find? found
      exact ⟨rest, rfl, .operator spelling longest⟩
  · rintro ⟨rest, rfl, lexeme⟩
    cases lexeme with
    | word starts continues stops => exact lexeme?_word starts continues stops
    | operator spelling longest =>
        have sign : ¬(text ++ rest).head?.any startsIdentifier := by
          obtain ⟨nonempty, signs⟩ := operators_signs _ spelling
          obtain ⟨byte, more, rfl⟩ := List.exists_cons_of_ne_nil nonempty
          intro starts
          have continues := continuesIdentifier_of_starts starts
          rw [(signs byte List.mem_cons_self).2.1] at continues
          cases continues
        rw [lexeme?, if_neg sign, find?_of_longest spelling longest]

theorem lexeme?_eq_none_iff {source : Text} :
    lexeme? source = none ↔
      ¬source.head?.any startsIdentifier ∧ ∀ operator ∈ operators, ¬operator.1 <+: source := by
  rw [lexeme?]
  split <;> simp_all

end TransitionSystems.Guard
