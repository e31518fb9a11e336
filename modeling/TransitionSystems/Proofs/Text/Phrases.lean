import TransitionSystems.Proofs.Text.Lines

/-!
# Phrases

A text whose words have single spaces between them is put together from its words again. Such texts
can be glued at their ends to bytes that are no spaces.
-/

namespace TransitionSystems.Text

/-- Words with a space between neighbours. -/
inductive IsPhrase : Text → Prop
  | word {word : Text} (isWord : word.IsWord) : IsPhrase word
  | space {word rest : Text} (isWord : word.IsWord) (phrase : IsPhrase rest) :
      IsPhrase (word ++ " " ++ rest)

/-- A byte that may occur in a word. -/
def IsSolid (byte : UInt8) : Prop :=
  isSpace byte = false ∧ byte ≠ commentMark

instance : DecidablePred IsSolid := fun byte =>
  inferInstanceAs (Decidable (isSpace byte = false ∧ byte ≠ commentMark))

theorem IsWord.prepend {front word : Text} (solid : ∀ byte ∈ front, IsSolid byte)
    (isWord : word.IsWord) : IsWord (front ++ word) where
  nonempty := by simp [isWord.nonempty]
  plain byte member := (List.mem_append.1 member).elim (solid byte) (isWord.plain byte)

theorem IsWord.append {back word : Text} (isWord : word.IsWord)
    (solid : ∀ byte ∈ back, IsSolid byte) : IsWord (word ++ back) where
  nonempty := by simp [isWord.nonempty]
  plain byte member := (List.mem_append.1 member).elim (isWord.plain byte) (solid byte)

namespace IsPhrase

variable {text left right front back : Text}

theorem ne_nil (phrase : IsPhrase text) : text ≠ [] := by
  cases phrase with
  | word isWord => exact isWord.nonempty
  | space isWord _ => simp [isWord.nonempty]

theorem prepend (solid : ∀ byte ∈ front, IsSolid byte) (phrase : IsPhrase text) :
    IsPhrase (front ++ text) := by
  cases phrase with
  | word isWord => exact .word (isWord.prepend solid)
  | space isWord phrase =>
      rw [← List.append_assoc, ← List.append_assoc]
      exact .space (isWord.prepend solid) phrase

theorem append (phrase : IsPhrase text) (solid : ∀ byte ∈ back, IsSolid byte) :
    IsPhrase (text ++ back) := by
  induction phrase with
  | word isWord => exact .word (isWord.append solid)
  | space isWord _ induction =>
      rw [List.append_assoc]
      exact .space isWord induction

theorem join (phrase : IsPhrase left) (phrase' : IsPhrase right) :
    IsPhrase (left ++ " " ++ right) := by
  induction phrase with
  | word isWord => exact .space isWord phrase'
  | space isWord _ induction =>
      simp only [List.append_assoc] at induction ⊢
      rw [← List.append_assoc]
      exact .space isWord induction

theorem exists_words (phrase : IsPhrase text) :
    ∃ first rest, (∀ word ∈ first :: rest, word.IsWord) ∧ Text.join " " (first :: rest) = text := by
  induction phrase with
  | @word word isWord => exact ⟨word, [], by simpa using isWord, join_singleton " " word⟩
  | @space word _ isWord _ induction =>
      obtain ⟨next, rest, isWord', rfl⟩ := induction
      exact ⟨word, next :: rest, List.forall_mem_cons.2 ⟨isWord, isWord'⟩,
        join_cons_cons " " word next rest⟩

end IsPhrase

theorem words_append_space (text : Text) : words (text ++ " ") = words text := by
  have cut : (text ++ [32]).splitOnP isSpace = text.splitOnP isSpace ++ [[]] :=
    List.splitOnP_append_cons text [] (by decide)
  rw [ofString_space, words, cut, List.filter_append, words]
  exact List.append_nil _

end TransitionSystems.Text
