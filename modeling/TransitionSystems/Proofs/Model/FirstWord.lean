import TransitionSystems.Model.FirstWord
import TransitionSystems.Proofs.Outcome
import TransitionSystems.Proofs.Text.Blanks

/-!
# First words

A line without words need not be without content: trimming leaves vertical tabs and form feeds where
they are, and both separate words. Such a wordless line is the only one without a first word. The
reader that takes first words without a check fares like the checking one up to the first line of
this kind.
-/

namespace TransitionSystems

namespace Text

theorem isBlank_eq_false_iff_of_isSpace {byte : UInt8} (space : isSpace byte = true) :
    isBlank byte = false ↔ byte = 11 ∨ byte = 12 := by
  have cases : byte = 32 ∨ byte = 9 ∨ byte = 10 ∨ byte = 11 ∨ byte = 12 ∨ byte = 13 := by
    simp only [isSpace, Bool.or_eq_true, beq_iff_eq, Bool.and_eq_true, decide_eq_true_eq,
      UInt8.le_iff_toNat_le, ← UInt8.toNat_inj] at space ⊢
    simp at space ⊢
    omega
  rcases cases with rfl | rfl | rfl | rfl | rfl | rfl <;> decide

theorem isWordless_iff_exists_feed {line : Text} :
    IsWordless line ↔ (∀ byte ∈ beforeComment line, isSpace byte = true) ∧
      ∃ byte ∈ beforeComment line, byte = 11 ∨ byte = 12 := by
  rw [isWordless_iff, words_content_eq_nil_iff, and_comm, Ne, content_eq_nil_iff]
  refine and_congr_right fun spaces => ?_
  rw [not_forall]
  refine exists_congr fun byte => ?_
  rw [Classical.not_imp]
  refine and_congr_right fun member => ?_
  rw [Bool.not_eq_true, isBlank_eq_false_iff_of_isSpace (spaces byte member)]

end Text

namespace Model.FirstWord

variable {model : Option Model} {number : Nat} {line : Text} {lines : List Text}

/-! ## One line -/

theorem readLine_of_isWordless (wordless : line.IsWordless) :
    readLine model number line = none := by
  obtain ⟨content, words⟩ := Text.isWordless_iff.1 wordless
  rw [readLine, if_neg (by simpa using content), words]
  rfl

theorem readLine_eq (wordy : ¬line.IsWordless) :
    readLine model number line = some (Model.readLine model number line) := by
  rw [readLine, Model.readLine]
  by_cases empty : line.content = []
  · rw [if_pos (List.isEmpty_iff.2 empty), empty]
    rfl
  · rw [if_neg (by simpa using empty)]
    cases words : line.content.words with
    | nil => exact absurd ((Text.not_isWordless_iff.1 wordy).2 words) empty
    | cons keyword arguments => rcases model with - | (current | current) <;> rfl

/-! ## All lines -/

/-- What is read is what the checking reader reads. -/
theorem readLines_eq_none_or :
    readLines model number lines = none ∨
      readLines model number lines = some (Model.readLines model number lines) := by
  induction lines generalizing model number with
  | nil => exact .inr rfl
  | cons line lines induction =>
      by_cases wordless : line.IsWordless
      · left
        rw [readLines, readLine_of_isWordless wordless]
        rfl
      · rw [readLines, readLine_eq wordless, Model.readLines]
        cases Model.readLine model number line with
        | error error => exact .inr rfl
        | ok next => exact induction

/-- A first word is missing when a wordless line is reached. -/
theorem readLines_eq_none_iff :
    readLines model number lines = none ↔
      ∃ before line after middle, lines = before ++ line :: after ∧ line.IsWordless ∧
        Model.readLines model number before = .ok middle := by
  induction lines generalizing model number with
  | nil => simp [readLines]
  | cons line lines induction =>
      by_cases wordless : line.IsWordless
      · rw [readLines, readLine_of_isWordless wordless]
        exact ⟨fun _ => ⟨[], line, lines, model, rfl, wordless, rfl⟩, fun _ => rfl⟩
      · rw [readLines, readLine_eq wordless]
        constructor
        · intro missing
          cases first : Model.readLine model number line with
          | error error =>
              rw [first] at missing
              cases missing
          | ok next =>
              rw [first] at missing
              obtain ⟨before, other, after, middle, rfl, wordless', read⟩ := induction.1 missing
              refine ⟨line :: before, other, after, middle, rfl, wordless', ?_⟩
              rw [Model.readLines, first]
              exact read
        · rintro ⟨before, other, after, middle, split, wordless', read⟩
          rcases before with - | ⟨first, before⟩
          · obtain ⟨rfl, rfl⟩ := List.cons.inj split
            exact absurd wordless' wordless
          · obtain ⟨rfl, rfl⟩ := List.cons.inj split
            obtain ⟨next, first, rest⟩ := bind_eq_ok_iff.1 read
            rw [first]
            exact induction.2 ⟨before, other, after, middle, rfl, wordless', rest⟩

theorem ofLines_eq_none_iff : ofLines lines = none ↔ readLines none 1 lines = none := by
  rw [ofLines]
  rcases readLines none 1 lines with - | (error | (- | model)) <;> simp

theorem ofLines_eq_none_or : ofLines lines = none ∨ ofLines lines = some (Model.ofLines lines) := by
  rw [ofLines_eq_none_iff]
  refine readLines_eq_none_or.imp_right fun read => ?_
  rw [ofLines, read, Model.ofLines]
  rcases Model.readLines none 1 lines with error | (- | model) <;> rfl

/-- A line has a content and no words exactly when it has only spaces in front of its comment, a
vertical tab or a form feed among them. The reading leaves the words of a line exactly when it
reaches such a line; otherwise it comes to what the checking reader comes to. -/
theorem first_word_is_missing_iff (line : Text) (lines : List Text) :
    ((line.content = [] ↔ line.content.words = []) ↔ ¬line.IsWordless) ∧
      (line.IsWordless ↔
        (∀ byte ∈ line.beforeComment, Text.isSpace byte = true) ∧
          ∃ byte ∈ line.beforeComment, byte = 11 ∨ byte = 12) ∧
      (ofLines lines = none ↔
        ∃ before wordless after middle, lines = before ++ wordless :: after ∧
          wordless.IsWordless ∧ Model.readLines none 1 before = .ok middle) ∧
      (ofLines lines = none ∨ ofLines lines = some (Model.ofLines lines)) := by
  refine ⟨Text.not_isWordless_iff.symm, Text.isWordless_iff_exists_feed, ?_, ofLines_eq_none_or⟩
  rw [ofLines_eq_none_iff, readLines_eq_none_iff]

/-- A vertical tab has a content without words, and it has no first word to read. -/
theorem vertical_tab_has_no_first_word :
    ¬(Text.content [11] = [] ↔ (Text.content [11]).words = []) ∧ ofLines [[11]] = none := by
  refine ⟨?_, rfl⟩
  have content : Text.content [11] = [11] := by decide
  have words : Text.words [11] = [] := by decide
  rw [content, words]
  simp

end Model.FirstWord

end TransitionSystems
