import TransitionSystems.Proofs.Model.Complaints
import TransitionSystems.Proofs.Model.Declarations
import TransitionSystems.Proofs.Text.Blanks

/-!
# The first fault

A file is read up to its first fault. What is reported names the line of the fault, and no line
behind it has an influence on the report. A file without a fault is a model, or it declares none.
-/

namespace TransitionSystems

namespace IsUniform

variable {α : Type} {read : Nat → Except Error α}

/-- With its line named, a reading has the same value on every line, or the same complaint. -/
theorem located (uniform : IsUniform read) :
    (∃ value, ∀ number, Model.located number (read number) = .ok value) ∨
      ∃ complaint : Complaint, ∀ number,
        Model.located number (read number) = .error (complaint.inLine number) := by
  cases uniform with
  | ok value => exact .inl ⟨value, fun _ => rfl⟩
  | @content error isModelError =>
      refine .inr ⟨.content error, fun number => ?_⟩
      rw [Model.located, if_pos isModelError]
      rfl
  | complaint complaint =>
      refine .inr ⟨complaint, fun number => ?_⟩
      rw [Model.located, complaint.isModelError_inLine]
      rfl

end IsUniform

namespace Model

variable {model before after : Option Model} {number : Nat} {line : Text} {lines : List Text}
  {error : Error}

/-! ## What has been read so far -/

/-- An automaton that has been read so far is made by calls. -/
def IsSound (model : Option Model) : Prop :=
  ∀ found, model = some found → IfAutomaton Automaton.IsMade found

theorem isSound_none : IsSound none :=
  nofun

theorem IsSound.readLine (sound : IsSound before)
    (read : readLine before number line = .ok after) : IsSound after := by
  refine readLine_induction ?_ ?_ ?_ sound read
  · intro _ _ _ _ model _ declared
    cases model with
    | system system => trivial
    | automaton automaton =>
        obtain ⟨name, rfl, -⟩ := eq_blank_of_declare declared
        exact ⟨name, [], rfl⟩
  · exact fun _ _ _ => trivial
  · exact fun _ made added => Automaton.IsMade.readAutomatonLine made added

theorem IsSound.readLines (sound : IsSound before)
    (read : readLines before number lines = .ok after) : IsSound after := by
  induction lines generalizing before number with
  | nil =>
      obtain rfl := Except.ok.inj read
      exact sound
  | cons line lines induction =>
      obtain ⟨middle, first, rest⟩ := bind_eq_ok_iff.1 read
      exact induction (sound.readLine first) rest

/-! ## One line -/

/-- Wherever a line stands, it adds the same to what has been read, or it gives rise to the same
complaint. -/
theorem IsSound.readLine_cases (sound : IsSound model) (line : Text) :
    (∃ after, ∀ number, Model.readLine model number line = .ok after) ∨
      ∃ complaint : Complaint, ∀ number,
        Model.readLine model number line = .error (complaint.inLine number) := by
  simp only [Model.readLine]
  cases line.content.words with
  | nil => exact .inl ⟨model, fun _ => rfl⟩
  | cons keyword arguments =>
      refine IsUniform.located (.map ?_)
      rcases model with - | (system | automaton)
      · exact isUniform_declare keyword arguments
      · exact (isUniform_readSystemLine system keyword arguments).map
      · have made : automaton.IsMade := sound _ rfl
        exact (isUniform_readAutomatonLine made.coherent.guards line.content keyword arguments).map

theorem IsSound.exists_complaint (sound : IsSound model)
    (fault : Model.readLine model number line = .error error) :
    ∃ complaint : Complaint, error = complaint.inLine number := by
  rcases sound.readLine_cases line with ⟨after, reads⟩ | ⟨complaint, fails⟩
  · rw [reads] at fault
    cases fault
  · rw [fails] at fault
    exact ⟨complaint, (Except.error.inj fault).symm⟩

theorem words_eq_nil_of_readLine (read : readLine model number line = .ok none) :
    model = none ∧ line.content.words = [] := by
  rw [readLine] at read
  split at read
  · next words => exact ⟨Except.ok.inj read, words⟩
  · rw [located_eq_ok_iff, map_eq_ok_iff] at read
    obtain ⟨_, -, impossible⟩ := read
    cases impossible

/-! ## All lines -/

theorem words_eq_nil_of_readLines (read : readLines model number lines = .ok none) :
    ∀ line ∈ lines, line.content.words = [] := by
  suffices model = none ∧ ∀ line ∈ lines, line.content.words = [] from this.2
  induction lines generalizing model number with
  | nil => exact ⟨Except.ok.inj read, nofun⟩
  | cons line lines induction =>
      obtain ⟨middle, first, rest⟩ := bind_eq_ok_iff.1 read
      obtain ⟨rfl, others⟩ := induction rest
      obtain ⟨undeclared, words⟩ := words_eq_nil_of_readLine first
      exact ⟨undeclared, List.forall_mem_cons.2 ⟨words, others⟩⟩

/-- Lines that are not read have a first line that is not read after the lines in front of it. -/
theorem exists_first_fault (failed : readLines model number lines = .error error) :
    ∃ front line rest middle, lines = front ++ line :: rest ∧
      readLines model number front = .ok middle ∧
      readLine middle (number + front.length) line = .error error := by
  induction lines generalizing model number with
  | nil => cases failed
  | cons line lines induction =>
      rw [readLines] at failed
      cases first : readLine model number line with
      | error cause =>
          rw [first] at failed
          obtain rfl := Except.error.inj failed
          exact ⟨[], line, lines, model, rfl, rfl, first⟩
      | ok next =>
          rw [first, ok_bind] at failed
          obtain ⟨front, faulty, rest, middle, rfl, read, fault⟩ := induction failed
          refine ⟨line :: front, faulty, rest, middle, rfl, ?_, ?_⟩
          · rw [readLines, first, ok_bind, read]
          · rwa [List.length_cons, Nat.add_comm front.length, ← Nat.add_assoc]

/-- No line behind a fault has an influence on what is reported. -/
theorem readLines_of_fault {front : List Text} {middle : Option Model}
    (read : readLines model number front = .ok middle)
    (fault : readLine middle (number + front.length) line = .error error) (rest : List Text) :
    readLines model number (front ++ line :: rest) = .error error := by
  rw [readLines_append, read, ok_bind, readLines, fault]
  rfl

theorem ofLines_eq_error_iff :
    ofLines lines = .error error ↔
      readLines none 1 lines = .error error ∨
        readLines none 1 lines = .ok none ∧ error = .noDeclaration := by
  rw [ofLines]
  rcases readLines none 1 lines with cause | (- | model)
  · simp [bind, Except.bind]
  · simp [throw, throwThe, MonadExceptOf.throw, eq_comm]
  · simp [pure, Except.pure]

theorem ofLines_of_readLines {found : Model} (read : readLines none 1 lines = .ok (some found)) :
    ofLines lines = .ok found := by
  rw [ofLines, read]
  rfl

/-- When lines are not a model, either nothing is declared, because all of them are blank or
comments, or there is a faulty line. Then the report begins with the number of that line and is the
same whatever follows the line; and the lines in front of it are blank or comments, or they are a
model. Where a word of 32 bits holds the number, this is about fewer than `2 ^ 32` lines. -/
theorem ofLines_fails_at_first_fault (wordy : ∀ line ∈ lines, ¬line.IsWordless)
    (failed : ofLines lines = .error error) :
    ((∀ line ∈ lines, line.content = []) ∧
        error.message = "no 'system' or 'automaton' declaration found") ∨
      ∃ number, 1 ≤ number ∧ number ≤ lines.length ∧
        (Text.ofNat number ++ (": ERROR: " : Text)) <+: error.message ∧
        (∀ rest, ofLines (lines.take number ++ rest) = .error error) ∧
        ((∀ line ∈ lines.take (number - 1), line.content = []) ∨
          ∃ model, ofLines (lines.take (number - 1)) = .ok model) := by
  have empty {line : Text} (member : line ∈ lines) (words : line.content.words = []) :
      line.content = [] :=
    (Text.not_isWordless_iff.1 (wordy line member)).2 words
  rcases ofLines_eq_error_iff.1 failed with failed | ⟨read, rfl⟩
  · right
    obtain ⟨front, line, rest, middle, rfl, read, fault⟩ := exists_first_fault failed
    have named : (Text.ofNat (1 + front.length) ++ (": ERROR: " : Text)) <+: error.message := by
      obtain ⟨complaint, rfl⟩ := (isSound_none.readLines read).exists_complaint fault
      rw [complaint.message_inLine]
      exact List.prefix_append _ _
    have upToLine : (front ++ line :: rest).take (1 + front.length) = front ++ [line] := by
      rw [List.append_cons, List.take_left' (by simp [Nat.add_comm])]
    have upToFront : (front ++ line :: rest).take (1 + front.length - 1) = front := by
      simp
    refine ⟨1 + front.length, by omega, by simp; omega, named, fun others => ?_, ?_⟩
    · rw [upToLine, List.append_assoc]
      exact ofLines_eq_error_iff.2 (.inl (readLines_of_fault read fault others))
    · rw [upToFront]
      cases middle with
      | none =>
          refine .inl fun other member => empty (List.mem_append_left _ member) ?_
          exact words_eq_nil_of_readLines read other member
      | some found => exact .inr ⟨found, ofLines_of_readLines read⟩
  · left
    exact ⟨fun line member => empty member (words_eq_nil_of_readLines read line member), rfl⟩

/-- The lines of an automaton whose second transition has half a guard. -/
def brokenLines : List Text :=
  ["# watches p", "automaton watch", "state idle busy", "trans idle busy : p",
    "trans busy idle : p &", "initial idle"]

theorem ofLines_brokenLines :
    ofLines brokenLines = .error (.guard ⟨5, 4⟩ .endOfInput) :=
  rfl

/-- The report on the broken lines begins with a number that tells up to where they matter. -/
theorem brokenLines_fail_at_first_fault :
    ((∀ line ∈ brokenLines, line.content = []) ∧
        (Error.guard ⟨5, 4⟩ .endOfInput).message =
          "no 'system' or 'automaton' declaration found") ∨
      ∃ number, 1 ≤ number ∧ number ≤ brokenLines.length ∧
        (Text.ofNat number ++ (": ERROR: " : Text)) <+: (Error.guard ⟨5, 4⟩ .endOfInput).message ∧
        (∀ rest, ofLines (brokenLines.take number ++ rest) =
          .error (.guard ⟨5, 4⟩ .endOfInput)) ∧
        ((∀ line ∈ brokenLines.take (number - 1), line.content = []) ∨
          ∃ model, ofLines (brokenLines.take (number - 1)) = .ok model) :=
  ofLines_fails_at_first_fault (by decide +kernel) ofLines_brokenLines

example : (Error.guard ⟨5, 4⟩ .endOfInput).message =
    "5: ERROR: unexpected end of input at column 4" := by
  decide +kernel

end Model

end TransitionSystems
