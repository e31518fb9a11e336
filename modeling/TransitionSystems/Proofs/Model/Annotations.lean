import TransitionSystems.Proofs.Model.FirstFault
import TransitionSystems.Proofs.Model.FirstWord

/-!
# Annotations

Lines can be annotated: blank lines and comments are put between them, blanks around them and
comments behind them. The reader does not notice. It reads the same model, or it finds the same
fault in the same line and reports it under the new number of the line. A line that pads a wordless
line is wordless too, so that a reader which does not check whether there is a first word misses it
in both or in neither.
-/

namespace TransitionSystems.Model

variable {model : Option Model} {number number' place place' : Nat} {line padded : Text}
  {lines annotated : List Text}

/-- Lines with blanks around them, with comments behind them and with lines without content between
them. -/
inductive Annotates : List Text → List Text → Prop
  | nil : Annotates [] []
  | line {line padded : Text} {lines annotated : List Text} (pads : line.Pads padded)
      (rest : Annotates lines annotated) : Annotates (line :: lines) (padded :: annotated)
  | blank {line : Text} {lines annotated : List Text} (empty : line.content = [])
      (rest : Annotates lines annotated) : Annotates lines (line :: annotated)

/-- The second place is that of a line which pads the line of the first place. -/
def PadsAt (lines annotated : List Text) (place place' : Nat) : Prop :=
  ∃ line padded, lines[place]? = some line ∧ annotated[place']? = some padded ∧ line.Pads padded

/-- Two errors are the same fault of lines and of annotated lines: nothing is declared, or a line
and the line that pads it have messages that are equal but for the numbers of the lines. -/
def SameFault (lines annotated : List Text) (error error' : Error) : Prop :=
  error = .noDeclaration ∧ error' = .noDeclaration ∨
    ∃ place place' wording, PadsAt lines annotated place place' ∧
      error.message = Text.ofNat (place + 1) ++ (": ERROR: " : Text) ++ wording ∧
      error'.message = Text.ofNat (place' + 1) ++ (": ERROR: " : Text) ++ wording

theorem PadsAt.cons (padsAt : PadsAt lines annotated place place') :
    PadsAt (line :: lines) (padded :: annotated) (place + 1) (place' + 1) := by
  simpa only [PadsAt, List.getElem?_cons_succ] using padsAt

theorem PadsAt.behind (padsAt : PadsAt lines annotated place place') :
    PadsAt lines (line :: annotated) place (place' + 1) := by
  simpa only [PadsAt, List.getElem?_cons_succ] using padsAt

/-! ## One line -/

theorem readLine_congr (same : padded.content = line.content) :
    readLine model number padded = readLine model number line := by
  simp only [readLine, same]

theorem FirstWord.readLine_congr (same : padded.content = line.content) :
    FirstWord.readLine model number padded = FirstWord.readLine model number line := by
  simp only [FirstWord.readLine, same]

theorem readLine_of_content_eq_nil (empty : line.content = []) :
    readLine model number line = .ok model := by
  simp only [readLine, empty]
  rfl

/-! ## All lines -/

/-- After the same lines, annotated lines add what the lines add, or they give rise to the same
complaint about the padded line. -/
theorem Annotates.readLines_cases (annotates : Annotates lines annotated) (sound : IsSound model)
    (number number' : Nat) :
    (∃ after, readLines model number lines = .ok after ∧
        readLines model number' annotated = .ok after) ∨
      ∃ (complaint : Complaint) (place place' : Nat), PadsAt lines annotated place place' ∧
        readLines model number lines = .error (complaint.inLine (number + place)) ∧
        readLines model number' annotated = .error (complaint.inLine (number' + place')) := by
  -- The numbers of a line and of the line that pads it drift apart at every blank line, so both are
  -- arbitrary in the induction, and complaints are told apart from their numbers.
  induction annotates generalizing model number number' with
  | nil => exact .inl ⟨model, rfl, rfl⟩
  | @line line padded lines annotated pads rest induction =>
      have same (number : Nat) : readLine model number padded = readLine model number line :=
        readLine_congr pads.content_eq
      simp only [readLines, same]
      rcases sound.readLine_cases line with ⟨middle, reads⟩ | ⟨complaint, fails⟩
      · simp only [reads, ok_bind]
        rcases induction (sound.readLine (reads number)) (number + 1) (number' + 1) with
          read | ⟨complaint, place, place', padsAt, fault, fault'⟩
        · exact .inl read
        · rw [Nat.add_assoc, Nat.add_comm 1] at fault fault'
          exact .inr ⟨complaint, place + 1, place' + 1, padsAt.cons, fault, fault'⟩
      · simp only [fails]
        exact .inr ⟨complaint, 0, 0, ⟨line, padded, rfl, rfl, pads⟩, rfl, rfl⟩
  | @blank line lines annotated empty rest induction =>
      have skipped : readLines model number' (line :: annotated) =
          readLines model (number' + 1) annotated := by
        rw [readLines, readLine_of_content_eq_nil empty, ok_bind]
      rw [skipped]
      rcases induction sound number (number' + 1) with
        read | ⟨complaint, place, place', padsAt, fault, fault'⟩
      · exact .inl read
      · rw [Nat.add_assoc, Nat.add_comm 1] at fault'
        exact .inr ⟨complaint, place, place' + 1, padsAt.behind, fault, fault'⟩

/-- After the same lines, a first word is missing in annotated lines when it is in the lines. -/
theorem Annotates.readLines_eq_none_iff (annotates : Annotates lines annotated)
    (sound : IsSound model) (number number' : Nat) :
    FirstWord.readLines model number lines = none ↔
      FirstWord.readLines model number' annotated = none := by
  induction annotates generalizing model number number' with
  | nil => rfl
  | @line line padded lines annotated pads rest induction =>
      have same : FirstWord.readLine model number' padded =
          FirstWord.readLine model number' line :=
        FirstWord.readLine_congr pads.content_eq
      simp only [FirstWord.readLines, same]
      by_cases wordless : line.IsWordless
      · simp only [FirstWord.readLine_of_isWordless wordless, Option.bind_eq_bind,
          Option.bind_none]
      · simp only [FirstWord.readLine_eq wordless, Option.bind_eq_bind, Option.bind_some]
        -- The line is accepted under both numbers or refused under both.
        rcases sound.readLine_cases line with ⟨middle, reads⟩ | ⟨complaint, fails⟩
        · simp only [reads]
          exact induction (sound.readLine (reads number)) (number + 1) (number' + 1)
        · simp [fails]
  | @blank line lines annotated empty rest induction =>
      have skipped : FirstWord.readLines model number' (line :: annotated) =
          FirstWord.readLines model (number' + 1) annotated := by
        rw [FirstWord.readLines, FirstWord.readLine, empty]
        rfl
      rw [skipped]
      exact induction sound number (number' + 1)

/-- The reader that checks for first words reads the same model, or it finds the same fault. -/
theorem Annotates.ofLines_cases (annotates : Annotates lines annotated) :
    (∃ model, ofLines lines = .ok model ∧ ofLines annotated = .ok model) ∨
      ∃ error error', ofLines lines = .error error ∧ ofLines annotated = .error error' ∧
        SameFault lines annotated error error' := by
  rcases annotates.readLines_cases isSound_none 1 1 with
    ⟨after, read, read'⟩ | ⟨complaint, place, place', padsAt, fault, fault'⟩
  · cases after with
    | none =>
        exact .inr ⟨.noDeclaration, .noDeclaration, ofLines_eq_error_iff.2 (.inr ⟨read, rfl⟩),
          ofLines_eq_error_iff.2 (.inr ⟨read', rfl⟩), .inl ⟨rfl, rfl⟩⟩
    | some model => exact .inl ⟨model, ofLines_of_readLines read, ofLines_of_readLines read'⟩
  · refine .inr ⟨_, _, ofLines_eq_error_iff.2 (.inl fault), ofLines_eq_error_iff.2 (.inl fault'),
      .inr ⟨place, place', complaint.text.takeWhile (· != 0), padsAt, ?_, ?_⟩⟩
    · rw [complaint.message_inLine, Nat.add_comm 1]
    · rw [complaint.message_inLine, Nat.add_comm 1]

/-- Annotated lines declare the same model, with the same formulas under the same numbers, or both
the lines and the annotated lines are refused for the same fault. Only where a first word is missing
is there no outcome, and then it is missing in both. -/
theorem Annotates.same_model_or_same_fault (annotates : Annotates lines annotated) :
    (FirstWord.ofLines lines = none ∧ FirstWord.ofLines annotated = none) ∨
      (∃ model, FirstWord.ofLines lines = some (.ok model) ∧
        FirstWord.ofLines annotated = some (.ok model)) ∨
      ∃ error error', FirstWord.ofLines lines = some (.error error) ∧
        FirstWord.ofLines annotated = some (.error error') ∧
        SameFault lines annotated error error' := by
  have together : FirstWord.ofLines lines = none ↔ FirstWord.ofLines annotated = none := by
    simp only [FirstWord.ofLines_eq_none_iff]
    exact annotates.readLines_eq_none_iff isSound_none 1 1
  by_cases missing : FirstWord.ofLines lines = none
  · exact .inl ⟨missing, together.1 missing⟩
  · have read : FirstWord.ofLines lines = some (ofLines lines) :=
      FirstWord.ofLines_eq_none_or.resolve_left missing
    have read' : FirstWord.ofLines annotated = some (ofLines annotated) :=
      FirstWord.ofLines_eq_none_or.resolve_left (mt together.2 missing)
    rw [read, read']
    simp only [Option.some.injEq]
    exact .inr annotates.ofLines_cases

/-- The broken lines with annotations. -/
def annotatedBrokenLines : List Text :=
  ["# watches p", "\t", "automaton watch # of p", "state idle busy", "  trans idle busy : p\r", "",
    "\ttrans busy idle : p &   # and what?", "initial idle "]

theorem annotates_brokenLines : Annotates brokenLines annotatedBrokenLines := by
  have blanks {text : Text} (all : text.all Text.isBlank = true) :
      ∀ byte ∈ text, Text.isBlank byte = true :=
    List.all_eq_true.1 all
  exact .line (.refl _) <| .blank rfl <|
    .line (@Text.Pads.comment _ [] [32] nofun (blanks rfl) " of p") <|
    .line (.refl _) <|
    .line (@Text.Pads.blanks _ [32, 32] [13] (blanks rfl) (blanks rfl)) <| .blank rfl <|
    .line (@Text.Pads.comment _ [9] [32, 32, 32] (blanks rfl) (blanks rfl) " and what?") <|
    .line (@Text.Pads.blanks _ [] [32] nofun (blanks rfl)) <|
    .nil

/-- The report on the annotated lines is the one on the broken lines but for the number. -/
theorem annotatedBrokenLines_same_fault :
    ∃ error', FirstWord.ofLines brokenLines = some (.error (.guard ⟨5, 4⟩ .endOfInput)) ∧
      FirstWord.ofLines annotatedBrokenLines = some (.error error') ∧
      SameFault brokenLines annotatedBrokenLines (.guard ⟨5, 4⟩ .endOfInput) error' := by
  have fault : FirstWord.ofLines brokenLines = some (.error (.guard ⟨5, 4⟩ .endOfInput)) := rfl
  rcases annotates_brokenLines.same_model_or_same_fault with
    ⟨missing, -⟩ | ⟨model, read, -⟩ | ⟨error, error', refused, refused', same⟩
  · cases fault.symm.trans missing
  · cases fault.symm.trans read
  · obtain rfl : Error.guard ⟨5, 4⟩ .endOfInput = error :=
      Except.error.inj (Option.some.inj (fault.symm.trans refused))
    exact ⟨error', fault, refused', same⟩

example : FirstWord.ofLines annotatedBrokenLines = some (.error (.guard ⟨7, 4⟩ .endOfInput)) :=
  rfl

end TransitionSystems.Model
