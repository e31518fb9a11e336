import TransitionSystems.Model.Reader
import TransitionSystems.Proofs.Outcome
import TransitionSystems.Proofs.Text.Lines

/-!
# Reading line by line

A file is read one declaration after the other. So what every declaration gives a new system, and
every further one keeps, is true of the systems that are read; and once a system has begun, nothing
else comes out of the following lines.
-/

namespace TransitionSystems.Model

variable {number : Nat} {line : Text} {lines : List Text} {before after : Option Model}

theorem located_eq_ok_iff {α : Type} {outcome : Except Error α} {value : α} :
    located number outcome = .ok value ↔ outcome = .ok value := by
  cases outcome <;> simp [located]

/-! ## Headers -/

/-- A declared system is empty. Its name is given or the default one. -/
theorem eq_empty_of_declare {keyword : Text} {arguments : List Text} {system : System}
    (declared : declare number keyword arguments = .ok (.system system)) :
    ∃ kind name, system = .empty (.empty kind) name ∧
      (name = defaultName kind ∨ name ∈ arguments) := by
  have begun {word : Text} {name : Option Text}
      (declared : declareSystem.declare number word name = .ok (.system system)) :
      ∃ kind, system = .empty (.empty kind) (name.getD (defaultName kind)) := by
    rw [declareSystem.declare] at declared
    split at declared
    · cases declared
    · exact ⟨_, (Model.system.inj (Except.ok.inj declared)).symm⟩
  rw [declare] at declared
  split at declared
  · rcases arguments with - | ⟨word, - | ⟨name, - | ⟨_, _⟩⟩⟩
    · cases declared
    · obtain ⟨kind, same⟩ := begun declared
      exact ⟨kind, _, same, .inl rfl⟩
    · obtain ⟨kind, same⟩ := begun declared
      exact ⟨kind, name, same, .inr (by simp)⟩
    · cases declared
  split at declared
  · rcases arguments with - | ⟨name, - | ⟨_, _⟩⟩ <;> cases declared
  · cases declared

/-- A declared automaton is blank. Its name is given or the default one. -/
theorem eq_blank_of_declare {keyword : Text} {arguments : List Text} {automaton : Automaton}
    (declared : declare number keyword arguments = .ok (.automaton automaton)) :
    ∃ name, automaton = { name := name } ∧ (name = "ba" ∨ name ∈ arguments) := by
  have other {word : Text} {name : Option Text} :
      declareSystem.declare number word name ≠ .ok (.automaton automaton) := by
    rw [declareSystem.declare]
    split <;> nofun
  rw [declare] at declared
  split at declared
  · rcases arguments with - | ⟨word, - | ⟨name, - | ⟨_, _⟩⟩⟩
    · cases declared
    · exact absurd declared other
    · exact absurd declared other
    · cases declared
  split at declared
  · rcases arguments with - | ⟨name, - | ⟨_, _⟩⟩
    · exact ⟨_, (Model.automaton.inj (Except.ok.inj declared)).symm, .inl rfl⟩
    · exact ⟨name, (Model.automaton.inj (Except.ok.inj declared)).symm, .inr (by simp)⟩
    · cases declared
  · cases declared

/-! ## What declarations keep -/

theorem isWord_of_words {keyword : Text} {arguments : List Text}
    (words : line.content.words = keyword :: arguments) : ∀ word ∈ arguments, word.IsWord :=
  fun _ member => Text.isWord_of_mem_words (words ▸ List.mem_cons_of_mem keyword member)

section

variable {kept : Model → Prop}
  (begins : ∀ {number : Nat} {line keyword : Text} {arguments : List Text} {model : Model},
    line.content.words = keyword :: arguments → declare number keyword arguments = .ok model →
      kept model)
  (system : ∀ {number : Nat} {line keyword : Text} {arguments : List Text}
    {current next : System}, line.content.words = keyword :: arguments → kept (.system current) →
      readSystemLine number current keyword arguments = .ok next → kept (.system next))
  (automaton : ∀ {number : Nat} {line keyword : Text} {arguments : List Text}
    {current next : Automaton}, line.content.words = keyword :: arguments →
      kept (.automaton current) →
        readAutomatonLine number current line.content keyword arguments = .ok next →
          kept (.automaton next))

include begins system automaton

theorem readLine_induction (initial : ∀ model, before = some model → kept model)
    (read : readLine before number line = .ok after) :
    ∀ model, after = some model → kept model := by
  rintro model rfl
  rw [readLine] at read
  split at read
  · exact initial model (Except.ok.inj read)
  · next keyword arguments words =>
      rw [located_eq_ok_iff, map_eq_ok_iff] at read
      obtain ⟨_, read, same⟩ := read
      obtain rfl := Option.some.inj same
      rcases before with - | (current | current)
      · exact begins words read
      · obtain ⟨next, added, rfl⟩ := map_eq_ok_iff.1 read
        exact system words (initial _ rfl) added
      · obtain ⟨next, added, rfl⟩ := map_eq_ok_iff.1 read
        exact automaton words (initial _ rfl) added

theorem readLines_induction (initial : ∀ model, before = some model → kept model)
    (read : readLines before number lines = .ok after) :
    ∀ model, after = some model → kept model := by
  induction lines generalizing before number with
  | nil =>
      obtain rfl := Except.ok.inj read
      exact initial
  | cons line lines induction =>
      obtain ⟨middle, first, rest⟩ := bind_eq_ok_iff.1 read
      exact induction (readLine_induction begins system automaton initial first) rest

theorem ofLines_induction {model : Model} (read : ofLines lines = .ok model) : kept model := by
  obtain ⟨found, read, done⟩ := bind_eq_ok_iff.1 read
  have complete := readLines_induction begins system automaton (by nofun) read
  split at done
  · obtain rfl := Except.ok.inj done
    exact complete _ rfl
  · cases done

end

/-- What is true of a model if it is a system. -/
def IfSystem (kept : System → Prop) : Model → Prop
  | .system content => kept content
  | .automaton _ => True

/-- What is true of a model if it is an automaton. -/
def IfAutomaton (kept : Automaton → Prop) : Model → Prop
  | .system _ => True
  | .automaton content => kept content

/-- What declarations give and keep is true of the systems that are read. -/
theorem system_induction {kept : System → Prop}
    (begins : ∀ {number : Nat} {keyword : Text} {arguments : List Text} {system : System},
      (∀ word ∈ arguments, word.IsWord) →
        declare number keyword arguments = .ok (.system system) → kept system)
    (goesOn : ∀ {number : Nat} {keyword : Text} {arguments : List Text} {system next : System},
      (∀ word ∈ arguments, word.IsWord) → kept system →
        readSystemLine number system keyword arguments = .ok next → kept next)
    {system : System} (read : ofLines lines = .ok (.system system)) : kept system := by
  change IfSystem kept (.system system)
  refine ofLines_induction ?_ ?_ ?_ read
  · intro _ _ _ _ model words declared
    cases model with
    | system content => exact begins (isWord_of_words words) declared
    | automaton content => trivial
  · exact fun words current added => goesOn (isWord_of_words words) current added
  · exact fun _ _ _ => trivial

theorem automaton_induction {kept : Automaton → Prop}
    (begins : ∀ {number : Nat} {keyword : Text} {arguments : List Text} {automaton : Automaton},
      (∀ word ∈ arguments, word.IsWord) →
        declare number keyword arguments = .ok (.automaton automaton) → kept automaton)
    (goesOn : ∀ {number : Nat} {line keyword : Text} {arguments : List Text}
      {automaton next : Automaton}, line.content.words = keyword :: arguments → kept automaton →
        readAutomatonLine number automaton line.content keyword arguments = .ok next → kept next)
    {automaton : Automaton} (read : ofLines lines = .ok (.automaton automaton)) :
    kept automaton := by
  change IfAutomaton kept (.automaton automaton)
  refine ofLines_induction ?_ ?_ ?_ read
  · intro _ _ _ _ model words declared
    cases model with
    | system content => trivial
    | automaton content => exact begins (isWord_of_words words) declared
  · exact fun _ _ _ => trivial
  · exact fun words current added => goesOn words current added

/-! ## A system stays a system -/

theorem exists_system_of_readLine {current : System}
    (read : readLine (some (.system current)) number line = .ok after) :
    ∃ next, after = some (.system next) := by
  rw [readLine] at read
  split at read
  · exact ⟨current, (Except.ok.inj read).symm⟩
  · rw [located_eq_ok_iff, map_eq_ok_iff] at read
    obtain ⟨model, read, rfl⟩ := read
    obtain ⟨next, -, rfl⟩ := map_eq_ok_iff.1 read
    exact ⟨next, rfl⟩

theorem exists_system_of_readLines {current : System}
    (read : readLines (some (.system current)) number lines = .ok after) :
    ∃ next, after = some (.system next) := by
  induction lines generalizing current number with
  | nil => exact ⟨current, (Except.ok.inj read).symm⟩
  | cons line lines induction =>
      obtain ⟨middle, first, rest⟩ := bind_eq_ok_iff.1 read
      obtain ⟨next, rfl⟩ := exists_system_of_readLine first
      exact induction rest

end TransitionSystems.Model
