import TransitionSystems.Proofs.Automaton.Construction
import TransitionSystems.Proofs.Decimal
import TransitionSystems.Proofs.Guard.LineNumbers

/-!
# Complaints about lines

The number of a line has no influence on what is read from the line, or on what is found wrong with
it. It is put in front of the complaint, and it is put there once, whether the form of the line is
wrong, its guard, or what it says about the model.
-/

namespace TransitionSystems

/-- What is wrong with a line, wherever the line stands. -/
inductive Complaint where
  | form (fault : LineFault)
  | guard (column : Nat) (fault : Guard.GuardFault)
  | content (cause : Error)

namespace Complaint

/-- The wording of a complaint. -/
def text : Complaint → Text
  | .form fault => fault.text
  | .guard column fault => fault.text ++ (" at column " : Text) ++ Text.ofNat column
  | .content cause => cause.text

/-- A complaint about the line with a number. -/
def inLine (number : Nat) : Complaint → Error
  | .form fault => .line number fault
  | .guard column fault => .guard ⟨number, column⟩ fault
  | .content cause => .atLine number cause

theorem text_inLine (complaint : Complaint) (number : Nat) :
    (complaint.inLine number).text =
      Text.ofNat number ++ (": ERROR: " : Text) ++ complaint.text := by
  cases complaint with
  | form fault => rfl
  | guard column fault => simp only [inLine, Error.text, text, List.append_assoc]
  | content cause => rfl

theorem message_inLine (complaint : Complaint) (number : Nat) :
    (complaint.inLine number).message =
      Text.ofNat number ++ (": ERROR: " : Text) ++ complaint.text.takeWhile (· != 0) := by
  have solid : ∀ byte ∈ Text.ofNat number ++ (": ERROR: " : Text), (byte != 0) = true := by
    simp only [List.forall_mem_append, bne_iff_ne]
    exact ⟨fun byte => Text.ne_zero_of_mem_ofNat, by decide +kernel⟩
  rw [Error.message, text_inLine, List.takeWhile_append_of_pos solid]

theorem isModelError_inLine (complaint : Complaint) (number : Nat) :
    (complaint.inLine number).isModelError = false := by
  cases complaint <;> rfl

end Complaint

/-! ## Readings of a line -/

/-- A reading of a line, given the number of the line. Whatever this is, the reading has the same
value, finds the same error in the model, or complains about the same. -/
inductive IsUniform {α : Type} : (Nat → Except Error α) → Prop
  | ok (value : α) : IsUniform fun _ => .ok value
  | content {error : Error} (isModelError : error.isModelError = true) :
      IsUniform fun _ => .error error
  | complaint (complaint : Complaint) : IsUniform fun number => .error (complaint.inLine number)

namespace IsUniform

variable {α β : Type} {first : Nat → Except Error α}

theorem bind {next : Nat → α → Except Error β} (uniform : IsUniform first)
    (rest : ∀ value, IsUniform fun number => next number value) :
    IsUniform fun number => first number >>= next number := by
  cases uniform with
  | ok value => exact rest value
  | content isModelError => exact .content isModelError
  | complaint complaint => exact .complaint complaint

theorem map {convert : α → β} (uniform : IsUniform first) :
    IsUniform fun number => convert <$> first number := by
  cases uniform with
  | ok value => exact .ok (convert value)
  | content isModelError => exact .content isModelError
  | complaint complaint => exact .complaint complaint

theorem form (fault : LineFault) :
    IsUniform fun number => (.error (.line number fault) : Except Error α) :=
  .complaint (.form fault)

theorem foldlM {step : Nat → β → α → Except Error β} {values : List α} {start : β}
    (uniform : ∀ state value, IsUniform fun number => step number state value) :
    IsUniform fun number => values.foldlM (step number) start := by
  induction values generalizing start with
  | nil => exact .ok start
  | cons value values induction =>
      simp only [List.foldlM_cons]
      exact (uniform start value).bind fun _ => induction

theorem mapM {read : α → Except Error β} {values : List α}
    (uniform : ∀ value, IsUniform fun _ => read value) :
    IsUniform fun _ => values.mapM read := by
  induction values with
  | nil => exact .ok []
  | cons value values induction =>
      simp only [List.mapM_cons]
      exact (uniform value).bind fun _ => induction.bind fun _ => .ok _

theorem forM {check : α → Except Error Unit} {values : List α}
    (uniform : ∀ value, IsUniform fun _ => check value) :
    IsUniform fun _ => values.forM check := by
  induction values with
  | nil => exact .ok ()
  | cons value values induction => exact (uniform value).bind fun _ => induction

end IsUniform

/-! ## Systems and automata -/

namespace System

variable (system : System)

theorem isUniform_requireState (operation : Text) (state : Symbol) :
    IsUniform fun _ => system.requireState operation state := by
  simp only [requireState]
  split
  · exact .ok ()
  · exact .content rfl

theorem isUniform_checkLabel (label : Label) :
    IsUniform fun _ => system.schema.checkLabel label := by
  simp only [Schema.checkLabel]
  split
  · exact .ok ()
  · exact .content rfl

theorem isUniform_alphabet (schema : Schema) (field : Text) :
    IsUniform fun _ => schema.alphabet field := by
  simp only [Schema.alphabet]
  split
  · exact .ok _
  · exact .content rfl

theorem isUniform_addLabeledState (state : Symbol) (label : Label) :
    IsUniform fun _ => system.addLabeledState state label := by
  refine (system.isUniform_checkLabel label).bind fun _ => ?_
  split
  · exact .ok _
  · exact .ok _
  · split
    · exact .ok _
    · exact .content rfl

theorem isUniform_setInitial (states : List Symbol) :
    IsUniform fun _ => system.setInitial states :=
  (IsUniform.forM fun state => system.isUniform_requireState _ state).bind fun _ => .ok _

theorem isUniform_addTransition (source target : Symbol) (label : EdgeLabel) :
    IsUniform fun _ => system.addTransition source target label := by
  have checkEntry (entry : Text × Symbol) : IsUniform fun _ => system.schema.checkEntry entry := by
    refine (isUniform_alphabet system.schema entry.1).bind fun alphabet => ?_
    split
    · exact .ok ()
    · exact .content rfl
  refine (system.isUniform_requireState _ source).bind fun _ => ?_
  refine (system.isUniform_requireState _ target).bind fun _ => ?_
  refine (IsUniform.forM checkEntry).bind fun _ => ?_
  dsimp only
  split <;> exact .ok _

theorem isUniform_growAlphabet (field : Text) (more : OrderedSet) :
    IsUniform fun _ => system.growAlphabet field more :=
  ((isUniform_alphabet system.schema field).bind fun _ => .ok _).bind fun _ => .ok _

end System

namespace Automaton

variable {automaton : Automaton}

theorem isUniform_requireState (automaton : Automaton) (operation : Text) (state : Symbol) :
    IsUniform fun _ => automaton.requireState operation state := by
  simp only [requireState]
  split
  · exact .ok ()
  · exact .content rfl

theorem isUniform_requireEnds (automaton : Automaton) (source target : Symbol) :
    IsUniform fun _ => automaton.requireEnds source target :=
  (automaton.isUniform_requireState _ source).bind fun _ =>
    automaton.isUniform_requireState _ target

theorem isUniform_setInitial (automaton : Automaton) (states : List Symbol) :
    IsUniform fun _ => automaton.setInitial states :=
  (IsUniform.forM fun state => automaton.isUniform_requireState _ state).bind fun _ => .ok _

theorem isUniform_setAccepting (automaton : Automaton) (states : List Symbol) :
    IsUniform fun _ => automaton.setAccepting states :=
  (IsUniform.forM fun state => automaton.isUniform_requireState _ state).bind fun _ => .ok _

/-- Reading an edge checks its ends, reads its guard and adds it. -/
theorem addReadEdge_bind_eq (automaton : Automaton) (source target : Symbol) (guard : Text)
    (number : Nat) :
    (do
      (automaton.addReadEdge source target guard number).1
      return (automaton.addReadEdge source target guard number).2) =
      automaton.requireEnds source target >>= fun _ =>
        match automaton.guards.readText guard number with
        | (.error error, _) => .error error
        | (.ok formula, guards) =>
          { automaton with guards := guards }.addEdge source target formula := by
  rw [addReadEdge]
  cases automaton.requireEnds source target with
  | error error => rfl
  | ok _ =>
      rcases automaton.guards.readText guard number with ⟨error | formula, guards⟩
      · rfl
      · simp only [ok_bind]
        cases { automaton with guards := guards }.addEdge source target formula <;> rfl

/-- An edge is read in the same way on every line. The number of its guard is one of the table's, so
nothing is found wrong with it. -/
theorem isUniform_addReadEdge (coherent : automaton.guards.Coherent) (source target : Symbol)
    (guard : Text) :
    IsUniform fun number => do
      (automaton.addReadEdge source target guard number).1
      return (automaton.addReadEdge source target guard number).2 := by
  simp only [addReadEdge_bind_eq]
  refine (automaton.isUniform_requireEnds source target).bind fun _ => ?_
  rcases automaton.guards.readText_onLine guard with
    ⟨formula, guards, read⟩ | ⟨column, fault, guards, failed⟩
  · obtain ⟨node, found⟩ :=
      Guard.Table.exists_node (coherent.lt_size_of_readText (read 1))
    simp only [read]
    refine (isUniform_requireEnds _ source target).bind fun _ => ?_
    simp only [found]
    exact .ok _
  · simp only [failed]
    exact .complaint (.guard column fault)

end Automaton

/-! ## Declarations -/

theorem isUniform_ofIdentifier (word : Text) : IsUniform fun _ => Symbol.ofIdentifier word := by
  simp only [Symbol.ofIdentifier]
  split
  · exact .ok _
  · exact .content rfl

namespace Model

theorem isUniform_symbols (words : List Text) : IsUniform fun _ => symbols words :=
  .mapM isUniform_ofIdentifier

theorem isUniform_symbolSet (words : List Text) : IsUniform fun _ => symbolSet words :=
  (isUniform_symbols words).bind fun _ => .ok _

theorem isUniform_declare (keyword : Text) (arguments : List Text) :
    IsUniform fun number => declare number keyword arguments := by
  have begun (word : Text) (name : Option Text) :
      IsUniform fun number => declareSystem.declare number word name := by
    simp only [declareSystem.declare]
    split
    · exact .form _
    · exact .ok _
  simp only [declare]
  split
  · rcases arguments with - | ⟨word, - | ⟨name, - | ⟨_, _⟩⟩⟩
    · exact .form _
    · exact begun word none
    · exact begun word (some name)
    · exact .form _
  split
  · rcases arguments with - | ⟨name, - | ⟨_, _⟩⟩
    · exact .ok _
    · exact .ok _
    · exact .form _
  · exact .form _

theorem isUniform_readState (system : System) (arguments : List Text) :
    IsUniform fun number => readState number system arguments := by
  rcases arguments with - | ⟨identifier, words⟩
  · exact .form _
  refine (isUniform_ofIdentifier identifier).bind fun state => ?_
  rcases words with - | ⟨word, more⟩
  · exact .ok _
  dsimp only
  split
  · split
    · exact system.isUniform_addLabeledState state ∅
    · exact .form _
  · exact (isUniform_symbols _).bind fun label => system.isUniform_addLabeledState state _

theorem isUniform_readSide (label : EdgeLabel) (word : Text) :
    IsUniform fun number => readSide number label word := by
  simp only [readSide]
  split
  · exact .form _
  · refine (isUniform_ofIdentifier _).bind fun value => ?_
    split
    · exact .ok _
    split
    · exact .ok _
    · exact .form _

theorem isUniform_readEdgeLabel (kind : Kind) (words : List Text) :
    IsUniform fun number => readEdgeLabel number kind words := by
  cases kind with
  | closed =>
      rcases words with - | ⟨word, - | ⟨_, _⟩⟩
      · exact .ok _
      · exact (isUniform_ofIdentifier word).bind fun _ => .ok _
      · exact .form _
  | opened => exact .foldlM isUniform_readSide

theorem isUniform_readTransition (system : System) (arguments : List Text) :
    IsUniform fun number => readTransition number system arguments := by
  rcases arguments with - | ⟨source, - | ⟨target, words⟩⟩
  · exact .form _
  · exact .form _
  refine (isUniform_ofIdentifier source).bind fun source => ?_
  refine (isUniform_ofIdentifier target).bind fun target => ?_
  refine (isUniform_readEdgeLabel system.kind words).bind fun label => ?_
  exact system.isUniform_addTransition source target label

theorem isUniform_readAlphabet (system : System) (field : Text) (arguments : List Text) :
    IsUniform fun number => readAlphabet number system field arguments := by
  simp only [readAlphabet]
  split
  · exact (isUniform_symbolSet arguments).bind fun more => system.isUniform_growAlphabet field more
  · exact .form _

theorem isUniform_readSystemLine (system : System) (keyword : Text) (arguments : List Text) :
    IsUniform fun number => readSystemLine number system keyword arguments := by
  simp only [readSystemLine]
  split
  · exact .ok _
  split
  · exact (isUniform_symbolSet arguments).bind fun _ => .ok _
  split
  · exact isUniform_readAlphabet system keyword arguments
  split
  · exact isUniform_readState system arguments
  split
  · exact (isUniform_symbols arguments).bind fun states => system.isUniform_setInitial states
  split
  · exact isUniform_readTransition system arguments
  · exact .form _

variable {automaton : Automaton}

theorem isUniform_readGuardedEdge (coherent : automaton.guards.Coherent) (content : Text) :
    IsUniform fun number => readGuardedEdge number automaton content := by
  simp only [readGuardedEdge]
  split
  · split
    · exact .form _
    refine (isUniform_ofIdentifier _).bind fun source => ?_
    refine (isUniform_ofIdentifier _).bind fun target => ?_
    refine (automaton.isUniform_requireState _ source).bind fun _ => ?_
    refine (automaton.isUniform_requireState _ target).bind fun _ => ?_
    exact Automaton.isUniform_addReadEdge coherent source target _
  · exact .form _

theorem isUniform_readAutomatonLine (coherent : automaton.guards.Coherent) (content keyword : Text)
    (arguments : List Text) :
    IsUniform fun number => readAutomatonLine number automaton content keyword arguments := by
  simp only [readAutomatonLine]
  split
  · split
    · exact .form _
    · exact (isUniform_symbols arguments).bind fun _ => .ok _
  split
  · exact (isUniform_symbols arguments).bind fun states => automaton.isUniform_setInitial states
  split
  · exact (isUniform_symbols arguments).bind fun states => automaton.isUniform_setAccepting states
  split
  · exact isUniform_readGuardedEdge coherent content
  · exact .form _

end Model

end TransitionSystems
