import TransitionSystems.System.Promela

/-!
# Exported programs

The export of a closed system is the text of a program: declarations of variables, a choice of the
first state, and for every state a block that assigns variables and leads on. What the program has
in these places is told by the system.
-/

namespace TransitionSystems

namespace Promela

/-- A branch of a choice, which prints a text and leads on to a state. -/
@[ext]
structure Choice where
  output : Text
  target : Text
  deriving DecidableEq

/-- The block of a state. -/
@[ext]
structure Block where
  state : Text
  /-- The variables that are set. -/
  present : List Text
  /-- The variables that are cleared. -/
  negated : List Text
  choices : List Choice
  deriving DecidableEq

/-- A process with the variables that it declares. -/
@[ext]
structure Program where
  declared : List Text
  process : Text
  initial : List Text
  blocks : List Block
  deriving DecidableEq

/-- The declaration of a variable. -/
def declaration (name : Text) : Text :=
  "bool " ++ name ++ ";\n"

/-- A branch of the first choice. -/
def entry (state : Text) : Text :=
  "\t :: goto " ++ state ++ "\n"

/-- The assignment that sets a variable. -/
def setting (name : Text) : Text :=
  name ++ " = 1;"

/-- The assignment that clears a variable. -/
def clearing (name : Text) : Text :=
  name ++ " = 0;"

def Choice.text (choice : Choice) : Text :=
  "\t :: printf(\"" ++ choice.output ++ "\\n\");\n" ++ "\t\t goto " ++ choice.target ++ "\n"

namespace Block

/-- The variables that the block assigns. -/
def assigned (block : Block) : List Text :=
  block.present ++ block.negated

def assignments (block : Block) : Text :=
  Text.join " " (block.present.map setting) ++ Text.join " " (block.negated.map clearing)

def text (block : Block) : Text :=
  block.state ++ ":\n" ++ "\t printf(\"State: " ++ block.state ++ "\\n\");\n" ++
    "\t atomic\x7b" ++ block.assignments ++ "\x7d\n" ++
    "\t if\n" ++ block.choices.flatMap Choice.text ++ "\t fi;\n\n"

end Block

namespace Program

/-- What follows the name of the process. -/
def body (program : Program) : Text :=
  "\t if\n" ++ program.initial.flatMap entry ++ "\t fi;\n" ++
    program.blocks.flatMap Block.text ++ "\x7d\n"

def text (program : Program) : Text :=
  program.declared.flatMap declaration ++ "\nactive proctype " ++ program.process ++ "()\x7b\n" ++
    program.body

/-- All variables that are assigned have been declared. -/
def DeclaresAssigned (program : Program) : Prop :=
  ∀ block ∈ program.blocks, ∀ name ∈ block.assigned, name ∈ program.declared

instance : DecidablePred DeclaresAssigned := fun program =>
  inferInstanceAs (Decidable
    (∀ block ∈ program.blocks, ∀ name ∈ block.assigned, name ∈ program.declared))

end Program

end Promela

namespace System

variable {system : System}

/-- Whether a proposition has a variable of its own. -/
def HasVariable (proposition : Symbol) : Prop :=
  proposition.isNegated = false ∧ proposition ≠ .truth

instance : DecidablePred HasVariable := fun proposition =>
  inferInstanceAs (Decidable (proposition.isNegated = false ∧ proposition ≠ .truth))

/-- The propositions of a label other than the constants. -/
def proper (label : Label) : List Symbol :=
  label.toList.filter (!isConstant ·)

/-- The propositions of a label that are not negated and have variables. -/
def positives (label : Label) : List Symbol :=
  (proper label).filter (!·.isNegated)

/-- The negated propositions of a label other than the constant. -/
def negatives (label : Label) : List Symbol :=
  (proper label).filter (·.isNegated)

/-- The branch for a transition. -/
def choice (transition : Transition) : Promela.Choice where
  output := transition.label.text
  target := transition.target.text

/-- What the block of a state says. -/
def block (system : System) (state : Symbol) : Promela.Block where
  state := state.text
  present := (positives (system.holding state)).map Symbol.text
  negated := (negatives (system.holding state)).map Symbol.unsignedName
  choices := (system.leaving state).map choice

/-- The propositions with variables, in their order. -/
def declarable (system : System) : List Symbol :=
  system.propositions.toList.filter (HasVariable ·)

/-- The program of a closed system. -/
def program (system : System) (process : Text) : Promela.Program where
  declared := system.declarable.map Symbol.text
  process := process
  initial := system.initial.toList.map Symbol.text
  blocks := system.states.toList.map system.block

theorem hasVariable_iff {proposition : Symbol} :
    HasVariable proposition ↔ (proposition.isNegated || isConstant proposition) = false := by
  rw [HasVariable, isConstant]
  cases proposition.isNegated <;> simp

/-- A declaration is written for every proposition with a variable. -/
theorem flatMap_declaration (propositions : List Symbol) :
    propositions.flatMap declaration =
      ((propositions.filter (HasVariable ·)).map Symbol.text).flatMap Promela.declaration := by
  induction propositions with
  | nil => rfl
  | cons proposition propositions induction =>
      rw [List.flatMap_cons, induction, declaration]
      by_cases own : HasVariable proposition
      · rw [hasVariable_iff.1 own, List.filter_cons_of_pos (by simpa using own), List.map_cons,
          List.flatMap_cons]
        rfl
      · rw [(Bool.not_eq_false _).mp (mt hasVariable_iff.2 own),
          List.filter_cons_of_neg (by simpa using own)]
        rfl

theorem stateBlock_eq (system : System) (state : Symbol) :
    system.stateBlock state = (system.block state).text := by
  have assigned : assignments (system.holding state) = (system.block state).assignments := by
    rw [assignments, List.partition_eq_filter_filter]
    simp only [Promela.Block.assignments, block, List.map_map]
    rfl
  have choices : (system.leaving state).flatMap transitionChoice =
      (system.block state).choices.flatMap Promela.Choice.text := by
    rw [block, List.flatMap_map]
    rfl
  rw [stateBlock, assigned, choices]
  rfl

/-- The export of a closed system is the text of its program. -/
theorem promela_eq (closed : system.kind = .closed) (process : Option Text) :
    system.promela process = .ok (system.program (process.getD system.name)).text := by
  have blocks : system.states.toList.flatMap system.stateBlock =
      (system.states.toList.map system.block).flatMap Promela.Block.text := by
    rw [List.flatMap_map]
    exact congrArg system.states.toList.flatMap (funext system.stateBlock_eq)
  have entries : system.initial.toList.flatMap initialChoice =
      (system.initial.toList.map Symbol.text).flatMap Promela.entry := by
    rw [List.flatMap_map]
    rfl
  rw [promela, closed]
  simp only [flatMap_declaration, blocks, entries, Promela.Program.text, Promela.Program.body,
    program, declarable, List.append_assoc]

end System

end TransitionSystems
