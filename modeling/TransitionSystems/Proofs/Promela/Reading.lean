import TransitionSystems.Proofs.Promela.Program
import TransitionSystems.Proofs.Text.Unambiguous

/-!
# Reading programs

The text of a program tells the program when its variables and states are names and what it prints
has neither newlines nor backslashes. All lines between the head of the process and its end are told
one after the other, and the head is the last line that ends in an opening brace. So the name of the
process may be any text.
-/

namespace TransitionSystems.Promela

open Text

/-! ## Plain programs -/

/-- A branch whose target is a name and whose output stays on its line. -/
structure Choice.IsPlain (choice : Choice) : Prop where
  no_newline : 10 ∉ choice.output
  no_backslash : 92 ∉ choice.output
  target : choice.target.IsName

/-- A block whose state and variables are names and whose branches are plain. -/
structure Block.IsPlain (block : Block) : Prop where
  state : block.state.IsName
  present : ∀ name ∈ block.present, name.IsName
  negated : ∀ name ∈ block.negated, name.IsName
  choices : ∀ choice ∈ block.choices, choice.IsPlain

/-- A program whose states and variables are names and whose branches are plain. -/
structure Program.IsPlain (program : Program) : Prop where
  declared : ∀ name ∈ program.declared, name.IsName
  initial : ∀ state ∈ program.initial, state.IsName
  blocks : ∀ block ∈ program.blocks, block.IsPlain

/-! ## Lines -/

theorem declaration_append_ne (name rest rest' : Text) :
    declaration name ++ rest ≠ "\nactive proctype " ++ rest' := by
  simp only [declaration, List.append_assoc]
  exact append_ne_append rfl

theorem tells_declaration {name : Text} (isName : name.IsName) :
    Tells IsName declaration name := by
  intro other isName' rest rest' same
  simp only [declaration, List.append_assoc] at same
  exact isName.append_inj isName' rfl (List.append_cancel_left same)

theorem entry_append_ne (state rest rest' : Text) :
    entry state ++ rest ≠ "\t fi;\n" ++ rest' := by
  simp only [entry, List.append_assoc]
  exact append_ne_append rfl

theorem tells_entry {state : Text} (isName : state.IsName) : Tells IsName entry state := by
  intro other isName' rest rest' same
  simp only [entry, List.append_assoc] at same
  exact isName.append_inj isName' rfl (List.append_cancel_left same)

theorem Choice.text_append_ne (choice : Choice) (rest rest' : Text) :
    choice.text ++ rest ≠ "\t fi;\n\n" ++ rest' := by
  simp only [text, List.append_assoc]
  exact append_ne_append rfl

theorem Choice.IsPlain.tells_text {choice : Choice} (plain : choice.IsPlain) :
    Tells Choice.IsPlain Choice.text choice := by
  rintro other plain' rest rest' same
  simp only [Choice.text, List.append_assoc] at same
  obtain ⟨output, further⟩ := append_stop_inj rfl plain.no_backslash plain'.no_backslash
    (List.append_cancel_left same)
  obtain ⟨target, behind⟩ := plain.target.append_inj plain'.target rfl
    (List.append_cancel_left further)
  exact ⟨Choice.ext output target, behind⟩

/-! ## Assignments -/

/-- An assignment, which a space may separate from the one in front of it. -/
structure Assignment where
  isSeparated : Bool
  name : Text
  value : Bool

namespace Assignment

/-- What stands in front of the variable. -/
def separator (isSeparated : Bool) : Text :=
  if isSeparated then ofString " " else ofString ""

/-- What ends the assignment. -/
def digit (value : Bool) : Text :=
  if value then ofString "1;" else ofString "0;"

def text (assignment : Assignment) : Text :=
  separator assignment.isSeparated ++ (assignment.name ++ (" = " ++ digit assignment.value))

/-- The assigned variable is a name. -/
def IsPlain (assignment : Assignment) : Prop :=
  assignment.name.IsName

theorem IsPlain.text_append_ne {assignment : Assignment} (plain : assignment.IsPlain)
    (rest rest' : Text) : assignment.text ++ rest ≠ "\x7d\n" ++ rest' := by
  obtain ⟨isSeparated, name, value⟩ := assignment
  simp only [text, List.append_assoc]
  cases isSeparated with
  | false =>
      change name ++ _ ≠ _
      exact IsName.append_ne plain rfl
  | true => exact append_ne_append rfl

theorem IsPlain.tells_text {assignment : Assignment} (plain : assignment.IsPlain) :
    Tells IsPlain text assignment := by
  obtain ⟨isSeparated, name, value⟩ := assignment
  rintro ⟨isSeparated', name', value'⟩ plain' rest rest' same
  simp only [text, List.append_assoc] at same
  -- No name begins with a space.
  have separated : isSeparated = isSeparated' := by
    cases isSeparated <;> cases isSeparated'
    · rfl
    · change name ++ _ = _ at same
      exact absurd same (IsName.append_ne plain rfl)
    · change _ = name' ++ _ at same
      exact absurd same.symm (IsName.append_ne plain' rfl)
    · rfl
  obtain rfl := separated
  obtain ⟨rfl, ends⟩ := IsName.append_inj plain plain' rfl (List.append_cancel_left same)
  have values : value = value' := by
    cases value <;> cases value'
    · rfl
    · exact absurd ends (append_ne_append rfl)
    · exact absurd ends (append_ne_append rfl)
    · rfl
  obtain rfl := values
  exact ⟨rfl, List.append_cancel_left ends⟩

/-- The assignments of a value to variables, separated by spaces. -/
def assign (value : Bool) : List Text → List Assignment
  | [] => []
  | name :: names => ⟨false, name, value⟩ :: names.map (⟨true, ·, value⟩)

/-- The variables to which a value is assigned. -/
def assigned (value : Bool) (assignments : List Assignment) : List Text :=
  (assignments.filter (·.value = value)).map name

theorem assigned_append (value : Bool) (front back : List Assignment) :
    assigned value (front ++ back) = assigned value front ++ assigned value back := by
  rw [assigned, List.filter_append, List.map_append, assigned, assigned]

theorem assigned_assign (value other : Bool) (names : List Text) :
    assigned other (assign value names) = if value = other then names else [] := by
  cases names with
  | nil => simp [assign, assigned]
  | cons name names =>
      by_cases same : value = other <;> simp [assign, assigned, List.filter_map, same,
        Function.comp_def]

theorem isPlain_of_mem_assign {value : Bool} {names : List Text}
    (isName : ∀ name ∈ names, name.IsName) :
    ∀ assignment ∈ assign value names, assignment.IsPlain := by
  cases names with
  | nil => nofun
  | cons name names => simpa [assign, IsPlain] using isName

theorem flatMap_assign (value : Bool) (names : List Text) :
    (assign value names).flatMap text =
      join " " (names.map fun name => name ++ (" = " ++ digit value)) := by
  cases names with
  | nil => rfl
  | cons name names =>
      rw [assign, List.flatMap_cons, List.map_cons, join_cons, List.flatMap_map, List.flatMap_map]
      rfl

end Assignment

namespace Block

variable {block : Block}

/-- The assignments of a block, those that set variables first. -/
def written (block : Block) : List Assignment :=
  Assignment.assign true block.present ++ Assignment.assign false block.negated

theorem assignments_eq (block : Block) :
    block.assignments = block.written.flatMap Assignment.text := by
  rw [written, List.flatMap_append, Assignment.flatMap_assign, Assignment.flatMap_assign]
  rfl

theorem written_inj {other : Block} (same : block.written = other.written) :
    block.present = other.present ∧ block.negated = other.negated := by
  have sets := congrArg (Assignment.assigned true) same
  have clears := congrArg (Assignment.assigned false) same
  simp only [written, Assignment.assigned_append, Assignment.assigned_assign] at sets clears
  exact ⟨by simpa using sets, by simpa using clears⟩

theorem IsPlain.isPlain_of_mem_written (plain : block.IsPlain) :
    ∀ assignment ∈ block.written, assignment.IsPlain := by
  intro assignment member
  rcases List.mem_append.1 member with sets | clears
  · exact Assignment.isPlain_of_mem_assign plain.present assignment sets
  · exact Assignment.isPlain_of_mem_assign plain.negated assignment clears

/-- The text of a plain block tells the block. -/
theorem IsPlain.tells_text (plain : block.IsPlain) : Tells IsPlain text block := by
  rintro other plain' rest rest' same
  simp only [text, assignments_eq, List.append_assoc] at same
  obtain ⟨state, further⟩ := plain.state.append_inj plain'.state rfl same
  simp only [state, List.append_cancel_left_eq] at further
  obtain ⟨written, further⟩ := flatMap_stop_inj
    (fun assignment member => (plain.isPlain_of_mem_written assignment member).tells_text)
    plain.isPlain_of_mem_written plain'.isPlain_of_mem_written
    (fun assignment plain => plain.text_append_ne) further
  obtain ⟨choices, behind⟩ := flatMap_stop_inj
    (fun choice member => (plain.choices choice member).tells_text) plain.choices plain'.choices
    (fun choice _ => choice.text_append_ne) (List.append_cancel_left further)
  obtain ⟨present, negated⟩ := written_inj written
  exact ⟨Block.ext state present negated choices, behind⟩

theorem IsPlain.text_append_ne (plain : block.IsPlain) (rest rest' : Text) :
    block.text ++ rest ≠ "\x7d\n" ++ rest' := by
  simp only [text, List.append_assoc]
  exact plain.state.append_ne rfl

end Block

/-! ## Braces -/

theorem Assignment.IsPlain.no_newline {assignment : Assignment} (plain : assignment.IsPlain) :
    10 ∉ assignment.text := by
  obtain ⟨isSeparated, name, value⟩ := assignment
  have front : 10 ∉ separator isSeparated := by cases isSeparated <;> decide
  have back : 10 ∉ ofString " = " ++ digit value := by cases value <;> decide
  rw [text, List.mem_append, List.mem_append, not_or, not_or]
  exact ⟨front, IsName.not_mem plain rfl, back⟩

theorem Choice.IsPlain.keepsBraces_append {choice : Choice} (plain : choice.IsPlain) {rest : Text}
    (keeps : keepsBraces rest = true) : keepsBraces (choice.text ++ rest) = true := by
  simp only [Choice.text, List.append_assoc]
  refine keepsBraces_append_of_no_brace (by decide) ?_
  refine keepsBraces_append_of_no_newline plain.no_newline rfl ?_
  refine keepsBraces_append_of_no_brace (by decide) ?_
  refine keepsBraces_append_of_no_brace (by decide) ?_
  refine keepsBraces_append_of_no_brace (plain.target.not_mem rfl) ?_
  exact keepsBraces_append_of_no_brace (by decide) keeps

theorem Block.IsPlain.keepsBraces_append {block : Block} (plain : block.IsPlain) {rest : Text}
    (keeps : keepsBraces rest = true) : keepsBraces (block.text ++ rest) = true := by
  have state : 123 ∉ block.state := plain.state.not_mem rfl
  have line : 10 ∉ ofString "\t atomic\x7b" ++ block.assignments := by
    rw [List.mem_append, not_or, assignments_eq, List.mem_flatMap]
    refine ⟨by decide, ?_⟩
    rintro ⟨assignment, member, newline⟩
    exact (plain.isPlain_of_mem_written assignment member).no_newline newline
  have whole : block.text ++ rest = block.state ++ (":\n" ++ ("\t printf(\"State: " ++
      (block.state ++ ("\\n\");\n" ++ (("\t atomic\x7b" ++ block.assignments) ++ ("\x7d\n" ++
        ("\t if\n" ++ (block.choices.flatMap Choice.text ++ ("\t fi;\n\n" ++ rest))))))))) := by
    simp only [text, List.append_assoc]
  rw [whole]
  refine keepsBraces_append_of_no_brace state ?_
  refine keepsBraces_append_of_no_brace (by decide) ?_
  refine keepsBraces_append_of_no_brace (by decide) ?_
  refine keepsBraces_append_of_no_brace state ?_
  refine keepsBraces_append_of_no_brace (by decide) ?_
  refine keepsBraces_append_of_no_newline line rfl ?_
  refine keepsBraces_append_of_no_brace (by decide) ?_
  refine keepsBraces_append_of_no_brace (by decide) ?_
  refine keepsBraces_flatMap_append
    (fun choice member rest keeps => (plain.choices choice member).keepsBraces_append keeps) ?_
  exact keepsBraces_append_of_no_brace (by decide) keeps

namespace Program

variable {program : Program}

theorem IsPlain.keepsBraces_body (plain : program.IsPlain) : keepsBraces program.body = true := by
  simp only [body, List.append_assoc]
  refine keepsBraces_append_of_no_brace (by decide) ?_
  refine keepsBraces_flatMap_append (fun state member rest keeps => ?_) ?_
  · simp only [entry, List.append_assoc]
    refine keepsBraces_append_of_no_brace (by decide) ?_
    refine keepsBraces_append_of_no_brace ((plain.initial state member).not_mem rfl) ?_
    exact keepsBraces_append_of_no_brace (by decide) keeps
  · refine keepsBraces_append_of_no_brace (by decide) ?_
    exact keepsBraces_flatMap_append
      (fun block member rest keeps => (plain.blocks block member).keepsBraces_append keeps)
      (by decide)

theorem IsPlain.body_inj {other : Program} (plain : program.IsPlain) (plain' : other.IsPlain)
    (same : program.body = other.body) :
    program.initial = other.initial ∧ program.blocks = other.blocks := by
  simp only [body, List.append_assoc] at same
  obtain ⟨initial, further⟩ := flatMap_stop_inj
    (fun state member => tells_entry (plain.initial state member)) plain.initial plain'.initial
    (fun state _ => entry_append_ne state) (List.append_cancel_left same)
  rw [← List.append_nil (ofString "\x7d\n")] at further
  obtain ⟨blocks, -⟩ := flatMap_stop_inj
    (fun block member => (plain.blocks block member).tells_text) plain.blocks plain'.blocks
    (fun block plain => plain.text_append_ne) further
  exact ⟨initial, blocks⟩

/-- The text of a plain program tells the program, whatever the name of its process is. -/
theorem IsPlain.text_inj {other : Program} (plain : program.IsPlain) (plain' : other.IsPlain)
    (same : program.text = other.text) : program = other := by
  have head : ofString "()\x7b\n" = ofString "()" ++ ofString "\x7b\n" := by decide
  simp only [text, List.append_assoc] at same
  obtain ⟨declared, further⟩ := flatMap_stop_inj
    (fun name member => tells_declaration (plain.declared name member)) plain.declared
    plain'.declared (fun name _ => declaration_append_ne name) same
  rw [head, List.append_assoc, List.append_assoc, ← List.append_assoc program.process,
    ← List.append_assoc other.process] at further
  obtain ⟨process, bodies⟩ := append_open_inj plain.keepsBraces_body plain'.keepsBraces_body
    further
  obtain ⟨initial, blocks⟩ := plain.body_inj plain' bodies
  exact Program.ext declared (List.append_cancel_right process) initial blocks

end Program

end TransitionSystems.Promela
