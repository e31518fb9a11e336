import TransitionSystems.Proofs.Promela.Program
import TransitionSystems.Proofs.System.Coherence

/-!
# Variables of exported programs

Variables are declared for propositions of the universe and assigned in the blocks of states. The
propositions that hold in a state belong to the universe, so a variable that is set has been
declared. A variable that is cleared belongs to a proposition that occurs negated, and whether it
has been declared depends on whether the universe has this proposition without the negation too.
-/

namespace TransitionSystems.System

variable {system : System}

theorem mem_positives {label : Label} {proposition : Symbol} :
    proposition ∈ positives label ↔ proposition ∈ label ∧ HasVariable proposition := by
  simp only [positives, proper, List.mem_filter, Std.ExtTreeSet.mem_toList, hasVariable_iff,
    Bool.or_eq_false_iff, Bool.not_eq_true']
  tauto

theorem mem_negatives {label : Label} {proposition : Symbol} :
    proposition ∈ negatives label ↔
      proposition ∈ label ∧ proposition.isNegated = true ∧ isConstant proposition = false := by
  simp only [negatives, proper, List.mem_filter, Std.ExtTreeSet.mem_toList, Bool.not_eq_true']
  tauto

theorem mem_declared {process name : Text} :
    name ∈ (system.program process).declared ↔
      ∃ proposition ∈ system.propositions, HasVariable proposition ∧ proposition.text = name := by
  simp only [program, declarable, List.mem_map, List.mem_filter, OrderedSet.mem_toList,
    decide_eq_true_eq, and_assoc]

theorem mem_present {state : Symbol} {name : Text} :
    name ∈ (system.block state).present ↔
      ∃ proposition ∈ system.holding state, HasVariable proposition ∧ proposition.text = name := by
  simp only [block, List.mem_map, mem_positives, and_assoc]

theorem mem_negated {state : Symbol} {name : Text} :
    name ∈ (system.block state).negated ↔
      ∃ proposition ∈ system.holding state, proposition.isNegated = true ∧
        isConstant proposition = false ∧ proposition.unsignedName = name := by
  simp only [block, List.mem_map, mem_negatives, and_assoc]

theorem Coherent.mem_declared_of_mem_present (coherent : system.Coherent) {process name : Text}
    {state : Symbol} (sets : name ∈ (system.block state).present) :
    name ∈ (system.program process).declared := by
  obtain ⟨proposition, holds, own, named⟩ := mem_present.1 sets
  exact mem_declared.2 ⟨proposition, coherent.mem_propositions holds, own, named⟩

/-- The propositions that hold negated in some state have positive counterparts with variables. -/
def HasCounterparts (system : System) : Prop :=
  ∀ state ∈ system.states, ∀ proposition ∈ system.holding state,
    proposition.isNegated = true → isConstant proposition = false →
      ∃ positive ∈ system.propositions,
        HasVariable positive ∧ positive.text = proposition.unsignedName

/-- The export is the text of a program that declares all variables that it sets. It declares all
variables that it assigns exactly when the propositions that hold negated have counterparts. -/
theorem Reachable.promela_declares_assigned_iff (reachable : system.Reachable)
    (closed : system.kind = .closed) (process : Option Text) :
    let program := system.program (process.getD system.name)
    system.promela process = .ok program.text ∧
      (∀ block ∈ program.blocks, ∀ name ∈ block.present, name ∈ program.declared) ∧
      (program.DeclaresAssigned ↔ system.HasCounterparts) := by
  intro program
  have sets : ∀ block ∈ program.blocks, ∀ name ∈ block.present, name ∈ program.declared := by
    intro block member name sets
    obtain ⟨state, -, rfl⟩ := List.mem_map.1 member
    exact reachable.coherent.mem_declared_of_mem_present sets
  refine ⟨promela_eq closed process, sets, ?_⟩
  constructor
  · intro declares state known proposition holds negated ordinary
    have member : system.block state ∈ program.blocks :=
      List.mem_map_of_mem (Array.mem_toList_iff.2 known)
    have clears := mem_negated.2 ⟨proposition, holds, negated, ordinary, rfl⟩
    exact mem_declared.1 (declares _ member _ (List.mem_append_right _ clears))
  · intro counterparts block member name assigns
    rcases List.mem_append.1 assigns with assigns | clears
    · exact sets block member name assigns
    · obtain ⟨state, known, rfl⟩ := List.mem_map.1 member
      obtain ⟨proposition, holds, negated, ordinary, rfl⟩ := mem_negated.1 clears
      exact mem_declared.2
        (counterparts state (Array.mem_toList_iff.1 known) proposition holds negated ordinary)

/-- A door over a universe, of which it is said that it is shut and not open. -/
def door (propositions : List Symbol) : System :=
  ((System.empty (.closed (.ofList propositions) .empty) "door").run
    [.addLabeledState (.atom "locked") (.ofList [.atom "shut", .atom "!open"])]).2

theorem reachable_door (propositions : List Symbol) : (door propositions).Reachable :=
  (Reachable.fresh ..).run _

/-- When being open is a proposition too, all variables have been declared. -/
theorem door_declares_assigned :
    ((door [.atom "shut", .atom "open", .atom "!open"]).program "process").DeclaresAssigned ∧
      (door [.atom "shut", .atom "open", .atom "!open"]).HasCounterparts := by
  obtain ⟨-, -, declares_iff⟩ := (reachable_door
    [.atom "shut", .atom "open", .atom "!open"]).promela_declares_assigned_iff rfl (some "process")
  have declares : ((door [.atom "shut", .atom "open", .atom "!open"]).program
      "process").DeclaresAssigned := by
    decide +kernel
  exact ⟨declares, declares_iff.1 declares⟩

/-- Otherwise a variable is cleared that has not been declared. -/
theorem exists_undeclared_assignment :
    ∃ system : System, system.Reachable ∧ system.kind = .closed ∧
      system.promela = .ok
        ("bool shut;\n" ++ "\nactive proctype door()\x7b\n" ++ "\t if\n" ++ "\t fi;\n" ++
          "locked:\n" ++ "\t printf(\"State: locked\\n\");\n" ++
          "\t atomic\x7bshut = 1;open = 0;\x7d\n" ++ "\t if\n" ++ "\t fi;\n\n" ++
          "\x7d\n" : Text) ∧
      ¬(system.program system.name).DeclaresAssigned := by
  refine ⟨door [.atom "shut", .atom "!open"], reachable_door _, rfl, ?_, by decide +kernel⟩
  rw [promela_eq rfl]
  exact congrArg Except.ok (by decide +kernel)

end TransitionSystems.System
