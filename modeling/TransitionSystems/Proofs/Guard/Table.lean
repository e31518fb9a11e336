import Mathlib.Data.List.Basic
import TransitionSystems.Guard.Table
import TransitionSystems.Proofs.Outcome

/-!
# Coherent formula tables

The index of a table finds exactly the nodes of the table, and the children of a node have smaller
numbers than the node. Whatever is made or read, a table stays coherent and only grows at its end,
so a number goes on denoting its formula; and a formula that is in the table is found there.
-/

namespace TransitionSystems.Guard

namespace Table

variable {table next : Table}

/-! ## Formulas of numbers -/

/-- A number denotes the formula that its node and the formulas of the children make up. -/
inductive Denotes (table : Table) : Nat → Formula → Prop
  | truth {number : Nat} (found : table.nodes[number]? = some .truth) : Denotes table number .truth
  | falsity {number : Nat} (found : table.nodes[number]? = some .falsity) :
      Denotes table number .falsity
  | atom {number : Nat} {name : Text} (found : table.nodes[number]? = some (.atom name)) :
      Denotes table number (.atom name)
  | negation {number child : Nat} {formula : Formula}
      (found : table.nodes[number]? = some (.negation child))
      (negated : Denotes table child formula) : Denotes table number (.negation formula)
  | binary {number first second : Nat} {connective : Connective} {left right : Formula}
      (found : table.nodes[number]? = some (.binary connective first second))
      (denotes : Denotes table first left) (denotes' : Denotes table second right) :
      Denotes table number (.binary connective left right)

/-- A number denotes one formula at most. -/
theorem Denotes.unique {number : Nat} {formula other : Formula}
    (denotes : table.Denotes number formula) (denotes' : table.Denotes number other) :
    formula = other := by
  induction denotes generalizing other with
  | truth found | falsity found | atom found =>
      cases denotes' <;> simp_all
  | negation found _ induction =>
      cases denotes' with
      | negation found' negated =>
          obtain rfl := Node.negation.inj (Option.some.inj (found.symm.trans found'))
          rw [induction negated]
      | truth found' | falsity found' | atom found' | binary found' => simp [found] at found'
  | binary found _ _ first second =>
      cases denotes' with
      | binary found' left right =>
          obtain ⟨rfl, rfl, rfl⟩ := Node.binary.inj (Option.some.inj (found.symm.trans found'))
          rw [first left, second right]
      | truth found' | falsity found' | atom found' | negation found' => simp [found] at found'

theorem Denotes.lt_size {number : Nat} {formula : Formula}
    (denotes : table.Denotes number formula) : number < table.size := by
  have node : ∃ node, table.nodes[number]? = some node := by
    cases denotes with
    | truth found | falsity found | atom found => exact ⟨_, found⟩
    | negation found | binary found => exact ⟨_, found⟩
  obtain ⟨node, found⟩ := node
  exact (Array.getElem?_eq_some_iff.1 found).1

/-- A table that goes on where another one ends. -/
def Extends (old new : Table) : Prop :=
  old.nodes.toList <+: new.nodes.toList

namespace Extends

variable {old middle new : Table}

theorem refl (table : Table) : table.Extends table :=
  List.prefix_rfl

theorem trans (first : old.Extends middle) (second : middle.Extends new) : old.Extends new :=
  List.IsPrefix.trans first second

theorem lt_size (extends' : old.Extends new) {number : Nat} (known : number < old.size) :
    number < new.size :=
  Nat.lt_of_lt_of_le known extends'.length_le

theorem getElem? (extends' : old.Extends new) {number : Nat} {node : Node}
    (found : old.nodes[number]? = some node) : new.nodes[number]? = some node := by
  rw [← Array.getElem?_toList] at found ⊢
  obtain ⟨more, same⟩ := extends'
  rw [← same, List.getElem?_append_left (List.getElem?_eq_some_iff.1 found).1, found]

theorem denotes (extends' : old.Extends new) {number : Nat} {formula : Formula}
    (denotes : old.Denotes number formula) : new.Denotes number formula := by
  induction denotes with
  | truth found => exact .truth (extends'.getElem? found)
  | falsity found => exact .falsity (extends'.getElem? found)
  | atom found => exact .atom (extends'.getElem? found)
  | negation found _ induction => exact .negation (extends'.getElem? found) induction
  | binary found _ _ first second => exact .binary (extends'.getElem? found) first second

end Extends

/-! ## Coherent tables -/

/-- The nodes and the index of a table agree, children come before their parents, and the constants
have their numbers. -/
structure Coherent (table : Table) : Prop where
  index_eq_some_iff : ∀ (node : Node) (number : Nat),
    table.index[node]? = some number ↔ table.nodes[number]? = some node
  children_lt : ∀ (number : Nat) (node : Node), table.nodes[number]? = some node →
    ∀ child ∈ node.children, child < number
  truth : table.nodes[Table.truth]? = some .truth
  falsity : table.nodes[Table.falsity]? = some .falsity

theorem coherent_initial : Coherent initial where
  index_eq_some_iff node number := by
    simp only [initial, Std.ExtTreeMap.getElem?_insert, Std.LawfulEqOrd.compare_eq_iff_eq]
    rcases number with - | - | number
    · cases node <;> simp
    · cases node <;> simp
    · cases node <;> simp
  children_lt number node found := by
    rcases number with - | - | number
    · obtain rfl : Node.truth = node := Option.some.inj found
      simp [Node.children]
    · obtain rfl : Node.falsity = node := Option.some.inj found
      simp [Node.children]
    · simp [initial] at found
  truth := rfl
  falsity := rfl

namespace Coherent

/-! ## Numbers of the table -/

/-- Every number of the table denotes a formula. -/
theorem exists_denotes (coherent : table.Coherent) {number : Nat} (known : number < table.size) :
    ∃ formula, table.Denotes number formula := by
  induction number using Nat.strongRecOn with
  | ind number induction =>
      have found : table.nodes[number]? = some table.nodes[number] :=
        Array.getElem?_eq_getElem known
      have below := coherent.children_lt number _ found
      generalize table.nodes[number] = node at found below
      cases node with
      | truth => exact ⟨_, .truth found⟩
      | falsity => exact ⟨_, .falsity found⟩
      | atom name => exact ⟨_, .atom found⟩
      | negation child =>
          have smaller : child < number := below child List.mem_cons_self
          obtain ⟨formula, denotes⟩ := induction child smaller (Nat.lt_trans smaller known)
          exact ⟨_, .negation found denotes⟩
      | binary connective left right =>
          have first : left < number := below left List.mem_cons_self
          have second : right < number := below right (by simp [Node.children])
          obtain ⟨formula, denotes⟩ := induction left first (Nat.lt_trans first known)
          obtain ⟨formula', denotes'⟩ := induction right second (Nat.lt_trans second known)
          exact ⟨_, .binary found denotes denotes'⟩

/-- Unfolding a number finds the formula that it denotes. -/
theorem unfold_eq_some (coherent : table.Coherent) {number fuel : Nat} {formula : Formula}
    (denotes : table.Denotes number formula) (enough : number < fuel) :
    table.unfold fuel number = some formula := by
  induction denotes generalizing fuel with
  | truth found | falsity found | atom found =>
      obtain ⟨fuel, rfl⟩ := Nat.exists_eq_add_one_of_ne_zero (Nat.ne_zero_of_lt enough)
      rw [unfold, found]
  | @negation number child formula found _ induction =>
      obtain ⟨fuel, rfl⟩ := Nat.exists_eq_add_one_of_ne_zero (Nat.ne_zero_of_lt enough)
      have smaller := coherent.children_lt number _ found child List.mem_cons_self
      rw [unfold, found]
      simp [induction (by omega : child < fuel)]
  | @binary number left right connective formula formula' found _ _ first second =>
      obtain ⟨fuel, rfl⟩ := Nat.exists_eq_add_one_of_ne_zero (Nat.ne_zero_of_lt enough)
      have smaller := coherent.children_lt number _ found left List.mem_cons_self
      have smaller' := coherent.children_lt number _ found right (by simp [Node.children])
      rw [unfold, found]
      simp [first (by omega : left < fuel), second (by omega : right < fuel)]

/-- The formula of a number is the one that it denotes. -/
theorem formula?_eq_some_iff (coherent : table.Coherent) {number : Nat} {formula : Formula} :
    table.formula? number = some formula ↔ table.Denotes number formula := by
  refine ⟨fun found => ?_, fun denotes => coherent.unfold_eq_some denotes (Nat.lt_succ_self _)⟩
  by_cases known : number < table.size
  · obtain ⟨other, denotes⟩ := coherent.exists_denotes known
    have unfolded : table.formula? number = some other :=
      coherent.unfold_eq_some denotes (Nat.lt_succ_self _)
    rwa [Option.some.inj (found.symm.trans unfolded)]
  · have unknown : table.nodes[number]? = none := Array.getElem?_eq_none (Nat.le_of_not_lt known)
    rw [formula?, unfold, unknown] at found
    cases found

theorem formula_eq_ok_iff (coherent : table.Coherent) {number : Nat} {formula : Formula} :
    table.formula number = .ok formula ↔ table.Denotes number formula := by
  rw [← coherent.formula?_eq_some_iff, Table.formula]
  cases table.formula? number <;> simp

/-! ## Growth -/

/-- Interning a node whose children are there. -/
theorem intern (coherent : table.Coherent) {node : Node}
    (known : ∀ child ∈ node.children, child < table.size) :
    (table.intern node).2.Coherent ∧ table.Extends (table.intern node).2 ∧
      (table.intern node).2.nodes[(table.intern node).1]? = some node := by
  rw [Table.intern]
  cases found : table.index[node]? with
  | some number =>
      exact ⟨coherent, .refl table, (coherent.index_eq_some_iff node number).1 found⟩
  | none =>
      have new (number : Nat) : table.nodes[number]? ≠ some node := by
        intro present
        rw [(coherent.index_eq_some_iff node number).2 present] at found
        cases found
      have grown : table.Extends
          { nodes := table.nodes.push node, index := table.index.insert node table.size } := by
        rw [Extends, Array.toList_push]
        exact List.prefix_append ..
      refine ⟨⟨fun other number => ?_, fun number other present => ?_,
        grown.getElem? coherent.truth, grown.getElem? coherent.falsity⟩, grown,
        Array.getElem?_push_size⟩
      · rw [Std.ExtTreeMap.getElem?_insert, Array.getElem?_push]
        by_cases same : node = other
        · subst same
          rw [if_pos (Std.LawfulEqOrd.compare_eq_iff_eq.2 rfl)]
          by_cases last : number = table.nodes.size
          · simp [last, size]
          · simp [last, size, new number, eq_comm]
        · have old : table.nodes[table.nodes.size]? = none := by simp
          rw [if_neg (mt Std.LawfulEqOrd.compare_eq_iff_eq.1 same), coherent.index_eq_some_iff]
          by_cases last : number = table.nodes.size
          · simp [last, same]
          · simp [last]
      · rw [Array.getElem?_push] at present
        split at present
        · next last =>
            obtain rfl := Option.some.inj present
            rw [last]
            exact known
        · exact coherent.children_lt number other present

theorem intern_of_found (coherent : table.Coherent) {node : Node} {number : Nat}
    (found : table.nodes[number]? = some node) : table.intern node = (number, table) := by
  rw [Table.intern, (coherent.index_eq_some_iff node number).2 found]

/-- A formula that is added is denoted by its number. -/
theorem insert (coherent : table.Coherent) (formula : Formula) :
    (table.insert formula).2.Coherent ∧ table.Extends (table.insert formula).2 ∧
      (table.insert formula).2.Denotes (table.insert formula).1 formula := by
  induction formula generalizing table with
  | truth => exact ⟨coherent, .refl table, .truth coherent.truth⟩
  | falsity => exact ⟨coherent, .refl table, .falsity coherent.falsity⟩
  | atom name =>
      have noChildren : ∀ child ∈ (Node.atom name).children, child < table.size := by
        simp [Node.children]
      obtain ⟨coherent', grown, found⟩ := coherent.intern noChildren
      exact ⟨coherent', grown, .atom found⟩
  | negation formula induction =>
      obtain ⟨coherent', grown, denotes⟩ := induction coherent
      have known : ∀ child ∈ (Node.negation (table.insert formula).1).children,
          child < (table.insert formula).2.size := by
        simpa [Node.children] using denotes.lt_size
      obtain ⟨interned, further, found⟩ := coherent'.intern known
      exact ⟨interned, grown.trans further, .negation found (further.denotes denotes)⟩
  | binary connective left right first second =>
      obtain ⟨coherent', grown, denotes⟩ := first coherent
      obtain ⟨coherent'', grown', denotes'⟩ := second coherent'
      have denotes := grown'.denotes denotes
      have known : ∀ child ∈ (Node.binary connective (table.insert left).1
          ((table.insert left).2.insert right).1).children,
          child < ((table.insert left).2.insert right).2.size := by
        simpa [Node.children] using And.intro denotes.lt_size denotes'.lt_size
      obtain ⟨interned, further, found⟩ := coherent''.intern known
      exact ⟨interned, (grown.trans grown').trans further,
        .binary found (further.denotes denotes) (further.denotes denotes')⟩

/-- A formula that is in the table is found, and the table stays as it is. -/
theorem insert_of_denotes (coherent : table.Coherent) {number : Nat} {formula : Formula}
    (denotes : table.Denotes number formula) : table.insert formula = (number, table) := by
  induction denotes with
  | truth found =>
      have interned := coherent.intern_of_found found
      rw [coherent.intern_of_found coherent.truth] at interned
      exact interned
  | falsity found =>
      have interned := coherent.intern_of_found found
      rw [coherent.intern_of_found coherent.falsity] at interned
      exact interned
  | atom found => exact coherent.intern_of_found found
  | negation found _ induction =>
      simp only [Table.insert, induction]
      exact coherent.intern_of_found found
  | binary found _ _ first second =>
      simp only [Table.insert, first, second]
      exact coherent.intern_of_found found

theorem insertMany (coherent : table.Coherent) (formulas : List Formula) :
    (table.insertMany formulas).Coherent ∧ table.Extends (table.insertMany formulas) := by
  induction formulas generalizing table with
  | nil => exact ⟨coherent, .refl table⟩
  | cons formula formulas induction =>
      obtain ⟨coherent', grown, -⟩ := coherent.insert formula
      obtain ⟨coherent'', grown'⟩ := induction coherent'
      exact ⟨coherent'', grown.trans grown'⟩

/-- Reading adds nodes at the end and keeps the table coherent, also when it fails. -/
theorem read (coherent : table.Coherent) (tokens : List Token) :
    (table.read tokens).2.Coherent ∧ table.Extends (table.read tokens).2 := by
  rw [Table.read]
  split
  · next formula _ =>
      obtain ⟨coherent', grown, -⟩ := coherent.insert formula
      exact ⟨coherent', grown⟩
  · next failure _ => exact coherent.insertMany failure.complete

theorem readText (coherent : table.Coherent) (source : Text) (line : Nat) :
    (table.readText source line).2.Coherent ∧ table.Extends (table.readText source line).2 := by
  rw [Table.readText]
  split
  · next tokens _ => exact coherent.read tokens
  · exact ⟨coherent, .refl table⟩

theorem node_eq_ok_iff {number : Nat} {node : Node} :
    table.node number = .ok node ↔ table.nodes[number]? = some node := by
  rw [Table.node]
  cases table.nodes[number]? <;> simp

theorem lt_size_of_node {number : Nat} {node : Node} (known : table.node number = .ok node) :
    number < table.size :=
  (Array.getElem?_eq_some_iff.1 (node_eq_ok_iff.1 known)).1

theorem negation (coherent : table.Coherent) {child number : Nat}
    (made : table.negation child = .ok (number, next)) : next.Coherent := by
  obtain ⟨node, known, interned⟩ := bind_eq_ok_iff.1 made
  have children : ∀ other ∈ (Node.negation child).children, other < table.size := by
    simpa [Node.children] using lt_size_of_node known
  obtain ⟨-, rfl⟩ := Prod.mk.inj (Except.ok.inj interned)
  exact (coherent.intern children).1

theorem binary (coherent : table.Coherent) {kind : NodeKind} {left right number : Nat}
    (made : table.binary kind left right = .ok (number, next)) : next.Coherent := by
  cases kind with
  | binary connective =>
      obtain ⟨first, known, made⟩ := bind_eq_ok_iff.1 made
      obtain ⟨second, known', interned⟩ := bind_eq_ok_iff.1 made
      have children : ∀ other ∈ (Node.binary connective left right).children,
          other < table.size := by
        simpa [Node.children] using And.intro (lt_size_of_node known) (lt_size_of_node known')
      obtain ⟨-, rfl⟩ := Prod.mk.inj (Except.ok.inj interned)
      exact (coherent.intern children).1
  | truth | falsity | atom | negation => cases made

end Coherent

/-! ## Reachable tables -/

/-- The tables that come from the initial one by making formulas and by reading, whether reading
succeeds or fails. -/
inductive Reachable : Table → Prop
  | initial : Reachable initial
  | atom {table : Table} (name : Text) (reachable : Reachable table) :
      Reachable (table.atom name).2
  | negation {table next : Table} {child number : Nat} (reachable : Reachable table)
      (made : table.negation child = .ok (number, next)) : Reachable next
  | binary {table next : Table} {kind : NodeKind} {left right number : Nat}
      (reachable : Reachable table) (made : table.binary kind left right = .ok (number, next)) :
      Reachable next
  | read {table : Table} (tokens : List Token) (reachable : Reachable table) :
      Reachable (table.read tokens).2
  | readText {table : Table} (source : Text) (line : Nat) (reachable : Reachable table) :
      Reachable (table.readText source line).2

theorem Reachable.coherent (reachable : table.Reachable) : table.Coherent := by
  induction reachable with
  | initial => exact coherent_initial
  | atom name _ induction => exact (induction.insert (.atom name)).1
  | negation _ made induction => exact induction.negation made
  | binary _ made induction => exact induction.binary made
  | read tokens _ induction => exact (induction.read tokens).1
  | readText source line _ induction => exact (induction.readText source line).1

end Table

end TransitionSystems.Guard
