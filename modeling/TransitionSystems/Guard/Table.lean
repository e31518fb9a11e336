import Std.Data.ExtTreeMap
import TransitionSystems.Guard.Parse
import TransitionSystems.Guard.Scan

/-!
# Formula tables

A table shares the subformulas of all guards: every node has a number, its children have smaller
numbers, and an index finds the number of a node that is there already. The constants have the
numbers 0 and 1. A table only grows at its end, so a number keeps its formula. Numbers have no bound
here; unsigned words of 32 bits hold those of tables of at most `2 ^ 32` nodes.
-/

namespace TransitionSystems.Guard

/-- The connective of a node, or what stands in its place. -/
inductive NodeKind where
  | truth
  | falsity
  | atom
  | negation
  | binary (connective : Connective)
  deriving DecidableEq, Inhabited

namespace NodeKind

/-- The kinds in the order of their numbers. -/
def all : List NodeKind :=
  [.truth, .falsity, .atom, .negation, .binary .conjunction, .binary .disjunction,
    .binary .implication, .binary .equivalence]

/-- The sign of a connective, or a word. -/
def sign : NodeKind → Text
  | .truth => "true"
  | .falsity => "false"
  | .atom => "atom"
  | .negation => "!"
  | .binary connective => connective.sign

/-- Whether a kind joins two formulas. -/
def isBinary : NodeKind → Bool
  | .binary _ => true
  | _ => false

/-- The place of a kind among all kinds. -/
def rank : NodeKind → Nat
  | .truth => 0
  | .falsity => 1
  | .atom => 2
  | .negation => 3
  | .binary .conjunction => 4
  | .binary .disjunction => 5
  | .binary .implication => 6
  | .binary .equivalence => 7

theorem rank_injective {left right : NodeKind} (same : left.rank = right.rank) :
    left = right := by
  revert same
  rcases left with _ | _ | _ | _ | left <;> rcases right with _ | _ | _ | _ | right <;>
    try cases left
  all_goals try cases right
  all_goals simp [rank]

end NodeKind

/-- A formula whose immediate subformulas are given by their numbers. -/
inductive Node where
  | truth
  | falsity
  | atom (name : Text)
  | negation (child : Nat)
  | binary (connective : Connective) (left right : Nat)
  deriving DecidableEq, Inhabited

namespace Node

/-- The kind of a node. -/
def kind : Node → NodeKind
  | .truth => .truth
  | .falsity => .falsity
  | .atom _ => .atom
  | .negation _ => .negation
  | .binary connective _ _ => .binary connective

/-- The name of an atom; other nodes have the empty name. -/
def name : Node → Text
  | .atom name => name
  | _ => []

/-- The numbers of the immediate subformulas. -/
def children : Node → List Nat
  | .negation child => [child]
  | .binary _ left right => [left, right]
  | _ => []

/-- Compares two nodes by kind, then name, then children. -/
def order : Node → Node → Ordering :=
  compareLex (compareOn (·.kind.rank)) (compareLex (compareOn name) (compareOn children))

instance : Ord Node := ⟨order⟩

instance : Std.TransOrd Node :=
  inferInstanceAs (Std.TransCmp
    (compareLex (compareOn fun node : Node => node.kind.rank)
      (compareLex (compareOn name) (compareOn children))))

instance : Std.LawfulEqOrd Node where
  eq_of_compare {left right} equal := by
    change order left right = .eq at equal
    rw [order, compareLex_eq_eq, compareLex_eq_eq] at equal
    simp only [compareOn, Std.LawfulEqOrd.compare_eq_iff_eq] at equal
    obtain ⟨rank, name, children⟩ := equal
    have kind := NodeKind.rank_injective rank
    cases left <;> cases right <;> simp_all [Node.kind, Node.name, Node.children]

end Node

/-- The nodes by number, and the number of every node. -/
structure Table where
  nodes : Array Node
  index : Std.ExtTreeMap Node Nat

namespace Table

/-- The table of the two constants. -/
def initial : Table where
  nodes := #[.truth, .falsity]
  index := ((∅ : Std.ExtTreeMap Node Nat).insert .truth 0).insert .falsity 1

instance : Inhabited Table := ⟨initial⟩

/-- The number of nodes. -/
def size (table : Table) : Nat :=
  table.nodes.size

/-- The node with a number, which must be one of the table's. -/
def node (table : Table) (number : Nat) : Except Error Node :=
  match table.nodes[number]? with
  | some node => .ok node
  | none => .error (.unknownFormula number)

/-- The number of a node, which is added at the end if the table lacks it. -/
def intern (table : Table) (node : Node) : Nat × Table :=
  match table.index[node]? with
  | some number => (number, table)
  | none =>
    (table.size,
      { nodes := table.nodes.push node, index := table.index.insert node table.size })

/-! ## Making formulas -/

/-- The number of the constant `true`. -/
def truth : Nat := 0

/-- The number of the constant `false`. -/
def falsity : Nat := 1

/-- The number of an atom. -/
def atom (table : Table) (name : Text) : Nat × Table :=
  table.intern (.atom name)

/-- The number of the negation of a formula. -/
def negation (table : Table) (child : Nat) : Except Error (Nat × Table) := do
  let _ ← table.node child
  return table.intern (.negation child)

/-- The number of two formulas joined by a connective; no other kind of node joins formulas. -/
def binary (table : Table) (kind : NodeKind) (left right : Nat) : Except Error (Nat × Table) :=
  match kind with
  | .binary connective => do
    let _ ← table.node left
    let _ ← table.node right
    return table.intern (.binary connective left right)
  | other => .error (.notConnective other.sign)

/-- The number of a formula, whose subformulas are added from left to right, each after its own. -/
def insert (table : Table) : Formula → Nat × Table
  | .truth => (truth, table)
  | .falsity => (falsity, table)
  | .atom name => table.atom name
  | .negation formula =>
    let (child, table) := table.insert formula
    table.intern (.negation child)
  | .binary connective left right =>
    let (left, table) := table.insert left
    let (right, table) := table.insert right
    table.intern (.binary connective left right)

/-- The table with formulas added one after the other. -/
def insertMany (table : Table) (formulas : List Formula) : Table :=
  formulas.foldl (fun table formula => (table.insert formula).2) table

/-- Reads the formula of a token sequence into the table. What was complete before a failure stays
in the table. -/
def read (table : Table) (tokens : List Token) : Except Error Nat × Table :=
  match parse tokens with
  | .ok formula =>
    let (number, table) := table.insert formula
    (.ok number, table)
  | .error failure =>
    (.error (.guard failure.position failure.fault), table.insertMany failure.complete)

/-- Reads a guard text on a given line into the table. -/
def readText (table : Table) (source : Text) (line : Nat := 1) : Except Error Nat × Table :=
  match tokenise source line with
  | .ok tokens => table.read tokens
  | .error error => (.error error, table)

/-! ## Looking at formulas -/

/-- The formula with a number, if it is no deeper than the fuel. -/
def unfold (table : Table) : (fuel number : Nat) → Option Formula
  | 0, _ => none
  | fuel + 1, number =>
    match table.nodes[number]? with
    | none => none
    | some .truth => some .truth
    | some .falsity => some .falsity
    | some (.atom name) => some (.atom name)
    | some (.negation child) => return .negation (← table.unfold fuel child)
    | some (.binary connective left right) =>
      return .binary connective (← table.unfold fuel left) (← table.unfold fuel right)

/-- The formula with a number. Children have smaller numbers, so its depth is at most its number. -/
def formula? (table : Table) (number : Nat) : Option Formula :=
  table.unfold (number + 1) number

/-- The formula with a number, which must be one of the table's. -/
def formula (table : Table) (number : Nat) : Except Error Formula :=
  match table.formula? number with
  | some formula => .ok formula
  | none => .error (.unknownFormula number)

/-- The written form of the formula with a number. -/
def text (table : Table) (number : Nat) : Except Error Text :=
  (table.formula number).map Formula.text

/-- Goes down the numbers below `bound` and adds the names of the wanted atoms; the children of a
wanted node become wanted. -/
def gather (table : Table) : (bound : Nat) → (wanted : Std.ExtTreeSet Nat) →
    (names : Std.ExtTreeSet Text) → Std.ExtTreeSet Text
  | 0, _, names => names
  | number + 1, wanted, names =>
    if number ∈ wanted then
      match table.nodes[number]? with
      | none => table.gather number wanted names
      | some node =>
        table.gather number (wanted.insertMany node.children)
          (if node.kind = .atom then names.insert node.name else names)
    else
      table.gather number wanted names

/-- The names of the atoms of the formula with a number. Children have smaller numbers, so one pass
down from the number meets every subformula. -/
def atoms (table : Table) (number : Nat) : Except Error (Std.ExtTreeSet Text) := do
  let _ ← table.node number
  return table.gather (number + 1) ((∅ : Std.ExtTreeSet Nat).insert number) ∅

end Table

end TransitionSystems.Guard
