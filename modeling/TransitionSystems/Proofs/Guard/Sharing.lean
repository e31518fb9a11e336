import TransitionSystems.Proofs.Guard.Table

/-!
# Shared formulas

A table has no node twice, so a formula has one number at most: two numbers are equal exactly when
their formulas are. This holds after any calls of a table, whether they succeed or fail. No call
touches a node that is there: it adds nodes at the end or leaves the table as it is. A refused
request for a node leaves the table as it is; a guard that is found wrong half-way leaves behind
what was complete by then.
-/

namespace TransitionSystems.Guard

/-- The number of formulas that a node of a kind is made of. -/
def NodeKind.arity : NodeKind → Nat
  | .truth | .falsity | .atom => 0
  | .negation => 1
  | .binary _ => 2

theorem Node.length_children (node : Node) : node.children.length = node.kind.arity := by
  cases node <;> rfl

namespace Table

/-! ## Calls -/

/-- A call of a table: a request for a node, or a guard to read. -/
inductive Call where
  | atom (name : Text)
  | negation (child : Nat)
  | binary (kind : NodeKind) (left right : Nat)
  | read (tokens : List Token)
  | readText (source : Text) (line : Nat)

namespace Call

/-- Whether a call asks for a node. -/
def isRequest : Call → Bool
  | .atom _ | .negation _ | .binary _ _ _ => true
  | .read _ | .readText _ _ => false

/-- The node that a call asks for, if there can be such a node. -/
def node? : Call → Option Node
  | .atom name => some (.atom name)
  | .negation child => some (.negation child)
  | .binary (.binary connective) left right => some (.binary connective left right)
  | .binary _ _ _ | .read _ | .readText _ _ => none

end Call

/-- The answer to a request with the table that it leaves. A refused one leaves the former table. -/
def settle (table : Table) : Except Error (Nat × Table) → Except Error Nat × Table
  | .ok (number, next) => (.ok number, next)
  | .error error => (.error error, table)

/-- The answer to a call with the table that it leaves. -/
def perform (table : Table) : Call → Except Error Nat × Table
  | .atom name => table.settle (.ok (table.atom name))
  | .negation child => table.settle (table.negation child)
  | .binary kind left right => table.settle (table.binary kind left right)
  | .read tokens => table.read tokens
  | .readText source line => table.readText source line

/-- The table that calls leave, whatever their answers are. -/
def run (table : Table) (calls : List Call) : Table :=
  calls.foldl (fun table call => (table.perform call).2) table

/-- The requests that a table refuses: those for a kind that joins no formulas, and those with a
number that the table lacks. The kind is looked at first, then the numbers from left to right. -/
inductive Refuses (table : Table) : Call → Error → Prop
  | child {child : Nat} (unknown : table.size ≤ child) :
      Refuses table (.negation child) (.unknownFormula child)
  | kind {kind : NodeKind} {left right : Nat} (other : kind.isBinary = false) :
      Refuses table (.binary kind left right) (.notConnective kind.sign)
  | left {kind : NodeKind} {left right : Nat} (joins : kind.isBinary = true)
      (unknown : table.size ≤ left) :
      Refuses table (.binary kind left right) (.unknownFormula left)
  | right {kind : NodeKind} {left right : Nat} (joins : kind.isBinary = true)
      (known : left < table.size) (unknown : table.size ≤ right) :
      Refuses table (.binary kind left right) (.unknownFormula right)

/-! ## What requests answer -/

variable {table : Table}

theorem node_eq_error_iff {number : Nat} {error : Error} :
    table.node number = .error error ↔ table.size ≤ number ∧ error = .unknownFormula number := by
  rw [node]
  cases found : table.nodes[number]? with
  | none =>
      have unknown : table.size ≤ number := Array.getElem?_eq_none_iff.1 found
      simp [unknown, eq_comm]
  | some node =>
      have known : number < table.size := (Array.getElem?_eq_some_iff.1 found).1
      simp [Nat.not_le.2 known]

theorem exists_node {number : Nat} (known : number < table.size) :
    ∃ node, table.node number = .ok node :=
  ⟨_, Coherent.node_eq_ok_iff.2 (Array.getElem?_eq_getElem known)⟩

theorem negation_of_lt {child : Nat} (known : child < table.size) :
    table.negation child = .ok (table.intern (.negation child)) := by
  obtain ⟨node, found⟩ := exists_node known
  rw [negation, found]
  rfl

theorem binary_of_lt {connective : Connective} {left right : Nat} (known : left < table.size)
    (known' : right < table.size) :
    table.binary (.binary connective) left right =
      .ok (table.intern (.binary connective left right)) := by
  obtain ⟨first, found⟩ := exists_node known
  obtain ⟨second, found'⟩ := exists_node known'
  rw [binary, found, ok_bind, found', ok_bind]
  rfl

/-- A refused request gets the error and leaves the table as it is. -/
theorem Refuses.perform_eq {call : Call} {error : Error} (refuses : table.Refuses call error) :
    table.perform call = (.error error, table) := by
  cases refuses with
  | child unknown =>
      rw [perform, negation, node_eq_error_iff.2 ⟨unknown, rfl⟩]
      rfl
  | @kind kind left right other =>
      cases kind with
      | binary connective => cases other
      | truth | falsity | atom | negation => rfl
  | @left kind left right joins unknown =>
      cases kind with
      | binary connective =>
          rw [perform, binary, node_eq_error_iff.2 ⟨unknown, rfl⟩]
          rfl
      | truth | falsity | atom | negation => cases joins
  | @right kind left right joins known unknown =>
      cases kind with
      | binary connective =>
          obtain ⟨node, found⟩ := exists_node known
          rw [perform, binary, found, ok_bind, node_eq_error_iff.2 ⟨unknown, rfl⟩]
          rfl
      | truth | falsity | atom | negation => cases joins

/-- A request is refused, or its node and the children of this node are there afterwards. -/
theorem exists_refuses_or_intern {call : Call} (isRequest : call.isRequest = true) :
    (∃ error, table.Refuses call error) ∨
      ∃ node, call.node? = some node ∧ (∀ child ∈ node.children, child < table.size) ∧
        table.perform call = (.ok (table.intern node).1, (table.intern node).2) := by
  cases call with
  | atom name => exact .inr ⟨.atom name, rfl, by simp [Node.children], rfl⟩
  | negation child =>
      by_cases known : child < table.size
      · refine .inr ⟨.negation child, rfl, by simpa [Node.children] using known, ?_⟩
        rw [perform, negation_of_lt known]
        rfl
      · exact .inl ⟨_, .child (Nat.le_of_not_lt known)⟩
  | binary kind left right =>
      cases kind with
      | binary connective =>
          by_cases known : left < table.size
          · by_cases known' : right < table.size
            · refine .inr ⟨.binary connective left right, rfl, ?_, ?_⟩
              · simpa [Node.children] using And.intro known known'
              · rw [perform, binary_of_lt known known']
                rfl
            · exact .inl ⟨_, .right rfl known (Nat.le_of_not_lt known')⟩
          · exact .inl ⟨_, .left rfl (Nat.le_of_not_lt known)⟩
      | truth | falsity | atom | negation => exact .inl ⟨_, .kind rfl⟩
  | read tokens => cases isRequest
  | readText source line => cases isRequest

theorem perform_eq_error_iff {call : Call} (isRequest : call.isRequest = true) {error : Error} :
    (table.perform call).1 = .error error ↔ table.Refuses call error := by
  constructor
  · intro answer
    rcases exists_refuses_or_intern isRequest with ⟨other, refuses⟩ | ⟨node, -, -, performed⟩
    · rw [refuses.perform_eq] at answer
      rwa [← Except.error.inj answer]
    · rw [performed] at answer
      cases answer
  · intro refuses
    rw [refuses.perform_eq]

theorem exists_fault_of_read {tokens : List Token} {error : Error} {next : Table}
    (fails : table.read tokens = (.error error, next)) :
    ∃ position fault, error = .guard position fault := by
  rw [read] at fails
  split at fails
  · cases fails
  · next failure _ =>
      exact ⟨failure.position, failure.fault, (Except.error.inj (Prod.mk.inj fails).1).symm⟩

theorem eq_or_exists_fault_of_readText {source : Text} {line : Nat} {error : Error} {next : Table}
    (fails : table.readText source line = (.error error, next)) :
    next = table ∨ ∃ position fault, error = .guard position fault := by
  rw [readText] at fails
  split at fails
  · exact .inr (exists_fault_of_read fails)
  · exact .inl (Prod.mk.inj fails).2.symm

theorem eq_or_exists_fault_of_perform {call : Call} {error : Error} {next : Table}
    (fails : table.perform call = (.error error, next)) :
    next = table ∨ ∃ position fault, error = .guard position fault := by
  cases isRequest : call.isRequest with
  | true =>
      have refuses := (perform_eq_error_iff isRequest).1 (congrArg Prod.fst fails)
      exact .inl (Prod.mk.inj (fails.symm.trans refuses.perform_eq)).2
  | false =>
      cases call with
      | read tokens => exact .inr (exists_fault_of_read fails)
      | readText source line => exact eq_or_exists_fault_of_readText fails
      | atom | negation | binary => cases isRequest

/-! ## Growth -/

namespace Coherent

theorem lt_size_of_readText (coherent : table.Coherent) {source : Text} {line number : Nat}
    {next : Table} (reads : table.readText source line = (.ok number, next)) :
    number < next.size := by
  rw [Table.readText] at reads
  split at reads
  · rw [Table.read] at reads
    split at reads
    · next formula _ =>
        obtain ⟨answer, rfl⟩ := Prod.mk.inj reads
        rw [← Except.ok.inj answer]
        exact (coherent.insert formula).2.2.lt_size
    · cases reads
  · cases reads

/-- A request that is met is answered with the number of its node. -/
theorem perform_request (coherent : table.Coherent) {call : Call}
    (isRequest : call.isRequest = true) :
    (table.perform call).2.Coherent ∧ table.Extends (table.perform call).2 ∧
      ∀ number, (table.perform call).1 = .ok number →
        ∃ node, call.node? = some node ∧ (table.perform call).2.node number = .ok node := by
  rcases exists_refuses_or_intern isRequest with ⟨error, refuses⟩ | ⟨node, asked, known, performed⟩
  · rw [refuses.perform_eq]
    exact ⟨coherent, .refl table, by simp⟩
  · obtain ⟨interned, grown, found⟩ := coherent.intern known
    rw [performed]
    refine ⟨interned, grown, fun number answer => ⟨node, asked, ?_⟩⟩
    rw [← Except.ok.inj answer]
    exact node_eq_ok_iff.2 found

/-- A call adds nodes at the end, whether it succeeds or fails. -/
theorem perform (coherent : table.Coherent) (call : Call) :
    (table.perform call).2.Coherent ∧ table.Extends (table.perform call).2 := by
  cases isRequest : call.isRequest with
  | true =>
      obtain ⟨coherent', grown, -⟩ := coherent.perform_request isRequest
      exact ⟨coherent', grown⟩
  | false =>
      cases call with
      | read tokens => exact coherent.read tokens
      | readText source line => exact coherent.readText source line
      | atom | negation | binary => cases isRequest

/-- So do calls one after the other. -/
theorem run (coherent : table.Coherent) (calls : List Call) :
    (table.run calls).Coherent ∧ table.Extends (table.run calls) := by
  induction calls generalizing table with
  | nil => exact ⟨coherent, .refl table⟩
  | cons call calls induction =>
      obtain ⟨coherent', grown⟩ := coherent.perform call
      obtain ⟨coherent'', grown'⟩ := induction coherent'
      exact ⟨coherent'', grown.trans grown'⟩

end Coherent

/-! ## Sharing -/

/-- A table whose nodes are shared: the index is the inverse of the nodes, children come before
their parents, and no formula has two numbers. -/
structure IsShared (table : Table) : Prop where
  truth : table.node 0 = .ok .truth
  falsity : table.node 1 = .ok .falsity
  index_eq_some_iff : ∀ node number, table.index[node]? = some number ↔ table.node number = .ok node
  node_injective : ∀ left right node, table.node left = .ok node → table.node right = .ok node →
    left = right
  children : ∀ number node, table.node number = .ok node →
    node.children.length = node.kind.arity ∧ ∀ child ∈ node.children, child < number
  /-- Every number has a formula. -/
  exists_formula : ∀ number < table.size, ∃ formula, table.formula number = .ok formula
  formula_eq_iff : ∀ left < table.size, ∀ right < table.size,
    table.formula left = table.formula right ↔ left = right

/-- A table that has all nodes of another one at their places, and the same text for each of its
numbers. -/
structure Continues (old new : Table) : Prop where
  grown : old.nodes.toList <+: new.nodes.toList
  node : ∀ number < old.size, new.node number = old.node number
  text : ∀ number < old.size, new.text number = old.text number

theorem Coherent.eq_of_denotes (coherent : table.Coherent) {left right : Nat} {formula : Formula}
    (denotes : table.Denotes left formula) (denotes' : table.Denotes right formula) :
    left = right := by
  have inserted := coherent.insert_of_denotes denotes
  rw [coherent.insert_of_denotes denotes'] at inserted
  exact (Prod.mk.inj inserted).1.symm

theorem Coherent.isShared (coherent : table.Coherent) : table.IsShared where
  truth := node_eq_ok_iff.2 coherent.truth
  falsity := node_eq_ok_iff.2 coherent.falsity
  index_eq_some_iff node number := by rw [coherent.index_eq_some_iff, node_eq_ok_iff]
  node_injective left right node found found' := by
    rw [node_eq_ok_iff, ← coherent.index_eq_some_iff] at found found'
    exact Option.some.inj (found.symm.trans found')
  children number node found :=
    ⟨node.length_children, coherent.children_lt number node (node_eq_ok_iff.1 found)⟩
  exists_formula number known := by
    obtain ⟨formula, denotes⟩ := coherent.exists_denotes known
    exact ⟨formula, coherent.formula_eq_ok_iff.2 denotes⟩
  formula_eq_iff left known right _ := by
    refine ⟨fun same => ?_, congrArg table.formula⟩
    obtain ⟨formula, denotes⟩ := coherent.exists_denotes known
    have found := coherent.formula_eq_ok_iff.2 denotes
    exact coherent.eq_of_denotes denotes (coherent.formula_eq_ok_iff.1 (same ▸ found))

theorem Extends.continues {next : Table} (grown : table.Extends next) (coherent : table.Coherent)
    (coherent' : next.Coherent) : table.Continues next where
  grown := grown
  node number known := by
    obtain ⟨node, found⟩ := exists_node known
    rw [found]
    exact Coherent.node_eq_ok_iff.2 (grown.getElem? (Coherent.node_eq_ok_iff.1 found))
  text number known := by
    obtain ⟨formula, denotes⟩ := coherent.exists_denotes known
    rw [text, text, coherent.formula_eq_ok_iff.2 denotes,
      coherent'.formula_eq_ok_iff.2 (grown.denotes denotes)]

/-- After any calls a table shares its nodes, and it goes on from there with any further calls,
however they end. A request for a node fails for known reasons only, and then the table stays as it
is; otherwise the answer is the number of the node. -/
theorem run_isShared_and_continues (calls : List Call) :
    (initial.run calls).IsShared ∧
      (∀ further, (initial.run calls).Continues ((initial.run calls).run further)) ∧
      ∀ call, call.isRequest = true →
        (∀ error, ((initial.run calls).perform call).1 = .error error ↔
          (initial.run calls).Refuses call error) ∧
        (∀ error, ((initial.run calls).perform call).1 = .error error →
          ((initial.run calls).perform call).2 = initial.run calls) ∧
        ∀ number, ((initial.run calls).perform call).1 = .ok number →
          ∃ node, call.node? = some node ∧
            ((initial.run calls).perform call).2.node number = .ok node := by
  have coherent := (coherent_initial.run calls).1
  refine ⟨coherent.isShared, fun further => ?_, fun call isRequest => ⟨?_, ?_, ?_⟩⟩
  · obtain ⟨coherent', grown⟩ := coherent.run further
    exact grown.continues coherent coherent'
  · intro error
    exact perform_eq_error_iff isRequest
  · intro error answer
    rw [((perform_eq_error_iff isRequest).1 answer).perform_eq]
  · exact (coherent.perform_request isRequest).2.2

end Table

end TransitionSystems.Guard
