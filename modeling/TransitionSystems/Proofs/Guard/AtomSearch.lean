import TransitionSystems.Guard.AtomSearch
import TransitionSystems.Proofs.Guard.Names
import TransitionSystems.Proofs.Guard.Reading

/-!
# The atoms of a formula are found

Which names occur at a number only depends on the formula that the number denotes. The pass over the
numbers finds them because a child comes before its parent; the search with a stack finds them, and
ends, by induction on the denoted formula, however often a subformula is shared. Both give the names
at the leaves of the formula, which are the identifiers of its written form.
-/

namespace TransitionSystems.Guard

variable {table : Table} {name : Text} {number : Nat} {formula : Formula}

/-- The number of places in a formula, of which every subformula takes one wherever it occurs. -/
def Formula.size : Formula → Nat
  | .truth | .falsity | .atom _ => 1
  | .negation formula => formula.size + 1
  | .binary _ left right => left.size + right.size + 1

namespace Table

/-! ## Where a name occurs -/

/-- A name occurs among the atoms of the formula that a number denotes. -/
def Occurs (table : Table) (name : Text) (number : Nat) : Prop :=
  ∃ formula, table.Denotes number formula ∧ name ∈ formula.atoms

theorem Denotes.occurs_iff (denotes : table.Denotes number formula) :
    table.Occurs name number ↔ name ∈ formula.atoms := by
  constructor
  · rintro ⟨other, denotes', member⟩
    rwa [denotes.unique denotes']
  · exact fun member => ⟨formula, denotes, member⟩

/-- A name occurs at an atom with this name, and wherever it occurs at a child. -/
theorem Coherent.occurs_iff (coherent : table.Coherent) {node : Node}
    (found : table.nodes[number]? = some node) :
    table.Occurs name number ↔
      node = .atom name ∨ ∃ child ∈ node.children, table.Occurs name child := by
  have known : number < table.size := (Array.getElem?_eq_some_iff.1 found).1
  obtain ⟨formula, denotes⟩ := coherent.exists_denotes known
  rw [denotes.occurs_iff]
  cases denotes with
  | truth found' | falsity found' | atom found' =>
      obtain rfl := Option.some.inj (found'.symm.trans found)
      simp [Formula.atoms, Node.children, eq_comm]
  | negation found' negated =>
      obtain rfl := Option.some.inj (found'.symm.trans found)
      simp [Formula.atoms, Node.children, negated.occurs_iff]
  | binary found' left right =>
      obtain rfl := Option.some.inj (found'.symm.trans found)
      simp [Formula.atoms, Node.children, left.occurs_iff, right.occurs_iff]

/-! ## The pass over the numbers -/

theorem mem_names_iff {node : Node} {names : Std.ExtTreeSet Text} :
    name ∈ (if node.kind = .atom then names.insert node.name else names) ↔
      node = .atom name ∨ name ∈ names := by
  cases node <;> simp [Node.kind, Node.name]

/-- Below a bound, the pass finds the names that occur at wanted numbers. -/
theorem Coherent.mem_gather_iff (coherent : table.Coherent) {bound : Nat}
    {wanted : Std.ExtTreeSet Nat} {names : Std.ExtTreeSet Text} :
    name ∈ table.gather bound wanted names ↔
      name ∈ names ∨ ∃ number ∈ wanted, number < bound ∧ table.Occurs name number := by
  induction bound generalizing wanted names with
  | zero => simp [gather]
  | succ bound induction =>
      have next : (∃ number ∈ wanted, number < bound + 1 ∧ table.Occurs name number) ↔
          (bound ∈ wanted ∧ table.Occurs name bound) ∨
            ∃ number ∈ wanted, number < bound ∧ table.Occurs name number := by
        simp only [Nat.lt_succ_iff_lt_or_eq, or_and_right, and_or_left, exists_or]
        simp [or_comm]
      rw [gather, next]
      split
      · next here =>
          split
          · next unknown =>
              -- A number that is not in the table contributes nothing.
              have nowhere : ¬table.Occurs name bound := by
                rintro ⟨formula, denotes, -⟩
                exact absurd denotes.lt_size (Nat.not_lt.2 (Array.getElem?_eq_none_iff.1 unknown))
              simp [induction, nowhere]
          · next node found =>
              -- Its children are below the bound, where the rest of the pass finds them.
              have below : (∃ number ∈ wanted.insertMany node.children,
                    number < bound ∧ table.Occurs name number) ↔
                  (∃ number ∈ wanted, number < bound ∧ table.Occurs name number) ∨
                    ∃ child ∈ node.children, table.Occurs name child := by
                simp only [Std.ExtTreeSet.mem_insertMany_list, List.contains_iff_mem, or_and_right,
                  exists_or]
                refine or_congr_right (exists_congr fun child => and_congr_right fun member => ?_)
                exact and_iff_right (coherent.children_lt bound node found child member)
              rw [induction, mem_names_iff, below, coherent.occurs_iff found, and_iff_right here]
              simp only [or_assoc, or_comm, or_left_comm]
      · next elsewhere => simp [induction, elsewhere]

/-! ## The search -/

theorem searchAtoms_nil (turns : Nat) (names : Std.ExtTreeSet Text) :
    table.searchAtoms turns [] names = some (.ok names) := by
  cases turns <;> rfl

theorem searchAtoms_of_found {node : Node} (found : table.nodes[number]? = some node)
    (turns : Nat) (stack : List Nat) (names : Std.ExtTreeSet Text) :
    table.searchAtoms (turns + 1) (number :: stack) names =
      table.searchAtoms turns (node.children.reverse ++ stack)
        (if node.kind = .atom then names.insert node.name else names) := by
  rw [searchAtoms, Coherent.node_eq_ok_iff.2 found]

theorem searchAtoms_of_size_le (unknown : table.size ≤ number) (turns : Nat) (stack : List Nat)
    (names : Std.ExtTreeSet Text) :
    table.searchAtoms (turns + 1) (number :: stack) names =
      some (.error (.unknownFormula number)) := by
  rw [searchAtoms, node_eq_error_iff.2 ⟨unknown, rfl⟩]

/-- The search of the number on top takes as many turns as its formula has places, and then goes on
with the rest of the stack. -/
theorem Denotes.searchAtoms_eq (denotes : table.Denotes number formula) (turns : Nat)
    (stack : List Nat) (names : Std.ExtTreeSet Text) :
    table.searchAtoms (turns + formula.size) (number :: stack) names =
      table.searchAtoms turns stack (names.insertMany formula.atoms.reverse) := by
  induction denotes generalizing turns stack names with
  | truth found | falsity found | atom found =>
      rw [Formula.size, searchAtoms_of_found found]
      simp [Node.children, Node.kind, Node.name, Formula.atoms]
  | negation found _ induction =>
      rw [Formula.size, ← Nat.add_assoc, searchAtoms_of_found found]
      exact induction turns stack names
  | @binary number first second connective left right found _ _ search search' =>
      rw [Formula.size, ← Nat.add_assoc, ← Nat.add_assoc, searchAtoms_of_found found]
      calc
        table.searchAtoms (turns + left.size + right.size) (second :: first :: stack) names
          = table.searchAtoms (turns + left.size) (first :: stack)
              (names.insertMany right.atoms.reverse) :=
            search' (turns + left.size) (first :: stack) names
        _ = table.searchAtoms turns stack
              ((names.insertMany right.atoms.reverse).insertMany left.atoms.reverse) :=
            search turns stack _
        _ = table.searchAtoms turns stack
              (names.insertMany (left.atoms ++ right.atoms).reverse) := by
            rw [List.reverse_append, Std.ExtTreeSet.insertMany_append]

/-- In fewer turns the search of the number on top does not end. -/
theorem Denotes.searchAtoms_eq_none (denotes : table.Denotes number formula) {turns : Nat}
    (few : turns < formula.size) (stack : List Nat) (names : Std.ExtTreeSet Text) :
    table.searchAtoms turns (number :: stack) names = none := by
  induction denotes generalizing turns stack names with
  | truth | falsity | atom =>
      obtain rfl := Nat.lt_one_iff.1 few
      rfl
  | negation found _ induction =>
      cases turns with
      | zero => rfl
      | succ turns =>
          rw [searchAtoms_of_found found]
          exact induction (Nat.lt_of_succ_lt_succ few) stack names
  | @binary number first second connective left right found _ denotes' search search' =>
      cases turns with
      | zero => rfl
      | succ turns =>
          rw [searchAtoms_of_found found]
          change table.searchAtoms turns (second :: first :: stack) names = none
          rcases Nat.lt_or_ge turns right.size with early | late
          · exact search' early (first :: stack) names
          · -- The right child has been searched and the turns run out in the left one.
            obtain ⟨more, rfl⟩ := Nat.exists_eq_add_of_le' late
            rw [denotes'.searchAtoms_eq]
            refine search ?_ stack _
            rw [Formula.size] at few
            omega

theorem Denotes.searchAtoms_singleton (denotes : table.Denotes number formula) (turns : Nat) :
    table.searchAtoms turns [number] ∅ =
      if formula.size ≤ turns then
        some (.ok ((∅ : Std.ExtTreeSet Text).insertMany formula.atoms.reverse))
      else
        none := by
  split
  · next enough =>
      obtain ⟨more, rfl⟩ := Nat.exists_eq_add_of_le' enough
      rw [denotes.searchAtoms_eq, searchAtoms_nil]
  · next few => exact denotes.searchAtoms_eq_none (Nat.lt_of_not_le few) [] ∅

theorem Coherent.atoms_eq (coherent : table.Coherent) (denotes : table.Denotes number formula) :
    table.atoms number = .ok ((∅ : Std.ExtTreeSet Text).insertMany formula.atoms.reverse) := by
  obtain ⟨node, found⟩ := exists_node denotes.lt_size
  rw [atoms, found]
  refine congrArg Except.ok (Std.ExtTreeSet.ext_mem fun name => ?_)
  rw [coherent.mem_gather_iff]
  simp [denotes.occurs_iff]

theorem atoms_of_size_le (unknown : table.size ≤ number) :
    table.atoms number = .error (.unknownFormula number) := by
  rw [atoms, node_eq_error_iff.2 ⟨unknown, rfl⟩]
  rfl

end Table

/-! ## The identifiers of a text -/

/-- The identifiers among tokens. -/
def identifiers (tokens : List Token) : List Text :=
  (tokens.filter (·.kind = .identifier)).map Token.text

theorem identifiers_append (tokens others : List Token) :
    identifiers (tokens ++ others) = identifiers tokens ++ identifiers others := by
  simp [identifiers]

theorem identifiers_cons_of_ne {token : Token} (other : token.kind ≠ .identifier)
    (tokens : List Token) : identifiers (token :: tokens) = identifiers tokens := by
  simp [identifiers, other]

theorem Connective.tokenKind_ne_identifier (connective : Connective) :
    connective.tokenKind ≠ .identifier := by
  cases connective <;> decide

/-- The leaves of the formula of a sentence are its identifiers, from left to right. -/
theorem Derives.identifiers_eq {stratum : Stratum} {tokens : List Token}
    (derives : Derives stratum tokens formula) : identifiers tokens = formula.atoms := by
  induction derives with
  | truth kind | falsity kind | atom kind => simp [identifiers, kind, Formula.atoms]
  | parentheses opens _ closes induction =>
      rw [identifiers_cons_of_ne (by simp [opens]), identifiers_append, induction,
        identifiers_cons_of_ne (by simp [closes])]
      exact List.append_nil _
  | primary _ induction | operand _ induction => exact induction
  | negation kind _ induction => rw [identifiers_cons_of_ne (by simp [kind]), induction]; rfl
  | @leftward connective _ _ _ _ _ _ _ kind _ first last =>
      rw [identifiers_append,
        identifiers_cons_of_ne (by rw [kind]; exact connective.tokenKind_ne_identifier),
        first, last]
      rfl
  | rightward _ kind _ first last =>
      rw [identifiers_append, identifiers_cons_of_ne (by simp [kind]), first, last]
      rfl

theorem Formula.exists_identifiers_text (named : ∀ name ∈ formula.atoms, IsIdentifier name)
    (line : Nat) :
    ∃ tokens, tokenise formula.text line = .ok tokens ∧ identifiers tokens = formula.atoms := by
  obtain ⟨tokens, scanned, parsed⟩ := formula.exists_parse_text named line
  obtain ⟨inside, last, rfl, ends, inner⟩ := exists_of_scan scanned
  have kind_ne : ∀ token ∈ inside, token.kind ≠ .endOfInput := fun token member =>
    (inner token member).kind_ne
  refine ⟨_, scanned, ?_⟩
  rw [identifiers_append, ((parse_eq_ok_iff kind_ne ends).1 parsed).identifiers_eq,
    identifiers_cons_of_ne (by simp [ends])]
  exact List.append_nil _

/-! ## Exactness -/

namespace Table

/-- The search for the atoms of a number of the table ends after one turn for every place in the
number's formula, and with the same result as the pass over the numbers: the names at the leaves of
the formula, which are the identifiers of its written form if all of them are identifiers. For any
other number, both fail. -/
theorem Reachable.searchAtoms_exact (reachable : table.Reachable) (number : Nat) :
    (number < table.size →
        ∃ formula names, table.formula number = .ok formula ∧ table.atoms number = .ok names ∧
          (∀ turns, table.searchAtoms turns [number] ∅ =
            if formula.size ≤ turns then some (.ok names) else none) ∧
          (∀ name, name ∈ names ↔ name ∈ formula.atoms) ∧
          ((∀ name ∈ formula.atoms, IsIdentifier name) →
            ∃ source, table.text number = .ok source ∧
              ∀ line, ∃ tokens, tokenise source line = .ok tokens ∧
                ∀ name, name ∈ names ↔ name ∈ identifiers tokens)) ∧
      (table.size ≤ number →
        table.atoms number = .error (.unknownFormula number) ∧
          (∀ turns, table.searchAtoms (turns + 1) [number] ∅ =
            some (.error (.unknownFormula number))) ∧
          (Error.unknownFormula number).errorClass = .range) := by
  have coherent := reachable.coherent
  constructor
  · intro known
    obtain ⟨formula, denotes⟩ := coherent.exists_denotes known
    have found := coherent.formula_eq_ok_iff.2 denotes
    have leaves : ∀ name, name ∈ (∅ : Std.ExtTreeSet Text).insertMany formula.atoms.reverse ↔
        name ∈ formula.atoms := by simp
    refine ⟨formula, _, found, coherent.atoms_eq denotes, denotes.searchAtoms_singleton, leaves,
      fun named => ⟨formula.text, text_of_formula found, fun line => ?_⟩⟩
    obtain ⟨tokens, scanned, identifiers⟩ := formula.exists_identifiers_text named line
    exact ⟨tokens, scanned, fun name => by rw [identifiers, leaves]⟩
  · intro unknown
    exact ⟨atoms_of_size_le unknown, fun turns => searchAtoms_of_size_le unknown turns [] ∅, rfl⟩

/-- The search in `p -> !q & p` takes six turns and finds `p`, which it meets twice, and `q`. This
formula is the last one of its table. -/
theorem implicationTable_searchAtoms_exact :
    (∃ names, (∀ turns, implicationTable.searchAtoms turns [6] ∅ =
          if 6 ≤ turns then some (.ok names) else none) ∧
        (∀ name, name ∈ names ↔ name = "p" ∨ name = "q") ∧
        ∃ source, implicationTable.text 6 = .ok source ∧
          ∀ line, ∃ tokens, tokenise source line = .ok tokens ∧
            ∀ name, name ∈ names ↔ name ∈ identifiers tokens) ∧
      implicationTable.searchAtoms 1 [7] ∅ = some (.error (.unknownFormula 7)) := by
  have reachable : implicationTable.Reachable := .readText _ _ .initial
  have size : implicationTable.size = 7 := by decide +kernel
  constructor
  · obtain ⟨formula, names, found, -, search, leaves, written⟩ :=
      (reachable.searchAtoms_exact 6).1 (by decide +kernel)
    rw [Table.formula, formula?_implicationTable] at found
    obtain rfl := Except.ok.inj found
    have atoms : ∀ name, name ∈ implicationFormula.atoms ↔ name = "p" ∨ name = "q" := by
      simp [implicationFormula, Formula.atoms, or_comm]
    refine ⟨names, search, fun name => (leaves name).trans (atoms name), ?_⟩
    refine written fun name member => ?_
    rcases (atoms name).1 member with rfl | rfl
    · exact ⟨rfl, by decide +kernel, by decide⟩
    · exact ⟨rfl, by decide +kernel, by decide⟩
  · obtain ⟨-, search, -⟩ := (reachable.searchAtoms_exact 7).2 size.le
    exact search 0

end Table

end TransitionSystems.Guard
