import TransitionSystems.Guard.Table

/-!
# Searching for atoms with a stack

The search below keeps the numbers that are still to be looked at on a stack and puts the children
of a node there whenever it meets the node. It does not remember which numbers it has met, so a
shared formula is searched once for every place where it occurs, and in a table whose nodes were
their own descendants the search would never end.
-/

namespace TransitionSystems.Guard.Table

/-- Adds the names of the atoms of the formulas whose numbers are on the stack, if the search ends
within so many turns. The right child of a node comes on top of the left one. -/
def searchAtoms (table : Table) : (turns : Nat) → (stack : List Nat) →
    (names : Std.ExtTreeSet Text) → Option (Except Error (Std.ExtTreeSet Text))
  | _, [], names => some (.ok names)
  | 0, _ :: _, _ => none
  | turns + 1, number :: stack, names =>
    match table.node number with
    | .error error => some (.error error)
    | .ok node =>
      table.searchAtoms turns (node.children.reverse ++ stack)
        (if node.kind = .atom then names.insert node.name else names)

end TransitionSystems.Guard.Table
