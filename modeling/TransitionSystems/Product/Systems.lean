import TransitionSystems.Product.Exploration

/-!
# Products of two systems

In the synchronous product both systems move at once, along edges that carry the same fields; the
labels of the edges are paired field by field. In the asynchronous product one system moves and the
other one stays. The label of a pair is the union of the labels of its states, and a pair is
unlabeled when both states are.
-/

namespace TransitionSystems

/-- A product with the account of its exploration. -/
structure Product where
  system : System
  stats : ProductStats

namespace System

/-- The union of the labels of two states, or nothing when neither is labeled. -/
def jointLabel (left right : System) (first second : Symbol) : Option Label :=
  match left.label? first, right.label? second with
  | none, none => none
  | _, _ => some (left.holding first ∪ right.holding second)

/-- The states from which or to which the system can move. -/
def endpoints (system : System) : List Symbol :=
  system.initial.toList ++ system.transitions.toList.map (·.target)

/-- The pairs of initial states, those of the first system varying slowest. -/
def initialPairs (left right : System) : List (Symbol × Symbol) :=
  left.initial.toList.flatMap fun first => right.initial.toList.map fun second => (first, second)

/-- The label of a joint step of two edges: their values paired field by field, or nothing when they
carry different fields. -/
def pairLabels? (fields : List Text) (left right : EdgeLabel) : Option EdgeLabel :=
  fields.foldlM
    (fun label field =>
      match left.get? field, right.get? field with
      | some first, some second => some (label.set field (.pair first second))
      | none, none => some label
      | _, _ => none)
    .unlabeled

/-- Both systems move at once. -/
def synchronousMoves (left right : System) (first second : Symbol) : List Move :=
  (left.leaving first).flatMap fun edge =>
    (right.leaving second).filterMap fun edge' =>
      (pairLabels? left.kind.fields edge.label edge'.label).map fun label =>
        ⟨edge.target, edge'.target, label⟩

/-- One system moves and the other one stays; the moves of the first system come first. -/
def asynchronousMoves (left right : System) (first second : Symbol) : List Move :=
  (left.leaving first).map (fun edge => ⟨edge.target, second, edge.label⟩) ++
    (right.leaving second).map fun edge => ⟨first, edge.target, edge.label⟩

/-- The product with given moves. The alphabets of the operands are combined field by field, and
their names are joined by a sign. -/
def productWith (operation sign : Text) (combine : OrderedSet → OrderedSet → OrderedSet)
    (moves : System → System → Symbol → Symbol → List Move) (left right : System) :
    Except Error Product :=
  match left.schema.alphabets.zipWith? combine right.schema.alphabets with
  | none =>
    .error (.kindsDiffer operation left.kind left.name right.kind right.name)
  | some alphabets => do
    let rules : Rules := {
      initial := initialPairs left right
      label := jointLabel left right
      moves := moves left right
      bound := left.endpoints.length * right.endpoints.length }
    let schema : Schema := {
      propositions := left.propositions.union right.propositions
      alphabets := alphabets }
    let result ← rules.explore
      (.empty schema (left.name ++ sign ++ right.name) (left.isMutable || right.isMutable))
    return { system := result.system, stats := result.stats }

/-- The synchronous product; its alphabets hold pairs. -/
def synchronousProduct (left right : System) : Except Error Product :=
  productWith "synchronous_product" "*" OrderedSet.product synchronousMoves left right

/-- The asynchronous product; its alphabets are unions. -/
def asynchronousProduct (left right : System) : Except Error Product :=
  productWith "asynchronous_product" "|" OrderedSet.union asynchronousMoves left right

end System

end TransitionSystems
