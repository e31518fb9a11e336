import TransitionSystems.EdgeLabel

/-!
# Schemas

A schema is the universe of a system: the propositions from which its state labels are taken, and an
alphabet of values for every field of its edge labels. The kind of the system decides which fields
there are. A universe can grow and never shrinks.
-/

namespace TransitionSystems

/-- The alphabets of the edge fields. -/
inductive Alphabets where
  | closed (actions : OrderedSet)
  | opened (system environment : OrderedSet)
  deriving Inhabited

namespace Alphabets

/-- The kind of systems that have these alphabets. -/
def kind : Alphabets → Kind
  | .closed _ => .closed
  | .opened _ _ => .opened

/-- The fields with their alphabets, in the order of the kind. -/
def entries : Alphabets → List (Text × OrderedSet)
  | .closed actions => [(actionsField, actions)]
  | .opened system environment =>
    [(systemActionsField, system), (environmentActionsField, environment)]

/-- Changes the alphabet of a field; other fields are left alone. -/
def modify (field : Text) (change : OrderedSet → OrderedSet) : Alphabets → Alphabets
  | .closed actions => .closed (if field = actionsField then change actions else actions)
  | .opened system environment =>
    .opened (if field = systemActionsField then change system else system)
      (if field = environmentActionsField then change environment else environment)

/-- Combines the alphabets of two systems of one kind field by field. -/
def zipWith? (combine : OrderedSet → OrderedSet → OrderedSet) :
    Alphabets → Alphabets → Option Alphabets
  | .closed left, .closed right => some (.closed (combine left right))
  | .opened left left', .opened right right' =>
    some (.opened (combine left right) (combine left' right'))
  | _, _ => none

end Alphabets

/-- The propositions and the alphabets of a system. -/
structure Schema where
  propositions : OrderedSet
  alphabets : Alphabets
  deriving Inhabited

namespace Schema

/-- The schema of a closed system. -/
def closed (propositions actions : OrderedSet) : Schema where
  propositions := propositions
  alphabets := .closed actions

/-- The schema of an open system. -/
def opened (propositions system environment : OrderedSet) : Schema where
  propositions := propositions
  alphabets := .opened system environment

/-- The schema of a kind without propositions and actions. -/
def empty : Kind → Schema
  | .closed => closed .empty .empty
  | .opened => opened .empty .empty .empty

/-- The kind of systems over the schema. -/
def kind (schema : Schema) : Kind :=
  schema.alphabets.kind

/-- The alphabet of a field, which must be one of the kind's. -/
def alphabet (schema : Schema) (field : Text) : Except Error OrderedSet :=
  match schema.alphabets.entries.lookup field with
  | some alphabet => .ok alphabet
  | none => .error (.unknownField field schema.kind)

/-- Changes the alphabet of a field, which must be one of the kind's. -/
def modify (schema : Schema) (field : Text) (change : OrderedSet → OrderedSet) :
    Except Error Schema := do
  let _ ← schema.alphabet field
  return { schema with alphabets := schema.alphabets.modify field change }

/-- Accepts the labels whose elements are propositions. -/
def checkLabel (schema : Schema) (label : Label) : Except Error Unit :=
  if schema.propositions.includes label then
    .ok ()
  else
    .error (.labelOutside label schema.propositions)

/-- Accepts the values in the alphabet of a field. -/
def checkEntry (schema : Schema) (entry : Text × Symbol) : Except Error Unit := do
  let alphabet ← schema.alphabet entry.1
  if entry.2 ∈ alphabet then
    return
  else
    throw (.valueOutside entry.2 entry.1 alphabet)

/-- Accepts the edge labels all of whose entries are accepted. -/
def checkEdgeLabel (schema : Schema) (label : EdgeLabel) : Except Error Unit :=
  label.entries.forM schema.checkEntry

/-- The label with its fields in the order of the kind. -/
def arrange (schema : Schema) (label : EdgeLabel) : EdgeLabel :=
  schema.kind.fields.foldl
    (fun arranged field =>
      match label.get? field with
      | some value => arranged.set field value
      | none => arranged)
    .unlabeled

end Schema

end TransitionSystems
