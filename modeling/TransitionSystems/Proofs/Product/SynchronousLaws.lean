import Mathlib.Data.Option.NAry
import TransitionSystems.Proofs.Product.Graphs
import TransitionSystems.Proofs.Product.Synchronous

/-!
# Laws of the synchronous product

The synchronous product is commutative and associative up to renaming, because the tensor product of
graphs is: its edges pair the values of edges that carry the same fields, and which fields these are
does not depend on the order of pairing.
-/

namespace TransitionSystems

namespace Graph

variable {α β α' β' α'' β'' : Type}

/-! ## Values in pairs -/

section

variable {values : Text → Option β} {values' : Text → Option β'} {values'' : Text → Option β''}

/-- The values of two edges that are taken at once. -/
def zipValues (values : Text → Option β) (values' : Text → Option β') (field : Text) :
    Option (β × β') :=
  Option.map₂ Prod.mk (values field) (values' field)

/-- Two edges that carry the same fields. -/
def SameFields (values : Text → Option β) (values' : Text → Option β') : Prop :=
  ∀ field, (values field).isSome = (values' field).isSome

@[simp]
theorem isSome_zipValues (field : Text) :
    (zipValues values values' field).isSome =
      ((values field).isSome && (values' field).isSome) := by
  rw [zipValues]
  cases values field <;> cases values' field <;> rfl

theorem mapValues_swap_zipValues :
    mapValues Prod.swap (zipValues values values') = zipValues values' values := by
  funext field
  rw [mapValues, zipValues, zipValues, Option.map_map₂]
  exact Option.map₂_swap _ _ _

theorem mapValues_assoc_zipValues :
    mapValues (Equiv.prodAssoc β β' β'') (zipValues (zipValues values values') values'') =
      zipValues values (zipValues values' values'') := by
  funext field
  rw [mapValues, zipValues, Option.map_map₂]
  exact Option.map₂_assoc fun _ _ _ => rfl

theorem sameFields_assoc :
    SameFields values values' ∧ SameFields (zipValues values values') values'' ↔
      SameFields values' values'' ∧ SameFields values (zipValues values' values'') := by
  simp only [SameFields, isSome_zipValues, ← forall_and]
  refine forall_congr' fun field => ?_
  cases values field <;> cases values' field <;> cases values'' field <;> simp

end

/-! ## The tensor product -/

variable {first : Graph α β} {second : Graph α' β'} {third : Graph α'' β''}

/-- Two edges with the same fields, taken at once. -/
def TensorEdge (first : Graph α β) (second : Graph α' β') (source target : α × α')
    (values : Text → Option (β × β')) : Prop :=
  ∃ left right, first.edge source.1 target.1 left ∧ second.edge source.2 target.2 right ∧
    SameFields left right ∧ values = zipValues left right

/-- The tensor product of two graphs: both move at once. -/
def tensor (first : Graph α β) (second : Graph α' β') : Graph (α × α') (β × β') :=
  first.combine second (TensorEdge first second) fun field value =>
    first.admits field value.1 ∧ second.admits field value.2

theorem TensorEdge.swap {source target : α × α'} {values : Text → Option (β × β')}
    (edge : TensorEdge first second source target values) :
    TensorEdge second first source.swap target.swap (mapValues Prod.swap values) := by
  obtain ⟨left, right, edge, edge', same, rfl⟩ := edge
  exact ⟨right, left, edge', edge, fun field => (same field).symm, mapValues_swap_zipValues⟩

theorem tensor_comm (kinds : first.kind = second.kind) :
    Same (.prodComm α α') (.prodComm β β') (first.tensor second) (second.tensor first) :=
  combine_comm kinds TensorEdge.swap TensorEdge.swap fun _ _ => and_comm

theorem tensor_assoc :
    Same (.prodAssoc α α' α'') (.prodAssoc β β' β'') ((first.tensor second).tensor third)
      (first.tensor (second.tensor third)) := by
  refine combine_assoc ?_ ?_ fun _ _ => and_assoc.symm
  · rintro _ _ _ ⟨_, last, ⟨left, right, edge, edge', same, rfl⟩, edge'', same', rfl⟩
    obtain ⟨inner, outer⟩ := sameFields_assoc.1 ⟨same, same'⟩
    exact ⟨left, _, edge, ⟨right, last, edge', edge'', inner, rfl⟩, outer,
      mapValues_assoc_zipValues⟩
  · rintro _ _ _ ⟨left, _, edge, ⟨right, last, edge', edge'', inner, rfl⟩, outer, rfl⟩
    obtain ⟨same, same'⟩ := sameFields_assoc.2 ⟨inner, outer⟩
    refine ⟨_, last, ⟨left, right, edge, edge', same, rfl⟩, edge'', same', ?_⟩
    rw [← mapValues_assoc_zipValues, mapValues_apply_symm]

/-! ## The synchronous product -/

section

variable {left right : System} {nameState : α → Symbol} {nameValue : β → Symbol}
  {nameState' : α' → Symbol} {nameValue' : β' → Symbol}

theorem Names.pairs {label label' paired : EdgeLabel} {values : Text → Option β}
    {values' : Text → Option β'} (names : Names nameValue values label)
    (names' : Names nameValue' values' label') (pairs : label.Pairs label' paired) :
    Names (namePair nameValue nameValue') (zipValues values values') paired := by
  intro field
  rw [pairs.get?_eq, EdgeLabel.pairValue, names field, names' field, zipValues]
  cases values field <;> cases values' field <;> rfl

theorem Names.same_fields_iff {label label' : EdgeLabel} {values : Text → Option β}
    {values' : Text → Option β'} (names : Names nameValue values label)
    (names' : Names nameValue' values' label') :
    (∀ field, field ∈ label.fields ↔ field ∈ label'.fields) ↔ SameFields values values' := by
  refine forall_congr' fun field => ?_
  rw [EdgeLabel.mem_fields_iff, EdgeLabel.mem_fields_iff, names field, names' field]
  cases values field <;> cases values' field <;> simp

/-- The joint steps of two systems follow the edges of the tensor product. -/
theorem IsWithin.follows_synchronousMoves (within : first.IsWithin nameState nameValue left)
    (within' : second.IsWithin nameState' nameValue' right) (kinds : left.kind = right.kind) :
    Follows first second nameState nameState' (namePair nameValue nameValue')
      System.synchronousMoves left right (TensorEdge first second) where
  fields_sublist := by
    intro state state' move listed
    obtain ⟨edge, edge', step, pairs⟩ :=
      (System.mem_synchronousMoves_iff within.coherent within'.coherent kinds).1 listed
    rw [pairs.fields]
    exact within.coherent.fields_sublist edge step.first
  stays := by
    rintro source target _ ⟨_, _, edge, edge', -, -⟩ reaches reaches'
    exact ⟨.step reaches edge, .step reaches' edge'⟩
  sound := by
    intro source reaches reaches' move listed
    obtain ⟨edge, edge', step, pairs⟩ :=
      (System.mem_synchronousMoves_iff within.coherent within'.coherent kinds).1 listed
    obtain ⟨start, start'⟩ := Prod.mk.inj step.source
    obtain ⟨target, values, listed, stop, names⟩ :=
      within.sound _ reaches edge step.first start
    obtain ⟨target', values', listed', stop', names'⟩ :=
      within'.sound _ reaches' edge' step.second start'
    have same := (names.same_fields_iff names').1 step.same_fields
    refine ⟨(target, target'), _, ⟨values, values', listed, listed', same, rfl⟩, ?_,
      names.pairs names' pairs⟩
    rw [← step.target, stop, stop']
  complete := by
    rintro source target _ reaches reaches' ⟨values, values', listed, listed', same, rfl⟩
    obtain ⟨edge, member, start, stop, names⟩ := within.complete _ _ _ reaches listed
    obtain ⟨edge', member', start', stop', names'⟩ := within'.complete _ _ _ reaches' listed'
    have same_fields := (names.same_fields_iff names').2 same
    have pairs := EdgeLabel.pairs_tabulate (within.coherent.fields_sublist edge member) same_fields
    refine ⟨_, ?_, names.pairs names' pairs⟩
    rw [System.mem_synchronousMoves_iff within.coherent within'.coherent kinds]
    refine ⟨edge, edge', ⟨member, member', ?_, ?_, same_fields⟩, pairs⟩
    · rw [start, start']
    · rw [stop, stop']
      rfl

/-- The synchronous product of systems within two graphs succeeds, and it consists of the part of
the tensor product that can be reached. -/
theorem IsWithin.synchronousProduct (within : first.IsWithin nameState nameValue left)
    (within' : second.IsWithin nameState' nameValue' right) (kinds : left.kind = right.kind)
    (flag : left.isMutable = false) (flag' : right.isMutable = false) :
    ∃ product, left.synchronousProduct right = .ok product ∧ product.system.isMutable = false ∧
      (first.tensor second).Presents (namePair nameState nameState')
        (namePair nameValue nameValue') product.system := by
  refine (within.follows_synchronousMoves within' kinds).exists_productWith within within' _ _
    (System.movesWithin_synchronous within.coherent within'.coherent kinds) kinds flag flag' ?_
  intro schema schemas field symbol
  rw [schemas.admits_product_iff]
  simp only [within.admits_iff, within'.admits_iff]
  constructor
  · rintro ⟨_, _, ⟨value, admits, rfl⟩, ⟨value', admits', rfl⟩, rfl⟩
    exact ⟨(value, value'), ⟨admits, admits'⟩, rfl⟩
  · rintro ⟨value, admits, rfl⟩
    exact ⟨_, _, ⟨value.1, admits.1, rfl⟩, ⟨value.2, admits.2, rfl⟩, rfl⟩

end

end Graph

/-! ## The laws -/

namespace System

/-- Synchronous products of systems of one kind are commutative and associative up to renaming. -/
theorem Reachable.synchronousProduct_comm_and_assoc {first second third : System}
    (reachable : first.Reachable) (reachable' : second.Reachable) (reachable'' : third.Reachable)
    (kinds : first.kind = second.kind) (kinds' : second.kind = third.kind)
    (flag : first.isMutable = false) (flag' : second.isMutable = false)
    (flag'' : third.isMutable = false) :
    (∃ product swapped, first.synchronousProduct second = .ok product ∧
      second.synchronousProduct first = .ok swapped ∧
      IsIsomorphism .swap .swap product.system swapped.system) ∧
    ∃ front back whole whole', first.synchronousProduct second = .ok front ∧
      second.synchronousProduct third = .ok back ∧
      front.system.synchronousProduct third = .ok whole ∧
      first.synchronousProduct back.system = .ok whole' ∧
      IsIsomorphism .reassociate .reassociate whole.system whole'.system := by
  have graph := reachable.coherent.graph_isWithin
  have graph' := reachable'.coherent.graph_isWithin
  have graph'' := reachable''.coherent.graph_isWithin
  obtain ⟨front, built, frozen, presents⟩ := graph.synchronousProduct graph' kinds flag flag'
  obtain ⟨swapped, built', -, presents'⟩ := graph'.synchronousProduct graph kinds.symm flag' flag
  obtain ⟨back, built'', frozen', inner⟩ := graph'.synchronousProduct graph'' kinds' flag' flag''
  have kind : front.system.kind = first.kind := presents.kind
  have kind' : back.system.kind = second.kind := inner.kind
  obtain ⟨whole, nested, -, nested_presents⟩ :=
    presents.synchronousProduct graph'' (kind.trans (kinds.trans kinds')) frozen flag''
  obtain ⟨whole', nested', -, nested_presents'⟩ :=
    graph.synchronousProduct inner.toIsWithin (kinds.trans kind'.symm) flag frozen'
  have injective : Function.Injective (id : Symbol → Symbol) := Function.injective_id
  have pairs := Graph.namePair_injective injective injective
  refine ⟨⟨front, swapped, built, built', ?_⟩,
    front, back, whole, whole', built, built'', nested, nested', ?_⟩
  · exact presents.isIsomorphism (presents'.reindex (Graph.tensor_comm kinds)) pairs
      (pairs.comp (Equiv.injective _)) (fun _ => Symbol.swap_pair _ _) fun _ =>
        Symbol.swap_pair _ _
  · exact nested_presents.isIsomorphism (nested_presents'.reindex Graph.tensor_assoc)
      (Graph.namePair_injective pairs injective)
      ((Graph.namePair_injective injective pairs).comp (Equiv.injective _))
      (fun _ => Symbol.reassociate_pair _ _ _) fun _ => Symbol.reassociate_pair _ _ _

/-- Two and three lamps with one user. -/
theorem synchronousProduct_comm_and_assoc_lamp :
    (∃ product swapped, lamp.synchronousProduct lamp = .ok product ∧
      lamp.synchronousProduct lamp = .ok swapped ∧
      IsIsomorphism .swap .swap product.system swapped.system) ∧
    ∃ front back whole whole', lamp.synchronousProduct lamp = .ok front ∧
      lamp.synchronousProduct lamp = .ok back ∧
      front.system.synchronousProduct lamp = .ok whole ∧
      lamp.synchronousProduct back.system = .ok whole' ∧
      IsIsomorphism .reassociate .reassociate whole.system whole'.system :=
  reachable_lamp.synchronousProduct_comm_and_assoc reachable_lamp reachable_lamp rfl rfl
    (by decide +kernel) (by decide +kernel) (by decide +kernel)

end System

end TransitionSystems
