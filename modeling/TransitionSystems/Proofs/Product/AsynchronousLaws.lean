import TransitionSystems.Proofs.Product.Asynchronous
import TransitionSystems.Proofs.Product.Graphs

/-!
# Laws of the asynchronous product

The asynchronous product is commutative and associative up to renaming of states, because the
interleaving of graphs is: whichever way three graphs are put together, one of them moves and the
other two stay. The values on the edges are those of the graph that moves, so they are not renamed.
-/

namespace TransitionSystems

namespace Graph

variable {α α' α'' β : Type}

/-! ## Interleaving -/

variable {first : Graph α β} {second : Graph α' β} {third : Graph α'' β}

/-- One of two graphs moves and the other one stays. -/
inductive InterleavingEdge (first : Graph α β) (second : Graph α' β) :
    α × α' → α × α' → (Text → Option β) → Prop
  | left {source target : α} {values : Text → Option β} (edge : first.edge source target values)
      (state : α') : InterleavingEdge first second (source, state) (target, state) values
  | right (state : α) {source target : α'} {values : Text → Option β}
      (edge : second.edge source target values) :
      InterleavingEdge first second (state, source) (state, target) values

/-- The interleaving of two graphs: one of them moves at a time. -/
def interleave (first : Graph α β) (second : Graph α' β) : Graph (α × α') β :=
  first.combine second (InterleavingEdge first second) fun field value =>
    first.admits field value ∨ second.admits field value

@[simp]
theorem mapValues_refl (values : Text → Option β) :
    mapValues (Equiv.refl β) values = values := by
  funext field
  simp [mapValues]

theorem InterleavingEdge.swap {source target : α × α'} {values : Text → Option β}
    (edge : InterleavingEdge first second source target values) :
    InterleavingEdge second first source.swap target.swap values := by
  cases edge with
  | left edge state => exact .right state edge
  | right state edge => exact .left edge state

theorem interleave_comm (kinds : first.kind = second.kind) :
    Same (.prodComm α α') (.refl β) (first.interleave second) (second.interleave first) := by
  refine combine_comm kinds (fun edge => ?_) (fun edge => ?_) fun _ _ => or_comm
  · rw [mapValues_refl]
    exact edge.swap
  · rw [Equiv.refl_symm, mapValues_refl]
    exact edge.swap

theorem interleave_assoc :
    Same (.prodAssoc α α' α'') (.refl β) ((first.interleave second).interleave third)
      (first.interleave (second.interleave third)) := by
  refine combine_assoc (fun edge => ?_) (fun edge => ?_) fun _ _ => or_assoc.symm
  · rw [mapValues_refl]
    rcases edge with ⟨⟨edge, state⟩ | ⟨state, edge⟩, state'⟩ | ⟨⟨state, state'⟩, edge⟩
    · exact .left edge (state, state')
    · exact .right state (InterleavingEdge.left edge state')
    · exact .right state (InterleavingEdge.right state' edge)
  · rw [Equiv.refl_symm, mapValues_refl]
    rcases edge with ⟨edge, ⟨state, state'⟩⟩ | ⟨state, ⟨edge, state'⟩ | ⟨state', edge⟩⟩
    · exact .left (InterleavingEdge.left edge state) state'
    · exact .left (InterleavingEdge.right state edge) state'
    · exact .right (state, state') edge

/-! ## The asynchronous product -/

section

variable {left right : System} {nameState : α → Symbol} {nameState' : α' → Symbol}
  {nameValue : β → Symbol}

/-- The moves of one of two systems follow the edges of the interleaving. -/
theorem IsWithin.follows_asynchronousMoves (within : first.IsWithin nameState nameValue left)
    (within' : second.IsWithin nameState' nameValue right) (kinds : left.kind = right.kind) :
    Follows first second nameState nameState' nameValue System.asynchronousMoves left right
      (InterleavingEdge first second) where
  fields_sublist := by
    intro state state' move listed
    rcases (System.mem_asynchronousMoves_iff within.coherent within'.coherent).1 listed with
      ⟨edge, stored, -, rfl⟩ | ⟨edge, stored, -, rfl⟩
    · exact within.coherent.fields_sublist edge stored
    · rw [kinds]
      exact within'.coherent.fields_sublist edge stored
  stays := by
    intro source target values edge reaches reaches'
    cases edge with
    | left edge state => exact ⟨.step reaches edge, reaches'⟩
    | right state edge => exact ⟨reaches, .step reaches' edge⟩
  sound := by
    rintro ⟨source, source'⟩ reaches reaches' move listed
    rcases (System.mem_asynchronousMoves_iff within.coherent within'.coherent).1 listed with
      ⟨transition, stored, start, rfl⟩ | ⟨transition, stored, start, rfl⟩
    · obtain ⟨target, values, edge, stop, names⟩ :=
        within.sound source reaches transition stored start
      exact ⟨(target, source'), values, .left edge source', Prod.ext stop rfl, names⟩
    · obtain ⟨target, values, edge, stop, names⟩ :=
        within'.sound source' reaches' transition stored start
      exact ⟨(source, target), values, .right source edge, Prod.ext rfl stop, names⟩
  complete := by
    intro source target values reaches reaches' edge
    cases edge with
    | left edge state =>
        obtain ⟨transition, stored, start, stop, names⟩ := within.complete _ _ _ reaches edge
        refine ⟨transition.label, ?_, names⟩
        rw [System.mem_asynchronousMoves_iff within.coherent within'.coherent, ← stop]
        exact .inl ⟨transition, stored, start, rfl⟩
    | right state edge =>
        obtain ⟨transition, stored, start, stop, names⟩ := within'.complete _ _ _ reaches' edge
        refine ⟨transition.label, ?_, names⟩
        rw [System.mem_asynchronousMoves_iff within.coherent within'.coherent, ← stop]
        exact .inr ⟨transition, stored, start, rfl⟩

/-- The asynchronous product of systems within two graphs succeeds, and it consists of the part of
the interleaving that can be reached. -/
theorem IsWithin.asynchronousProduct (within : first.IsWithin nameState nameValue left)
    (within' : second.IsWithin nameState' nameValue right) (kinds : left.kind = right.kind)
    (flag : left.isMutable = false) (flag' : right.isMutable = false) :
    ∃ product, left.asynchronousProduct right = .ok product ∧ product.system.isMutable = false ∧
      (first.interleave second).Presents (namePair nameState nameState') nameValue
        product.system := by
  refine (within.follows_asynchronousMoves within' kinds).exists_productWith within within' _ _
    (System.movesWithin_asynchronous within.coherent within'.coherent kinds) kinds flag flag' ?_
  intro schema schemas field symbol
  rw [schemas.admits_union_iff kinds, within.admits_iff, within'.admits_iff, ← exists_or]
  exact exists_congr fun value => or_and_right.symm

end

end Graph

/-! ## The laws -/

namespace System

/-- Asynchronous products of systems of one kind are commutative and associative up to renaming of
states, with the same labels on the transitions. -/
theorem Reachable.asynchronousProduct_comm_and_assoc {first second third : System}
    (reachable : first.Reachable) (reachable' : second.Reachable) (reachable'' : third.Reachable)
    (kinds : first.kind = second.kind) (kinds' : second.kind = third.kind)
    (flag : first.isMutable = false) (flag' : second.isMutable = false)
    (flag'' : third.isMutable = false) :
    (∃ product swapped, first.asynchronousProduct second = .ok product ∧
      second.asynchronousProduct first = .ok swapped ∧
      IsIsomorphism .swap id product.system swapped.system) ∧
    ∃ front back whole whole', first.asynchronousProduct second = .ok front ∧
      second.asynchronousProduct third = .ok back ∧
      front.system.asynchronousProduct third = .ok whole ∧
      first.asynchronousProduct back.system = .ok whole' ∧
      IsIsomorphism .reassociate id whole.system whole'.system := by
  have graph := reachable.coherent.graph_isWithin
  have graph' := reachable'.coherent.graph_isWithin
  have graph'' := reachable''.coherent.graph_isWithin
  obtain ⟨front, built, frozen, presents⟩ := graph.asynchronousProduct graph' kinds flag flag'
  obtain ⟨swapped, built', -, presents'⟩ := graph'.asynchronousProduct graph kinds.symm flag' flag
  obtain ⟨back, built'', frozen', inner⟩ := graph'.asynchronousProduct graph'' kinds' flag' flag''
  have kind : front.system.kind = first.kind := presents.kind
  have kind' : back.system.kind = second.kind := inner.kind
  obtain ⟨whole, nested, -, nested_presents⟩ :=
    presents.asynchronousProduct graph'' (kind.trans (kinds.trans kinds')) frozen flag''
  obtain ⟨whole', nested', -, nested_presents'⟩ :=
    graph.asynchronousProduct inner.toIsWithin (kinds.trans kind'.symm) flag frozen'
  have injective : Function.Injective (id : Symbol → Symbol) := Function.injective_id
  have pairs := Graph.namePair_injective injective injective
  refine ⟨⟨front, swapped, built, built', ?_⟩,
    front, back, whole, whole', built, built'', nested, nested', ?_⟩
  · exact presents.isIsomorphism (presents'.reindex (Graph.interleave_comm kinds)) pairs
      (pairs.comp (Equiv.injective _)) (fun _ => Symbol.swap_pair _ _) fun _ => rfl
  · exact nested_presents.isIsomorphism (nested_presents'.reindex Graph.interleave_assoc)
      (Graph.namePair_injective pairs injective)
      ((Graph.namePair_injective injective pairs).comp (Equiv.injective _))
      (fun _ => Symbol.reassociate_pair _ _ _) fun _ => rfl

/-- A clock that does nothing but tick. -/
def clock : System :=
  let tick : Symbol := .atom "tick"
  ((System.empty (.empty .opened) "clock").run
    [.addState tick, .setInitial [tick], .addTransition tick tick .unlabeled]).2

theorem reachable_clock : clock.Reachable :=
  (Reachable.fresh ..).run _

/-- A lamp between two clocks, whose ticks are the same transition of the product. -/
theorem asynchronousProduct_comm_and_assoc_clocks :
    (∃ product swapped, clock.asynchronousProduct lamp = .ok product ∧
      lamp.asynchronousProduct clock = .ok swapped ∧
      IsIsomorphism .swap id product.system swapped.system) ∧
    ∃ front back whole whole', clock.asynchronousProduct lamp = .ok front ∧
      lamp.asynchronousProduct clock = .ok back ∧
      front.system.asynchronousProduct clock = .ok whole ∧
      clock.asynchronousProduct back.system = .ok whole' ∧
      IsIsomorphism .reassociate id whole.system whole'.system :=
  reachable_clock.asynchronousProduct_comm_and_assoc reachable_lamp reachable_clock
    (by decide +kernel) (by decide +kernel) (by decide +kernel) (by decide +kernel)
    (by decide +kernel)

end System

end TransitionSystems
