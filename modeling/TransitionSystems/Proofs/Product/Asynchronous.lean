import Mathlib.Data.Set.Card
import TransitionSystems.Proofs.Product.Combination

/-!
# Asynchronous products

The asynchronous product is the full interleaving of its operands: its states are the pairs of
states that the operands reach on their own, and at each of its transitions one operand moves while
the other one stays.
-/

namespace TransitionSystems.System

variable {left right : System}

/-- A system can move from a state to another one. -/
def Moves (system : System) (source target : Symbol) : Prop :=
  ∃ edge ∈ system.transitions, edge.source = source ∧ edge.target = target

/-- The states that a system can reach from its initial states. -/
def ReachesState (system : System) (state : Symbol) : Prop :=
  ∃ start ∈ system.initial, Relation.ReflTransGen system.Moves start state

theorem ReachesState.step {system : System} {edge : Transition}
    (reaches : system.ReachesState edge.source) (member : edge ∈ system.transitions) :
    system.ReachesState edge.target := by
  obtain ⟨start, initial, steps⟩ := reaches
  exact ⟨start, initial, steps.tail ⟨edge, member, rfl, rfl⟩⟩

/-! ## Moves of pairs -/

theorem mem_asynchronousMoves_iff (coherent : left.Coherent) (coherent' : right.Coherent)
    {first second : Symbol} {move : Move} :
    move ∈ asynchronousMoves left right first second ↔
      (∃ edge ∈ left.transitions, edge.source = first ∧
        move = ⟨edge.target, second, edge.label⟩) ∨
      ∃ edge ∈ right.transitions, edge.source = second ∧
        move = ⟨first, edge.target, edge.label⟩ := by
  simp only [asynchronousMoves, List.mem_append, List.mem_map, coherent.mem_leaving_iff,
    coherent'.mem_leaving_iff, and_assoc, eq_comm (a := move)]

/-- One system moves and the other one stays. -/
def SeparatelyMoves (left right : System) (source target : Symbol × Symbol) : Prop :=
  left.Moves source.1 target.1 ∧ target.2 = source.2 ∨
    target.1 = source.1 ∧ right.Moves source.2 target.2

/-- A pair moves to another one when one of its parts does. -/
theorem moves_asynchronous_iff (coherent : left.Coherent) (coherent' : right.Coherent)
    {source target : Symbol × Symbol} :
    (productRules asynchronousMoves left right).Moves source target ↔
      SeparatelyMoves left right source target := by
  constructor
  · rintro ⟨move, listed, rfl⟩
    rcases (mem_asynchronousMoves_iff coherent coherent').1 listed with
      ⟨edge, member, from_source, rfl⟩ | ⟨edge, member, from_source, rfl⟩
    · exact .inl ⟨⟨edge, member, from_source, rfl⟩, rfl⟩
    · exact .inr ⟨rfl, ⟨edge, member, from_source, rfl⟩⟩
  · rintro (⟨⟨edge, member, from_source, to_target⟩, stays⟩ |
      ⟨stays, ⟨edge, member, from_source, to_target⟩⟩)
    · exact ⟨⟨edge.target, source.2, edge.label⟩, (mem_asynchronousMoves_iff coherent coherent').2
        (.inl ⟨edge, member, from_source, rfl⟩), Prod.ext to_target stays.symm⟩
    · exact ⟨⟨source.1, edge.target, edge.label⟩, (mem_asynchronousMoves_iff coherent coherent').2
        (.inr ⟨edge, member, from_source, rfl⟩), Prod.ext stays.symm to_target⟩

theorem reaches_left (coherent : left.Coherent) (coherent' : right.Coherent)
    {start first second : Symbol} (steps : Relation.ReflTransGen left.Moves start first)
    (reaches : (productRules asynchronousMoves left right).Reaches (start, second)) :
    (productRules asynchronousMoves left right).Reaches (first, second) := by
  induction steps with
  | refl => exact reaches
  | tail _ step induction =>
      exact induction.moves ((moves_asynchronous_iff coherent coherent').2 (.inl ⟨step, rfl⟩))

theorem reaches_right (coherent : left.Coherent) (coherent' : right.Coherent)
    {start first second : Symbol} (steps : Relation.ReflTransGen right.Moves start second)
    (reaches : (productRules asynchronousMoves left right).Reaches (first, start)) :
    (productRules asynchronousMoves left right).Reaches (first, second) := by
  induction steps with
  | refl => exact reaches
  | tail _ step induction =>
      exact induction.moves ((moves_asynchronous_iff coherent coherent').2 (.inr ⟨rfl, step⟩))

/-- The pairs that can be reached are the pairs of states that the operands reach. -/
theorem reaches_asynchronous_iff (coherent : left.Coherent) (coherent' : right.Coherent)
    {pair : Symbol × Symbol} :
    (productRules asynchronousMoves left right).Reaches pair ↔
      left.ReachesState pair.1 ∧ right.ReachesState pair.2 := by
  constructor
  · intro reaches
    induction reaches with
    | initial member =>
        obtain ⟨initial, initial'⟩ := mem_initialPairs.1 member
        exact ⟨⟨_, initial, .refl⟩, ⟨_, initial', .refl⟩⟩
    | step _ listed induction =>
        obtain ⟨reaches, reaches'⟩ := induction
        rcases (mem_asynchronousMoves_iff coherent coherent').1 listed with
          ⟨edge, member, from_source, rfl⟩ | ⟨edge, member, from_source, rfl⟩
        · exact ⟨.step (from_source ▸ reaches) member, reaches'⟩
        · exact ⟨reaches, .step (from_source ▸ reaches') member⟩
  · -- First the left operand moves all the way, then the right one.
    rintro ⟨⟨start, initial, steps⟩, start', initial', steps'⟩
    have started : (productRules asynchronousMoves left right).Reaches (start, start') :=
      .initial (mem_initialPairs.2 ⟨initial, initial'⟩)
    have halfway := reaches_left coherent coherent' steps started
    exact reaches_right coherent coherent' steps' halfway

/-! ## The explored product -/

/-- Moves of one operand lead from endpoints to endpoints, and their values are those of the
operand. -/
theorem movesWithin_asynchronous (coherent : left.Coherent) (coherent' : right.Coherent)
    (kinds : left.kind = right.kind) : MovesWithin .union asynchronousMoves left right where
  stays := by
    intro first member second member' move listed
    rcases (mem_asynchronousMoves_iff coherent coherent').1 listed with
      ⟨edge, stored, -, rfl⟩ | ⟨edge, stored, -, rfl⟩
    · exact ⟨target_mem_endpoints stored, member'⟩
    · exact ⟨member, target_mem_endpoints stored⟩
  admits := by
    intro schema schemas first second move listed entry member
    rw [schemas.admits_union_iff kinds]
    rcases (mem_asynchronousMoves_iff coherent coherent').1 listed with
      ⟨edge, stored, -, rfl⟩ | ⟨edge, stored, -, rfl⟩
    · exact .inl (coherent.values edge stored entry member)
    · exact .inr (coherent'.values edge stored entry member)

theorem exists_asynchronousProduct (coherent : left.Coherent) (coherent' : right.Coherent)
    (kinds : left.kind = right.kind) (flag : left.isMutable = false)
    (flag' : right.isMutable = false) :
    ∃ product, left.asynchronousProduct right = .ok product ∧
      Combines left right product.system ∧
      Schema.Combines .union left.schema right.schema product.system.schema ∧
      (productRules asynchronousMoves left right).ReachablePart product.system.schema
        (left.name ++ "|" ++ right.name) product.system :=
  productWith_spec _ _ (movesWithin_asynchronous coherent coherent' kinds) coherent coherent' kinds
    flag flag'

/-- The transitions of the explored product are the transitions of one operand while the other one
stays. -/
theorem mem_transitions_asynchronous_iff (coherent : left.Coherent) (coherent' : right.Coherent)
    (kinds : left.kind = right.kind) {schema : Schema} {name : Text} {product : System}
    (schemas : Schema.Combines .union left.schema right.schema product.schema)
    (part : (productRules asynchronousMoves left right).ReachablePart schema name product)
    {transition : Transition} :
    transition ∈ product.transitions ↔
      ∃ first second first' second', .pair first second ∈ product.states ∧
        transition.source = .pair first second ∧ transition.target = .pair first' second' ∧
        (second' = second ∧ ⟨first, first', transition.label⟩ ∈ left.transitions ∨
          first' = first ∧ ⟨second, second', transition.label⟩ ∈ right.transitions) := by
  have arranged {edge : Transition} (stored : edge ∈ left.transitions ∨ edge ∈ right.transitions) :
      product.schema.arrange edge.label = edge.label := by
    apply schemas.arrange_eq_self
    rcases stored with stored | stored
    · exact coherent.fields_sublist edge stored
    · have sublist := coherent'.fields_sublist edge stored
      rw [← kinds] at sublist
      exact sublist
  rw [part.mem_transitions_iff]
  constructor
  · rintro ⟨first, second, reaches, move, listed, rfl⟩
    have member := part.pair_mem_states_iff.2 reaches
    rcases (mem_asynchronousMoves_iff coherent coherent').1 listed with
      ⟨edge, stored, rfl, rfl⟩ | ⟨edge, stored, rfl, rfl⟩
    · rw [arranged (.inl stored)]
      exact ⟨_, _, _, _, member, rfl, rfl, .inl ⟨rfl, stored⟩⟩
    · rw [arranged (.inr stored)]
      exact ⟨_, _, _, _, member, rfl, rfl, .inr ⟨rfl, stored⟩⟩
  · obtain ⟨source, target, label⟩ := transition
    rintro ⟨first, second, first', second', member, rfl, rfl, moved⟩
    refine ⟨first, second, part.pair_mem_states_iff.1 member, ⟨first', second', label⟩, ?_, ?_⟩
    · apply (mem_asynchronousMoves_iff coherent coherent').2
      rcases moved with ⟨rfl, stored⟩ | ⟨rfl, stored⟩
      · exact .inl ⟨_, stored, rfl, rfl⟩
      · exact .inr ⟨_, stored, rfl, rfl⟩
    · rcases moved with ⟨-, stored⟩ | ⟨-, stored⟩
      · rw [arranged (.inl stored)]
      · rw [arranged (.inr stored)]

/-- A duplicate-free array that lists the pairs of two sets has as many elements. -/
theorem size_eq_ncard_mul_ncard {states : Array Symbol} {lefts rights : Set Symbol}
    (nodup : states.toList.Nodup)
    (listed : ∀ state, state ∈ states ↔
      ∃ first second, first ∈ lefts ∧ second ∈ rights ∧ state = .pair first second) :
    states.size = lefts.ncard * rights.ncard := by
  have injective : Function.Injective fun pair : Symbol × Symbol => Symbol.pair pair.1 pair.2 := by
    intro pair pair' same
    simpa [Symbol.pair, Prod.ext_iff] using same
  have image : (states.toList.toFinset : Set Symbol) =
      (fun pair : Symbol × Symbol => Symbol.pair pair.1 pair.2) '' (lefts ×ˢ rights) := by
    ext state
    simp [listed, eq_comm]
  calc
    states.size = states.toList.toFinset.card := by
      rw [List.toFinset_card_of_nodup nodup, Array.length_toList]
    _ = (states.toList.toFinset : Set Symbol).ncard := (Set.ncard_coe_finset _).symm
    _ = (lefts ×ˢ rights).ncard := by rw [image, Set.ncard_image_of_injective _ injective]
    _ = lefts.ncard * rights.ncard := Set.ncard_prod

/-! ## The product -/

/-- A system that is the asynchronous product of two others. -/
structure IsAsynchronousProduct (left right product : System) : Prop
    extends Combines left right product where
  mem_states_iff : ∀ state, state ∈ product.states ↔
    ∃ first second, left.ReachesState first ∧ right.ReachesState second ∧
      state = .pair first second
  size_states : product.states.size =
    Set.ncard {state | left.ReachesState state} * Set.ncard {state | right.ReachesState state}
  /-- The transitions are the transitions of one operand while the other one stays. -/
  mem_transitions_iff : ∀ transition, transition ∈ product.transitions ↔
    ∃ first second first' second', .pair first second ∈ product.states ∧
      transition.source = .pair first second ∧ transition.target = .pair first' second' ∧
      (second' = second ∧ ⟨first, first', transition.label⟩ ∈ left.transitions ∨
        first' = first ∧ ⟨second, second', transition.label⟩ ∈ right.transitions)
  /-- No transition is stored twice, also when both operands have it. -/
  stored_once : product.transitions.toList.Nodup
  admits_iff : ∀ field value, product.schema.Admits field value ↔
    left.schema.Admits field value ∨ right.schema.Admits field value

/-- The asynchronous product of two systems of one kind succeeds, and it is the full interleaving
of the parts that they reach. -/
theorem asynchronousProduct_isAsynchronousProduct (reachable : left.Reachable)
    (reachable' : right.Reachable) (kinds : left.kind = right.kind) (flag : left.isMutable = false)
    (flag' : right.isMutable = false) :
    ∃ product, left.asynchronousProduct right = .ok product ∧
      IsAsynchronousProduct left right product.system := by
  have coherent := reachable.coherent
  have coherent' := reachable'.coherent
  obtain ⟨product, built, combines, schemas, part⟩ :=
    exists_asynchronousProduct coherent coherent' kinds flag flag'
  have states (state : Symbol) : state ∈ product.system.states ↔
      ∃ first second, left.ReachesState first ∧ right.ReachesState second ∧
        state = .pair first second := by
    simp only [part.mem_states_iff, reaches_asynchronous_iff coherent coherent', and_assoc]
  exact ⟨product, built, { combines with
    mem_states_iff := states
    size_states := size_eq_ncard_mul_ncard part.coherent.nodup_states states
    mem_transitions_iff := fun _ =>
      mem_transitions_asynchronous_iff coherent coherent' kinds schemas part
    stored_once := part.coherent.nodup_transitions
    admits_iff := fun _ _ => schemas.admits_union_iff kinds }⟩

/-- Two lamps with a user each. -/
theorem exists_asynchronousProduct_lamp :
    ∃ product, lamp.asynchronousProduct lamp = .ok product ∧
      IsAsynchronousProduct lamp lamp product.system :=
  asynchronousProduct_isAsynchronousProduct reachable_lamp reachable_lamp rfl (by decide +kernel)
    (by decide +kernel)

end TransitionSystems.System
