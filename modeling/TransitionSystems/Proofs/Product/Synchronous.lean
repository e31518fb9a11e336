import TransitionSystems.Proofs.Product.Combination

/-!
# Synchronous products

The synchronous product is the tensor product of its operands restricted to the pairs that joint
steps reach from the pairs of initial states.
-/

namespace TransitionSystems

/-! ## Pairs of edge labels -/

namespace EdgeLabel

variable {left right label : EdgeLabel}

/-- A label that pairs the values of two labels which carry the same fields. -/
structure Pairs (left right label : EdgeLabel) : Prop where
  same_fields : ∀ field, field ∈ left.fields ↔ field ∈ right.fields
  fields : label.fields = left.fields
  values : ∀ field first second, left.get? field = some first → right.get? field = some second →
    label.get? field = some (.pair first second)

/-- The pair of the values of a field that both labels carry. -/
def pairValue (left right : EdgeLabel) (field : Text) : Option Symbol :=
  (left.get? field).bind fun first => (right.get? field).map fun second => .pair first second

theorem pairValue_isSome_iff {field : Text} :
    (pairValue left right field).isSome = true ↔ field ∈ left.fields ∧ field ∈ right.fields := by
  rw [mem_fields_iff, mem_fields_iff, pairValue]
  cases left.get? field <;> cases right.get? field <;> simp

theorem Pairs.get?_eq (pairs : left.Pairs right label) (field : Text) :
    label.get? field = pairValue left right field := by
  cases found : left.get? field with
  | none =>
      rw [pairValue, found, Option.bind_none, Option.eq_none_iff_forall_ne_some]
      intro value present
      have listed := mem_fields_iff.2 ⟨value, present⟩
      rw [pairs.fields, mem_fields_iff, found] at listed
      obtain ⟨_, absent⟩ := listed
      cases absent
  | some first =>
      obtain ⟨second, found'⟩ :=
        mem_fields_iff.1 ((pairs.same_fields field).1 (mem_fields_iff.2 ⟨first, found⟩))
      rw [pairValue, found, found', pairs.values field first second found found']
      rfl

theorem Pairs.unique {other : EdgeLabel} (pairs : left.Pairs right label)
    (pairs' : left.Pairs right other) : label = other := by
  refine ext_get? (pairs.fields.trans pairs'.fields.symm) fun field => ?_
  rw [pairs.get?_eq, pairs'.get?_eq]

theorem pairs_tabulate {kind : Kind} (sublist : left.fields.Sublist kind.fields)
    (same : ∀ field, field ∈ left.fields ↔ field ∈ right.fields) :
    left.Pairs right (tabulate (pairValue left right) kind.fields) where
  same_fields := same
  fields := by
    rw [fields_tabulate kind.fields_nodup, ← filter_mem_of_sublist kind.fields_nodup sublist]
    apply List.filter_congr
    intro field _
    rw [Bool.eq_iff_iff, pairValue_isSome_iff, ← same, and_self, decide_eq_true_iff]
  values := by
    intro field first second found found'
    have member := sublist.subset (mem_fields_iff.2 ⟨first, found⟩)
    rw [get?_tabulate kind.fields_nodup, if_pos member, pairValue, found, found']
    rfl

end EdgeLabel

namespace System

open EdgeLabel

/-- Pairing fails at a field that one label only carries, and tabulates the pairs otherwise. -/
private theorem foldlM_pair_eq_some_iff {left right result : EdgeLabel} {fields : List Text}
    (label : EdgeLabel) :
    fields.foldlM
        (fun label field =>
          match left.get? field, right.get? field with
          | some first, some second => some (label.set field (.pair first second))
          | none, none => some label
          | _, _ => none)
        label = some result ↔
      (∀ field ∈ fields, field ∈ left.fields ↔ field ∈ right.fields) ∧
        fields.foldl
          (fun label field =>
            match pairValue left right field with
            | some value => label.set field value
            | none => label)
          label = result := by
  induction fields generalizing label with
  | nil => simp
  | cons field fields induction =>
      rw [List.foldlM_cons, List.foldl_cons, List.forall_mem_cons, mem_fields_iff, mem_fields_iff]
      cases found : left.get? field <;> cases found' : right.get? field <;>
        simp [found, found', pairValue, induction]

/-- Labels with fields of the kind can be paired when they carry the same ones. -/
theorem pairLabels?_eq_some_iff {kind : Kind} {left right label : EdgeLabel}
    (sublist : left.fields.Sublist kind.fields) (sublist' : right.fields.Sublist kind.fields) :
    pairLabels? kind.fields left right = some label ↔ left.Pairs right label := by
  have agree : (∀ field ∈ kind.fields, field ∈ left.fields ↔ field ∈ right.fields) ↔
      ∀ field, field ∈ left.fields ↔ field ∈ right.fields := by
    refine ⟨fun agree field => ?_, fun agree field _ => agree field⟩
    exact ⟨fun member => (agree field (sublist.subset member)).1 member,
      fun member => (agree field (sublist'.subset member)).2 member⟩
  refine (foldlM_pair_eq_some_iff unlabeled).trans ?_
  rw [agree]
  constructor
  · rintro ⟨same, rfl⟩
    exact pairs_tabulate sublist same
  · intro pairs
    exact ⟨pairs.same_fields, (pairs_tabulate sublist pairs.same_fields).unique pairs⟩

/-! ## Joint steps -/

variable {left right : System}

/-- A joint step between pairs: both systems move along edges that carry the same fields. -/
structure JointStep (left right : System) (source target : Symbol × Symbol)
    (edge edge' : Transition) : Prop where
  first : edge ∈ left.transitions
  second : edge' ∈ right.transitions
  source : (edge.source, edge'.source) = source
  target : (edge.target, edge'.target) = target
  same_fields : ∀ field, field ∈ edge.label.fields ↔ field ∈ edge'.label.fields

/-- There is a joint step between pairs. -/
def JointlyMoves (left right : System) (source target : Symbol × Symbol) : Prop :=
  ∃ edge edge', JointStep left right source target edge edge'

/-- The pairs that joint steps reach from the pairs of initial states. -/
def JointlyReachable (left right : System) (pair : Symbol × Symbol) : Prop :=
  ∃ start : Symbol × Symbol, start.1 ∈ left.initial ∧ start.2 ∈ right.initial ∧
    Relation.ReflTransGen
      (fun source target => ∃ edge edge', JointStep left right source target edge edge') start pair

/-- The moves of a pair are its joint steps with paired labels. -/
theorem mem_synchronousMoves_iff (coherent : left.Coherent) (coherent' : right.Coherent)
    (kinds : left.kind = right.kind) {first second : Symbol} {move : Move} :
    move ∈ synchronousMoves left right first second ↔
      ∃ edge edge', JointStep left right (first, second) move.target edge edge' ∧
        edge.label.Pairs edge'.label move.label := by
  simp only [synchronousMoves, List.mem_flatMap, List.mem_filterMap, Option.map_eq_some_iff,
    coherent.mem_leaving_iff, coherent'.mem_leaving_iff]
  constructor
  · rintro ⟨edge, ⟨member, rfl⟩, edge', ⟨member', rfl⟩, label, paired, rfl⟩
    have pairs := (pairLabels?_eq_some_iff (coherent.fields_sublist edge member)
      (kinds ▸ coherent'.fields_sublist edge' member')).1 paired
    exact ⟨edge, edge', ⟨member, member', rfl, rfl, pairs.same_fields⟩, pairs⟩
  · rintro ⟨edge, edge', step, pairs⟩
    obtain ⟨rfl, rfl⟩ := Prod.mk.inj step.source
    obtain ⟨target, target'⟩ := Prod.mk.inj step.target
    refine ⟨edge, ⟨step.first, rfl⟩, edge', ⟨step.second, rfl⟩, move.label, ?_, ?_⟩
    · rw [pairLabels?_eq_some_iff (coherent.fields_sublist edge step.first)
        (kinds ▸ coherent'.fields_sublist edge' step.second)]
      exact pairs
    · rw [target, target']

theorem moves_synchronous_iff (coherent : left.Coherent) (coherent' : right.Coherent)
    (kinds : left.kind = right.kind) {source target : Symbol × Symbol} :
    (productRules synchronousMoves left right).Moves source target ↔
      JointlyMoves left right source target := by
  constructor
  · rintro ⟨move, listed, rfl⟩
    obtain ⟨edge, edge', step, -⟩ := (mem_synchronousMoves_iff coherent coherent' kinds).1 listed
    exact ⟨edge, edge', step⟩
  · rintro ⟨edge, edge', step⟩
    have pairs := pairs_tabulate (coherent.fields_sublist edge step.first) step.same_fields
    have listed : ⟨target.1, target.2, _⟩ ∈ synchronousMoves left right source.1 source.2 :=
      (mem_synchronousMoves_iff coherent coherent' kinds).2 ⟨edge, edge', step, pairs⟩
    exact ⟨_, listed, rfl⟩

/-- The pairs that can be reached by the moves are those that joint steps reach. -/
theorem reaches_synchronous_iff (coherent : left.Coherent) (coherent' : right.Coherent)
    (kinds : left.kind = right.kind) {pair : Symbol × Symbol} :
    (productRules synchronousMoves left right).Reaches pair ↔ JointlyReachable left right pair := by
  constructor
  · intro reaches
    induction reaches with
    | @initial pair member =>
        obtain ⟨first, second⟩ := mem_initialPairs.1 member
        exact ⟨pair, first, second, .refl⟩
    | step _ listed induction =>
        obtain ⟨start, first, second, steps⟩ := induction
        have step := (moves_synchronous_iff coherent coherent' kinds).1 ⟨_, listed, rfl⟩
        exact ⟨start, first, second, steps.tail step⟩
  · rintro ⟨start, first, second, steps⟩
    induction steps with
    | refl => exact .initial (mem_initialPairs.2 ⟨first, second⟩)
    | tail _ step induction =>
        exact induction.moves ((moves_synchronous_iff coherent coherent' kinds).2 step)

theorem JointStep.admits (coherent : left.Coherent) (coherent' : right.Coherent) {schema : Schema}
    (schemas : Schema.Combines .product left.schema right.schema schema)
    {source target : Symbol × Symbol} {edge edge' : Transition} {label : EdgeLabel}
    (step : JointStep left right source target edge edge')
    (pairs : edge.label.Pairs edge'.label label) :
    ∀ entry ∈ label.entries, schema.Admits entry.1 entry.2 := by
  rintro ⟨field, value⟩ member
  have present := get?_eq_some_iff.2 member
  have listed : field ∈ edge.label.fields := pairs.fields ▸ mem_fields_iff.2 ⟨value, present⟩
  obtain ⟨first, found⟩ := mem_fields_iff.1 listed
  obtain ⟨second, found'⟩ := mem_fields_iff.1 ((step.same_fields field).1 listed)
  obtain rfl : value = .pair first second :=
    Option.some.inj (present.symm.trans (pairs.values field first second found found'))
  rw [schemas.admits_product_iff]
  exact ⟨first, second, coherent.values edge step.first _ (get?_eq_some_iff.1 found),
    coherent'.values edge' step.second _ (get?_eq_some_iff.1 found'), rfl⟩

/-! ## The explored product -/

/-- Joint steps lead from endpoints to endpoints, and their values are pairs of values. -/
theorem movesWithin_synchronous (coherent : left.Coherent) (coherent' : right.Coherent)
    (kinds : left.kind = right.kind) : MovesWithin .product synchronousMoves left right where
  stays := by
    intro first _ second _ move listed
    obtain ⟨edge, edge', step, -⟩ := (mem_synchronousMoves_iff coherent coherent' kinds).1 listed
    obtain ⟨target, target'⟩ := Prod.mk.inj step.target
    rw [← target, ← target']
    exact ⟨target_mem_endpoints step.first, target_mem_endpoints step.second⟩
  admits := by
    intro schema schemas first second move listed entry member
    obtain ⟨edge, edge', step, pairs⟩ :=
      (mem_synchronousMoves_iff coherent coherent' kinds).1 listed
    exact step.admits coherent coherent' schemas pairs entry member

theorem exists_synchronousProduct (coherent : left.Coherent) (coherent' : right.Coherent)
    (kinds : left.kind = right.kind) (flag : left.isMutable = false)
    (flag' : right.isMutable = false) :
    ∃ product, left.synchronousProduct right = .ok product ∧
      Combines left right product.system ∧
      Schema.Combines .product left.schema right.schema product.system.schema ∧
      (productRules synchronousMoves left right).ReachablePart product.system.schema
        (left.name ++ "*" ++ right.name) product.system :=
  productWith_spec _ _ (movesWithin_synchronous coherent coherent' kinds) coherent coherent' kinds
    flag flag'

/-- The transitions of the explored product are the joint steps out of its states. -/
theorem mem_transitions_synchronous_iff (coherent : left.Coherent) (coherent' : right.Coherent)
    (kinds : left.kind = right.kind) {schema : Schema} {name : Text} {product : System}
    (schemas : Schema.Combines .product left.schema right.schema product.schema)
    (part : (productRules synchronousMoves left right).ReachablePart schema name product)
    {transition : Transition} :
    transition ∈ product.transitions ↔
      ∃ source target edge edge', .pair source.1 source.2 ∈ product.states ∧
        JointStep left right source target edge edge' ∧
        transition.source = .pair source.1 source.2 ∧
        transition.target = .pair target.1 target.2 ∧
        edge.label.Pairs edge'.label transition.label := by
  have arranged {source target : Symbol × Symbol} {edge edge' : Transition} {label : EdgeLabel}
      (step : JointStep left right source target edge edge')
      (pairs : edge.label.Pairs edge'.label label) : product.schema.arrange label = label := by
    apply schemas.arrange_eq_self
    rw [pairs.fields]
    exact coherent.fields_sublist edge step.first
  rw [part.mem_transitions_iff]
  constructor
  · rintro ⟨first, second, reaches, move, listed, rfl⟩
    obtain ⟨edge, edge', step, pairs⟩ :=
      (mem_synchronousMoves_iff coherent coherent' kinds).1 listed
    refine ⟨(first, second), move.target, edge, edge', part.pair_mem_states_iff.2 reaches, step,
      rfl, rfl, ?_⟩
    rw [arranged step pairs]
    exact pairs
  · obtain ⟨before, after, label⟩ := transition
    rintro ⟨source, target, edge, edge', member, step, rfl, rfl, pairs⟩
    refine ⟨source.1, source.2, part.pair_mem_states_iff.1 member, ⟨target.1, target.2, label⟩,
      ?_, ?_⟩
    · exact (mem_synchronousMoves_iff coherent coherent' kinds).2 ⟨edge, edge', step, pairs⟩
    · rw [arranged step pairs]

/-! ## The product -/

/-- A system that is the synchronous product of two others. -/
structure IsSynchronousProduct (left right product : System) : Prop
    extends Combines left right product where
  mem_states_iff : ∀ state, state ∈ product.states ↔
    ∃ first second, JointlyReachable left right (first, second) ∧ state = .pair first second
  /-- The transitions are the joint steps out of states, labeled by pairs of values. -/
  mem_transitions_iff : ∀ transition, transition ∈ product.transitions ↔
    ∃ source target edge edge', .pair source.1 source.2 ∈ product.states ∧
      JointStep left right source target edge edge' ∧
      transition.source = .pair source.1 source.2 ∧ transition.target = .pair target.1 target.2 ∧
      edge.label.Pairs edge'.label transition.label
  /-- The alphabets hold the pairs of a value of the first system with one of the second. -/
  admits_iff : ∀ field value, product.schema.Admits field value ↔
    ∃ first second, left.schema.Admits field first ∧ right.schema.Admits field second ∧
      value = .pair first second

/-- The synchronous product of two systems of one kind succeeds, and it is their tensor product
restricted to the pairs that can be reached. -/
theorem synchronousProduct_isSynchronousProduct (reachable : left.Reachable)
    (reachable' : right.Reachable) (kinds : left.kind = right.kind) (flag : left.isMutable = false)
    (flag' : right.isMutable = false) :
    ∃ product, left.synchronousProduct right = .ok product ∧
      IsSynchronousProduct left right product.system := by
  have coherent := reachable.coherent
  have coherent' := reachable'.coherent
  obtain ⟨product, built, combines, schemas, part⟩ :=
    exists_synchronousProduct coherent coherent' kinds flag flag'
  exact ⟨product, built, { combines with
    mem_states_iff := by
      intro state
      simp only [part.mem_states_iff, reaches_synchronous_iff coherent coherent' kinds]
    mem_transitions_iff := fun _ =>
      mem_transitions_synchronous_iff coherent coherent' kinds schemas part
    admits_iff := fun _ _ => schemas.admits_product_iff }⟩

/-- Two lamps with one user. -/
theorem exists_synchronousProduct_lamp :
    ∃ product, lamp.synchronousProduct lamp = .ok product ∧
      IsSynchronousProduct lamp lamp product.system :=
  synchronousProduct_isSynchronousProduct reachable_lamp reachable_lamp rfl (by decide +kernel)
    (by decide +kernel)

end System

end TransitionSystems
