import Mathlib.Data.List.ProdSigma
import TransitionSystems.Product.Systems
import TransitionSystems.Proofs.Product.Completeness

/-!
# Combining two systems

What the products of two systems have in common: their initial states are the pairs of initial
states, the label of a pair is the union of the labels of its parts, and their universe combines
those of the operands.
-/

namespace TransitionSystems.System

variable {left right : System}

/-- The rules of the product with given moves. -/
def productRules (moves : System → System → Symbol → Symbol → List Move) (left right : System) :
    Rules where
  initial := initialPairs left right
  label := jointLabel left right
  moves := moves left right
  bound := left.endpoints.length * right.endpoints.length

theorem mem_initialPairs {pair : Symbol × Symbol} :
    pair ∈ initialPairs left right ↔ pair.1 ∈ left.initial ∧ pair.2 ∈ right.initial := by
  obtain ⟨first, second⟩ := pair
  simp [initialPairs]

theorem initial_subset_endpoints {system : System} {state : Symbol}
    (member : state ∈ system.initial) :
    state ∈ system.endpoints :=
  List.mem_append_left _ (OrderedSet.mem_toList.2 member)

theorem target_mem_endpoints {system : System} {transition : Transition}
    (member : transition ∈ system.transitions) : transition.target ∈ system.endpoints :=
  List.mem_append_right _ (List.mem_map_of_mem (Array.mem_toList_iff.2 member))

/-! ## Labels -/

theorem jointLabel_eq_none_iff {first second : Symbol} :
    jointLabel left right first second = none ↔
      left.label? first = none ∧ right.label? second = none := by
  rw [jointLabel]
  split
  · next unlabeled unlabeled' => simp [unlabeled, unlabeled']
  · next labeled =>
      simp only [reduceCtorEq, false_iff]
      rintro ⟨unlabeled, unlabeled'⟩
      exact labeled unlabeled unlabeled'

theorem mem_jointLabel {first second proposition : Symbol} :
    proposition ∈ (jointLabel left right first second).getD ∅ ↔
      proposition ∈ left.holding first ∨ proposition ∈ right.holding second := by
  rw [jointLabel]
  split
  · next unlabeled unlabeled' => simp [holding, unlabeled, unlabeled']
  · rw [Option.getD_some, Std.ExtTreeSet.mem_union_iff]

/-- The union of two labels, either of which may be missing. -/
def uniteLabels : Option Label → Option Label → Option Label
  | none, label => label
  | label, none => label
  | some label, some label' => some (label ∪ label')

@[simp]
theorem uniteLabels_eq_none_iff {first second : Option Label} :
    uniteLabels first second = none ↔ first = none ∧ second = none := by
  cases first <;> cases second <;> simp [uniteLabels]

@[simp]
theorem mem_uniteLabels {first second : Option Label} {proposition : Symbol} :
    proposition ∈ (uniteLabels first second).getD ∅ ↔
      proposition ∈ first.getD ∅ ∨ proposition ∈ second.getD ∅ := by
  cases first <;> cases second <;> simp [uniteLabels, Std.ExtTreeSet.mem_union_iff]

theorem label_ext {label label' : Option Label} (missing : label = none ↔ label' = none)
    (same : ∀ proposition, proposition ∈ label.getD ∅ ↔ proposition ∈ label'.getD ∅) :
    label = label' := by
  cases label <;> cases label'
  case none.none => rfl
  case some.some => exact congrArg some (Std.ExtTreeSet.ext_mem fun _ => same _)
  all_goals simp at missing

theorem jointLabel_eq_uniteLabels (first second : Symbol) :
    jointLabel left right first second =
      uniteLabels (left.label? first) (right.label? second) := by
  apply label_ext
  · rw [jointLabel_eq_none_iff, uniteLabels_eq_none_iff]
  · intro proposition
    rw [mem_jointLabel, mem_uniteLabels]
    rfl

theorem uniteLabels_comm (first second : Option Label) :
    uniteLabels first second = uniteLabels second first :=
  label_ext (by simp [and_comm]) (by simp [or_comm])

theorem uniteLabels_assoc (first second third : Option Label) :
    uniteLabels (uniteLabels first second) third =
      uniteLabels first (uniteLabels second third) :=
  label_ext (by simp [and_assoc]) (by simp [or_assoc])

/-! ## Admissible rules -/

/-- Moves between endpoints of the operands, with labels that the combined alphabets admit. -/
structure MovesWithin (combine : OrderedSet → OrderedSet → OrderedSet)
    (moves : System → System → Symbol → Symbol → List Move) (left right : System) : Prop where
  stays : ∀ first ∈ left.endpoints, ∀ second ∈ right.endpoints,
    ∀ move ∈ moves left right first second,
      move.first ∈ left.endpoints ∧ move.second ∈ right.endpoints
  admits : ∀ schema, Schema.Combines combine left.schema right.schema schema →
    ∀ first second, ∀ move ∈ moves left right first second, ∀ entry ∈ move.label.entries,
      schema.Admits entry.1 entry.2

variable {combine : OrderedSet → OrderedSet → OrderedSet}
  {moves : System → System → Symbol → Symbol → List Move}

theorem MovesWithin.bounded (within : MovesWithin combine moves left right) :
    ∃ pairs : List (Symbol × Symbol), pairs.length ≤ (productRules moves left right).bound ∧
      ∀ pair, (productRules moves left right).Reaches pair → pair ∈ pairs := by
  refine ⟨left.endpoints ×ˢ right.endpoints, (List.length_product ..).le, fun pair reaches => ?_⟩
  suffices among : pair.1 ∈ left.endpoints ∧ pair.2 ∈ right.endpoints from
    List.mem_product.2 among
  induction reaches with
  | initial member =>
      obtain ⟨first, second⟩ := mem_initialPairs.1 member
      exact ⟨initial_subset_endpoints first, initial_subset_endpoints second⟩
  | step _ listed induction => exact within.stays _ induction.1 _ induction.2 _ listed

/-- The rules of a product are admissible in the combined universe. -/
theorem MovesWithin.admissible (within : MovesWithin combine moves left right)
    (coherent : left.Coherent) (coherent' : right.Coherent) {schema : Schema}
    (combines : Schema.Combines combine left.schema right.schema schema) :
    (productRules moves left right).Admissible schema where
  label := by
    intro first second label found proposition member
    have holds : proposition ∈ (jointLabel left right first second).getD ∅ := by
      rw [show jointLabel left right first second = some label from found]
      exact member
    rw [combines.propositions, OrderedSet.mem_union]
    rcases mem_jointLabel.1 holds with holds | holds
    · exact .inl (coherent.mem_propositions holds)
    · exact .inr (coherent'.mem_propositions holds)
  move := within.admits schema combines
  bounded := within.bounded

theorem productWith_eq_ok (operation sign : Text) {alphabets : Alphabets} {result : Exploration}
    (zipped : left.schema.alphabets.zipWith? combine right.schema.alphabets = some alphabets)
    (explored : (productRules moves left right).explore
      (.empty { propositions := left.propositions.union right.propositions, alphabets }
        (left.name ++ sign ++ right.name) (left.isMutable || right.isMutable)) = .ok result) :
    productWith operation sign combine moves left right =
      .ok { system := result.system, stats := result.stats } := by
  rw [productWith, zipped]
  exact bind_eq_ok_iff.2 ⟨result, explored, rfl⟩

/-- The product of two systems of one kind succeeds, and it is what a complete exploration of
admissible rules has built. -/
theorem MovesWithin.exists_productWith (within : MovesWithin combine moves left right)
    (coherent : left.Coherent) (coherent' : right.Coherent) (kinds : left.kind = right.kind)
    (operation sign : Text) :
    ∃ schema base after,
      productWith operation sign combine moves left right =
        .ok { system := after.system, stats := after.stats } ∧
      (productRules moves left right).Admissible schema ∧
      (productRules moves left right).explore (.empty schema (left.name ++ sign ++ right.name)
        (left.isMutable || right.isMutable)) = .ok after ∧
      Exploration.Underway (productRules moves left right) base after.found.size after := by
  obtain ⟨alphabets, zipped, combines⟩ := Schema.exists_combines kinds combine
  have admissible := within.admissible coherent coherent' combines
  obtain ⟨after, explored, complete⟩ := Exploration.explore_complete admissible
    (left.name ++ sign ++ right.name) (left.isMutable || right.isMutable)
  exact ⟨_, _, after, productWith_eq_ok operation sign zipped explored, admissible, explored,
    complete⟩

/-! ## The common part of the products -/

/-- What a system that combines two systems has in common with them, whatever its moves are. -/
structure Combines (left right product : System) : Prop where
  coherent : product.Coherent
  kind : product.kind = left.kind
  isMutable : product.isMutable = false
  /-- The initial states are the pairs of initial states. -/
  mem_initial_iff : ∀ state, state ∈ product.initial ↔
    ∃ first ∈ left.initial, ∃ second ∈ right.initial, state = .pair first second
  mem_propositions_iff : ∀ proposition, proposition ∈ product.propositions ↔
    proposition ∈ left.propositions ∨ proposition ∈ right.propositions
  /-- What holds in a pair holds in one of its parts. -/
  holding : ∀ first second, .pair first second ∈ product.states →
    ∀ proposition, proposition ∈ product.holding (.pair first second) ↔
      proposition ∈ left.holding first ∨ proposition ∈ right.holding second
  /-- A pair is unlabeled when both of its parts are. -/
  unlabeled : ∀ first second, .pair first second ∈ product.states →
    (product.label? (.pair first second) = none ↔
      left.label? first = none ∧ right.label? second = none)

/-- The product with given moves succeeds, and its system is the part of the pairs that can be
reached. -/
theorem productWith_spec (operation sign : Text) (within : MovesWithin combine moves left right)
    (coherent : left.Coherent) (coherent' : right.Coherent) (kinds : left.kind = right.kind)
    (flag : left.isMutable = false) (flag' : right.isMutable = false) :
    ∃ product, productWith operation sign combine moves left right = .ok product ∧
      Combines left right product.system ∧
      Schema.Combines combine left.schema right.schema product.system.schema ∧
      (productRules moves left right).ReachablePart product.system.schema
        (left.name ++ sign ++ right.name) product.system := by
  obtain ⟨alphabets, zipped, combines⟩ := Schema.exists_combines kinds combine
  obtain ⟨after, explored, part⟩ := Rules.explore_reachablePart
    (within.admissible coherent coherent' combines) (left.name ++ sign ++ right.name)
  refine ⟨{ system := after.system, stats := after.stats }, ?_, ?_, ?_, ?_⟩
  · apply productWith_eq_ok operation sign zipped
    rw [flag, flag']
    exact explored
  · exact {
      coherent := part.coherent
      kind := by rw [kind, part.schema]; exact combines.kind
      isMutable := part.isMutable
      mem_initial_iff := by
        intro state
        simp only [part.initial, OrderedSet.mem_ofList, List.mem_map]
        constructor
        · rintro ⟨pair, listed, rfl⟩
          obtain ⟨first, second⟩ := mem_initialPairs.1 listed
          exact ⟨pair.1, first, pair.2, second, rfl⟩
        · rintro ⟨first, member, second, member', rfl⟩
          exact ⟨(first, second), mem_initialPairs.2 ⟨member, member'⟩, rfl⟩
      mem_propositions_iff := by
        intro proposition
        rw [propositions, part.schema]
        exact OrderedSet.mem_union
      holding := by
        intro first second member proposition
        rw [System.holding, part.label? first second (part.pair_mem_states_iff.1 member)]
        exact mem_jointLabel
      unlabeled := by
        intro first second member
        rw [part.label? first second (part.pair_mem_states_iff.1 member)]
        exact jointLabel_eq_none_iff }
  · rw [part.schema]
    exact combines
  · exact { part with schema := rfl }

end TransitionSystems.System
