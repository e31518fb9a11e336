import Mathlib.Logic.Equiv.Prod
import TransitionSystems.Proofs.Product.Combination
import TransitionSystems.Proofs.System.Graph

/-!
# Graphs behind products

A product of two systems presents a graph on the pairs of states of their graphs, as soon as its
moves follow the edges of this graph: what can be reached in the product lies over what can be
reached in its operands. So the laws of products are those of graphs on pairs, where they change the
terms in which states and values are given.
-/

namespace TransitionSystems.Graph

variable {α β γ α' β' γ' α'' β'' : Type} {first : Graph α β} {second : Graph α' β'}
  {third : Graph α'' β''}

/-! ## Graphs on pairs -/

/-- A graph on the pairs of states of two graphs, with given edges and values. -/
def combine (first : Graph α β) (second : Graph α' β')
    (edge : α × α' → α × α' → (Text → Option γ) → Prop) (admits : Text → γ → Prop) :
    Graph (α × α') γ where
  kind := first.kind
  initial state := first.initial state.1 ∧ second.initial state.2
  label state := System.uniteLabels (first.label state.1) (second.label state.2)
  edge := edge
  proposition proposition := first.proposition proposition ∨ second.proposition proposition
  admits := admits

section

variable {edge : α × α' → α × α' → (Text → Option γ) → Prop} {admits : Text → γ → Prop}

/-- Swapping pairs of states makes no difference when it makes none to edges and values. -/
theorem combine_comm {edge' : α' × α → α' × α → (Text → Option γ') → Prop}
    {admits' : Text → γ' → Prop} {onValues : γ ≃ γ'} (kinds : first.kind = second.kind)
    (there : ∀ {source target values}, edge source target values →
      edge' source.swap target.swap (mapValues onValues values))
    (back : ∀ {source target values}, edge' source target values →
      edge source.swap target.swap (mapValues onValues.symm values))
    (values : ∀ field value, admits' field (onValues value) ↔ admits field value) :
    Same (.prodComm α α') onValues (first.combine second edge admits)
      (second.combine first edge' admits') where
  kind := kinds.symm
  initial _ := and_comm
  label _ := System.uniteLabels_comm _ _
  edge := edge_iff_of_imp there back
  proposition _ := or_comm
  admits := values

end

theorem combine_assoc {left : α × α' → α × α' → (Text → Option γ) → Prop}
    {right : α' × α'' → α' × α'' → (Text → Option γ') → Prop} {lefts : Text → γ → Prop}
    {rights : Text → γ' → Prop} {δ δ' : Type}
    {edge : (α × α') × α'' → (α × α') × α'' → (Text → Option δ) → Prop}
    {edge' : α × α' × α'' → α × α' × α'' → (Text → Option δ') → Prop} {admits : Text → δ → Prop}
    {admits' : Text → δ' → Prop} {onValues : δ ≃ δ'}
    (there : ∀ {source target values}, edge source target values →
      edge' (Equiv.prodAssoc α α' α'' source) (Equiv.prodAssoc α α' α'' target)
        (mapValues onValues values))
    (back : ∀ {source target values}, edge' source target values →
      edge ((Equiv.prodAssoc α α' α'').symm source) ((Equiv.prodAssoc α α' α'').symm target)
        (mapValues onValues.symm values))
    (values : ∀ field value, admits' field (onValues value) ↔ admits field value) :
    Same (.prodAssoc α α' α'') onValues
      ((first.combine second left lefts).combine third edge admits)
      (first.combine (second.combine third right rights) edge' admits') where
  kind := rfl
  initial _ := and_assoc.symm
  label _ := (System.uniteLabels_assoc _ _ _).symm
  edge := edge_iff_of_imp there back
  proposition _ := or_assoc.symm
  admits := values

/-! ## Names of pairs -/

/-- Names for pairs. -/
def namePair (name : α → Symbol) (name' : α' → Symbol) (pair : α × α') : Symbol :=
  .pair (name pair.1) (name' pair.2)

theorem namePair_injective {name : α → Symbol} {name' : α' → Symbol}
    (injective : Function.Injective name) (injective' : Function.Injective name') :
    Function.Injective (namePair name name') := by
  intro pair pair' same
  obtain ⟨same, same'⟩ := Symbol.pair_inj.1 same
  exact Prod.ext (injective same) (injective' same')

/-! ## Products -/

/-- The moves of a product follow edges between the pairs of states of two graphs. -/
structure Follows (first : Graph α β) (second : Graph α' β') (nameState : α → Symbol)
    (nameState' : α' → Symbol) (nameValue : γ → Symbol)
    (moves : System → System → Symbol → Symbol → List Move) (left right : System)
    (edge : α × α' → α × α' → (Text → Option γ) → Prop) : Prop where
  fields_sublist : ∀ state state', ∀ move ∈ moves left right state state',
    move.label.fields.Sublist left.kind.fields
  /-- Edges lead from what both graphs reach to what both of them reach. -/
  stays : ∀ source target values, edge source target values → first.Reaches source.1 →
    second.Reaches source.2 → first.Reaches target.1 ∧ second.Reaches target.2
  sound : ∀ source, first.Reaches source.1 → second.Reaches source.2 →
    ∀ move ∈ moves left right (nameState source.1) (nameState' source.2),
      ∃ target values, edge source target values ∧
        move.target = (nameState target.1, nameState' target.2) ∧
        Names nameValue values move.label
  complete : ∀ source target values, first.Reaches source.1 → second.Reaches source.2 →
    edge source target values →
      ∃ label, ⟨nameState target.1, nameState' target.2, label⟩ ∈
          moves left right (nameState source.1) (nameState' source.2) ∧
        Names nameValue values label

namespace Follows

variable {nameState : α → Symbol} {nameState' : α' → Symbol} {nameLeft : β → Symbol}
  {nameRight : β' → Symbol} {nameValue : γ → Symbol}
  {moves : System → System → Symbol → Symbol → List Move} {left right : System}
  {edge : α × α' → α × α' → (Text → Option γ) → Prop} {admits : Text → γ → Prop}

theorem reaches_parts
    (follows : Follows first second nameState nameState' nameValue moves left right edge)
    {state : α × α'} (reaches : (first.combine second edge admits).Reaches state) :
    first.Reaches state.1 ∧ second.Reaches state.2 := by
  induction reaches with
  | initial member => exact ⟨.initial member.1, .initial member.2⟩
  | step _ edge induction => exact follows.stays _ _ _ edge induction.1 induction.2

/-- The pairs of names that are explored are those of the pairs of states that can be reached. -/
theorem reaches_iff
    (follows : Follows first second nameState nameState' nameValue moves left right edge)
    (within : first.IsWithin nameState nameLeft left)
    (within' : second.IsWithin nameState' nameRight right) {pair : Symbol × Symbol} :
    (System.productRules moves left right).Reaches pair ↔
      ∃ state, (first.combine second edge admits).Reaches state ∧
        pair = (nameState state.1, nameState' state.2) := by
  constructor
  · intro reaches
    induction reaches with
    | @initial pair member =>
        obtain ⟨listed, listed'⟩ := System.mem_initialPairs.1 member
        obtain ⟨state, initial, named⟩ := (within.mem_initial_iff _).1 listed
        obtain ⟨state', initial', named'⟩ := (within'.mem_initial_iff _).1 listed'
        exact ⟨(state, state'), .initial ⟨initial, initial'⟩, Prod.ext named named'⟩
    | step _ listed induction =>
        obtain ⟨state, reaches, rfl⟩ := induction
        obtain ⟨reached, reached'⟩ := follows.reaches_parts reaches
        obtain ⟨target, values, edge, named, -⟩ := follows.sound state reached reached' _ listed
        exact ⟨target, .step reaches edge, named⟩
  · rintro ⟨state, reaches, rfl⟩
    induction reaches with
    | initial member =>
        exact .initial (System.mem_initialPairs.2
          ⟨(within.mem_initial_iff _).2 ⟨_, member.1, rfl⟩,
            (within'.mem_initial_iff _).2 ⟨_, member.2, rfl⟩⟩)
    | step reaches edge induction =>
        obtain ⟨reached, reached'⟩ := follows.reaches_parts reaches
        obtain ⟨label, listed, -⟩ := follows.complete _ _ _ reached reached' edge
        exact .step induction listed

/-- A product whose moves follow the edges succeeds, and it consists of the part of the graph on
pairs that can be reached. -/
theorem exists_productWith
    (follows : Follows first second nameState nameState' nameValue moves left right edge)
    (within : first.IsWithin nameState nameLeft left)
    (within' : second.IsWithin nameState' nameRight right) (operation sign : Text)
    {unite : OrderedSet → OrderedSet → OrderedSet}
    (moves_within : System.MovesWithin unite moves left right) (kinds : left.kind = right.kind)
    (flag : left.isMutable = false) (flag' : right.isMutable = false)
    (values : ∀ schema, Schema.Combines unite left.schema right.schema schema →
      ∀ field symbol, schema.Admits field symbol ↔
        ∃ value, admits field value ∧ symbol = nameValue value) :
    ∃ product, System.productWith operation sign unite moves left right = .ok product ∧
      product.system.isMutable = false ∧
      (first.combine second edge admits).Presents (namePair nameState nameState') nameValue
        product.system := by
  obtain ⟨product, built, combines, schemas, part⟩ := System.productWith_spec operation sign
    moves_within within.coherent within'.coherent kinds flag flag'
  have reaches_iff (pair : Symbol × Symbol) :
      (System.productRules moves left right).Reaches pair ↔
        ∃ state, (first.combine second edge admits).Reaches state ∧
          pair = (nameState state.1, nameState' state.2) := follows.reaches_iff within within'
  have arranged {state state' : Symbol} {move : Move}
      (listed : move ∈ moves left right state state') :
      product.system.schema.arrange move.label = move.label :=
    schemas.arrange_eq_self (follows.fields_sublist state state' move listed)
  refine ⟨product, built, combines.isMutable, ?_⟩
  exact {
    coherent := combines.coherent
    kind := combines.kind.trans within.kind
    mem_initial_iff := by
      intro symbol
      rw [combines.mem_initial_iff]
      simp only [within.mem_initial_iff, within'.mem_initial_iff]
      constructor
      · rintro ⟨_, ⟨state, initial, rfl⟩, _, ⟨state', initial', rfl⟩, rfl⟩
        exact ⟨(state, state'), ⟨initial, initial'⟩, rfl⟩
      · rintro ⟨state, initial, rfl⟩
        exact ⟨_, ⟨state.1, initial.1, rfl⟩, _, ⟨state.2, initial.2, rfl⟩, rfl⟩
    label? := by
      intro state reaches
      obtain ⟨first_reaches, second_reaches⟩ := follows.reaches_parts reaches
      rw [namePair, part.label? _ _ ((reaches_iff _).2 ⟨state, reaches, rfl⟩)]
      change System.jointLabel left right _ _ = _
      rw [System.jointLabel_eq_uniteLabels, within.label? _ first_reaches,
        within'.label? _ second_reaches]
      rfl
    sound := by
      intro source reaches transition member start
      obtain ⟨symbol, symbol', -, move, listed, rfl⟩ := (part.mem_transitions_iff _).1 member
      obtain ⟨rfl, rfl⟩ := Symbol.pair_inj.1 start
      obtain ⟨first_reaches, second_reaches⟩ := follows.reaches_parts reaches
      obtain ⟨target, values, edge, named, names⟩ :=
        follows.sound source first_reaches second_reaches move listed
      refine ⟨target, values, edge, congrArg (fun pair => Symbol.pair pair.1 pair.2) named, ?_⟩
      change Names nameValue values (product.system.schema.arrange move.label)
      rwa [arranged listed]
    complete := by
      intro source target values reaches edge
      obtain ⟨first_reaches, second_reaches⟩ := follows.reaches_parts reaches
      obtain ⟨label, listed, names⟩ :=
        follows.complete source target values first_reaches second_reaches edge
      have reached := (reaches_iff _).2 ⟨source, reaches, rfl⟩
      refine ⟨_, (part.mem_transitions_iff _).2 ⟨_, _, reached, _, listed, rfl⟩, rfl, rfl, ?_⟩
      change Names nameValue values (product.system.schema.arrange label)
      rwa [arranged listed]
    mem_propositions_iff := by
      intro proposition
      rw [combines.mem_propositions_iff, within.mem_propositions_iff, within'.mem_propositions_iff]
      rfl
    admits_iff := values _ schemas
    mem_states_iff := by
      intro symbol
      rw [part.mem_states_iff]
      simp only [reaches_iff]
      constructor
      · rintro ⟨_, _, ⟨state, reaches, same⟩, rfl⟩
        obtain ⟨rfl, rfl⟩ := Prod.mk.inj same
        exact ⟨state, reaches, rfl⟩
      · rintro ⟨state, reaches, rfl⟩
        exact ⟨_, _, ⟨state, reaches, rfl⟩, rfl⟩ }

end Follows

end TransitionSystems.Graph
