import Mathlib.Logic.Equiv.Basic
import TransitionSystems.Proofs.System.Coherence
import TransitionSystems.Proofs.System.Isomorphism

/-!
# Graphs behind systems

A system gives symbols as names to the states and values of a graph, whose states may be of any
type. What systems are up to renaming can be said of their graphs: systems that name the states and
values of the same graph are isomorphic.
-/

namespace TransitionSystems

/-- A graph with labels on its states and values in the fields of its edges. -/
structure Graph (α β : Type) where
  kind : Kind
  initial : α → Prop
  label : α → Option Label
  edge : α → α → (Text → Option β) → Prop
  proposition : Symbol → Prop
  admits : Text → β → Prop

namespace Graph

variable {α β α' β' : Type}

/-- The states that edges reach from the initial states. -/
inductive Reaches (graph : Graph α β) : α → Prop
  | initial {state : α} (member : graph.initial state) : Reaches graph state
  | step {source target : α} {values : Text → Option β} (reaches : Reaches graph source)
      (edge : graph.edge source target values) : Reaches graph target

/-! ## The same graph on other types -/

/-- The values in other terms. -/
def mapValues (onValues : β → β') (values : Text → Option β) (field : Text) : Option β' :=
  (values field).map onValues

@[simp]
theorem mapValues_symm_apply (onValues : β ≃ β') (values : Text → Option β') :
    mapValues onValues (mapValues onValues.symm values) = values := by
  funext field
  simp [mapValues]

@[simp]
theorem mapValues_apply_symm (onValues : β ≃ β') (values : Text → Option β) :
    mapValues onValues.symm (mapValues onValues values) = values :=
  mapValues_symm_apply onValues.symm values

/-- Two graphs that are the same in other terms. -/
structure Same (onStates : α ≃ α') (onValues : β ≃ β') (graph : Graph α β)
    (graph' : Graph α' β') : Prop where
  kind : graph'.kind = graph.kind
  initial : ∀ state, graph'.initial (onStates state) ↔ graph.initial state
  label : ∀ state, graph'.label (onStates state) = graph.label state
  edge : ∀ source target values,
    graph'.edge (onStates source) (onStates target) (mapValues onValues values) ↔
      graph.edge source target values
  proposition : ∀ proposition, graph'.proposition proposition ↔ graph.proposition proposition
  admits : ∀ field value, graph'.admits field (onValues value) ↔ graph.admits field value

variable {graph : Graph α β} {graph' : Graph α' β'} {onStates : α ≃ α'} {onValues : β ≃ β'}

theorem edge_iff_of_imp
    (there : ∀ {source target values}, graph.edge source target values →
      graph'.edge (onStates source) (onStates target) (mapValues onValues values))
    (back : ∀ {source target values}, graph'.edge source target values →
      graph.edge (onStates.symm source) (onStates.symm target) (mapValues onValues.symm values))
    (source target : α) (values : Text → Option β) :
    graph'.edge (onStates source) (onStates target) (mapValues onValues values) ↔
      graph.edge source target values := by
  refine ⟨fun edge => ?_, there⟩
  have former := back edge
  rwa [Equiv.symm_apply_apply, Equiv.symm_apply_apply, mapValues_apply_symm] at former

theorem Same.symm (same : Same onStates onValues graph graph') :
    Same onStates.symm onValues.symm graph' graph where
  kind := same.kind.symm
  initial state := by rw [← same.initial, Equiv.apply_symm_apply]
  label state := by rw [← same.label, Equiv.apply_symm_apply]
  edge source target values := by
    rw [← same.edge, Equiv.apply_symm_apply, Equiv.apply_symm_apply, mapValues_symm_apply]
  proposition proposition := (same.proposition proposition).symm
  admits field value := by rw [← same.admits, Equiv.apply_symm_apply]

theorem Same.reaches (same : Same onStates onValues graph graph') {state : α}
    (reaches : graph.Reaches state) : graph'.Reaches (onStates state) := by
  induction reaches with
  | initial member => exact .initial ((same.initial _).2 member)
  | step _ edge induction => exact .step induction ((same.edge _ _ _).2 edge)

theorem Same.reaches_iff (same : Same onStates onValues graph graph') {state : α} :
    graph'.Reaches (onStates state) ↔ graph.Reaches state := by
  refine ⟨fun reaches => ?_, same.reaches⟩
  have back := same.symm.reaches reaches
  rwa [Equiv.symm_apply_apply] at back

/-! ## Names -/

variable {nameState : α → Symbol} {nameValue : β → Symbol} {system : System}

/-- A label names values: it has the names of the values in their fields. -/
def Names (nameValue : β → Symbol) (values : Text → Option β) (label : EdgeLabel) : Prop :=
  ∀ field, label.get? field = (values field).map nameValue

/-- A system within which the part of a graph that can be reached has names. -/
structure IsWithin (graph : Graph α β) (nameState : α → Symbol) (nameValue : β → Symbol)
    (system : System) : Prop where
  coherent : system.Coherent
  kind : system.kind = graph.kind
  mem_initial_iff : ∀ symbol,
    symbol ∈ system.initial ↔ ∃ state, graph.initial state ∧ symbol = nameState state
  label? : ∀ state, graph.Reaches state → system.label? (nameState state) = graph.label state
  /-- The transitions out of a state that can be reached are edges. -/
  sound : ∀ source, graph.Reaches source → ∀ transition ∈ system.transitions,
    transition.source = nameState source →
      ∃ target values, graph.edge source target values ∧ transition.target = nameState target ∧
        Names nameValue values transition.label
  /-- The edges out of a state that can be reached are transitions. -/
  complete : ∀ source target values, graph.Reaches source → graph.edge source target values →
    ∃ transition ∈ system.transitions, transition.source = nameState source ∧
      transition.target = nameState target ∧ Names nameValue values transition.label
  mem_propositions_iff : ∀ proposition,
    proposition ∈ system.propositions ↔ graph.proposition proposition
  admits_iff : ∀ field symbol, system.schema.Admits field symbol ↔
    ∃ value, graph.admits field value ∧ symbol = nameValue value

/-- A system that consists of the part of a graph that can be reached. -/
structure Presents (graph : Graph α β) (nameState : α → Symbol) (nameValue : β → Symbol)
    (system : System) : Prop extends graph.IsWithin nameState nameValue system where
  mem_states_iff : ∀ symbol,
    symbol ∈ system.states ↔ ∃ state, graph.Reaches state ∧ symbol = nameState state

/-- A system presents a graph in whatever terms. -/
theorem Presents.reindex {nameState : α' → Symbol} {nameValue : β' → Symbol}
    (same : Same onStates onValues graph graph')
    (presents : graph'.Presents nameState nameValue system) :
    graph.Presents (nameState ∘ onStates) (nameValue ∘ onValues) system where
  coherent := presents.coherent
  kind := presents.kind.trans same.kind
  mem_initial_iff symbol := by
    rw [presents.mem_initial_iff, onStates.surjective.exists]
    simp [same.initial]
  label? state reaches := by
    rw [← same.label]
    exact presents.label? _ (same.reaches reaches)
  sound := by
    intro source reaches transition member from_source
    obtain ⟨target, values, edge, to_target, names⟩ :=
      presents.sound _ (same.reaches reaches) transition member from_source
    refine ⟨onStates.symm target, mapValues onValues.symm values, ?_, ?_, fun field => ?_⟩
    · rwa [← same.edge, Equiv.apply_symm_apply, mapValues_symm_apply]
    · rwa [Function.comp_apply, Equiv.apply_symm_apply]
    · simpa [mapValues, Function.comp_def] using names field
  complete := by
    intro source target values reaches edge
    obtain ⟨transition, member, from_source, to_target, names⟩ :=
      presents.complete _ _ _ (same.reaches reaches) ((same.edge _ _ _).2 edge)
    refine ⟨transition, member, from_source, to_target, fun field => ?_⟩
    simpa [mapValues] using names field
  mem_propositions_iff proposition := by
    rw [presents.mem_propositions_iff, same.proposition]
  admits_iff field symbol := by
    rw [presents.admits_iff, onValues.surjective.exists]
    simp [same.admits]
  mem_states_iff symbol := by
    rw [presents.mem_states_iff, onStates.surjective.exists]
    simp [same.reaches_iff]

/-! ## Two presentations -/

section

variable {left right : System} {nameState' : α → Symbol} {nameValue' : β → Symbol}
  {renameState renameValue : Symbol → Symbol}

theorem Names.unique {values : Text → Option β} {label label' : EdgeLabel} {kind : Kind}
    (names : Names nameValue values label) (names' : Names nameValue values label')
    (sublist : label.fields.Sublist kind.fields) (sublist' : label'.fields.Sublist kind.fields) :
    label = label' := by
  refine EdgeLabel.ext_of_sublist sublist sublist' fun field => ?_
  rw [names field, names' field]

theorem Names.map (onValues : ∀ value, renameValue (nameValue value) = nameValue' value)
    {values : Text → Option β} {label : EdgeLabel} (names : Names nameValue values label) :
    Names nameValue' values (label.map renameValue) := by
  intro field
  rw [EdgeLabel.get?_map, names field, Option.map_map]
  congr 1
  funext value
  exact onValues value

/-- The transitions of a presentation are the named edges out of what can be reached. -/
theorem Presents.mem_transitions_iff (presents : graph.Presents nameState nameValue system)
    (transition : Transition) :
    transition ∈ system.transitions ↔
      transition.label.fields.Sublist graph.kind.fields ∧
        ∃ source target values, graph.Reaches source ∧ graph.edge source target values ∧
          transition.source = nameState source ∧ transition.target = nameState target ∧
          Names nameValue values transition.label := by
  rw [← presents.kind]
  constructor
  · intro member
    obtain ⟨source, reaches, start⟩ :=
      (presents.mem_states_iff _).1 (presents.coherent.ends transition member).1
    obtain ⟨target, values, edge, stop, names⟩ :=
      presents.sound source reaches transition member start
    exact ⟨presents.coherent.fields_sublist transition member,
      source, target, values, reaches, edge, start, stop, names⟩
  · obtain ⟨before, after, label⟩ := transition
    rintro ⟨sublist, source, target, values, reaches, edge, rfl, rfl, names⟩
    obtain ⟨⟨_, _, label'⟩, member, rfl, rfl, names'⟩ :=
      presents.complete source target values reaches edge
    obtain rfl : label = label' :=
      names.unique names' sublist (presents.coherent.fields_sublist _ member)
    exact member

/-- Systems that present the same graph are isomorphic. -/
theorem Presents.isIsomorphism (presents : graph.Presents nameState nameValue left)
    (presents' : graph.Presents nameState' nameValue' right)
    (injective : Function.Injective nameState) (injective' : Function.Injective nameState')
    (onStates : ∀ state, renameState (nameState state) = nameState' state)
    (onValues : ∀ value, renameValue (nameValue value) = nameValue' value) :
    System.IsIsomorphism renameState renameValue left right where
  kind := presents'.kind.trans presents.kind.symm
  states := by
    refine ⟨?_, ?_, ?_⟩
    · intro symbol member
      obtain ⟨state, reaches, rfl⟩ := (presents.mem_states_iff symbol).1 member
      rw [onStates]
      exact (presents'.mem_states_iff _).2 ⟨state, reaches, rfl⟩
    · intro symbol member symbol' member' same
      obtain ⟨state, -, rfl⟩ := (presents.mem_states_iff symbol).1 member
      obtain ⟨state', -, rfl⟩ := (presents.mem_states_iff symbol').1 member'
      rw [onStates, onStates] at same
      rw [injective' same]
    · intro symbol member
      obtain ⟨state, reaches, rfl⟩ := (presents'.mem_states_iff symbol).1 member
      exact ⟨nameState state, (presents.mem_states_iff _).2 ⟨state, reaches, rfl⟩,
        onStates state⟩
  initial := by
    intro symbol member
    obtain ⟨state, -, rfl⟩ := (presents.mem_states_iff symbol).1 member
    rw [onStates, presents'.mem_initial_iff, presents.mem_initial_iff]
    simp only [injective.eq_iff, injective'.eq_iff]
  label? := by
    intro symbol member
    obtain ⟨state, reaches, rfl⟩ := (presents.mem_states_iff symbol).1 member
    rw [onStates, presents'.label? state reaches, presents.label? state reaches]
  mem_transitions_iff := by
    intro transition
    rw [presents'.mem_transitions_iff]
    constructor
    · obtain ⟨before, after, label⟩ := transition
      rintro ⟨sublist, source, target, values, reaches, edge, rfl, rfl, names⟩
      obtain ⟨former, member, start, stop, names'⟩ :=
        presents.complete source target values reaches edge
      have sublist' := ((presents.mem_transitions_iff former).1 member).1
      refine ⟨former, member, ?_⟩
      rw [Transition.rename, start, stop, onStates, onStates]
      exact congrArg _ (names.unique (names'.map onValues) sublist (by rwa [EdgeLabel.fields_map]))
    · rintro ⟨former, member, rfl⟩
      obtain ⟨sublist, source, target, values, reaches, edge, start, stop, names⟩ :=
        (presents.mem_transitions_iff former).1 member
      refine ⟨by rwa [Transition.rename, EdgeLabel.fields_map], source, target, values, reaches,
        edge, ?_, ?_, names.map onValues⟩
      · rw [Transition.rename, start, onStates]
      · rw [Transition.rename, stop, onStates]
  mem_propositions_iff proposition := by
    rw [presents'.mem_propositions_iff, presents.mem_propositions_iff]
  admits_iff field symbol := by
    rw [presents'.admits_iff]
    constructor
    · rintro ⟨value, admits, rfl⟩
      exact ⟨nameValue value, (presents.admits_iff _ _).2 ⟨value, admits, rfl⟩,
        (onValues value).symm⟩
    · rintro ⟨former, listed, rfl⟩
      obtain ⟨value, admits, rfl⟩ := (presents.admits_iff _ _).1 listed
      exact ⟨value, admits, onValues value⟩

end

end Graph

/-! ## The graph of a system -/

/-- The graph with the states and transitions of a system. -/
def System.graph (system : System) : Graph Symbol Symbol where
  kind := system.kind
  initial state := state ∈ system.initial
  label := system.label?
  edge source target values := ∃ transition ∈ system.transitions,
    transition.source = source ∧ transition.target = target ∧ values = transition.label.get?
  proposition proposition := proposition ∈ system.propositions
  admits := system.schema.Admits

theorem System.Coherent.graph_isWithin {system : System} (coherent : system.Coherent) :
    system.graph.IsWithin id id system where
  coherent := coherent
  kind := rfl
  mem_initial_iff symbol := by simp [graph]
  label? state _ := rfl
  sound := by
    rintro _ - transition member rfl
    exact ⟨transition.target, _, ⟨transition, member, rfl, rfl, rfl⟩, rfl, fun field => by simp⟩
  complete := by
    rintro _ _ _ - ⟨transition, member, rfl, rfl, rfl⟩
    exact ⟨transition, member, rfl, rfl, fun field => by simp⟩
  mem_propositions_iff _ := Iff.rfl
  admits_iff field symbol := by simp [graph]

end TransitionSystems
