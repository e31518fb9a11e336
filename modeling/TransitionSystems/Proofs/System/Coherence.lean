import Mathlib.Data.List.Sort
import TransitionSystems.Proofs.Positions
import TransitionSystems.Proofs.System.Changes

/-!
# Coherent systems

A system keeps its states, labels and transitions in several containers. It is coherent when these
agree with each other and with the universe. The system without states is coherent and every change
keeps a system coherent, so every system that updates and merges lead to is.
-/

namespace TransitionSystems.System

/-- The containers of a system agree with each other and with its universe. -/
structure Coherent (system : System) : Prop where
  nodup_states : system.states.toList.Nodup
  /-- The listed states are those of the label map. -/
  mem_states_iff : ∀ state, state ∈ system.states ↔ state ∈ system.labels
  label_subset : ∀ state label, system.label? state = some label →
    ∀ proposition ∈ label, proposition ∈ system.propositions
  initial_subset : ∀ state ∈ system.initial, state ∈ system.states
  ends : ∀ transition ∈ system.transitions,
    transition.source ∈ system.states ∧ transition.target ∈ system.states
  /-- Labels have fields of the kind only, in its order and none of them twice. -/
  fields_sublist : ∀ transition ∈ system.transitions,
    transition.label.fields.Sublist system.kind.fields
  values : ∀ transition ∈ system.transitions, ∀ entry ∈ transition.label.entries,
    system.schema.Admits entry.1 entry.2
  nodup_transitions : system.transitions.toList.Nodup
  /-- The listed transitions are those of the index that finds repetitions. -/
  mem_edges_iff : ∀ transition, transition ∈ system.edges ↔ transition ∈ system.transitions
  ascending : ∀ source, (system.positions source).toList.Pairwise (· < ·)
  /-- The positions of a state are those of the transitions that leave it. -/
  mem_positions_iff : ∀ source place, place ∈ system.positions source ↔
    ∃ transition, system.transitions[place]? = some transition ∧ transition.source = source
  factors_subset : ∀ state ∈ system.factors, state ∈ system.states

theorem coherent_empty (schema : Schema) (name : Text) (isMutable : Bool) :
    (System.empty schema name isMutable).Coherent where
  nodup_states := .nil
  mem_states_iff := by simp [empty]
  label_subset := by simp [empty, label?]
  initial_subset := by simp [empty]
  ends := by simp [empty]
  fields_sublist := by simp [empty]
  values := by simp [empty]
  nodup_transitions := .nil
  mem_edges_iff := by simp [empty]
  ascending := by simp [empty, positions]
  mem_positions_iff := by simp [empty, positions]
  factors_subset := by simp [empty]

namespace Coherent

variable {system : System}

/-! ## States and labels -/

theorem mem_putState (coherent : system.Coherent) {state other : Symbol} {label : Option Label} :
    other ∈ (system.putState state label).states ↔ other = state ∨ other ∈ system.states := by
  rw [putState]
  split
  · next known =>
      have present := (coherent.mem_states_iff state).2 (hasState_iff.1 known)
      constructor
      · exact .inr
      · rintro (rfl | member)
        · exact present
        · exact member
  · rw [Array.mem_push, or_comm]

theorem putState (coherent : system.Coherent) (state : Symbol) {label : Option Label}
    (known : ∀ given, label = some given →
      ∀ proposition ∈ given, proposition ∈ system.propositions) :
    (system.putState state label).Coherent where
  nodup_states := by
    rw [System.putState]
    split
    · exact coherent.nodup_states
    · next new =>
        rw [Array.toList_push, List.nodup_append]
        refine ⟨coherent.nodup_states, by simp, ?_⟩
        intro other member last same equal
        obtain rfl := List.mem_singleton.1 same
        rw [hasState_iff, ← coherent.mem_states_iff, Array.mem_def, ← equal] at new
        exact new member
  mem_states_iff other := by
    rw [coherent.mem_putState, coherent.mem_states_iff]
    change _ ↔ other ∈ system.labels.insert state label
    rw [Std.ExtTreeMap.mem_insert, Std.LawfulEqOrd.compare_eq_iff_eq, eq_comm]
  label_subset other given found := by
    rw [label?_eq_some_iff] at found
    simp only [System.putState, Std.ExtTreeMap.getElem?_insert] at found
    split at found
    · exact known given (Option.some.inj found)
    · exact coherent.label_subset other given (label?_eq_some_iff.2 found)
  initial_subset other member :=
    coherent.mem_putState.2 (.inr (coherent.initial_subset other member))
  ends transition member :=
    ⟨coherent.mem_putState.2 (.inr (coherent.ends transition member).1),
      coherent.mem_putState.2 (.inr (coherent.ends transition member).2)⟩
  fields_sublist := coherent.fields_sublist
  values := coherent.values
  nodup_transitions := coherent.nodup_transitions
  mem_edges_iff := coherent.mem_edges_iff
  ascending := coherent.ascending
  mem_positions_iff := coherent.mem_positions_iff
  factors_subset other member :=
    coherent.mem_putState.2 (.inr (coherent.factors_subset other member))

/-! ## Transitions -/

theorem putTransition (coherent : system.Coherent) {transition : Transition}
    (ends : transition.source ∈ system.states ∧ transition.target ∈ system.states)
    (fields : transition.label.fields.Sublist system.kind.fields)
    (values : ∀ entry ∈ transition.label.entries, system.schema.Admits entry.1 entry.2) :
    (system.putTransition transition).Coherent := by
  by_cases present : transition ∈ system.edges
  · rwa [System.putTransition, if_pos present]
  have new : transition ∉ system.transitions := mt (coherent.mem_edges_iff transition).2 present
  have index : IsIndex Transition.source system.transitions system.outgoing :=
    ⟨coherent.ascending, coherent.mem_positions_iff⟩
  have pushed := index.push transition
  rw [System.putTransition, if_neg present]
  refine { coherent with
    ends := ?_, fields_sublist := ?_, values := ?_, nodup_transitions := ?_, mem_edges_iff := ?_,
    ascending := ?_, mem_positions_iff := ?_ }
  · intro other member
    rcases Array.mem_push.1 member with member | rfl
    · exact coherent.ends other member
    · exact ends
  · intro other member
    rcases Array.mem_push.1 member with member | rfl
    · exact coherent.fields_sublist other member
    · exact fields
  · intro other member
    rcases Array.mem_push.1 member with member | rfl
    · exact coherent.values other member
    · exact values
  · rw [Array.toList_push, List.nodup_append]
    refine ⟨coherent.nodup_transitions, by simp, ?_⟩
    intro other member last same equal
    obtain rfl := List.mem_singleton.1 same
    exact new (Array.mem_def.2 (equal ▸ member))
  · intro other
    rw [Std.ExtTreeSet.mem_insert, Std.LawfulEqOrd.compare_eq_iff_eq, Array.mem_push,
      coherent.mem_edges_iff, or_comm, eq_comm]
  · exact pushed.ascending
  · exact pushed.mem_iff

/-! ## Other changes -/

theorem putInitial (coherent : system.Coherent) {states : List Symbol}
    (known : ∀ state ∈ states, state ∈ system.labels) :
    Coherent { system with initial := system.initial.insertMany states } :=
  { coherent with
    initial_subset := by
      intro state member
      rcases OrderedSet.mem_insertMany.1 member with member | member
      · exact coherent.initial_subset state member
      · exact (coherent.mem_states_iff state).2 (known state member) }

theorem extend (coherent : system.Coherent) {schema : Schema}
    (extends' : system.schema.Extends schema) : Coherent { system with schema := schema } :=
  { coherent with
    label_subset := fun state label found proposition member =>
      extends'.propositions proposition
        (coherent.label_subset state label found proposition member)
    fields_sublist := fun transition member =>
      (congrArg Kind.fields extends'.kind).symm ▸ coherent.fields_sublist transition member
    values := fun transition member entry listed =>
      extends'.values entry.1 entry.2 (coherent.values transition member entry listed) }

theorem putFactors (coherent : system.Coherent) {state : Symbol} (factors : Symbol × Symbol)
    (known : state ∈ system.labels) :
    Coherent { system with factors := system.factors.insert state factors } :=
  { coherent with
    factors_subset := by
      intro other member
      rw [Std.ExtTreeMap.mem_insert, Std.LawfulEqOrd.compare_eq_iff_eq] at member
      rcases member with rfl | member
      · exact (coherent.mem_states_iff state).2 known
      · exact coherent.factors_subset other member }

/-- A change keeps a system coherent. -/
theorem change {next : System} (coherent : system.Coherent) (change : system.Change next) :
    next.Coherent := by
  cases change with
  | state state label known => exact coherent.putState state known
  | initial states known => exact coherent.putInitial known
  | transition source target label source_mem target_mem admits =>
      have ends := And.intro ((coherent.mem_states_iff source).2 source_mem)
        ((coherent.mem_states_iff target).2 target_mem)
      refine coherent.putTransition ends (system.schema.fields_arrange_sublist label) ?_
      intro entry member
      rw [← EdgeLabel.get?_eq_some_iff, Schema.get?_arrange] at member
      split at member
      · exact admits entry (EdgeLabel.get?_eq_some_iff.1 member)
      · cases member
  | growth schema extends' => exact coherent.extend extends'
  | factors state first second known => exact coherent.putFactors (first, second) known
  | name name => exact { coherent with }
  | flag isMutable => exact { coherent with }

theorem evolves {next : System} (coherent : system.Coherent) (evolves : system.Evolves next) :
    next.Coherent := by
  induction evolves with
  | refl => exact coherent
  | tail _ change induction => exact induction.change change

end Coherent

theorem Coherent.mem_propositions {system : System} (coherent : system.Coherent)
    {state proposition : Symbol} (holds : proposition ∈ system.holding state) :
    proposition ∈ system.propositions := by
  rw [holding] at holds
  cases found : system.label? state with
  | none => simp [found] at holds
  | some label =>
      rw [found, Option.getD_some] at holds
      exact coherent.label_subset state label found proposition holds

/-- The transitions that leave a state are found through their positions. -/
theorem Coherent.mem_leaving_iff {system : System} (coherent : system.Coherent) {source : Symbol}
    {transition : Transition} :
    transition ∈ system.leaving source ↔
      transition ∈ system.transitions ∧ transition.source = source := by
  rw [leaving, List.mem_filterMap]
  constructor
  · rintro ⟨place, listed, found⟩
    rw [Array.mem_toList_iff, coherent.mem_positions_iff] at listed
    obtain ⟨other, found', same⟩ := listed
    obtain rfl := Option.some.inj (found.symm.trans found')
    exact ⟨Array.mem_of_getElem? found, same⟩
  · rintro ⟨member, same⟩
    obtain ⟨place, found⟩ := Array.mem_iff_getElem?.1 member
    refine ⟨place, ?_, found⟩
    rw [Array.mem_toList_iff, coherent.mem_positions_iff]
    exact ⟨transition, found, same⟩

theorem Change.extends_schema {system next : System} (change : system.Change next) :
    system.schema.Extends next.schema := by
  cases change with
  | transition =>
      rw [putTransition]
      split <;> exact .refl _
  | growth schema extends' => exact extends'
  | state | initial | factors | name | flag => exact .refl _

theorem Evolves.extends_schema {system next : System} (evolves : system.Evolves next) :
    system.schema.Extends next.schema := by
  induction evolves with
  | refl => exact .refl _
  | tail _ change induction => exact induction.trans change.extends_schema

/-! ## Reachable systems -/

/-- The systems that updates and merges lead to from systems without states. Failures count: they
leave the system behind that was there when they occurred. -/
inductive Reachable : System → Prop
  | fresh (schema : Schema) (name : Text) (isMutable : Bool) :
      Reachable (.empty schema name isMutable)
  | update {system : System} (update : Update) (reachable : Reachable system) :
      Reachable (system.run [update]).2
  | merge {target source : System} (reachable : Reachable target) (reachable' : Reachable source) :
      Reachable (target.merge source).2

/-- The systems that a call leads to: an update, or a merge with a reachable system. -/
inductive Call (system : System) : System → Prop
  | update (update : Update) : Call system (system.run [update]).2
  | merge {source : System} (reachable : source.Reachable) : Call system (system.merge source).2

theorem Call.evolves {system next : System} (call : system.Call next) : system.Evolves next := by
  cases call with
  | update update => exact system.evolves_run [update]
  | merge _ => exact system.evolves_merge _

theorem evolves_of_calls {system later : System} (calls : Relation.ReflTransGen Call system later) :
    system.Evolves later := by
  induction calls with
  | refl => exact .refl
  | tail _ call induction => exact induction.trans call.evolves

/-- Reachable systems are coherent. -/
theorem Reachable.coherent {system : System} (reachable : system.Reachable) : system.Coherent := by
  induction reachable with
  | fresh schema name isMutable => exact coherent_empty schema name isMutable
  | @update system update _ induction => exact induction.evolves (system.evolves_run [update])
  | @merge target source _ _ induction _ => exact induction.evolves (target.evolves_merge source)

theorem Reachable.leadsTo {system next : System} (reachable : system.Reachable)
    (leads : system.LeadsTo next) : next.Reachable := by
  induction leads with
  | refl => exact reachable
  | tail _ step induction =>
      obtain ⟨update, performed⟩ := step
      have single := Reachable.update update induction
      rw [System.run, performed] at single
      exact single

/-- Runs of updates lead to reachable systems, also when they stop at a failure. -/
theorem Reachable.run {system : System} (reachable : system.Reachable) (updates : List Update) :
    (system.run updates).2.Reachable := by
  induction updates generalizing system with
  | nil => exact reachable
  | cons update updates induction =>
      rw [System.run]
      split
      · next next performed =>
          exact induction (reachable.leadsTo (leadsTo_perform update performed))
      · exact reachable

/-- A lamp that glows when its user presses the button, and that may break as long as it is
bright. -/
def lamp : System :=
  let dark : Symbol := .atom "dark"
  let bright : Symbol := .atom "bright"
  let broken : Symbol := .atom "broken"
  ((System.empty
      (.opened (.ofList [.atom "on"]) (.ofList [.atom "glow"]) (.ofList [.atom "press"]))
      "lamp").run
    [.addLabeledState dark ∅, .addLabeledState bright (.ofList [.atom "on"]), .addState broken,
      .setInitial [dark], .addActions dark bright (.atom "glow") (.atom "press"),
      .addTransition bright dark (.ofList [(environmentActionsField, .atom "press")]),
      .addTransition bright broken .unlabeled]).2

theorem reachable_lamp : lamp.Reachable :=
  (Reachable.fresh ..).run _

/-- The containers of a reachable system agree, and what its universe accepts it accepts after any
further calls, whether they succeed or fail. -/
theorem Reachable.coherent_and_labels_stay_valid {system : System} (reachable : system.Reachable) :
    system.Coherent ∧
      ∀ later, Relation.ReflTransGen Call system later →
        (∀ label, system.schema.checkLabel label = .ok () →
          later.schema.checkLabel label = .ok ()) ∧
        ∀ label, system.schema.checkEdgeLabel label = .ok () →
          later.schema.checkEdgeLabel label = .ok () := by
  refine ⟨reachable.coherent, fun later calls => ?_⟩
  have grown := (evolves_of_calls calls).extends_schema
  exact ⟨fun _ => grown.checkLabel, fun _ => grown.checkEdgeLabel⟩

/-- The containers of the lamp agree. -/
theorem lamp_coherent_and_labels_stay_valid :
    lamp.Coherent ∧
      ∀ later, Relation.ReflTransGen Call lamp later →
        (∀ label, lamp.schema.checkLabel label = .ok () →
          later.schema.checkLabel label = .ok ()) ∧
        ∀ label, lamp.schema.checkEdgeLabel label = .ok () →
          later.schema.checkEdgeLabel label = .ok () :=
  Reachable.coherent_and_labels_stay_valid reachable_lamp

end TransitionSystems.System
