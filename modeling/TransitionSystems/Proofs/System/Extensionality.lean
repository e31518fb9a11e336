import TransitionSystems.Proofs.System.Coherence

/-!
# Reachable systems are determined by what they list

The label map, the set of transitions and the index of leaving transitions are kept beside the lists
of states and transitions. In a reachable system they hold nothing else, so two reachable systems
with the same lists, labels, universe, flags, name and factors are equal.
-/

namespace TransitionSystems.System

variable {system next : System}

/-! ## The index of leaving transitions -/

/-- Only states that transitions leave are in the index. -/
def Indexed (system : System) : Prop :=
  ∀ (source : Symbol) (positions : Array Nat),
    system.outgoing[source]? = some positions → positions ≠ #[]

theorem indexed_empty (schema : Schema) (name : Text) (isMutable : Bool) :
    (System.empty schema name isMutable).Indexed := by
  intro source positions found
  simp [empty] at found

theorem Indexed.putTransition (indexed : system.Indexed) (transition : Transition) :
    (system.putTransition transition).Indexed := by
  intro source positions found
  rw [System.putTransition] at found
  split at found
  · exact indexed source positions found
  · rw [Std.ExtTreeMap.getElem?_insert] at found
    split at found
    · obtain rfl := Option.some.inj found
      exact Array.push_ne_empty
    · exact indexed source positions found

theorem Indexed.evolves (indexed : system.Indexed) (evolves : system.Evolves next) :
    next.Indexed := by
  induction evolves with
  | refl => exact indexed
  | tail _ change induction =>
      cases change with
      | transition => exact induction.putTransition _
      | state | initial | growth | factors | name | flag => exact induction

theorem Reachable.indexed (reachable : system.Reachable) : system.Indexed := by
  induction reachable with
  | fresh schema name isMutable => exact indexed_empty schema name isMutable
  | @update system update _ induction => exact induction.evolves (system.evolves_run [update])
  | @merge target source _ _ induction _ => exact induction.evolves (target.evolves_merge source)

theorem Indexed.getElem?_outgoing (indexed : system.Indexed) (source : Symbol) :
    system.outgoing[source]? =
      if system.positions source = #[] then none else some (system.positions source) := by
  rw [positions, Std.ExtTreeMap.getD_eq_getD_getElem?]
  cases found : system.outgoing[source]? with
  | none => rfl
  | some positions => exact (if_neg (indexed source positions found)).symm

theorem Coherent.getElem?_labels (coherent : system.Coherent) (state : Symbol) :
    system.labels[state]? = if state ∈ system.states then some (system.label? state) else none := by
  split
  · next member =>
      rw [coherent.mem_states_iff, mem_labels_iff_getElem?] at member
      obtain ⟨labeling, found⟩ := member
      rw [label?, found, Option.join_some]
  · next absent =>
      rw [coherent.mem_states_iff] at absent
      exact Std.ExtTreeMap.getElem?_eq_none absent

/-! ## Equal systems -/

theorem Coherent.positions_eq {left right : System} (coherent : left.Coherent)
    (coherent' : right.Coherent) (transitions : left.transitions = right.transitions)
    (source : Symbol) : left.positions source = right.positions source := by
  have lists : (left.positions source).toList = (right.positions source).toList := by
    refine (coherent.ascending source).eq_of_mem_iff (coherent'.ascending source) fun place => ?_
    rw [Array.mem_toList_iff, Array.mem_toList_iff, coherent.mem_positions_iff,
      coherent'.mem_positions_iff, transitions]
  exact Array.toList_inj.1 lists

/-- Reachable systems that list the same are equal. -/
theorem Reachable.ext {left right : System} (reachable : left.Reachable)
    (reachable' : right.Reachable) (schema : left.schema = right.schema)
    (name : left.name = right.name) (isMutable : left.isMutable = right.isMutable)
    (states : left.states.toList = right.states.toList)
    (label? : ∀ state, left.label? state = right.label? state)
    (initial : left.initial = right.initial)
    (transitions : left.transitions.toList = right.transitions.toList)
    (factors : left.factors = right.factors) : left = right := by
  have states : left.states = right.states := Array.toList_inj.1 states
  have transitions : left.transitions = right.transitions := Array.toList_inj.1 transitions
  have labels : left.labels = right.labels := by
    apply Std.ExtTreeMap.ext_getElem?
    intro state
    rw [reachable.coherent.getElem?_labels, reachable'.coherent.getElem?_labels, states, label?]
  have edges : left.edges = right.edges := by
    apply Std.ExtTreeSet.ext_mem
    intro transition
    rw [reachable.coherent.mem_edges_iff, reachable'.coherent.mem_edges_iff, transitions]
  have outgoing : left.outgoing = right.outgoing := by
    apply Std.ExtTreeMap.ext_getElem?
    intro source
    rw [reachable.indexed.getElem?_outgoing, reachable'.indexed.getElem?_outgoing,
      reachable.coherent.positions_eq reachable'.coherent transitions]
  cases left
  cases right
  simp_all

end TransitionSystems.System
