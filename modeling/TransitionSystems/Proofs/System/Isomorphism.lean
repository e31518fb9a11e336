import Mathlib.Data.Set.Function
import TransitionSystems.Proofs.Schema
import TransitionSystems.System.Basic

/-!
# Isomorphic systems

A transition is renamed by renaming its ends and the values of its label. Two systems are isomorphic
when renaming the parts of the one gives the parts of the other.
-/

namespace TransitionSystems

namespace EdgeLabel

/-- The label with the same fields and changed values. -/
def map (change : Symbol → Symbol) (label : EdgeLabel) : EdgeLabel where
  entries := label.entries.map fun entry => (entry.1, change entry.2)
  nodup := by
    rw [List.map_map]
    exact label.nodup

variable {change : Symbol → Symbol} {label : EdgeLabel}

@[simp]
theorem fields_map : (label.map change).fields = label.fields := by
  rw [fields, map, List.map_map]
  rfl

@[simp]
theorem get?_map {field : Text} :
    (label.map change).get? field = (label.get? field).map change := by
  apply Option.ext
  intro value
  rw [get?_eq_some_iff, map, Option.map_eq_some_iff]
  simp only [get?_eq_some_iff, List.mem_map, Prod.exists, Prod.mk.injEq]
  constructor
  · rintro ⟨other, present, listed, rfl, rfl⟩
    exact ⟨present, listed, rfl⟩
  · rintro ⟨present, listed, rfl⟩
    exact ⟨field, present, listed, rfl, rfl⟩

@[simp]
theorem map_id (label : EdgeLabel) : label.map id = label :=
  ext_entries (List.map_id _)

theorem ext_of_sublist {kind : Kind} {left right : EdgeLabel}
    (sublist : left.fields.Sublist kind.fields) (sublist' : right.fields.Sublist kind.fields)
    (values : ∀ field, left.get? field = right.get? field) : left = right := by
  refine ext_get? ?_ values
  rw [← filter_mem_of_sublist kind.fields_nodup sublist,
    ← filter_mem_of_sublist kind.fields_nodup sublist']
  apply List.filter_congr
  intro field _
  rw [decide_eq_decide, mem_fields_iff, mem_fields_iff, values]

end EdgeLabel

/-- The transition with renamed ends and a label with changed values. -/
def Transition.rename (onStates onValues : Symbol → Symbol) (transition : Transition) :
    Transition where
  source := onStates transition.source
  target := onStates transition.target
  label := transition.label.map onValues

/-- A renaming of states and values that makes one system of another one. -/
structure System.IsIsomorphism (onStates onValues : Symbol → Symbol) (left right : System) :
    Prop where
  kind : right.kind = left.kind
  /-- The renaming is a bijection between the states. -/
  states : Set.BijOn onStates {state | state ∈ left.states} {state | state ∈ right.states}
  initial : ∀ state ∈ left.states, onStates state ∈ right.initial ↔ state ∈ left.initial
  label? : ∀ state ∈ left.states, right.label? (onStates state) = left.label? state
  mem_transitions_iff : ∀ transition, transition ∈ right.transitions ↔
    ∃ former ∈ left.transitions, transition = former.rename onStates onValues
  mem_propositions_iff : ∀ proposition,
    proposition ∈ right.propositions ↔ proposition ∈ left.propositions
  /-- The alphabets hold the renamed values. -/
  admits_iff : ∀ field value, right.schema.Admits field value ↔
    ∃ former, left.schema.Admits field former ∧ value = onValues former

namespace Symbol

/-- The pair with its parts in the other order; other symbols stay as they are. -/
def swap : Symbol → Symbol
  | .tuple [first, second] => .pair second first
  | symbol => symbol

/-- The triple `((a, b), c)` as `(a, (b, c))`; other symbols stay as they are. -/
def reassociate : Symbol → Symbol
  | .tuple [.tuple [first, second], third] => .pair first (.pair second third)
  | symbol => symbol

theorem swap_pair (first second : Symbol) : swap (.pair first second) = .pair second first :=
  rfl

theorem reassociate_pair (first second third : Symbol) :
    reassociate (.pair (.pair first second) third) = .pair first (.pair second third) :=
  rfl

end Symbol

end TransitionSystems
