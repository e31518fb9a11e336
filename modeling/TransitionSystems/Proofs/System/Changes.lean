import Mathlib.Logic.Relation
import TransitionSystems.Proofs.Schema
import TransitionSystems.System.Update

/-!
# Changes of systems

Every update of a system first checks its arguments and then changes the system. There are few ways
to change a system, and each of them is accompanied by what the checks have found out. Every update,
every run of updates and every merge, whether it succeeds or fails, is a sequence of changes.
-/

namespace TransitionSystems.System

/-! ## States and labels -/

/-- Gives a state a labeling; a new state is added. -/
def putState (system : System) (state : Symbol) (label : Option Label) : System :=
  { system with
    states := if system.hasState state then system.states else system.states.push state
    labels := system.labels.insert state label }

theorem hasState_iff {system : System} {state : Symbol} :
    system.hasState state = true ↔ state ∈ system.labels := by
  simp [hasState]

theorem mem_labels_iff_getElem? {system : System} {state : Symbol} :
    state ∈ system.labels ↔ ∃ labeling, system.labels[state]? = some labeling := by
  rw [Std.ExtTreeMap.mem_iff_isSome_getElem?, Option.isSome_iff_exists]

theorem label?_eq_some_iff {system : System} {state : Symbol} {label : Label} :
    system.label? state = some label ↔ system.labels[state]? = some (some label) := by
  rw [label?, Option.join_eq_some_iff]

theorem label?_of_not_mem {system : System} {state : Symbol} (absent : state ∉ system.labels) :
    system.label? state = none := by
  rw [label?, Std.ExtTreeMap.getElem?_eq_none absent]
  rfl

theorem requireState_eq_ok_iff {system : System} {operation : Text} {state : Symbol} :
    system.requireState operation state = .ok () ↔ state ∈ system.labels := by
  rw [requireState, ← hasState_iff]
  cases system.hasState state <;> simp

theorem addState_of_mem {system : System} {state : Symbol} (present : state ∈ system.labels) :
    system.addState state = system :=
  if_pos (hasState_iff.2 present)

theorem addState_of_not_mem {system : System} {state : Symbol} (absent : state ∉ system.labels) :
    system.addState state = system.putState state none := by
  have new : system.hasState state = false := by simpa [hasState] using absent
  simp [addState, putState, new]

theorem label?_putState (system : System) (state other : Symbol) (label : Option Label) :
    (system.putState state label).label? other =
      if state = other then label else system.label? other := by
  simp only [label?, putState, Std.ExtTreeMap.getElem?_insert, Std.LawfulEqOrd.compare_eq_iff_eq]
  split <;> rfl

theorem putState_of_label? {system : System} {state : Symbol} {label : Label}
    (present : system.label? state = some label) :
    system.putState state (some label) = system := by
  rw [label?_eq_some_iff] at present
  have known : system.hasState state = true :=
    hasState_iff.2 (mem_labels_iff_getElem?.2 ⟨_, present⟩)
  have labels : system.labels.insert state (some label) = system.labels := by
    apply Std.ExtTreeMap.ext_getElem?
    intro other
    rw [Std.ExtTreeMap.getElem?_insert]
    split
    · next same => rw [← Std.LawfulEqOrd.compare_eq_iff_eq.1 same, present]
    · rfl
  simp [putState, known, labels]

/-- A state can be added with a label of propositions unless it has another label. -/
theorem addLabeledState_eq_ok_iff {system next : System} {state : Symbol} {label : Label} :
    system.addLabeledState state label = .ok next ↔
      (∀ proposition ∈ label, proposition ∈ system.propositions) ∧
        (∀ present, system.label? state = some present → present = label) ∧
        next = system.putState state (some label) := by
  rw [addLabeledState, check_bind_eq_ok_iff, Schema.checkLabel_eq_ok_iff]
  refine and_congr_right fun _ => ?_
  cases found : system.labels[state]? with
  | none =>
      have new : system.hasState state = false := by
        rw [← Bool.not_eq_true, hasState_iff, mem_labels_iff_getElem?, found]
        simp
      simp [label?, found, putState, new]
  | some labeling =>
      have known : system.hasState state = true :=
        hasState_iff.2 (mem_labels_iff_getElem?.2 ⟨_, found⟩)
      cases labeling with
      | none => simp [label?, found, putState, known]
      | some present =>
          have labeled : system.label? state = some present := label?_eq_some_iff.2 found
          by_cases same : present = label
          · subst same
            simp [labeled, putState_of_label? labeled]
          · simp [labeled, same]

theorem labelState_eq_ok_iff {system next : System} {state : Symbol} {label : Label} :
    system.labelState state label = .ok next ↔
      state ∈ system.labels ∧ (∀ proposition ∈ label, proposition ∈ system.propositions) ∧
        next = system.putState state (some label) := by
  simp only [labelState, check_bind_eq_ok_iff, requireState_eq_ok_iff,
    Schema.checkLabel_eq_ok_iff]
  refine and_congr_right fun present => and_congr_right fun _ => ?_
  simp [putState, hasState_iff.2 present]

theorem setInitial_eq_ok_iff {system next : System} {states : List Symbol} :
    system.setInitial states = .ok next ↔
      (∀ state ∈ states, state ∈ system.labels) ∧
        next = { system with initial := system.initial.insertMany states } := by
  simp only [setInitial, check_bind_eq_ok_iff, forM_eq_ok_iff, requireState_eq_ok_iff]
  exact and_congr_right fun _ => pure_eq_ok_iff

/-! ## Transitions -/

/-- Stores a transition unless it is there already. -/
def putTransition (system : System) (transition : Transition) : System :=
  if transition ∈ system.edges then
    system
  else
    { system with
      transitions := system.transitions.push transition
      edges := system.edges.insert transition
      outgoing := system.outgoing.insert transition.source
        ((system.positions transition.source).push system.transitions.size) }

theorem addTransition_eq_ok_iff {system next : System} {source target : Symbol}
    {label : EdgeLabel} :
    system.addTransition source target label = .ok next ↔
      source ∈ system.labels ∧ target ∈ system.labels ∧
        (∀ entry ∈ label.entries, system.schema.Admits entry.1 entry.2) ∧
        next = system.putTransition ⟨source, target, system.schema.arrange label⟩ := by
  simp only [addTransition, check_bind_eq_ok_iff, requireState_eq_ok_iff,
    Schema.checkEdgeLabel_eq_ok_iff]
  refine and_congr_right fun _ => and_congr_right fun _ => and_congr_right fun _ => ?_
  rw [putTransition]
  split <;> exact pure_eq_ok_iff

/-! ## Universe and factors -/

theorem growAlphabet_eq_ok_iff {system next : System} {field : Text} {more : OrderedSet} :
    system.growAlphabet field more = .ok next ↔
      field ∈ system.kind.fields ∧
        next = { system with
          schema := { system.schema with
            alphabets := system.schema.alphabets.modify field (·.union more) } } := by
  simp only [growAlphabet, bind_eq_ok_iff, Schema.modify_eq_ok_iff]
  constructor
  · rintro ⟨_, ⟨member, rfl⟩, ⟨⟩⟩
    exact ⟨member, rfl⟩
  · rintro ⟨member, rfl⟩
    exact ⟨_, ⟨member, rfl⟩, rfl⟩

theorem setFactors_eq_ok_iff {system next : System} {state first second : Symbol} :
    system.setFactors state first second = .ok next ↔
      state ∈ system.labels ∧
        next = { system with factors := system.factors.insert state (first, second) } := by
  simp only [setFactors, check_bind_eq_ok_iff, requireState_eq_ok_iff]
  exact and_congr_right fun _ => pure_eq_ok_iff

/-! ## Changes -/

/-- A change of a system, with what the checks before it have found out. -/
inductive Change (system : System) : System → Prop
  | state (state : Symbol) (label : Option Label)
      (known : ∀ given, label = some given →
        ∀ proposition ∈ given, proposition ∈ system.propositions) :
      Change system (system.putState state label)
  | initial (states : List Symbol) (known : ∀ state ∈ states, state ∈ system.labels) :
      Change system { system with initial := system.initial.insertMany states }
  | transition (source target : Symbol) (label : EdgeLabel) (source_mem : source ∈ system.labels)
      (target_mem : target ∈ system.labels)
      (admits : ∀ entry ∈ label.entries, system.schema.Admits entry.1 entry.2) :
      Change system (system.putTransition ⟨source, target, system.schema.arrange label⟩)
  | growth (schema : Schema) (extends' : system.schema.Extends schema) :
      Change system { system with schema := schema }
  | factors (state first second : Symbol) (known : state ∈ system.labels) :
      Change system { system with factors := system.factors.insert state (first, second) }
  | name (name : Text) : Change system { system with name := name }
  | flag (isMutable : Bool) : Change system { system with isMutable := isMutable }

/-- A system comes from another one by changes. -/
def Evolves : System → System → Prop :=
  Relation.ReflTransGen Change

theorem evolves_addState (system : System) (state : Symbol) :
    system.Evolves (system.addState state) := by
  by_cases present : state ∈ system.labels
  · rw [addState_of_mem present]
    exact .refl
  · rw [addState_of_not_mem present]
    exact .single (.state state none (by simp))

theorem evolves_addStates (system : System) (states : List Symbol) :
    system.Evolves (system.addStates states) := by
  induction states generalizing system with
  | nil => exact .refl
  | cons state states induction =>
      exact (system.evolves_addState state).trans (induction (system.addState state))

theorem evolves_addTransition {system next : System} {source target : Symbol} {label : EdgeLabel}
    (added : system.addTransition source target label = .ok next) : system.Evolves next := by
  obtain ⟨source_mem, target_mem, admits, rfl⟩ := addTransition_eq_ok_iff.1 added
  exact .single (.transition source target label source_mem target_mem admits)

/-- An update is a sequence of changes. -/
theorem evolves_perform {system next : System} {update : Update}
    (performed : system.perform update = .ok next) : system.Evolves next := by
  cases update with
  | addState state =>
      obtain rfl := Except.ok.inj performed
      exact system.evolves_addState state
  | addLabeledState state label =>
      obtain ⟨known, -, rfl⟩ := addLabeledState_eq_ok_iff.1 performed
      exact .single (.state state (some label) (by simpa using known))
  | addStates states =>
      obtain rfl := Except.ok.inj performed
      exact system.evolves_addStates states
  | labelState state label =>
      obtain ⟨-, known, rfl⟩ := labelState_eq_ok_iff.1 performed
      exact .single (.state state (some label) (by simpa using known))
  | setInitial states =>
      obtain ⟨known, rfl⟩ := setInitial_eq_ok_iff.1 performed
      exact .single (.initial states known)
  | addTransition source target label => exact evolves_addTransition performed
  | addAction source target action =>
      exact evolves_addTransition (check_bind_eq_ok_iff.1 performed).2
  | addActions source target systemAction environmentAction =>
      exact evolves_addTransition (check_bind_eq_ok_iff.1 performed).2
  | growPropositions more =>
      obtain rfl := Except.ok.inj performed
      exact .single (.growth _ (system.schema.extends_union more))
  | growAlphabet field more =>
      obtain ⟨-, rfl⟩ := growAlphabet_eq_ok_iff.1 performed
      exact .single (.growth _ (system.schema.extends_modify_union field more))
  | setFactors state first second =>
      obtain ⟨known, rfl⟩ := setFactors_eq_ok_iff.1 performed
      exact .single (.factors state first second known)
  | rename name =>
      obtain rfl := Except.ok.inj performed
      exact .single (.name name)
  | setMutable isMutable =>
      obtain rfl := Except.ok.inj performed
      exact .single (.flag isMutable)

/-- A run of updates is a sequence of changes, also when it stops at a failure. -/
theorem evolves_run (system : System) (updates : List Update) :
    system.Evolves (system.run updates).2 := by
  induction updates generalizing system with
  | nil => exact .refl
  | cons update updates induction =>
      rw [run]
      split
      · next next performed => exact (evolves_perform performed).trans (induction next)
      · exact .refl

theorem evolves_merge (target source : System) : target.Evolves (target.merge source).2 := by
  rw [merge]
  split
  · exact target.evolves_run source.contents
  · exact .refl

/-! ## Successful updates -/

/-- Updates that succeed lead from a system to another one. -/
def LeadsTo : System → System → Prop :=
  Relation.ReflTransGen fun system next => ∃ update, system.perform update = .ok next

theorem leadsTo_perform {system next : System} (update : Update)
    (performed : system.perform update = .ok next) : system.LeadsTo next :=
  .single ⟨update, performed⟩

theorem leadsTo_foldlM {α : Type} {step : System → α → Except Error System}
    (steps : ∀ system value next, step system value = .ok next → system.LeadsTo next)
    {system result : System} {values : List α} (folded : values.foldlM step system = .ok result) :
    system.LeadsTo result := by
  refine foldlM_ok_induction system.LeadsTo ?_ .refl folded
  intro middle value next leads stepped
  exact leads.trans (steps middle value next stepped)

end TransitionSystems.System
