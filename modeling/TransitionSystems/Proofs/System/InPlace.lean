import TransitionSystems.Proofs.InPlace
import TransitionSystems.Proofs.System.Merge
import TransitionSystems.System.InPlace

/-!
# Updates in place leave no trace when they fail

Every update makes its checks before it writes to the system, so written step by step it either
succeeds with what the update results in or leaves the system as it was. The same holds of a merge
with another system. A merge of a system into itself finds everything of the source in the target,
where it changes nothing.
-/

namespace TransitionSystems.System.InPlace

open TransitionSystems.InPlace

variable {system : System}

/-! ## Single updates -/

theorem outcome_addState (system : System) (state : Symbol) :
    (addState state).outcome system = (.ok (), system.addState state) := by
  rw [addState, outcome_get_bind, System.addState]
  split <;> rfl

theorem outcome_addStates (system : System) (states : List Symbol) :
    (states.forM addState).outcome system = (.ok (), system.addStates states) := by
  induction states generalizing system with
  | nil => rfl
  | cons state states induction =>
      change (addState state >>= fun _ => states.forM addState).outcome system = _
      rw [outcome_bind_of_ok (outcome_addState system state), induction]
      rfl

theorem outcome_writeLabel_of_label? {state : Symbol} {label : Label}
    (present : system.label? state = some label) :
    (writeLabel state label).outcome system = (.ok (), system) := by
  have labels : system.labels.insert state (some label) = system.labels :=
    congrArg System.labels (putState_of_label? present)
  rw [writeLabel, outcome_write, labels]

theorem outcome_addLabeledState (system : System) (state : Symbol) (label : Label) :
    (addLabeledState state label).outcome system =
      settle system (system.addLabeledState state label) := by
  refine outcome_check_bind fun _ => ?_
  rw [outcome_get_bind]
  cases found : system.labels[state]? with
  | none => rfl
  | some labeling =>
      cases labeling with
      | none => rfl
      | some present =>
          by_cases same : present = label
          · subst same
            simp only [if_true]
            exact outcome_writeLabel_of_label? (label?_eq_some_iff.2 found)
          · simp only [if_neg same]
            rfl

theorem outcome_labelState (system : System) (state : Symbol) (label : Label) :
    (labelState state label).outcome system = settle system (system.labelState state label) :=
  outcome_check_bind fun _ => outcome_check_bind fun _ => rfl

/-- Changes the initial states. -/
def changeInitial (change : OrderedSet → OrderedSet) (system : System) : System :=
  { system with initial := change system.initial }

theorem outcome_setInitial (system : System) (states : List Symbol) :
    (setInitial fun _ => states).outcome system = settle system (system.setInitial states) := by
  rw [setInitial, forEach_const, forEach_const]
  exact outcome_insertAll changeInitial (fun _ => rfl) (fun _ _ _ => rfl)
    (fun state system => system.requireState "set_initial" state) states system

theorem outcome_addTransition (system : System) (source target : Symbol) (label : EdgeLabel) :
    (addTransition source target label).outcome system =
      settle system (system.addTransition source target label) := by
  refine outcome_check_bind fun _ => outcome_check_bind fun _ => outcome_check_bind fun _ => ?_
  rw [outcome_get_bind, outcome_get_bind]
  simp only []
  split <;> rfl

theorem outcome_unite {change : (OrderedSet → OrderedSet) → System → System}
    (identity : ∀ system, change id system = system)
    (composes : ∀ first second system,
      change second (change first system) = change (second ∘ first) system)
    (system : System) (more : OrderedSet) :
    (unite change fun _ => more).outcome system = (.ok (), change (·.union more) system) := by
  have united : (fun set : OrderedSet => set.withMutable (set.isMutable || more.isMutable)) ∘
      (fun set : OrderedSet => set.insertMany more.toList) =
        fun set : OrderedSet => set.union more := by
    funext set
    simp [OrderedSet.union]
  rw [unite, forEach_const, forM_write, outcome_write_bind, outcome_get_bind, outcome_write,
    foldl_insert identity composes, composes, united]

theorem outcome_growPropositions (system : System) (more : OrderedSet) :
    (unite changePropositions fun _ => more).outcome system =
      (.ok (), system.growPropositions more) :=
  outcome_unite (fun _ => rfl) (fun _ _ _ => rfl) system more

theorem changeAlphabet_id (field : Text) (system : System) :
    changeAlphabet field id system = system := by
  obtain ⟨⟨propositions, alphabets⟩, _⟩ := system
  cases alphabets <;> simp [changeAlphabet, Alphabets.modify]

theorem changeAlphabet_changeAlphabet (field : Text) (first second : OrderedSet → OrderedSet)
    (system : System) :
    changeAlphabet field second (changeAlphabet field first system) =
      changeAlphabet field (second ∘ first) system := by
  obtain ⟨⟨propositions, alphabets⟩, _⟩ := system
  cases alphabets <;> simp only [changeAlphabet, Alphabets.modify] <;> split_ifs <;> rfl

theorem outcome_growAlphabet (system : System) (field : Text) (more : OrderedSet) :
    (growAlphabet field fun _ => more).outcome system =
      settle system (system.growAlphabet field more) := by
  have grown : system.growAlphabet field more = (do
      let _ ← system.schema.alphabet field
      return changeAlphabet field (·.union more) system) := by
    rw [System.growAlphabet, Schema.modify]
    cases system.schema.alphabet field <;> rfl
  rw [grown]
  exact outcome_check_bind fun _ => outcome_unite (changeAlphabet_id field)
    (changeAlphabet_changeAlphabet field) system more

theorem outcome_setFactors (system : System) (state first second : Symbol) :
    (setFactors state first second).outcome system =
      settle system (system.setFactors state first second) :=
  outcome_check_bind fun _ => rfl

/-- An update either succeeds or leaves the system as it was. -/
theorem outcome_perform (system : System) (update : Update) :
    (perform update).outcome system = settle system (system.perform update) := by
  cases update with
  | addState state => exact outcome_addState system state
  | addLabeledState state label => exact outcome_addLabeledState system state label
  | addStates states => exact outcome_addStates system states
  | labelState state label => exact outcome_labelState system state label
  | setInitial states => exact outcome_setInitial system states
  | addTransition source target label => exact outcome_addTransition system source target label
  | addAction source target action =>
      exact outcome_check_bind fun _ => outcome_addTransition system ..
  | addActions source target systemAction environmentAction =>
      exact outcome_check_bind fun _ => outcome_addTransition system ..
  | growPropositions more => exact outcome_growPropositions system more
  | growAlphabet field more => exact outcome_growAlphabet system field more
  | setFactors state first second => exact outcome_setFactors system state first second
  | rename name => rfl
  | setMutable isMutable => rfl

/-- Updates one after the other are a run. -/
theorem outcome_forM_perform (system : System) (updates : List Update) :
    (updates.forM perform).outcome system = system.run updates := by
  induction updates generalizing system with
  | nil => rfl
  | cons update updates induction =>
      change (perform update >>= fun _ => updates.forM perform).outcome system = _
      have performed := outcome_perform system update
      rw [run]
      cases found : system.perform update with
      | ok next =>
          rw [found] at performed
          rw [outcome_bind_of_ok performed, induction]
      | error error =>
          rw [found] at performed
          exact outcome_bind_of_error performed _

/-! ## Merging -/

theorem forM_flatMap {α β : Type} (items : List α) (expand : α → List β)
    (body : β → InPlace System Unit) :
    forM (items.flatMap expand) body = forM items fun item => forM (expand item) body := by
  induction items with
  | nil => rfl
  | cons item items induction =>
      rw [List.flatMap_cons, List.forM_append, List.forM_cons, induction]

theorem alphabetOf_of_mem {schema : Schema} {entry : Text × OrderedSet}
    (listed : entry ∈ schema.alphabets.entries) : schema.alphabetOf entry.1 = entry.2 := by
  have nodup : (schema.alphabets.entries.map Prod.fst).Nodup :=
    schema.map_fst_entries ▸ schema.kind.fields_nodup
  rw [Schema.alphabetOf, (lookup_eq_some_iff_mem nodup).2 listed]
  rfl

theorem forM_growAlphabet (source : System) :
    forM (source.schema.alphabets.entries.map fun entry => Update.growAlphabet entry.1 entry.2)
        perform =
      forM source.kind.fields fun field =>
        growAlphabet field fun _ => source.schema.alphabetOf field := by
  have same : (source.schema.alphabets.entries.map fun entry =>
      Update.growAlphabet entry.1 entry.2) =
      source.kind.fields.map fun field =>
        .growAlphabet field (source.schema.alphabetOf field) := by
    rw [kind, ← Schema.map_fst_entries, List.map_map]
    apply List.map_congr_left
    intro entry listed
    rw [Function.comp_apply, alphabetOf_of_mem listed]
  rw [same, List.forM_map]
  rfl

theorem forM_stateUpdates (source : System) (state : Symbol) :
    forM (source.stateUpdates state) perform = takeState (fun _ => source) state := by
  simp only [stateUpdates, takeState, List.forM_cons]
  cases (source.holding state).isEmpty with
  | true => rfl
  | false =>
      simp only [Bool.false_eq_true, if_false, List.forM_cons, List.forM_nil, bind_pure_unit]
      rfl

theorem forM_universeUpdates (source : System) :
    forM source.universeUpdates perform = (do
      unite changePropositions fun _ => source.propositions
      forM source.kind.fields fun field =>
        growAlphabet field fun _ => source.schema.alphabetOf field
      takeFlag fun _ => source) := by
  have flag : forM (if source.isMutable then [.setMutable true] else []) perform =
      takeFlag fun _ => source := by
    by_cases flag : source.isMutable = true
    · simp only [takeFlag, if_pos flag]
      rfl
    · simp only [takeFlag, if_neg flag]
      rfl
  rw [universeUpdates, List.forM_append, List.forM_append, forM_growAlphabet, flag, List.forM_cons,
    List.forM_nil, bind_pure_unit, bind_assoc]
  rfl

theorem merge_eq (source : System) :
    (merge fun _ => source) = (do
      check fun target => requireKindOf "merge" target source
      forM source.contents perform) := by
  have taken : (fun state => forM (source.stateUpdates state) perform) =
      takeState fun _ => source :=
    funext (forM_stateUpdates source)
  simp only [merge, forEach_const, contents, List.forM_append, forM_flatMap, taken, List.forM_map,
    forM_universeUpdates, List.forM_cons, List.forM_nil, bind_pure_unit, bind_assoc]
  rfl

/-- Written step by step, a merge with another system has the outcome of the merge. -/
theorem outcome_merge (target source : System) :
    (merge fun _ => source).outcome target = target.merge source := by
  let inspect (target : System) := requireKindOf "merge" target source
  rw [merge_eq, System.merge]
  by_cases kinds : target.kind = source.kind
  · rw [if_pos kinds, outcome_check_bind_of_ok inspect (if_pos kinds)]
    exact outcome_forM_perform target source.contents
  · rw [if_neg kinds]
    exact outcome_check_bind_of_error inspect (if_neg kinds) _

/-! ## Merging a system into itself -/

theorem changeAlphabet_of_fixed {field : Text} {change : OrderedSet → OrderedSet}
    (fixed : change (system.schema.alphabetOf field) = system.schema.alphabetOf field) :
    changeAlphabet field change system = system := by
  have same : { system.schema with
      alphabets := system.schema.alphabets.modify field change } = system.schema := by
    refine Schema.ext_alphabet (Schema.kind_modify ..) rfl fun other alphabet found => ?_
    obtain ⟨former, present, rfl⟩ := Schema.alphabet_modify_eq_ok_iff.1 found
    split
    · next same =>
        rw [← same, alphabetOf_of_mem (Schema.alphabet_eq_ok_iff.1 present)] at fixed
        rw [fixed, present]
    · exact present
  rw [changeAlphabet, same]

theorem outcome_unite_self {change : (OrderedSet → OrderedSet) → System → System}
    {set : System → OrderedSet}
    (fixed : ∀ f : OrderedSet → OrderedSet,
      f (set system) = set system → change f system = system) :
    (unite change set).outcome system = (.ok (), system) := by
  have inserted : (forEach (fun system => (set system).toList) fun symbol =>
      write (change (·.insert symbol))).outcome system = (.ok (), system) := by
    apply outcome_forEach_of_fixed
    intro symbol listed
    rw [outcome_write, fixed _ (OrderedSet.insert_of_mem (OrderedSet.mem_toList.1 listed))]
  rw [unite, outcome_bind_of_ok inserted, outcome_get_bind, outcome_write, fixed]
  rw [Bool.or_self]
  rfl

theorem outcome_growPropositions_self {source : System → System} (self : source system = system) :
    (unite changePropositions fun target => (source target).propositions).outcome system =
      (.ok (), system) := by
  apply outcome_unite_self
  intro change fixed
  rw [self] at fixed
  rw [changePropositions]
  change change system.schema.propositions = _ at fixed
  rw [fixed]
  rfl

theorem outcome_growAlphabet_self {source : System → System} (self : source system = system)
    {field : Text} (member : field ∈ system.kind.fields) :
    (growAlphabet field fun target => (source target).schema.alphabetOf field).outcome system =
      (.ok (), system) := by
  let inspect (target : System) := target.schema.alphabet field
  obtain ⟨alphabet, found⟩ : ∃ alphabet, inspect system = .ok alphabet :=
    Schema.exists_alphabet_iff.2 member
  rw [growAlphabet, outcome_check_bind_of_ok inspect found]
  apply outcome_unite_self
  intro change fixed
  rw [self] at fixed
  exact changeAlphabet_of_fixed fixed

theorem outcome_takeFlag_self {source : System → System} (self : source system = system) :
    (takeFlag source).outcome system = (.ok (), system) := by
  rw [takeFlag, outcome_get_bind, self]
  split
  · next isMutable => rw [outcome_write, setMutable, ← isMutable]
  · exact outcome_pure () system

theorem outcome_takeState_self {source : System → System} (self : source system = system)
    (coherent : system.Coherent) {state : Symbol} (member : state ∈ system.states) :
    (takeState source state).outcome system = (.ok (), system) := by
  rw [coherent.mem_states_iff] at member
  have added := outcome_addState system state
  rw [addState_of_mem member] at added
  rw [takeState, outcome_bind_of_ok added, outcome_get_bind, self]
  simp only []
  split
  · exact outcome_pure () system
  · next nonempty =>
      rw [Bool.not_eq_true] at nonempty
      have labeled : system.labelState state (system.holding state) = .ok system :=
        labelState_eq_ok_iff.2 ⟨member, fun _ => coherent.holding_subset,
          (putState_of_label? (label?_of_holding nonempty)).symm⟩
      rw [outcome_labelState, labeled, settle]

theorem outcome_setInitial_self {states : System → List Symbol}
    (same : states system = system.initial.toList) (coherent : system.Coherent) :
    (setInitial states).outcome system = (.ok (), system) := by
  have checked : (forEach states (requireState "set_initial")).outcome system =
      (.ok (), system) := by
    apply outcome_forEach_of_fixed
    intro state listed
    rw [same, OrderedSet.mem_toList] at listed
    have known := (coherent.mem_states_iff state).1 (coherent.initial_subset state listed)
    rw [requireState, outcome_check, requireState_eq_ok_iff.2 known]
  rw [setInitial, outcome_bind_of_ok checked]
  apply outcome_forEach_of_fixed
  intro state listed
  rw [same, OrderedSet.mem_toList] at listed
  rw [outcome_write, OrderedSet.insert_of_mem listed]

theorem outcome_addTransition_self (coherent : system.Coherent) {transition : Transition}
    (member : transition ∈ system.transitions) :
    (addTransition transition.source transition.target transition.label).outcome system =
      (.ok (), system) := by
  have ends := coherent.ends transition member
  have present := (coherent.mem_edges_iff transition).2 member
  have added : system.addTransition transition.source transition.target transition.label =
      .ok system := by
    refine addTransition_eq_ok_iff.2 ⟨(coherent.mem_states_iff _).1 ends.1,
      (coherent.mem_states_iff _).1 ends.2, coherent.values transition member, ?_⟩
    rw [Schema.arrange_of_sublist (coherent.fields_sublist transition member), putTransition,
      if_pos present]
  rw [outcome_addTransition, added, settle]

/-- Merging a coherent system into itself leaves it exactly as it was, whether the source is the
target itself or a copy of it. -/
theorem outcome_merge_self {source : System → System} (self : source system = system)
    (coherent : system.Coherent) : (merge source).outcome system = (.ok (), system) := by
  let inspect (target : System) := requireKindOf "merge" target (source target)
  have kinds : inspect system = .ok () := if_pos (congrArg System.kind self).symm
  have alphabets : (forEach (fun target => (source target).kind.fields) fun field =>
      growAlphabet field fun target => (source target).schema.alphabetOf field).outcome system =
        (.ok (), system) := by
    apply outcome_forEach_of_fixed
    intro field listed
    rw [self] at listed
    exact outcome_growAlphabet_self self listed
  have states : (forEach (fun target => (source target).states.toList)
      (takeState source)).outcome system = (.ok (), system) := by
    apply outcome_forEach_of_fixed
    intro state listed
    rw [self, Array.mem_toList_iff] at listed
    exact outcome_takeState_self self coherent listed
  have initial : (setInitial fun target => (source target).initial.toList).outcome system =
      (.ok (), system) :=
    outcome_setInitial_self (by rw [self]) coherent
  rw [merge, outcome_check_bind_of_ok inspect kinds,
    outcome_bind_of_ok (outcome_growPropositions_self self), outcome_bind_of_ok alphabets,
    outcome_bind_of_ok (outcome_takeFlag_self self), outcome_bind_of_ok states,
    outcome_bind_of_ok initial]
  apply outcome_forEach_of_fixed
  intro transition listed
  rw [self, Array.mem_toList_iff] at listed
  exact outcome_addTransition_self coherent listed

end TransitionSystems.System.InPlace
