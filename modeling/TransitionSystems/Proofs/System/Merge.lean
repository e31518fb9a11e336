import TransitionSystems.Proofs.System.Coherence

/-!
# Merging systems

Merging carries out the contents of the source as updates of the target: first its universe, then
its states with their labels, its initial states and its transitions. The universe of the target has
grown before anything is checked against it, so none of the updates fails, and what each of them
leaves alone is known.
-/

namespace TransitionSystems.System

variable {source system middle next : System}

/-! ## Successful runs -/

/-- All of the updates succeed and lead from one system to another. -/
def RunsTo (system : System) (updates : List Update) (next : System) : Prop :=
  system.run updates = (.ok (), next)

namespace RunsTo

variable {update : Update} {updates more : List Update}

theorem nil (system : System) : system.RunsTo [] system :=
  rfl

theorem cons (performed : system.perform update = .ok middle)
    (rest : middle.RunsTo updates next) : system.RunsTo (update :: updates) next := by
  rw [RunsTo, run, performed]
  exact rest

theorem exists_middle (runs : system.RunsTo (update :: updates) next) :
    ∃ middle, system.perform update = .ok middle ∧ middle.RunsTo updates next := by
  rw [RunsTo, run] at runs
  split at runs
  · next middle performed => exact ⟨middle, performed, runs⟩
  · cases runs

theorem append (first : system.RunsTo updates middle) (second : middle.RunsTo more next) :
    system.RunsTo (updates ++ more) next := by
  induction updates generalizing system with
  | nil =>
      obtain ⟨-, rfl⟩ := Prod.mk.inj first
      exact second
  | cons update updates induction =>
      obtain ⟨middle', performed, rest⟩ := first.exists_middle
      exact cons performed (induction rest)

end RunsTo

/-! ## The universe -/

/-- The alphabets after they have grown by the listed values. -/
def growAlphabets (alphabets : Alphabets) (entries : List (Text × OrderedSet)) : Alphabets :=
  entries.foldl (fun alphabets entry => alphabets.modify entry.1 (·.union entry.2)) alphabets

theorem growAlphabets_entries {left right united : Alphabets}
    (zipped : left.zipWith? .union right = some united) :
    growAlphabets left right.entries = united := by
  have distinct : environmentActionsField ≠ systemActionsField := by decide
  cases left <;> cases right <;>
    simp_all [Alphabets.zipWith?, growAlphabets, Alphabets.entries, Alphabets.modify, distinct.symm]

theorem runsTo_growAlphabets (entries : List (Text × OrderedSet))
    (known : ∀ entry ∈ entries, entry.1 ∈ system.kind.fields) :
    system.RunsTo (entries.map fun entry => .growAlphabet entry.1 entry.2)
      { system with
        schema := { system.schema with
          alphabets := growAlphabets system.schema.alphabets entries } } := by
  induction entries generalizing system with
  | nil => exact .nil system
  | cons entry entries induction =>
      rw [List.forall_mem_cons] at known
      have kind := Schema.kind_modify system.schema.alphabets entry.1 (·.union entry.2)
      refine .cons (growAlphabet_eq_ok_iff.2 ⟨known.1, rfl⟩) (induction fun other member => ?_)
      change other.1 ∈ (Alphabets.kind (system.schema.alphabets.modify _ _)).fields
      rw [kind]
      exact known.2 other member

/-- The universe of the source is added to the target, and the flag of either is kept. -/
theorem exists_runsTo_universeUpdates (kinds : system.kind = source.kind) :
    ∃ schema, Schema.Combines .union system.schema source.schema schema ∧
      system.RunsTo source.universeUpdates
        { system with schema, isMutable := system.isMutable || source.isMutable } := by
  obtain ⟨alphabets, zipped, combines⟩ := Schema.exists_combines kinds .union
  refine ⟨_, combines, ?_⟩
  let united : System := system.growPropositions source.propositions
  have known : ∀ entry ∈ source.schema.alphabets.entries, entry.1 ∈ united.kind.fields := by
    intro entry member
    change entry.1 ∈ system.kind.fields
    rw [kinds, kind, ← Schema.map_fst_entries]
    exact List.mem_map_of_mem member
  have same : growAlphabets united.schema.alphabets source.schema.alphabets.entries = alphabets :=
    growAlphabets_entries zipped
  have grown := runsTo_growAlphabets _ known
  rw [same] at grown
  refine ((RunsTo.cons rfl (.nil united)).append grown).append ?_
  cases flag : source.isMutable with
  | false =>
      rw [Bool.or_false]
      exact .nil _
  | true =>
      rw [Bool.or_true]
      exact .cons rfl (.nil _)

/-! ## What is new -/

theorem filter_not_of_disjoint {α : Type} {known later : α → Prop} [DecidablePred known]
    [DecidablePred later] {front back : List α}
    (added : ∀ element, later element ↔ known element ∨ element ∈ front)
    (distinct : front.Disjoint back) :
    back.filter (¬later ·) = back.filter (¬known ·) := by
  apply List.filter_congr
  intro element member
  have new : element ∉ front := fun member' => distinct member' member
  simp [added, new]

/-! ## States -/

theorem toList_states_putState (system : System) (state : Symbol) (label : Option Label) :
    (system.putState state label).states.toList =
      system.states.toList ++ [state].filter (· ∉ system.labels) := by
  rw [putState]
  split
  · next known => simp [hasState_iff.1 known]
  · next new =>
      rw [hasState_iff] at new
      simp [new]

theorem mem_labels_putState {state other : Symbol} {label : Option Label} :
    other ∈ (system.putState state label).labels ↔ other ∈ system.labels ∨ other = state := by
  rw [putState, Std.ExtTreeMap.mem_insert, Std.LawfulEqOrd.compare_eq_iff_eq, or_comm, eq_comm]

/-- States of the source have been added with their labels, unless these are empty. -/
structure StatesTaken (source system : System) (taken : List Symbol) (next : System) : Prop where
  frame : next = { system with states := next.states, labels := next.labels }
  states : next.states.toList = system.states.toList ++ taken.filter (· ∉ system.labels)
  mem_labels : ∀ state, state ∈ next.labels ↔ state ∈ system.labels ∨ state ∈ taken
  label? : ∀ state, next.label? state =
    if state ∈ taken ∧ (source.holding state).isEmpty = false then some (source.holding state)
    else system.label? state

theorem statesTaken_nil (source system : System) : StatesTaken source system [] system where
  frame := rfl
  states := (List.append_nil _).symm
  mem_labels := by simp
  label? := by simp

theorem StatesTaken.append {front back : List Symbol}
    (first : StatesTaken source system front middle)
    (second : StatesTaken source middle back next) (distinct : front.Disjoint back) :
    StatesTaken source system (front ++ back) next where
  frame := by rw [second.frame, first.frame]
  states := by
    have same : back.filter (· ∉ middle.labels) = back.filter (· ∉ system.labels) :=
      filter_not_of_disjoint first.mem_labels distinct
    rw [second.states, first.states, same, List.append_assoc, List.filter_append]
  mem_labels state := by
    rw [second.mem_labels, first.mem_labels, List.mem_append, or_assoc]
  label? state := by
    rw [second.label?, first.label?]
    by_cases empty : (source.holding state).isEmpty <;> by_cases member : state ∈ back <;>
      simp [empty, member]

/-- A state whose label is empty is added unless it is there. -/
theorem statesTaken_addState {state : Symbol} (empty : (source.holding state).isEmpty) :
    StatesTaken source system [state] (system.addState state) := by
  by_cases present : state ∈ system.labels
  · rw [addState_of_mem present]
    refine ⟨rfl, by simp [present], fun other => ?_, fun other => ?_⟩
    · rw [List.mem_singleton, or_iff_left_of_imp]
      rintro rfl
      exact present
    · rw [if_neg]
      rintro ⟨member, nonempty⟩
      obtain rfl := List.mem_singleton.1 member
      simp [empty] at nonempty
  · rw [addState_of_not_mem present]
    refine ⟨rfl, toList_states_putState .., fun other => ?_, fun other => ?_⟩
    · rw [mem_labels_putState, List.mem_singleton]
    · rw [label?_putState]
      by_cases same : state = other
      · subst same
        simp [empty, label?_of_not_mem present]
      · simp [same, Ne.symm same]

theorem statesTaken_putState {state : Symbol} (nonempty : (source.holding state).isEmpty = false) :
    StatesTaken source system [state] (system.putState state (some (source.holding state))) where
  frame := rfl
  states := toList_states_putState ..
  mem_labels other := by rw [mem_labels_putState, List.mem_singleton]
  label? other := by
    rw [label?_putState]
    by_cases same : state = other
    · subst same
      simp [nonempty]
    · simp [same, Ne.symm same]

theorem putState_putState (system : System) (state : Symbol) (former label : Option Label) :
    (system.putState state former).putState state label = system.putState state label := by
  have known : (system.putState state former).hasState state = true :=
    hasState_iff.2 (mem_labels_putState.2 (.inr rfl))
  have labels : (system.labels.insert state former).insert state label =
      system.labels.insert state label := by
    apply Std.ExtTreeMap.ext_getElem?
    intro other
    simp only [Std.ExtTreeMap.getElem?_insert]
    split <;> rfl
  rw [putState, if_pos known]
  simp only [putState, labels]

theorem putState_addState (system : System) (state : Symbol) (label : Option Label) :
    (system.addState state).putState state label = system.putState state label := by
  by_cases present : state ∈ system.labels
  · rw [addState_of_mem present]
  · rw [addState_of_not_mem present, putState_putState]

theorem propositions_addState (system : System) (state : Symbol) :
    (system.addState state).propositions = system.propositions := by
  rw [addState]
  split <;> rfl

theorem mem_labels_addState (system : System) (state : Symbol) :
    state ∈ (system.addState state).labels := by
  by_cases present : state ∈ system.labels
  · rwa [addState_of_mem present]
  · rw [addState_of_not_mem present]
    exact mem_labels_putState.2 (.inr rfl)

theorem exists_runsTo_stateUpdates {state : Symbol}
    (known : ∀ proposition ∈ source.holding state, proposition ∈ system.propositions) :
    ∃ next, system.RunsTo (source.stateUpdates state) next ∧
      StatesTaken source system [state] next := by
  rw [stateUpdates]
  cases empty : (source.holding state).isEmpty with
  | true => exact ⟨_, .cons rfl (.nil _), statesTaken_addState empty⟩
  | false =>
      have labeled : (system.addState state).labelState state (source.holding state) =
          .ok (system.putState state (some (source.holding state))) := by
        rw [labelState_eq_ok_iff, propositions_addState, putState_addState]
        exact ⟨mem_labels_addState system state, known, rfl⟩
      exact ⟨_, .cons rfl (.cons labeled (.nil _)), statesTaken_putState empty⟩

/-- States whose labels are within the universe are added with their labels. -/
theorem exists_runsTo_states (system : System) {states : List Symbol} (nodup : states.Nodup)
    (known : ∀ state ∈ states, ∀ proposition ∈ source.holding state,
      proposition ∈ system.propositions) :
    ∃ next, system.RunsTo (states.flatMap source.stateUpdates) next ∧
      StatesTaken source system states next := by
  induction states generalizing system with
  | nil => exact ⟨system, .nil system, statesTaken_nil source system⟩
  | cons state states induction =>
      rw [List.nodup_cons] at nodup
      rw [List.forall_mem_cons] at known
      obtain ⟨middle, runs, taken⟩ := exists_runsTo_stateUpdates known.1
      have same : middle.propositions = system.propositions := by
        rw [taken.frame]
        rfl
      obtain ⟨next, runs', taken'⟩ := induction middle nodup.2 (by rw [same]; exact known.2)
      exact ⟨next, runs.append runs',
        taken.append taken' (List.singleton_disjoint.2 nodup.1)⟩

/-! ## Transitions -/

/-- Transitions have been added. -/
structure TransitionsTaken (system : System) (taken : List Transition) (next : System) : Prop where
  frame : next = { system with
    transitions := next.transitions, edges := next.edges, outgoing := next.outgoing }
  transitions : next.transitions.toList =
    system.transitions.toList ++ taken.filter (· ∉ system.edges)
  mem_edges : ∀ transition, transition ∈ next.edges ↔
    transition ∈ system.edges ∨ transition ∈ taken

theorem transitionsTaken_nil (system : System) : TransitionsTaken system [] system where
  frame := rfl
  transitions := (List.append_nil _).symm
  mem_edges := by simp

theorem TransitionsTaken.append {front back : List Transition}
    (first : TransitionsTaken system front middle) (second : TransitionsTaken middle back next)
    (distinct : front.Disjoint back) : TransitionsTaken system (front ++ back) next where
  frame := by rw [second.frame, first.frame]
  transitions := by
    have same : back.filter (· ∉ middle.edges) = back.filter (· ∉ system.edges) :=
      filter_not_of_disjoint first.mem_edges distinct
    rw [second.transitions, first.transitions, same, List.append_assoc, List.filter_append]
  mem_edges transition := by
    rw [second.mem_edges, first.mem_edges, List.mem_append, or_assoc]

theorem transitionsTaken_putTransition (system : System) (transition : Transition) :
    TransitionsTaken system [transition] (system.putTransition transition) := by
  rw [putTransition]
  split
  · next present =>
      refine ⟨rfl, by simp [present], fun other => ?_⟩
      rw [List.mem_singleton, or_iff_left_of_imp]
      rintro rfl
      exact present
  · next new =>
      refine ⟨rfl, by simp [new], fun other => ?_⟩
      rw [Std.ExtTreeSet.mem_insert, Std.LawfulEqOrd.compare_eq_iff_eq, List.mem_singleton,
        or_comm, eq_comm]

/-- Arranged transitions between states of the system, with admitted values, are added. -/
theorem exists_runsTo_transitions (system : System) {transitions : List Transition}
    (nodup : transitions.Nodup)
    (ends : ∀ transition ∈ transitions,
      transition.source ∈ system.labels ∧ transition.target ∈ system.labels)
    (admits : ∀ transition ∈ transitions, ∀ entry ∈ transition.label.entries,
      system.schema.Admits entry.1 entry.2)
    (arranged : ∀ transition ∈ transitions,
      system.schema.arrange transition.label = transition.label) :
    ∃ next, system.RunsTo (transitions.map transitionUpdate) next ∧
      TransitionsTaken system transitions next := by
  induction transitions generalizing system with
  | nil => exact ⟨system, .nil system, transitionsTaken_nil system⟩
  | cons transition transitions induction =>
      rw [List.nodup_cons] at nodup
      rw [List.forall_mem_cons] at ends admits arranged
      have taken := system.transitionsTaken_putTransition transition
      have added : system.perform (transitionUpdate transition) =
          .ok (system.putTransition transition) := by
        refine addTransition_eq_ok_iff.2 ⟨ends.1.1, ends.1.2, admits.1, ?_⟩
        rw [arranged.1]
      generalize system.putTransition transition = middle at taken added
      have schema : middle.schema = system.schema := by rw [taken.frame]
      have labels : middle.labels = system.labels := by rw [taken.frame]
      obtain ⟨next, runs, taken'⟩ := induction middle nodup.2
        (by rw [labels]; exact ends.2) (by rw [schema]; exact admits.2)
        (by rw [schema]; exact arranged.2)
      exact ⟨next, .cons added runs, taken.append taken' (List.singleton_disjoint.2 nodup.1)⟩

/-! ## Merging -/

/-- What merging a source into a target results in. -/
structure Merges (target source result : System) : Prop where
  kind : result.kind = target.kind
  propositions : result.propositions.toList = target.propositions.toList ++
    source.propositions.toList.filter (· ∉ target.propositions)
  alphabets : ∀ field first second, target.schema.alphabet field = .ok first →
    source.schema.alphabet field = .ok second →
    ∃ alphabet, result.schema.alphabet field = .ok alphabet ∧
      alphabet.toList = first.toList ++ second.toList.filter (· ∉ first)
  states : result.states.toList =
    target.states.toList ++ source.states.toList.filter (· ∉ target.states)
  /-- The label of the source counts unless it is empty, then that of the target. -/
  label? : ∀ state, result.label? state =
    if (source.holding state).isEmpty then
      if state ∈ target.states then target.label? state else none
    else
      source.label? state
  initial : result.initial.toList =
    target.initial.toList ++ source.initial.toList.filter (· ∉ target.initial)
  transitions : result.transitions.toList =
    target.transitions.toList ++ source.transitions.toList.filter (· ∉ target.transitions)
  isMutable : result.isMutable = (target.isMutable || source.isMutable)
  name : result.name = target.name
  factors : result.factors = target.factors

theorem Coherent.holding_subset (coherent : system.Coherent) {state proposition : Symbol}
    (holds : proposition ∈ system.holding state) : proposition ∈ system.propositions := by
  rw [holding] at holds
  cases found : system.label? state with
  | none => simp [found] at holds
  | some label =>
      rw [found] at holds
      exact coherent.label_subset state label found proposition holds

theorem label?_of_holding {state : Symbol} (nonempty : (system.holding state).isEmpty = false) :
    system.label? state = some (system.holding state) := by
  rw [holding] at nonempty ⊢
  cases found : system.label? state with
  | none => simp [found] at nonempty
  | some label => rfl

/-- The universe of a target after that of a source has been added. -/
def unite (target source : System) (schema : Schema) : System :=
  { target with schema, isMutable := target.isMutable || source.isMutable }

/-- The initial states of the source have been added. -/
def beginAt (system source : System) : System :=
  { system with initial := system.initial.insertMany source.initial.toList }

/-- The contents of a coherent source are added to a system of the same kind. -/
theorem Coherent.exists_runsTo_contents {target : System} (coherent : source.Coherent)
    (kinds : target.kind = source.kind) :
    ∃ schema settled result,
      Schema.Combines .union target.schema source.schema schema ∧
      StatesTaken source (target.unite source schema) source.states.toList settled ∧
      TransitionsTaken (settled.beginAt source) source.transitions.toList result ∧
      target.RunsTo source.contents result := by
  obtain ⟨schema, combines, united⟩ := exists_runsTo_universeUpdates kinds
  obtain ⟨settled, states, taken⟩ := exists_runsTo_states (target.unite source schema)
    coherent.nodup_states fun state _ proposition holds => by
      change proposition ∈ schema.propositions
      rw [combines.propositions]
      exact OrderedSet.mem_union.2 (.inr (coherent.holding_subset holds))
  have same : settled.schema = schema := by
    rw [taken.frame]
    rfl
  have mem_labels {state : Symbol} (member : state ∈ source.states) : state ∈ settled.labels :=
    (taken.mem_labels state).2 (.inr (Array.mem_toList_iff.2 member))
  have initial : settled.perform (.setInitial source.initial.toList) =
      .ok (settled.beginAt source) := by
    refine setInitial_eq_ok_iff.2 ⟨fun state member => mem_labels ?_, rfl⟩
    exact coherent.initial_subset state (OrderedSet.mem_toList.1 member)
  have ends : ∀ transition ∈ source.transitions.toList,
      transition.source ∈ settled.labels ∧ transition.target ∈ settled.labels := by
    intro transition member
    have ends := coherent.ends transition (Array.mem_toList_iff.1 member)
    exact ⟨mem_labels ends.1, mem_labels ends.2⟩
  have admits : ∀ transition ∈ source.transitions.toList, ∀ entry ∈ transition.label.entries,
      settled.schema.Admits entry.1 entry.2 := by
    intro transition member entry listed
    rw [same, combines.admits_union_iff kinds]
    exact .inr (coherent.values transition (Array.mem_toList_iff.1 member) entry listed)
  have arranged : ∀ transition ∈ source.transitions.toList,
      settled.schema.arrange transition.label = transition.label := by
    intro transition member
    have sublist := coherent.fields_sublist transition (Array.mem_toList_iff.1 member)
    rw [← kinds] at sublist
    rw [same]
    exact combines.arrange_eq_self sublist
  obtain ⟨result, transitions, taken'⟩ := exists_runsTo_transitions
    (settled.beginAt source) coherent.nodup_transitions ends admits arranged
  exact ⟨schema, settled, result, combines, taken, taken',
    ((united.append states).append (.cons initial (.nil _))).append transitions⟩

/-- The labels of the source count unless they are empty. -/
theorem StatesTaken.label?_eq {target settled : System} {schema : Schema}
    (taken : StatesTaken source (target.unite source schema) source.states.toList settled)
    (coherent : target.Coherent) (coherent' : source.Coherent) (state : Symbol) :
    settled.label? state =
      if (source.holding state).isEmpty then
        if state ∈ target.states then target.label? state else none
      else
        source.label? state := by
  rw [taken.label?]
  cases empty : (source.holding state).isEmpty with
  | true =>
      have same : (target.unite source schema).label? state = target.label? state := rfl
      by_cases member : state ∈ target.states
      · simp [member, same]
      · rw [coherent.mem_states_iff] at member
        simp [coherent.mem_states_iff, member, same, label?_of_not_mem member]
  | false =>
      have labeled := label?_of_holding empty
      have member : state ∈ source.states := by
        rw [coherent'.mem_states_iff, mem_labels_iff_getElem?]
        exact ⟨_, label?_eq_some_iff.1 labeled⟩
      simp [member, labeled]

/-- What the phases add up to. -/
theorem TransitionsTaken.merges {target settled result : System} {schema : Schema}
    (taken : TransitionsTaken (settled.beginAt source) source.transitions.toList result)
    (states : StatesTaken source (target.unite source schema) source.states.toList settled)
    (combines : Schema.Combines .union target.schema source.schema schema)
    (coherent : target.Coherent) (coherent' : source.Coherent) :
    Merges target source result where
  kind := by
    rw [taken.frame, beginAt, states.frame]
    exact combines.kind
  propositions := by
    rw [taken.frame, beginAt, states.frame]
    change schema.propositions.toList = _
    rw [combines.propositions]
    exact OrderedSet.toList_insertMany _ source.propositions.nodup_toList
  alphabets field first second found found' := by
    rw [taken.frame, beginAt, states.frame]
    exact ⟨_, (combines.alphabet_eq_ok_iff field _).2 ⟨first, second, found, found', rfl⟩,
      OrderedSet.toList_insertMany _ second.nodup_toList⟩
  states := by
    rw [taken.frame]
    change settled.states.toList = _
    rw [states.states]
    simp only [coherent.mem_states_iff]
    rfl
  label? := by
    rw [taken.frame]
    exact states.label?_eq coherent coherent'
  initial := by
    rw [taken.frame, beginAt, states.frame]
    exact OrderedSet.toList_insertMany _ source.initial.nodup_toList
  transitions := by
    rw [taken.transitions, beginAt, states.frame]
    simp only [← coherent.mem_edges_iff]
    rfl
  isMutable := by
    rw [taken.frame, beginAt, states.frame]
    rfl
  name := by
    rw [taken.frame, beginAt, states.frame]
    rfl
  factors := by
    rw [taken.frame, beginAt, states.frame]
    rfl

/-- Merging two reachable systems of one kind succeeds and unites them. Systems of different kinds
are refused, and the target stays as it is. -/
theorem Reachable.merge_unites {target source : System} (reachable : target.Reachable)
    (reachable' : source.Reachable) :
    (target.kind = source.kind →
      ∃ result, target.merge source = (.ok (), result) ∧ Merges target source result) ∧
    (target.kind ≠ source.kind →
      ∃ error, target.merge source = (.error error, target) ∧
        error.errorClass = .typeMismatch) := by
  refine ⟨fun kinds => ?_, fun differ => ⟨_, if_neg differ, rfl⟩⟩
  obtain ⟨schema, settled, result, combines, states, transitions, runs⟩ :=
    reachable'.coherent.exists_runsTo_contents kinds
  refine ⟨result, ?_, transitions.merges states combines reachable.coherent reachable'.coherent⟩
  rw [System.merge, if_pos kinds]
  exact runs

/-- A dimmer for the lamp: it shares the bright state and adds a dimmed one. -/
def dimmer : System :=
  let bright : Symbol := .atom "bright"
  let dim : Symbol := .atom "dim"
  ((System.empty
      (.opened (.ofList [.atom "dimmed", .atom "on"]) (.ofList [.atom "glow"])
        (.ofList [.atom "turn"]))
      "dimmer" true).run
    [.addLabeledState dim (.ofList [.atom "on", .atom "dimmed"]), .addLabeledState bright ∅,
      .setInitial [dim], .addActions bright dim (.atom "glow") (.atom "turn")]).2

theorem reachable_dimmer : dimmer.Reachable :=
  (Reachable.fresh ..).run _

/-- The dimmer can be merged into the lamp, a closed system cannot. -/
theorem lamp_merge_dimmer :
    (∃ result, lamp.merge dimmer = (.ok (), result) ∧ Merges lamp dimmer result) ∧
      ∃ error, lamp.merge (.empty (.empty .closed) "counter") = (.error error, lamp) ∧
        error.errorClass = .typeMismatch :=
  ⟨(Reachable.merge_unites reachable_lamp reachable_dimmer).1 (by decide +kernel),
    (Reachable.merge_unites reachable_lamp (.fresh ..)).2 (by decide +kernel)⟩

end TransitionSystems.System
