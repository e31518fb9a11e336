import TransitionSystems.Proofs.Model.SystemDeclarations
import TransitionSystems.Proofs.System.Coherence

/-!
# Systems survive their files

The file of a system whose names can be told from the marks of the format is read back as a system
with the same content. While the declarations are read, the system that has been read so far is
coherent and holds what has been declared so far.
-/

namespace TransitionSystems

open Model

namespace System

/-- A system whose names can be told from the marks of the format: its name is a word, the atoms in
its propositions, alphabets and states are plain, and no label begins with the word for the empty
label. -/
structure Writable (system : System) : Prop where
  name : system.name.IsWord
  propositions : ∀ proposition ∈ system.propositions, proposition.Spelled IsPlain
  values : ∀ field value, system.schema.Admits field value → value.Spelled IsPlain
  states : ∀ state ∈ system.states, state.Spelled IsPlain
  least : ∀ state label, system.label? state = some label →
    label.min? ≠ some (.atom emptyLabelWord)

/-- A system whose words can be told from blanks and comments. -/
structure Legible (system : System) : Prop where
  name : system.name.IsWord
  propositions : ∀ proposition ∈ system.propositions, proposition.Spelled IsPlain
  values : ∀ field value, system.schema.Admits field value → value.Spelled IsPlain
  states : ∀ state ∈ system.states, state.Spelled IsPlain

theorem Writable.legible {system : System} (writable : system.Writable) : system.Legible where
  name := writable.name
  propositions := writable.propositions
  values := writable.values
  states := writable.states

/-- A system with the content of another one: everything but the flags of its sets and the recorded
factors. -/
structure SameContent (system back : System) : Prop where
  kind : back.kind = system.kind
  name : back.name = system.name
  isMutable : back.isMutable = system.isMutable
  propositions : back.propositions.toList = system.propositions.toList
  alphabets : back.schema.alphabetLists = system.schema.alphabetLists
  states : back.states = system.states
  label? : ∀ state, back.label? state = system.label? state
  initial : back.initial.toList = system.initial.toList
  transitions : back.transitions = system.transitions

/-- A system that has the universe, the name and the flag of another one, and some of its states
with their labels, of its initial states and of its transitions. -/
structure Restores (system : System) (states initial : List Symbol)
    (transitions : List Transition) (back : System) : Prop where
  coherent : back.Coherent
  kind : back.kind = system.kind
  name : back.name = system.name
  isMutable : back.isMutable = system.isMutable
  propositions : back.propositions.toList = system.propositions.toList
  alphabets : back.schema.alphabetLists = system.schema.alphabetLists
  toList_states : back.states.toList = states
  label? : ∀ state ∈ states, back.label? state = system.label? state
  toList_initial : back.initial.toList = initial
  toList_transitions : back.transitions.toList = transitions

/-! ## The universe -/

theorem toList_empty_union_ofList (set : OrderedSet) :
    (OrderedSet.empty.union (.ofList set.toList)).toList = set.toList := by
  have read : (OrderedSet.ofList set.toList).toList = set.toList :=
    OrderedSet.toList_ofList_of_nodup set.nodup_toList false
  change (OrderedSet.empty.insertMany (OrderedSet.ofList set.toList).toList).toList = _
  rw [read]
  exact read

/-- The alphabets are read back into a universe with alphabets without elements. -/
theorem reads_alphabets (before : System) (schema : Schema)
    (start : before.schema.alphabets = (Schema.empty schema.kind).alphabets)
    (spelled : ∀ entry ∈ schema.alphabets.entries, ∀ value ∈ entry.2, value.Spelled IsPlain) :
    ∃ alphabets,
      Reads before (schema.alphabets.entries.flatMap fun entry => setDeclarations entry.1 entry.2)
        ({ before with schema := { before.schema with alphabets } } : System) ∧
      before.schema.Extends { before.schema with alphabets } ∧
      Schema.alphabetLists { before.schema with alphabets } = schema.alphabetLists := by
  have kind : before.kind = schema.kind := by
    rw [System.kind, Schema.kind, start]
    exact Schema.kind_empty schema.kind
  obtain ⟨propositions, alphabets⟩ := schema
  cases alphabets with
  | closed actions =>
      have known : actionsField ∈ before.kind.fields := by
        rw [kind]
        exact List.mem_cons_self
      have reads := reads_alphabet before known (spelled _ List.mem_cons_self)
      refine ⟨_, reads.append (.nil _), Schema.extends_modify_union _ _ _, ?_⟩
      rw [start]
      exact congrArg (fun symbols => [(actionsField, symbols)]) (toList_empty_union_ofList actions)
  | opened system environment =>
      have known : systemActionsField ∈ before.kind.fields := by
        rw [kind]
        exact List.mem_cons_self
      have known' : environmentActionsField ∈ before.kind.fields := by
        rw [kind]
        exact List.mem_cons_of_mem _ List.mem_cons_self
      have reads := reads_alphabet before known (spelled _ List.mem_cons_self)
      have reads' := reads_alphabet
        { before with schema := { before.schema with
          alphabets := before.schema.alphabets.modify systemActionsField
            (·.union (.ofList system.toList)) } }
        (by rwa [System.kind, Schema.kind, Schema.kind_modify])
        (spelled _ (List.mem_cons_of_mem _ List.mem_cons_self))
      refine ⟨_, reads.append (reads'.append (.nil _)),
        (Schema.extends_modify_union _ _ _).trans (Schema.extends_modify_union _ _ _), ?_⟩
      rw [start]
      exact congrArg₂ (fun symbols symbols' =>
          [(systemActionsField, symbols), (environmentActionsField, symbols')])
        (toList_empty_union_ofList system) (toList_empty_union_ofList environment)

/-- The universe is read back. -/
theorem Writable.reads_universe {system : System} (writable : system.Writable) :
    ∃ back : System,
      Reads (System.empty (.empty system.kind) system.name) system.universeDeclarations back ∧
      Restores system [] [] [] back := by
  have start := coherent_empty (.empty system.kind) system.name false
  have coherent := (start.change (.flag system.isMutable)).extend
    (Schema.extends_union _ (.ofList system.propositions.toList))
  have flag := reads_flag (.empty (.empty system.kind) system.name) system.isMutable rfl
  have propositions := reads_propositions
    ((System.empty (.empty system.kind) system.name).setMutable system.isMutable)
    system.propositions writable.propositions
  obtain ⟨alphabets, reads, extends', lists⟩ := reads_alphabets
    (((System.empty (.empty system.kind) system.name).setMutable
      system.isMutable).growPropositions (.ofList system.propositions.toList))
    system.schema rfl (fun entry listed value member => writable.values entry.1 value
      ⟨entry.2, Schema.alphabet_eq_ok_iff.2 listed, member⟩)
  refine ⟨_, (flag.append propositions).append reads, {
    coherent := coherent.extend extends'
    kind := extends'.kind.trans (Schema.kind_empty system.kind)
    name := rfl
    isMutable := rfl
    propositions := ?_
    alphabets := lists
    toList_states := rfl
    label? := by simp
    toList_initial := rfl
    toList_transitions := rfl }⟩
  change ((Schema.empty system.kind).propositions.union _).toList = _
  rw [Schema.propositions_empty]
  exact toList_empty_union_ofList system.propositions

/-! ## The contents -/

namespace Restores

variable {system back : System} {states initial : List Symbol} {transitions : List Transition}

theorem mem_propositions_iff (restores : Restores system states initial transitions back)
    {proposition : Symbol} :
    proposition ∈ back.propositions ↔ proposition ∈ system.propositions := by
  rw [← OrderedSet.mem_toList, restores.propositions, OrderedSet.mem_toList]

theorem admits_iff (restores : Restores system states initial transitions back) {field : Text}
    {value : Symbol} : back.schema.Admits field value ↔ system.schema.Admits field value := by
  simp only [Schema.admits_iff_mem_alphabetLists, restores.alphabets]

theorem mem_labels_iff (restores : Restores system states initial transitions back)
    {state : Symbol} : state ∈ back.labels ↔ state ∈ states := by
  rw [← restores.coherent.mem_states_iff, ← Array.mem_toList_iff, restores.toList_states]

/-- A further state is read back with its label. -/
theorem state (restores : Restores system states initial transitions back)
    (coherent : system.Coherent) (writable : system.Writable) {state : Symbol}
    (member : state ∈ system.states) (new : state ∉ states) :
    Reads back [system.stateDeclaration state] (back.putState state (system.label? state)) ∧
      Restores system (states ++ [state]) initial transitions
        (back.putState state (system.label? state)) := by
  have absent : state ∉ back.labels := mt restores.mem_labels_iff.1 new
  have known (label : Label) (found : system.label? state = some label) :
      ∀ proposition ∈ label, proposition ∈ back.propositions := fun proposition listed =>
    restores.mem_propositions_iff.2 (coherent.label_subset state label found proposition listed)
  constructor
  · apply reads_state absent (writable.states state member) _ known
    · exact writable.least state
    · intro label found proposition listed
      exact writable.propositions proposition
        (coherent.label_subset state label found proposition listed)
  · have unknown : back.hasState state = false := by
      rw [← Bool.not_eq_true, hasState_iff]
      exact absent
    exact { restores with
      coherent := restores.coherent.putState state known
      toList_states := by
        simp [putState, unknown, restores.toList_states]
      label? := by
        intro other listed
        rw [label?_putState]
        split
        · next same => rw [same]
        · next distinct =>
            rw [List.mem_append, List.mem_singleton] at listed
            exact restores.label? other (listed.resolve_right (Ne.symm distinct)) }

theorem statesAll (restores : Restores system states initial transitions back)
    (coherent : system.Coherent) (writable : system.Writable) {more : List Symbol}
    (members : ∀ state ∈ more, state ∈ system.states) (nodup : (states ++ more).Nodup) :
    ∃ after : System, Reads back (more.map system.stateDeclaration) after ∧
      Restores system (states ++ more) initial transitions after := by
  induction more generalizing states back with
  | nil => exact ⟨back, .nil back, by rwa [List.append_nil]⟩
  | cons state more induction =>
      rw [List.forall_mem_cons] at members
      have new : state ∉ states := fun member =>
        (List.nodup_append.1 nodup).2.2 state member state List.mem_cons_self rfl
      obtain ⟨reads, restores'⟩ := restores.state coherent writable members.1 new
      rw [← List.singleton_append, ← List.append_assoc] at nodup ⊢
      obtain ⟨after, reads', restores''⟩ := induction restores' members.2 nodup
      exact ⟨after, reads.append reads', restores''⟩

theorem setInitial (restores : Restores system states [] transitions back)
    (writable : system.Writable) (coherent : system.Coherent)
    (all : states = system.states.toList) :
    ∃ after : System, Reads back (setDeclarations "initial" system.initial) after ∧
      Restores system states system.initial.toList transitions after := by
  have member (state : Symbol) (listed : state ∈ system.initial) : state ∈ system.states :=
    coherent.initial_subset state listed
  have known (state : Symbol) (listed : state ∈ system.initial) : state ∈ back.labels := by
    rw [restores.mem_labels_iff, all, Array.mem_toList_iff]
    exact member state listed
  refine ⟨_, reads_initial known fun state listed => writable.states state (member state listed),
    { restores with
      coherent := restores.coherent.putInitial fun state listed =>
        known state (OrderedSet.mem_toList.1 listed)
      toList_initial := ?_ }⟩
  have appended := OrderedSet.toList_insertMany_of_nodup back.initial system.initial.toList
  rw [restores.toList_initial] at appended
  exact appended system.initial.nodup_toList

/-- A further transition is read back. -/
theorem transition (restores : Restores system states initial transitions back)
    (coherent : system.Coherent) (writable : system.Writable)
    (all : states = system.states.toList) {transition : Transition}
    (member : transition ∈ system.transitions) (new : transition ∉ transitions) :
    Reads back [transitionDeclaration transition] (back.putTransition transition) ∧
      Restores system states initial (transitions ++ [transition])
        (back.putTransition transition) := by
  obtain ⟨source, target⟩ := coherent.ends transition member
  have present {state : Symbol} (member : state ∈ system.states) : state ∈ back.labels := by
    rw [restores.mem_labels_iff, all, Array.mem_toList_iff]
    exact member
  have ends := And.intro (present source) (present target)
  have sublist : transition.label.fields.Sublist back.kind.fields := by
    rw [restores.kind]
    exact coherent.fields_sublist transition member
  have admits : ∀ entry ∈ transition.label.entries, back.schema.Admits entry.1 entry.2 :=
    fun entry listed => restores.admits_iff.2 (coherent.values transition member entry listed)
  have spelled : ∀ entry ∈ transition.label.entries, entry.2.Spelled IsPlain :=
    fun entry listed =>
      writable.values entry.1 entry.2 (coherent.values transition member entry listed)
  constructor
  · exact reads_transition (writable.states _ source) (writable.states _ target) spelled ends
      sublist admits
  · have ends' := And.intro ((restores.coherent.mem_states_iff _).2 ends.1)
      ((restores.coherent.mem_states_iff _).2 ends.2)
    have next := restores.coherent.putTransition ends' sublist admits
    have absent : transition ∉ back.edges := by
      rw [restores.coherent.mem_edges_iff, ← Array.mem_toList_iff, restores.toList_transitions]
      exact new
    rw [putTransition, if_neg absent] at next ⊢
    exact { restores with
      coherent := next
      toList_transitions := by
        rw [Array.toList_push, restores.toList_transitions] }

theorem transitionsAll (restores : Restores system states initial transitions back)
    (coherent : system.Coherent) (writable : system.Writable)
    (all : states = system.states.toList) {more : List Transition}
    (members : ∀ transition ∈ more, transition ∈ system.transitions)
    (nodup : (transitions ++ more).Nodup) :
    ∃ after : System, Reads back (more.map transitionDeclaration) after ∧
      Restores system states initial (transitions ++ more) after := by
  induction more generalizing transitions back with
  | nil => exact ⟨back, .nil back, by rwa [List.append_nil]⟩
  | cons transition more induction =>
      rw [List.forall_mem_cons] at members
      have new : transition ∉ transitions := fun member =>
        (List.nodup_append.1 nodup).2.2 transition member transition List.mem_cons_self rfl
      obtain ⟨reads, restores'⟩ := restores.transition coherent writable all members.1 new
      rw [← List.singleton_append, ← List.append_assoc] at nodup ⊢
      obtain ⟨after, reads', restores''⟩ := induction restores' members.2 nodup
      exact ⟨after, reads.append reads', restores''⟩

end Restores

/-! ## The file -/

/-- The declarations of a legible system arrive at the reader as they are. -/
theorem Legible.clean {system : System} (legible : system.Legible) (coherent : system.Coherent) :
    ∀ declaration ∈ system.header :: system.declarations, declaration.Clean := by
  have labels (state : Symbol) (label : Label) (found : system.label? state = some label) :
      ∀ proposition ∈ label, proposition.Spelled IsPlain := fun proposition listed =>
    legible.propositions proposition (coherent.label_subset state label found proposition listed)
  rw [List.forall_mem_cons]
  constructor
  · refine ⟨isWord_of_mem_keywords "system" (by decide), ?_⟩
    have kind : system.kind.name.IsWord := by
      cases system.kind <;> exact ⟨by decide +kernel, by decide +kernel⟩
    simp [header, kind, legible.name]
  · intro declaration member
    simp only [declarations, universeDeclarations, List.mem_append, List.mem_flatMap,
      List.mem_map] at member
    rcases member with (((((flag | propositions) | ⟨entry, listed, alphabet⟩) |
      ⟨state, listed, rfl⟩) | initial) | ⟨transition, listed, rfl⟩)
    · split at flag
      · obtain rfl := List.mem_singleton.1 flag
        exact ⟨isWord_of_mem_keywords "mutable" (by decide), by simp⟩
      · cases flag
    · exact clean_setDeclarations (isWord_of_mem_keywords _ (by decide)) legible.propositions
        declaration propositions
    · have field : entry.1 ∈ system.kind.fields := by
        rw [System.kind, ← Schema.map_fst_entries]
        exact List.mem_map_of_mem listed
      refine clean_setDeclarations (isWord_of_mem_fields field) ?_ declaration alphabet
      intro value present
      exact legible.values entry.1 value ⟨entry.2, Schema.alphabet_eq_ok_iff.2 listed, present⟩
    · exact clean_stateDeclaration
        (legible.states state (Array.mem_toList_iff.1 listed)) (labels state)
    · refine clean_setDeclarations (isWord_of_mem_keywords _ (by decide)) ?_ declaration initial
      intro state present
      exact legible.states state (coherent.initial_subset state present)
    · have member := Array.mem_toList_iff.1 listed
      obtain ⟨source, target⟩ := coherent.ends transition member
      refine clean_transitionDeclaration (legible.states _ source) (legible.states _ target) ?_
      intro entry listed
      exact legible.values entry.1 entry.2 (coherent.values transition member entry listed)

/-- The declarations of a coherent and writable system are read back. -/
theorem Writable.reads_declarations {system : System} (writable : system.Writable)
    (coherent : system.Coherent) :
    ∃ back : System,
      Reads (System.empty (.empty system.kind) system.name) system.declarations back ∧
      Restores system system.states.toList system.initial.toList system.transitions.toList
        back := by
  obtain ⟨grown, readsUniverse, restores⟩ := writable.reads_universe
  obtain ⟨labeled, readsStates, restoresStates⟩ := restores.statesAll coherent writable
    (fun state => Array.mem_toList_iff.1) coherent.nodup_states
  obtain ⟨started, readsInitial, restoresInitial⟩ :=
    restoresStates.setInitial writable coherent rfl
  obtain ⟨back, readsTransitions, complete⟩ := restoresInitial.transitionsAll coherent writable rfl
    (fun transition => Array.mem_toList_iff.1) coherent.nodup_transitions
  have reads := ((readsUniverse.append readsStates).append readsInitial).append readsTransitions
  exact ⟨back, reads, complete⟩

/-- The header of a file begins the system, and the declarations go on. -/
theorem Legible.readLines_written {system : System} (legible : system.Legible)
    (coherent : system.Coherent) :
    readLines none 1 (Text.lines system.written) =
      readLines (some (.system (.empty (.empty system.kind) system.name))) (1 + 1)
        (system.declarations.map Declaration.line) := by
  have clean := legible.clean coherent
  have declared : readDeclaration none 1 system.header =
      .ok (.system (.empty (.empty system.kind) system.name)) := by
    rw [System.header]
    cases system.kind <;> rfl
  have header : readLine none 1 system.header.line =
      .ok (some (.system (.empty (.empty system.kind) system.name))) := by
    rw [readLine_line (clean _ List.mem_cons_self), declared]
    rfl
  rw [written_eq_flatMap, lines_flatMap_written clean, List.map_cons, readLines, header, ok_bind]

theorem Writable.ofLines_written {system back : System} (writable : system.Writable)
    (coherent : system.Coherent)
    (reads : Reads (System.empty (.empty system.kind) system.name) system.declarations back) :
    Model.ofLines (Text.lines system.written) = .ok (.system back) := by
  rw [Model.ofLines, writable.legible.readLines_written coherent, reads (1 + 1)]
  rfl

/-- A system with all states, initial states and transitions of another one has its content. -/
theorem Restores.sameContent {system back : System} (coherent : system.Coherent)
    (complete : Restores system system.states.toList system.initial.toList
      system.transitions.toList back) : SameContent system back where
  kind := complete.kind
  name := complete.name
  isMutable := complete.isMutable
  propositions := complete.propositions
  alphabets := complete.alphabets
  states := Array.toList_inj.1 complete.toList_states
  label? := by
    intro state
    by_cases member : state ∈ system.states
    · exact complete.label? state (Array.mem_toList_iff.2 member)
    · have absent : state ∉ back.labels := by
        rw [complete.mem_labels_iff, Array.mem_toList_iff]
        exact member
      rw [label?_of_not_mem absent,
        label?_of_not_mem (mt (coherent.mem_states_iff state).2 member)]
  initial := complete.toList_initial
  transitions := Array.toList_inj.1 complete.toList_transitions

/-- The names of the lamp. -/
def lampNames : List Symbol :=
  [.atom "on", .atom "glow", .atom "press", .atom "dark", .atom "bright", .atom "broken"]

theorem writable_lamp : lamp.Writable := by
  have spelled (symbol : Symbol) (member : symbol ∈ lampNames) : symbol.Spelled IsPlain := by
    simp only [lampNames, List.mem_cons, List.not_mem_nil, or_false] at member
    rcases member with rfl | rfl | rfl | rfl | rfl | rfl <;>
      exact .atom (by decide) (by decide +kernel)
  have propositions : ∀ proposition ∈ lamp.propositions.toList, proposition ∈ lampNames := by
    decide +kernel
  have values : ∀ entry ∈ lamp.schema.alphabetLists, ∀ value ∈ entry.2, value ∈ lampNames := by
    decide +kernel
  have states : ∀ state ∈ lamp.states, state ∈ lampNames := by decide +kernel
  have least : ∀ state ∈ lamp.states,
      (lamp.label? state).bind (·.toList.head?) ≠ some (.atom emptyLabelWord) := by
    decide +kernel
  constructor
  · exact ⟨by decide +kernel, by decide +kernel⟩
  · intro proposition member
    exact spelled _ (propositions proposition (OrderedSet.mem_toList.2 member))
  · intro field value admits
    obtain ⟨symbols, listed, member⟩ := Schema.admits_iff_mem_alphabetLists.1 admits
    exact spelled _ (values (field, symbols) listed value member)
  · intro state member
    exact spelled _ (states state member)
  · intro state label found same
    have member : state ∈ lamp.states := by
      rw [reachable_lamp.coherent.mem_states_iff]
      exact mem_labels_iff_getElem?.2 ⟨_, label?_eq_some_iff.1 found⟩
    apply least state member
    rw [found, Option.bind_some, ← Std.ExtTreeSet.min?_eq_head?_toList]
    exact same

/-- The file of a reachable system whose names can be told from the marks of the format is read
back as a system with the same content. -/
theorem Reachable.exists_sameContent_ofLines_written {system : System}
    (reachable : system.Reachable) (writable : system.Writable) :
    ∃ back, Model.ofLines (Text.lines system.written) = .ok (.system back) ∧
      SameContent system back := by
  have coherent := reachable.coherent
  obtain ⟨back, reads, complete⟩ := writable.reads_declarations coherent
  exact ⟨back, writable.ofLines_written coherent reads, complete.sameContent coherent⟩

/-- The file of the lamp. -/
theorem exists_sameContent_ofLines_written_lamp :
    ∃ back, Model.ofLines (Text.lines lamp.written) = .ok (.system back) ∧
      SameContent lamp back :=
  Reachable.exists_sameContent_ofLines_written reachable_lamp writable_lamp

end System

end TransitionSystems
