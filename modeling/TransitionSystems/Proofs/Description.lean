import TransitionSystems.Description
import TransitionSystems.Proofs.FirstError
import TransitionSystems.Proofs.System.Construction
import TransitionSystems.Proofs.System.InsertionOrder
import TransitionSystems.Proofs.System.StateCalls

/-!
# Consistent descriptions

A description is consistent when its initial states, labels and edges are about states that it
lists, its labels hold propositions that it lists, there are no more labels than states, and its
edges carry listed actions exactly when it has actions. Building succeeds for the consistent
descriptions and reports the first error of the others; what is built is what has been described.

All checks see the listed states and the universe, which building does not change once the states
are there. So the errors can be told from the description alone.
-/

namespace TransitionSystems

namespace System

theorem attempt_of_addTransition {system next : System} {call : Transition}
    (added : system.addTransition call.source call.target call.label = .ok next) :
    system.attempt [call] = next := by
  have performed : system.perform (transitionUpdate call) = .ok next := added
  change (system.run [transitionUpdate call]).2 = next
  rw [run_singleton, performed]
  rfl

/-- A call first makes its checks. -/
theorem addTransition_eq (system : System) (call : Transition) :
    system.addTransition call.source call.target call.label =
      (do
        system.requireState "add_transition" call.source
        system.requireState "add_transition" call.target
        system.schema.checkEdgeLabel call.label) >>= fun _ => .ok (system.attempt [call]) := by
  cases added : system.addTransition call.source call.target call.label with
  | ok next =>
      obtain ⟨source, target, admits, -⟩ := addTransition_eq_ok_iff.1 added
      rw [attempt_of_addTransition added, requireState_eq_ok_iff.2 source,
        requireState_eq_ok_iff.2 target, Schema.checkEdgeLabel_eq_ok_iff.2 admits]
      rfl
  | error error =>
      rw [addTransition] at added
      cases source : system.requireState "add_transition" call.source with
      | error cause => simpa [source, bind, Except.bind] using added.symm
      | ok _ =>
          cases target : system.requireState "add_transition" call.target with
          | error cause => simpa [source, target, bind, Except.bind] using added.symm
          | ok _ =>
              cases label : system.schema.checkEdgeLabel call.label with
              | error cause => simpa [source, target, label, bind, Except.bind] using added.symm
              | ok _ =>
                  simp only [source, target, label, ok_bind] at added
                  split at added <;> cases added

theorem receives_addStates (system : System) (states : List Symbol) :
    system.Receives (states.map (StateCall.mk · none)) (system.addStates states) := by
  apply receives_of_runsTo
  induction states generalizing system with
  | nil => exact .nil system
  | cons state states induction => exact .cons rfl (induction (system.addState state))

theorem mem_labels_addStates_empty {schema : Schema} {name : Text} {states : List Symbol}
    {state : Symbol} :
    state ∈ ((System.empty schema name).addStates states).labels ↔ state ∈ states := by
  have absent : state ∉ (System.empty schema name).labels := Std.ExtTreeMap.not_mem_empty
  simp [(receives_addStates _ _).mem_labels, absent]

/-- States are added to the system without states at their first occurrences. -/
theorem toList_addStates_empty (schema : Schema) (name : Text) (states : List Symbol) :
    ((System.empty schema name).addStates states).states.toList = states.eraseDups := by
  induction states using List.reverseRecOn with
  | nil => rfl
  | append_singleton states state induction =>
      have last : (System.empty schema name).addStates (states ++ [state]) =
          ((System.empty schema name).addStates states).addState state := List.foldl_append
      rw [last]
      by_cases present : state ∈ states
      · rw [addState_of_mem (mem_labels_addStates_empty.2 present), induction,
          eraseDups_concat_of_mem present]
      · rw [addState_of_not_mem (mt mem_labels_addStates_empty.1 present), toList_states_putState,
          induction, eraseDups_concat_of_not_mem present]
        simp [mem_labels_addStates_empty, present]

end System

theorem Schema.checkEdgeLabel_action (schema : Schema) (value : Symbol) :
    schema.checkEdgeLabel (.action value) = schema.checkEntry (actionsField, value) := by
  change schema.checkEntry (actionsField, value) >>= (fun _ => .ok ()) = _
  cases schema.checkEntry (actionsField, value) <;> rfl

namespace Description

variable {description : Description} {system : System}

/-! ## What a description says -/

/-- The listed states under their names in the system. -/
def listed (description : Description) : List Symbol :=
  description.states.map description.stateOf

/-- The listed propositions and actions as a universe. -/
def schema (description : Description) : Schema :=
  .closed (.ofList description.propositions) (.ofList (description.actions.getD []))

/-- The states that are given labels, each with its label. -/
def labels (description : Description) : List (Symbol × Label) :=
  match description.labeling with
  | .named pairs => pairs
  | .inOrder labels => description.states.zip labels

/-- The labels that are given to a state of the system, in their order. -/
def labelsOf (description : Description) (state : Symbol) : List Label :=
  (description.labels.filter (description.stateOf ·.1 = state)).map Prod.snd

/-- The label of an edge: its action, if it has one. -/
def edgeLabel (edge : DescribedEdge) : EdgeLabel :=
  edge.action.elim .unlabeled .action

/-- The transition that an edge describes. -/
def transitionOf (description : Description) (edge : DescribedEdge) : Transition :=
  ⟨description.stateOf edge.source, description.stateOf edge.target, edgeLabel edge⟩

/-- A system that is as described. -/
structure Describes (description : Description) (system : System) : Prop where
  kind : system.kind = .closed
  name : system.name = description.name
  isMutable : system.isMutable = false
  propositions : system.propositions.toList = description.propositions.eraseDups
  actions : system.schema.alphabetLists =
    [(actionsField, (description.actions.getD []).eraseDups)]
  states : system.states.toList = description.listed.eraseDups
  initial : system.initial.toList = (description.initial.map description.stateOf).eraseDups
  /-- The last label that a state is given counts. -/
  label? : ∀ state, system.label? state = (description.labelsOf state).getLast?
  transitions : system.transitions.toList =
    (description.edges.map description.transitionOf).eraseDups
  factors : system.factors = ∅

/-- An edge has no action when there are no actions, and otherwise one that is listed. -/
def FitsActions (description : Description) (edge : DescribedEdge) : Prop :=
  (description.actions = none → edge.action = none) ∧
    ∀ actions, description.actions = some actions → ∃ action ∈ actions, edge.action = some action

/-- A description whose lists fit together. -/
structure IsConsistent (description : Description) : Prop where
  initial : ∀ state ∈ description.initial, description.stateOf state ∈ description.listed
  count : ∀ labels, description.labeling = .inOrder labels →
    labels.length ≤ description.states.length
  labeled : ∀ entry ∈ description.labels, description.stateOf entry.1 ∈ description.listed
  holding : ∀ entry ∈ description.labels, ∀ proposition ∈ entry.2,
    proposition ∈ description.propositions
  ends : ∀ edge ∈ description.edges, description.stateOf edge.source ∈ description.listed ∧
    description.stateOf edge.target ∈ description.listed
  actions : ∀ edge ∈ description.edges, description.FitsActions edge

/-! ## Errors -/

/-- The error of an operation on a state that is not listed. -/
def unlisted (description : Description) (operation : Text) (state : Symbol) : List Error :=
  errorUnless (state ∈ description.listed) (.unknownState operation state description.name)

/-- The error of labels that are given in order and are too many. -/
def countErrors (description : Description) : List Error :=
  match description.labeling with
  | .named _ => []
  | .inOrder labels =>
    errorUnless (labels.length ≤ description.states.length)
      (.labelCount labels.length description.states.length)

/-- The errors of a label: its state first, then its propositions. -/
def labelErrors (description : Description) (entry : Symbol × Label) : List Error :=
  description.unlisted "label_state" (description.stateOf entry.1) ++
    errorUnless (∀ proposition ∈ entry.2.toList, proposition ∈ description.propositions)
      (.labelOutside entry.2 (.ofList description.propositions))

/-- The error of an edge with an action where there are none, or without one where there are. -/
def presenceErrors (description : Description) (edge : DescribedEdge) : List Error :=
  match description.actions, edge.action with
  | none, some _ => [.unexpectedAction edge.source edge.target]
  | some _, none => [.missingAction edge.source edge.target]
  | none, none | some _, some _ => []

/-- The error of an edge whose action is not listed. -/
def actionErrors (description : Description) (edge : DescribedEdge) : List Error :=
  match description.actions, edge.action with
  | some actions, some action =>
    errorUnless (action ∈ actions) (.valueOutside action actionsField (.ofList actions))
  | _, _ => []

/-- The errors of an edge: whether it carries an action, its ends, and which action it carries. -/
def edgeErrors (description : Description) (edge : DescribedEdge) : List Error :=
  description.presenceErrors edge ++
    description.unlisted "add_transition" (description.stateOf edge.source) ++
    description.unlisted "add_transition" (description.stateOf edge.target) ++
    description.actionErrors edge

/-- All errors of a description: those of its initial states, of the number of its labels, of its
labels, and of its edges. -/
def errors (description : Description) : List Error :=
  (description.initial.map description.stateOf).flatMap (description.unlisted "set_initial") ++
    description.countErrors ++ description.labels.flatMap description.labelErrors ++
    description.edges.flatMap description.edgeErrors

theorem unlisted_eq_nil_iff {operation : Text} {state : Symbol} :
    description.unlisted operation state = [] ↔ state ∈ description.listed :=
  errorUnless_eq_nil_iff

theorem countErrors_eq_nil_iff :
    description.countErrors = [] ↔ ∀ labels, description.labeling = .inOrder labels →
      labels.length ≤ description.states.length := by
  rw [countErrors]
  cases description.labeling with
  | named pairs => simp
  | inOrder labels => simp [errorUnless_eq_nil_iff]

theorem labelErrors_eq_nil_iff {entry : Symbol × Label} :
    description.labelErrors entry = [] ↔
      description.stateOf entry.1 ∈ description.listed ∧
        ∀ proposition ∈ entry.2, proposition ∈ description.propositions := by
  simp [labelErrors, unlisted_eq_nil_iff, errorUnless_eq_nil_iff]

theorem edgeErrors_eq_nil_iff {edge : DescribedEdge} :
    description.edgeErrors edge = [] ↔
      (description.stateOf edge.source ∈ description.listed ∧
        description.stateOf edge.target ∈ description.listed) ∧
        description.FitsActions edge := by
  have fits : description.presenceErrors edge = [] ∧ description.actionErrors edge = [] ↔
      description.FitsActions edge := by
    rw [presenceErrors, actionErrors, FitsActions]
    cases description.actions <;> cases edge.action <;> simp [errorUnless_eq_nil_iff]
  rw [← fits]
  simp only [edgeErrors, List.append_eq_nil_iff, unlisted_eq_nil_iff]
  tauto

/-- The consistent descriptions are those without errors. -/
theorem isConsistent_iff : description.IsConsistent ↔ description.errors = [] := by
  simp only [errors, List.append_eq_nil_iff, List.flatMap_eq_nil_iff, List.mem_map,
    forall_exists_index, and_imp, forall_apply_eq_imp_iff₂, unlisted_eq_nil_iff,
    countErrors_eq_nil_iff, labelErrors_eq_nil_iff, edgeErrors_eq_nil_iff]
  constructor
  · intro consistent
    exact ⟨⟨⟨consistent.initial, consistent.count⟩,
      fun entry member => ⟨consistent.labeled entry member, consistent.holding entry member⟩⟩,
      fun edge member => ⟨consistent.ends edge member, consistent.actions edge member⟩⟩
  · rintro ⟨⟨⟨initial, count⟩, labels⟩, edges⟩
    exact ⟨initial, count, fun entry member => (labels entry member).1,
      fun entry member => (labels entry member).2, fun edge member => (edges edge member).1,
      fun edge member => (edges edge member).2⟩

/-! ## Checks -/

/-- The states and the universe that the checks see: those of the description. -/
structure IsGround (description : Description) (system : System) : Prop where
  mem_labels : ∀ state, state ∈ system.labels ↔ state ∈ description.listed
  schema : system.schema = description.schema
  name : system.name = description.name

namespace IsGround

variable (ground : description.IsGround system)

include ground

theorem requireState_eq (operation : Text) (state : Symbol) :
    system.requireState operation state =
      reportFirst (description.unlisted operation state) := by
  have known : system.hasState state = true ↔ state ∈ description.listed := by
    rw [System.hasState_iff, ground.mem_labels]
  rw [unlisted, reportFirst_errorUnless, System.requireState, ground.name]
  simp only [known]

theorem setInitial_eq (states : List Symbol) :
    system.setInitial states =
      reportFirst (states.flatMap (description.unlisted "set_initial")) >>= fun _ =>
        .ok { system with initial := system.initial.insertMany states } := by
  rw [System.setInitial, forM_eq_reportFirst (ground.requireState_eq "set_initial")]
  rfl

theorem checkLabel_eq (label : Label) :
    system.schema.checkLabel label =
      reportFirst (errorUnless
        (∀ proposition ∈ label.toList, proposition ∈ description.propositions)
        (.labelOutside label (.ofList description.propositions))) := by
  have included : description.schema.propositions.includes label = true ↔
      ∀ proposition ∈ label.toList, proposition ∈ description.propositions := by
    rw [OrderedSet.includes_eq_true_iff]
    simp [Description.schema, Schema.closed]
  rw [ground.schema, reportFirst_errorUnless, Schema.checkLabel]
  simp only [included]
  rfl

theorem labelState_eq (entry : Symbol × Label) :
    system.labelState (description.stateOf entry.1) entry.2 =
      reportFirst (description.labelErrors entry) >>= fun _ =>
        .ok (system.putState (description.stateOf entry.1) (some entry.2)) := by
  rw [System.labelState, ground.requireState_eq, ground.checkLabel_eq, labelErrors, unlisted]
  by_cases listed : description.stateOf entry.1 ∈ description.listed
  · have known := System.hasState_iff.2 ((ground.mem_labels _).2 listed)
    rw [errorUnless_eq_nil_iff.2 listed, List.nil_append, System.putState, if_pos known]
    rfl
  · rw [errorUnless, if_neg listed]
    rfl

theorem putState {state : Symbol} (listed : state ∈ description.listed) (label : Option Label) :
    description.IsGround (system.putState state label) where
  mem_labels other := by
    rw [System.mem_labels_putState, ground.mem_labels, or_iff_left_of_imp]
    rintro rfl
    exact listed
  schema := ground.schema
  name := ground.name

/-- Of an edge with an action exactly if there are actions, it is checked whether the action is
listed. -/
theorem checkEdgeLabel_eq {edge : DescribedEdge} (fits : description.presenceErrors edge = []) :
    system.schema.checkEdgeLabel (edgeLabel edge) =
      reportFirst (description.actionErrors edge) := by
  rw [presenceErrors] at fits
  rw [ground.schema, actionErrors]
  cases actions : description.actions with
  | none =>
      cases action : edge.action with
      | none =>
          rw [edgeLabel, action]
          rfl
      | some value => simp [actions, action] at fits
  | some values =>
      cases action : edge.action with
      | none => simp [actions, action] at fits
      | some value =>
          have alphabet : description.schema.alphabet actionsField = .ok (.ofList values) := by
            simp [Description.schema, actions, Schema.closed, Schema.alphabet, Alphabets.entries]
          rw [edgeLabel, action, Option.elim_some, Schema.checkEdgeLabel_action, Schema.checkEntry,
            alphabet, reportFirst_errorUnless]
          simp only [ok_bind, OrderedSet.mem_ofList]
          split <;> rfl

/-- An edge is added as a transition unless it has an error. -/
theorem addEdge_eq (edge : DescribedEdge) :
    description.addEdge system edge =
      reportFirst (description.edgeErrors edge) >>= fun _ =>
        .ok (system.attempt [description.transitionOf edge]) := by
  have closed : system.requireClosed = .ok () := by
    rw [System.requireClosed, System.kind, ground.schema]
    rfl
  have added (fits : description.presenceErrors edge = []) :
      system.addTransition (description.stateOf edge.source) (description.stateOf edge.target)
          (edgeLabel edge) =
        reportFirst (description.edgeErrors edge) >>= fun _ =>
          .ok (system.attempt [description.transitionOf edge]) := by
    refine (system.addTransition_eq (description.transitionOf edge)).trans ?_
    simp only [edgeErrors, fits, List.nil_append, List.append_assoc, reportFirst_append]
    rw [ground.requireState_eq, ground.requireState_eq]
    simp only [transitionOf, ground.checkEdgeLabel_eq fits]
  rw [addEdge]
  cases actions : description.actions with
  | none =>
      cases action : edge.action with
      | none => simpa [edgeLabel, action] using added (by simp [presenceErrors, actions, action])
      | some value =>
          rw [edgeErrors, presenceErrors, actions, action]
          rfl
  | some values =>
      cases action : edge.action with
      | none =>
          rw [edgeErrors, presenceErrors, actions, action]
          rfl
      | some value =>
          simp only [System.addAction, closed, ok_bind]
          simpa [edgeLabel, action] using added (by simp [presenceErrors, actions, action])

theorem attempt (calls : List Transition) : description.IsGround (system.attempt calls) := by
  have frame := system.sameFrame_attempt calls
  constructor
  · rw [frame]
    exact ground.mem_labels
  · rw [frame]
    exact ground.schema
  · rw [frame]
    exact ground.name

end IsGround

/-! ## The described system -/

/-- The listed states. -/
def unlabeled (description : Description) : System :=
  (System.empty description.schema description.name).addStates description.listed

/-- The listed states, and the initial ones among them. -/
def started (description : Description) : System :=
  { description.unlabeled with
    initial := description.unlabeled.initial.insertMany
      (description.initial.map description.stateOf) }

/-- The states with their labels. -/
def labeled (description : Description) : System :=
  description.labels.foldl
    (fun system entry => system.putState (description.stateOf entry.1) (some entry.2))
    description.started

/-- The states with their labels and transitions. -/
def described (description : Description) : System :=
  description.labeled.attempt (description.edges.map description.transitionOf)

theorem unlabeled_eq (description : Description) :
    description.unlabeled = { System.empty description.schema description.name with
      states := description.unlabeled.states, labels := description.unlabeled.labels } :=
  (System.receives_addStates _ _).frame

theorem isGround_unlabeled (description : Description) :
    description.IsGround description.unlabeled where
  mem_labels _ := System.mem_labels_addStates_empty
  schema := by rw [unlabeled_eq]; rfl
  name := by rw [unlabeled_eq]; rfl

theorem isGround_started (description : Description) :
    description.IsGround description.started where
  __ := description.isGround_unlabeled

theorem IsGround.putLabel (ground : description.IsGround system) (entry : Symbol × Label)
    (fits : description.labelErrors entry = []) :
    description.IsGround (system.putState (description.stateOf entry.1) (some entry.2)) :=
  ground.putState (labelErrors_eq_nil_iff.1 fits).1 _

theorem foldl_attempt (system : System) (edges : List DescribedEdge) :
    edges.foldl (fun system edge => system.attempt [description.transitionOf edge]) system =
      system.attempt (edges.map description.transitionOf) := by
  rw [System.attempt, List.foldl_map]
  rfl

theorem labeledStates_eq (description : Description) :
    description.labeledStates =
      reportFirst description.countErrors >>= fun _ => .ok description.labels := by
  rw [labeledStates, countErrors, labels]
  cases description.labeling with
  | named pairs => rfl
  | inOrder labels =>
      simp only [reportFirst_errorUnless]
      split <;> rfl

theorem isGround_labeled (fits : description.labels.flatMap description.labelErrors = []) :
    description.IsGround description.labeled :=
  foldl_kept description.IsGround (fun _ entry ground => ground.putLabel entry)
    description.isGround_started fits

/-- Building reports the first error, and without an error it makes the described system. -/
theorem build_eq (description : Description) :
    description.build =
      reportFirst description.errors >>= fun _ => .ok description.described := by
  have initial := description.isGround_unlabeled.setInitial_eq
    (description.initial.map description.stateOf)
  have labels := foldlM_eq_reportFirst description.IsGround
    (fun _ entry ground => ground.labelState_eq entry)
    (fun _ entry ground => ground.putLabel entry) description.isGround_started description.labels
  change description.unlabeled.setInitial _ >>= _ = _
  simp only [errors, reportFirst_append, bind_assoc, initial, ok_bind, labeledStates_eq]
  change (do
    reportFirst _
    reportFirst _
    let labeled ← description.labels.foldlM _ description.started
    description.edges.foldlM description.addEdge labeled) = _
  simp only [labels, bind_assoc, ok_bind]
  -- The edges are added to labeled states only when no label has an error.
  cases fits : description.labels.flatMap description.labelErrors with
  | cons error errors => rfl
  | nil =>
      have edges := foldlM_eq_reportFirst description.IsGround
        (fun _ edge ground => ground.addEdge_eq edge) (fun _ _ ground _ => ground.attempt _)
        (isGround_labeled fits) description.edges
      rw [foldl_attempt] at edges
      change (do
        reportFirst _
        reportFirst _
        reportFirst []
        description.edges.foldlM description.addEdge description.labeled) = _
      rw [edges]
      rfl

/-! ## What has been built -/

/-- The last of the labels that a state is given counts. -/
theorem label?_labeled (description : Description) (state : Symbol) :
    description.labeled.label? state = (description.labelsOf state).getLast? := by
  have unlabeled : description.started.label? state = none := by
    apply Option.eq_none_iff_forall_ne_some.2
    intro label found
    rcases ((System.receives_addStates _ _).label? state label).1 found with found | given
    · cases found
    · simp at given
  rw [labeled, labelsOf]
  induction description.labels using List.reverseRecOn with
  | nil => exact unlabeled
  | append_singleton entries entry induction =>
      rw [List.foldl_append, List.foldl_cons, List.foldl_nil, System.label?_putState, induction,
        List.filter_append, List.map_append]
      by_cases same : description.stateOf entry.1 = state
      · simp [same]
      · simp [same]

/-- The labeled states have been put into the system without states. -/
theorem labeled_eq (fits : description.labels.flatMap description.labelErrors = []) :
    description.labeled =
      { System.empty description.schema description.name with
        states := description.unlabeled.states
        initial := OrderedSet.empty.insertMany (description.initial.map description.stateOf)
        labels := description.labeled.labels } := by
  let kept (system : System) : Prop :=
    description.IsGround system ∧ system = { description.started with labels := system.labels }
  have kept_labeled : kept description.labeled := by
    refine foldl_kept kept ?_ ⟨description.isGround_started, rfl⟩ fits
    rintro system entry ⟨ground, same⟩ fits
    refine ⟨ground.putLabel entry fits, ?_⟩
    have known := (ground.mem_labels _).2 (labelErrors_eq_nil_iff.1 fits).1
    rw [System.putState, if_pos (System.hasState_iff.2 known), same]
  rw [kept_labeled.2, started, unlabeled_eq]
  rfl

theorem reachable_labeled
    (initial : ∀ state ∈ description.initial, description.stateOf state ∈ description.listed)
    (fits : description.labels.flatMap description.labelErrors = []) :
    description.labeled.Reachable := by
  have labels := foldlM_eq_reportFirst description.IsGround
    (fun _ entry ground => ground.labelState_eq entry)
    (fun _ entry ground => ground.putLabel entry) description.isGround_started description.labels
  rw [fits] at labels
  have known : ∀ state ∈ description.initial.map description.stateOf,
      state ∈ description.unlabeled.labels := by
    simpa [(description.isGround_unlabeled).mem_labels] using initial
  have begun : description.unlabeled.LeadsTo description.started :=
    System.leadsTo_perform (.setInitial _) (System.setInitial_eq_ok_iff.2 ⟨known, rfl⟩)
  have labeled : description.started.LeadsTo description.labeled := System.leadsTo_foldlM
    (fun _ _ _ labeled => System.leadsTo_perform (.labelState _ _) labeled) labels
  exact (((System.Reachable.fresh description.schema description.name false).leadsTo
    (System.leadsTo_perform (.addStates _) rfl)).leadsTo begun).leadsTo labeled

theorem arrange_edgeLabel (propositions actions : OrderedSet) (edge : DescribedEdge) :
    (Schema.closed propositions actions).arrange (edgeLabel edge) = edgeLabel edge := by
  apply Schema.arrange_of_sublist
  cases action : edge.action with
  | none => simp [edgeLabel, action, EdgeLabel.unlabeled, EdgeLabel.fields]
  | some value =>
      rw [edgeLabel, action]
      exact List.Sublist.refl _

/-- The edges of a consistent description ask for the transitions that they describe. -/
theorem IsGround.requested_eq (ground : description.IsGround system)
    (fits : description.edges.flatMap description.edgeErrors = []) :
    system.requested (description.edges.map description.transitionOf) =
      description.edges.map description.transitionOf := by
  rw [List.flatMap_eq_nil_iff] at fits
  have arranged (edge : DescribedEdge) :
      system.arranged (description.transitionOf edge) = description.transitionOf edge := by
    rw [System.arranged, ground.schema, Description.schema, transitionOf, arrange_edgeLabel]
  have succeeds : ∀ edge ∈ description.edges,
      system.succeeds (description.transitionOf edge) = true := by
    intro edge member
    obtain ⟨⟨source, target⟩, -⟩ := edgeErrors_eq_nil_iff.1 (fits edge member)
    have parts := fits edge member
    simp only [edgeErrors, List.append_eq_nil_iff] at parts
    have checked := ground.checkEdgeLabel_eq parts.1.1.1
    rw [parts.2] at checked
    exact System.succeeds_iff.2 ⟨(ground.mem_labels _).2 source, (ground.mem_labels _).2 target,
      Schema.checkEdgeLabel_eq_ok_iff.1 checked⟩
  rw [System.requested, List.filter_eq_self.2, List.map_map]
  · exact List.map_congr_left fun edge _ => arranged edge
  · simpa using succeeds

theorem described_eq (fits : description.labels.flatMap description.labelErrors = []) :
    description.described =
      { System.empty description.schema description.name with
        states := description.unlabeled.states
        initial := OrderedSet.empty.insertMany (description.initial.map description.stateOf)
        labels := description.labeled.labels
        transitions := description.described.transitions
        edges := description.described.edges
        outgoing := description.described.outgoing } := by
  rw [described, description.labeled.sameFrame_attempt _, labeled_eq fits]

/-- The described system is as described. -/
theorem describes_described (consistent : description.IsConsistent) :
    description.Describes description.described := by
  have fits := isConsistent_iff.1 consistent
  simp only [errors, List.append_eq_nil_iff] at fits
  obtain ⟨⟨-, labels⟩, edges⟩ := fits
  have none : description.labeled.transitions = #[] := by
    rw [labeled_eq labels]
    rfl
  have transitions := (reachable_labeled consistent.initial labels).toList_attempt_eq_eraseDups
    (description.edges.map description.transitionOf)
  rw [(isGround_labeled labels).requested_eq edges, none] at transitions
  constructor
  case label? =>
    intro state
    rw [← description.label?_labeled, described_eq labels]
    rfl
  case transitions => exact transitions
  all_goals rw [described_eq labels]
  case propositions => exact OrderedSet.toList_insertMany_empty ..
  case actions =>
    have elements := OrderedSet.toList_insertMany_empty (description.actions.getD []) false
    exact congrArg (fun symbols => [(actionsField, symbols)]) elements
  case states => exact System.toList_addStates_empty ..
  case initial => exact OrderedSet.toList_insertMany_empty ..
  all_goals rfl

/-- Building succeeds exactly for the consistent descriptions, and what it makes is as described.
Otherwise it fails with the first error: that of an initial state, then of the number of labels, of
a label or of an edge, in the order of the lists. -/
theorem build_follows_description (description : Description) :
    ((∃ system, description.build = .ok system) ↔ description.IsConsistent) ∧
      (∀ system, description.build = .ok system → description.Describes system) ∧
      ∀ error, description.build = .error error ↔ description.errors.head? = some error := by
  simp only [build_eq, reportFirst_bind_eq_ok_iff, reportFirst_bind_eq_error_iff,
    isConsistent_iff, exists_and_left, exists_eq', and_true, implies_true, true_and]
  rintro system ⟨consistent, rfl⟩
  exact describes_described (isConsistent_iff.2 consistent)

/-- A kettle. The names of two of its listed states are the same behind the stem, one of them being
a tuple, and one state is labeled twice. -/
def kettle : Description where
  states := [.atom "cold", .tuple [.atom "hot", .atom "off"], .atom "(hot, off)"]
  initial := [.atom "cold", .atom "cold"]
  propositions := [.atom "steam", .atom "light", .atom "steam"]
  labeling := .named [(.atom "(hot, off)", ∅), (.atom "cold", ∅),
    (.tuple [.atom "hot", .atom "off"], .ofList [.atom "steam"])]
  actions := some [.atom "heat", .atom "cool"]
  edges := [
    { source := .atom "cold", target := .atom "(hot, off)", action := some (.atom "heat") },
    { source := .atom "(hot, off)", target := .atom "cold", action := some (.atom "cool") },
    { source := .atom "cold", target := .tuple [.atom "hot", .atom "off"],
      action := some (.atom "heat") }]
  name := "kettle"
  stem := some "k"

/-- A kettle with an edge without an action, to a state that is not listed. -/
def leakyKettle : Description :=
  { kettle with
    edges := { source := .atom "cold", target := .atom "empty" } :: kettle.edges }

/-- The kettle is built as described. The first error of the leaky one is that an action is
missing. -/
theorem kettle_build_follows_description :
    (∃ system, kettle.build = .ok system ∧ kettle.Describes system) ∧
      leakyKettle.build = .error (.missingAction (.atom "cold") (.atom "empty")) := by
  obtain ⟨succeeds, describes, -⟩ := build_follows_description kettle
  obtain ⟨-, -, fails⟩ := build_follows_description leakyKettle
  obtain ⟨system, built⟩ := succeeds.2 (isConsistent_iff.2 (by decide +kernel))
  exact ⟨⟨system, built, describes system built⟩, (fails _).2 rfl⟩

end Description

end TransitionSystems
