import TransitionSystems.Proofs.Model.Declarations
import TransitionSystems.Proofs.System.Changes

/-!
# Declarations of systems

A system is written as its header, its universe, its states, its initial states and its transitions.
Reading the declaration of a part again changes a system by just this part.
-/

namespace TransitionSystems

open Model

/-! ## Written declarations -/

/-- The declaration of a transition. -/
def transitionDeclaration (transition : Transition) : Declaration where
  keyword := "trans"
  arguments :=
    transition.source.compact :: transition.target.compact ::
      transition.label.entries.map fun entry => edgeMark entry.1 ++ entry.2.compact

namespace System

/-- The declaration that begins a system. -/
def header (system : System) : Declaration where
  keyword := "system"
  arguments := [system.kind.name, system.name]

/-- The declaration of a state with its label. -/
def stateDeclaration (system : System) (state : Symbol) : Declaration where
  keyword := "state"
  arguments := state.compact :: system.labelWords state

/-- The declarations of the flag, the propositions and the alphabets. -/
def universeDeclarations (system : System) : List Declaration :=
  (if system.isMutable then [⟨"mutable", []⟩] else []) ++
    setDeclarations "ap" system.propositions ++
    system.schema.alphabets.entries.flatMap fun entry => setDeclarations entry.1 entry.2

/-- The declarations after the header. -/
def declarations (system : System) : List Declaration :=
  system.universeDeclarations ++ system.states.toList.map system.stateDeclaration ++
    setDeclarations "initial" system.initial ++
    system.transitions.toList.map transitionDeclaration

end System

theorem System.written_eq_flatMap (system : System) :
    system.written = (system.header :: system.declarations).flatMap Declaration.written := by
  have flag : (if system.isMutable then [⟨"mutable", []⟩] else []).flatMap Declaration.written =
      if system.isMutable then Text.ofString "mutable\n" else [] := by
    cases system.isMutable
    · rfl
    · decide
  simp only [written, declarations, universeDeclarations, List.flatMap_cons, List.flatMap_append,
    flag, flatMap_setDeclarations, List.flatMap_assoc, List.flatMap_map, List.append_assoc]
  rfl

/-! ## Clean declarations -/

theorem isWord_of_mem_keywords (keyword : Text)
    (member : keyword ∈ ([("system" : Text), "mutable", "ap", "state", "initial", "trans"] ++
      Kind.closed.fields ++ Kind.opened.fields)) : keyword.IsWord := by
  constructor
  · revert keyword
    decide +kernel
  · revert keyword
    decide +kernel

theorem isWord_of_mem_fields {kind : Kind} {field : Text} (member : field ∈ kind.fields) :
    field.IsWord := by
  apply isWord_of_mem_keywords
  cases kind with
  | closed => exact List.mem_append_left _ (List.mem_append_right _ member)
  | opened => exact List.mem_append_right _ member

theorem ne_of_mem_fields {field : Text}
    (member : field ∈ Kind.closed.fields ++ Kind.opened.fields) :
    field ≠ "mutable" ∧ field ≠ "ap" := by
  revert field
  decide

theorem clean_stateDeclaration {system : System} {state : Symbol} (spelled : state.Spelled IsPlain)
    (label_spelled : ∀ label, system.label? state = some label →
      ∀ proposition ∈ label, proposition.Spelled IsPlain) :
    (system.stateDeclaration state).Clean := by
  refine ⟨isWord_of_mem_keywords "state" (by decide),
    List.forall_mem_cons.2 ⟨spelled.isWord, ?_⟩⟩
  intro word member
  rw [System.labelWords] at member
  split at member
  · cases member
  · next label found =>
      split at member
      · obtain rfl := List.mem_singleton.1 member
        exact ⟨by decide +kernel, by decide +kernel⟩
      · obtain ⟨proposition, present, rfl⟩ := List.mem_map.1 member
        exact (label_spelled label found proposition (Std.ExtTreeSet.mem_toList.1 present)).isWord

theorem isWord_edgeMark_append (field : Text) {word : Text} (isWord : word.IsWord) :
    (edgeMark field ++ word).IsWord where
  nonempty := by simp [isWord.nonempty]
  plain := by
    have mark : ∀ byte ∈ edgeMark field, Text.isSpace byte = false ∧ byte ≠ Text.commentMark := by
      rw [edgeMark]
      split
      · simp
      · split <;> decide +kernel
    intro byte member
    rcases List.mem_append.1 member with member | member
    · exact mark byte member
    · exact isWord.plain byte member

theorem clean_transitionDeclaration {transition : Transition}
    (source : transition.source.Spelled IsPlain) (target : transition.target.Spelled IsPlain)
    (values : ∀ entry ∈ transition.label.entries, entry.2.Spelled IsPlain) :
    (transitionDeclaration transition).Clean := by
  refine ⟨isWord_of_mem_keywords "trans" (by decide),
    List.forall_mem_cons.2 ⟨source.isWord, List.forall_mem_cons.2 ⟨target.isWord, ?_⟩⟩⟩
  intro word member
  obtain ⟨entry, listed, rfl⟩ := List.mem_map.1 member
  exact isWord_edgeMark_append entry.1 (values entry listed).isWord

/-! ## Reading declarations -/

namespace Model

variable {before : System}

theorem Reads.setOfSystem {keyword : Text} {set : OrderedSet} {after : System}
    (isWord : keyword.IsWord) (spelled : ∀ symbol ∈ set, symbol.Spelled IsPlain)
    (unchanged : set.toList = [] → after = before)
    (read : ∀ number,
      readSystemLine number before keyword (set.toList.map Symbol.compact) = .ok after) :
    Reads before (setDeclarations keyword set) after :=
  .set isWord spelled (fun empty => congrArg Model.system (unchanged empty))
    fun _ number => congrArg (Model.system <$> ·) (read number)

theorem reads_flag (before : System) (isMutable : Bool) (unset : before.isMutable = false) :
    Reads before (if isMutable then [⟨"mutable", []⟩] else []) (before.setMutable isMutable) := by
  cases isMutable with
  | false =>
      have same : before.setMutable false = before := by
        rw [System.setMutable, ← unset]
      rw [same]
      exact .nil before
  | true => exact .single ⟨isWord_of_mem_keywords _ (by decide), by simp⟩ fun _ => rfl

theorem reads_propositions (before : System) (set : OrderedSet)
    (spelled : ∀ symbol ∈ set, symbol.Spelled IsPlain) :
    Reads before (setDeclarations "ap" set) (before.growPropositions (.ofList set.toList)) := by
  refine .setOfSystem (isWord_of_mem_keywords _ (by decide)) spelled ?_ fun number => ?_
  · intro empty
    rw [empty, System.growPropositions, OrderedSet.union_ofList_nil]
  · have read := symbolSet_compact fun symbol member =>
      spelled symbol (OrderedSet.mem_toList.1 member)
    change (do return before.growPropositions (← symbolSet _)) = _
    rw [read]
    rfl

/-- The elements of an alphabet are added. -/
theorem reads_alphabet (before : System) {field : Text} {set : OrderedSet}
    (known : field ∈ before.kind.fields)
    (spelled : ∀ symbol ∈ set, symbol.Spelled IsPlain) :
    Reads before (setDeclarations field set)
      ({ before with
        schema := { before.schema with
          alphabets := before.schema.alphabets.modify field (·.union (.ofList set.toList)) } } :
        System) := by
  have listed : field ∈ Kind.closed.fields ++ Kind.opened.fields := by
    cases kind : before.kind with
    | closed => exact List.mem_append_left _ (kind ▸ known)
    | opened => exact List.mem_append_right _ (kind ▸ known)
  have other := ne_of_mem_fields listed
  refine .setOfSystem (isWord_of_mem_keywords _ ?_) spelled ?_ fun number => ?_
  · rw [List.append_assoc]
    exact List.mem_append_right _ listed
  · intro empty
    have same : before.schema.alphabets.modify field (·.union (.ofList [])) =
        before.schema.alphabets := by
      cases before.schema.alphabets <;>
        simp [Alphabets.modify, OrderedSet.union_ofList_nil]
    rw [empty, same]
  · have read := symbolSet_compact fun symbol member =>
      spelled symbol (OrderedSet.mem_toList.1 member)
    rw [readSystemLine, if_neg other.1, if_neg other.2, if_pos listed, readAlphabet, if_pos known,
      read, ok_bind]
    exact System.growAlphabet_eq_ok_iff.2 ⟨known, rfl⟩

theorem reads_initial {set : OrderedSet} (known : ∀ state ∈ set, state ∈ before.labels)
    (spelled : ∀ symbol ∈ set, symbol.Spelled IsPlain) :
    Reads before (setDeclarations "initial" set)
      ({ before with initial := before.initial.insertMany set.toList } : System) := by
  refine .setOfSystem (isWord_of_mem_keywords _ (by decide)) spelled ?_ fun number => ?_
  · intro empty
    rw [empty]
    rfl
  · have read := symbols_compact fun symbol member =>
      spelled symbol (OrderedSet.mem_toList.1 member)
    change (do before.setInitial (← symbols _)) = _
    rw [read, ok_bind, System.setInitial_eq_ok_iff]
    exact ⟨fun state member => known state (OrderedSet.mem_toList.1 member), rfl⟩

/-! ## States -/

theorem ofList_toList (label : Label) : Label.ofList label.toList = label := by
  apply Std.ExtTreeSet.ext_mem
  intro symbol
  simp [Label.ofList]

theorem eq_of_compact_eq_emptyLabelWord {symbol : Symbol}
    (same : symbol.compact = emptyLabelWord) : symbol = .atom emptyLabelWord := by
  cases symbol with
  | atom name => exact congrArg Symbol.atom same
  | tuple parts =>
      rw [Symbol.compact_tuple] at same
      cases same

/-- A new state is added with its label. -/
theorem reads_state {system : System} {state : Symbol} (new : state ∉ before.labels)
    (spelled : state.Spelled IsPlain)
    (label_spelled : ∀ label, system.label? state = some label →
      ∀ proposition ∈ label, proposition.Spelled IsPlain)
    (known : ∀ label, system.label? state = some label →
      ∀ proposition ∈ label, proposition ∈ before.propositions)
    (least : ∀ label, system.label? state = some label →
      label.min? ≠ some (.atom emptyLabelWord)) :
    Reads before [system.stateDeclaration state]
      (before.putState state (system.label? state)) := by
  have labeled {label : Label} (found : system.label? state = some label) :
      before.addLabeledState state label = .ok (before.putState state (some label)) := by
    rw [System.addLabeledState_eq_ok_iff]
    refine ⟨known label found, fun present listed => ?_, rfl⟩
    rw [System.label?_eq_some_iff] at listed
    exact absurd (System.mem_labels_iff_getElem?.2 ⟨_, listed⟩) new
  refine .single (clean_stateDeclaration spelled label_spelled) fun number => ?_
  change readState number before (state.compact :: system.labelWords state) = _
  rw [readState, spelled.ofIdentifier, ok_bind, System.labelWords]
  cases found : system.label? state with
  | none => exact congrArg Except.ok (System.addState_of_not_mem new)
  | some label =>
      by_cases empty : label.isEmpty = true
      · obtain rfl := Std.ExtTreeSet.isEmpty_iff.1 empty
        exact labeled found
      · have read := symbols_compact fun proposition member =>
          label_spelled label found proposition (Std.ExtTreeSet.mem_toList.1 member)
        cases listed : label.toList with
        | nil =>
            rw [← Std.ExtTreeSet.isEmpty_toList, listed] at empty
            exact absurd rfl empty
        | cons first rest =>
            have ordinary : first.compact ≠ emptyLabelWord := by
              intro same
              apply least label found
              rw [Std.ExtTreeSet.min?_eq_head?_toList, listed, List.head?_cons,
                eq_of_compact_eq_emptyLabelWord same]
            rw [listed] at read
            simp only [if_neg empty, listed, List.map_cons, if_neg ordinary]
            rw [List.map_cons] at read
            rw [read, ok_bind, ← listed, ofList_toList]
            exact labeled found

/-! ## Transitions -/

theorem readSide_edgeMark {field : Text} (member : field ∈ Kind.opened.fields) {value : Symbol}
    (spelled : value.Spelled IsPlain) (number : Nat) (label : EdgeLabel) :
    readSide number label (edgeMark field ++ value.compact) = .ok (label.set field value) := by
  have sides : field = systemActionsField ∨ field = environmentActionsField := by
    simpa [Kind.fields] using member
  rcases sides with rfl | rfl
  · change (do
        let value ← Symbol.ofIdentifier value.compact
        return label.set systemActionsField value) = _
    rw [spelled.ofIdentifier]
    rfl
  · change (do
        let value ← Symbol.ofIdentifier value.compact
        return label.set environmentActionsField value) = _
    rw [spelled.ofIdentifier]
    rfl

/-- The words of an edge label are read back. -/
theorem readEdgeLabel_entries {kind : Kind} {label : EdgeLabel}
    (sublist : label.fields.Sublist kind.fields)
    (spelled : ∀ entry ∈ label.entries, entry.2.Spelled IsPlain) (number : Nat) :
    readEdgeLabel number kind
        (label.entries.map fun entry => edgeMark entry.1 ++ entry.2.compact) = .ok label := by
  cases kind with
  | closed =>
      have fields : label.entries.map Prod.fst = [] ∨ label.entries.map Prod.fst = [actionsField] :=
        List.sublist_singleton.1 sublist
      have entries := label.ofList_entries
      rcases fields with none | single
      · rw [List.map_eq_nil_iff.1 none] at entries ⊢
        exact congrArg Except.ok entries
      · obtain ⟨⟨field, value⟩, listed, same⟩ := List.map_eq_singleton_iff.1 single
        obtain rfl : field = actionsField := same
        rw [listed] at entries spelled ⊢
        change (do return EdgeLabel.action (← Symbol.ofIdentifier value.compact)) = _
        rw [(spelled _ List.mem_cons_self).ofIdentifier]
        exact congrArg Except.ok entries
  | opened =>
      have sides (former : EdgeLabel) (entries : List (Text × Symbol))
          (fields : ∀ entry ∈ entries, entry.1 ∈ Kind.opened.fields)
          (spelled : ∀ entry ∈ entries, entry.2.Spelled IsPlain) :
          (entries.map fun entry => edgeMark entry.1 ++ entry.2.compact).foldlM (readSide number)
              former =
            .ok (entries.foldl (fun label entry => label.set entry.1 entry.2) former) := by
        induction entries generalizing former with
        | nil => rfl
        | cons entry entries induction =>
            rw [List.forall_mem_cons] at fields spelled
            rw [List.map_cons, List.foldlM_cons, readSide_edgeMark fields.1 spelled.1, ok_bind]
            exact induction _ fields.2 spelled.2
      rw [readEdgeLabel, sides]
      · exact congrArg Except.ok label.ofList_entries
      · intro entry listed
        exact sublist.subset (List.mem_map_of_mem listed)
      · exact spelled

theorem reads_transition {transition : Transition}
    (source : transition.source.Spelled IsPlain) (target : transition.target.Spelled IsPlain)
    (values : ∀ entry ∈ transition.label.entries, entry.2.Spelled IsPlain)
    (ends : transition.source ∈ before.labels ∧ transition.target ∈ before.labels)
    (sublist : transition.label.fields.Sublist before.kind.fields)
    (admits : ∀ entry ∈ transition.label.entries, before.schema.Admits entry.1 entry.2) :
    Reads before [transitionDeclaration transition] (before.putTransition transition) := by
  refine .single (clean_transitionDeclaration source target values) fun number => ?_
  change readTransition number before
    (transition.source.compact :: transition.target.compact :: _) = _
  rw [readTransition, source.ofIdentifier, ok_bind, target.ofIdentifier, ok_bind,
    readEdgeLabel_entries sublist values, ok_bind, System.addTransition_eq_ok_iff]
  refine ⟨ends.1, ends.2, admits, ?_⟩
  rw [Schema.arrange_of_sublist sublist]

end Model

end TransitionSystems
