import TransitionSystems.Proofs.Promela.Reading
import TransitionSystems.Proofs.Promela.Variables
import TransitionSystems.Proofs.Symbol.Quoted

/-!
# What an export tells

The program of a closed system whose states, propositions and actions are built from names is plain.
So the export tells the program, and the program tells the propositions that have variables, the
states, the initial ones among them, what holds in every state but for the constants, and the
transitions that leave it.
-/

namespace TransitionSystems

/-- Where keys of elements tell values, the keys of a list tell its values. -/
theorem map_eq_map_of_tells {α β γ : Type} {key : α → β} {value : α → γ} {items others : List α}
    (tells : ∀ item ∈ items, ∀ other ∈ others, key item = key other → value item = value other)
    (same : items.map key = others.map key) : items.map value = others.map value := by
  induction items generalizing others with
  | nil =>
      cases others with
      | nil => rfl
      | cons other others => cases same
  | cons item items induction =>
      cases others with
      | nil => cases same
      | cons other others =>
          rw [List.map_cons, List.map_cons, List.cons.injEq] at same
          rw [List.map_cons, List.map_cons,
            tells item List.mem_cons_self other List.mem_cons_self same.1]
          congr 1
          refine induction (fun item member other member' => ?_) same.2
          exact tells item (List.mem_cons_of_mem _ member) other (List.mem_cons_of_mem _ member')

namespace System

variable {system other : System}

/-! ## Systems with plain names -/

/-- A symbol that is a name. -/
def IsNamed (symbol : Symbol) : Prop :=
  ∃ name : Text, name.IsName ∧ symbol = .atom name

instance : DecidablePred IsNamed
  | .atom name => decidable_of_iff name.IsName
      ⟨fun isName => ⟨name, isName, rfl⟩, fun ⟨_, isName, same⟩ => Symbol.atom.inj same ▸ isName⟩
  | .tuple _ => isFalse nofun

/-- A proposition that is a name, perhaps with one negation mark. -/
def IsLiteral (symbol : Symbol) : Prop :=
  ∃ name : Text, name.IsName ∧ (symbol = .atom name ∨ symbol = .atom (Symbol.negationMark :: name))

/-- A system whose states, propositions and actions are built from names. -/
structure HasPlainNames (system : System) : Prop where
  states : ∀ state ∈ system.states, IsNamed state
  propositions : ∀ proposition ∈ system.propositions, IsLiteral proposition
  actions : ∀ action, system.schema.Admits actionsField action → action.Named

theorem isName_text {symbol : Symbol} (named : IsNamed symbol) : symbol.text.IsName := by
  obtain ⟨name, isName, rfl⟩ := named
  exact isName

theorem text_injOn_isNamed {left right : Symbol} (named : IsNamed left) (named' : IsNamed right)
    (same : left.text = right.text) : left = right := by
  obtain ⟨name, -, rfl⟩ := named
  obtain ⟨name', -, rfl⟩ := named'
  exact congrArg Symbol.atom same

theorem IsLiteral.isNamed {symbol : Symbol} (literal : IsLiteral symbol)
    (positive : symbol.isNegated = false) : IsNamed symbol := by
  obtain ⟨name, isName, rfl | rfl⟩ := literal
  · exact ⟨name, isName, rfl⟩
  · cases positive

theorem IsLiteral.exists_name {symbol : Symbol} (literal : IsLiteral symbol)
    (negated : symbol.isNegated = true) :
    ∃ name : Text, name.IsName ∧ symbol = .atom (Symbol.negationMark :: name) := by
  obtain ⟨name, isName, rfl | rfl⟩ := literal
  · have marked : name.head? = some Symbol.negationMark := eq_of_beq negated
    have first := isName.bytes _ (List.mem_of_mem_head? marked)
    cases first
  · exact ⟨name, isName, rfl⟩

theorem HasPlainNames.label (plain : system.HasPlainNames) (coherent : system.Coherent)
    (closed : system.kind = .closed) {transition : Transition}
    (member : transition ∈ system.transitions) : transition.label.IsPlain := by
  have fields := coherent.fields_sublist transition member
  have values := coherent.values transition member
  rw [closed] at fields
  rcases entries : transition.label.entries with - | ⟨⟨field, value⟩, more⟩
  · have unlabeled : transition.label = .unlabeled := EdgeLabel.ext_entries entries
    rw [unlabeled]
    exact .unlabeled
  · rw [EdgeLabel.fields, entries, List.map_cons, Kind.fields, List.cons_sublist_cons',
      List.sublist_nil, List.sublist_nil, List.map_eq_nil_iff] at fields
    obtain ⟨rfl, rfl⟩ := fields.resolve_left (List.cons_ne_nil _ _)
    have action : transition.label = .action value := EdgeLabel.ext_entries entries
    have admitted := values (actionsField, value) (entries ▸ List.mem_singleton_self _)
    rw [action]
    exact .action (plain.actions value admitted)

theorem HasPlainNames.target (plain : system.HasPlainNames) (coherent : system.Coherent)
    {transition : Transition} (member : transition ∈ system.transitions) :
    IsNamed transition.target :=
  plain.states _ (coherent.ends transition member).2

theorem HasPlainNames.choice (plain : system.HasPlainNames) (coherent : system.Coherent)
    (closed : system.kind = .closed) {transition : Transition}
    (member : transition ∈ system.transitions) : (choice transition).IsPlain where
  no_newline newline := by
    cases List.all_eq_true.1 (plain.label coherent closed member).all_text _ newline
  no_backslash backslash := by
    cases List.all_eq_true.1 (plain.label coherent closed member).all_text _ backslash
  target := isName_text (plain.target coherent member)

theorem HasPlainNames.isNamed_of_mem_positives (plain : system.HasPlainNames)
    (coherent : system.Coherent) {state : Symbol} :
    ∀ proposition ∈ positives (system.holding state), IsNamed proposition := by
  intro proposition member
  obtain ⟨holds, own⟩ := mem_positives.1 member
  exact (plain.propositions proposition (coherent.mem_propositions holds)).isNamed own.1

theorem HasPlainNames.isLiteral_of_mem_negatives (plain : system.HasPlainNames)
    (coherent : system.Coherent) {state : Symbol} :
    ∀ proposition ∈ negatives (system.holding state),
      IsLiteral proposition ∧ proposition.isNegated = true := by
  intro proposition member
  obtain ⟨holds, negated, -⟩ := mem_negatives.1 member
  exact ⟨plain.propositions proposition (coherent.mem_propositions holds), negated⟩

theorem HasPlainNames.block (plain : system.HasPlainNames) (coherent : system.Coherent)
    (closed : system.kind = .closed) {state : Symbol} (known : state ∈ system.states) :
    (system.block state).IsPlain where
  state := isName_text (plain.states state known)
  present := by
    rw [System.block, List.forall_mem_map]
    exact fun proposition member =>
      isName_text (plain.isNamed_of_mem_positives coherent proposition member)
  negated := by
    rw [System.block, List.forall_mem_map]
    intro proposition member
    obtain ⟨literal, negated⟩ := plain.isLiteral_of_mem_negatives coherent proposition member
    obtain ⟨name, isName, rfl⟩ := literal.exists_name negated
    exact isName
  choices := by
    rw [System.block, List.forall_mem_map]
    exact fun transition leaves =>
      plain.choice coherent closed (coherent.mem_leaving_iff.1 leaves).1

theorem HasPlainNames.isNamed_of_mem_declarable (plain : system.HasPlainNames) :
    ∀ proposition ∈ system.declarable, IsNamed proposition := by
  intro proposition member
  obtain ⟨listed, own⟩ := List.mem_filter.1 member
  exact (plain.propositions proposition (OrderedSet.mem_toList.1 listed)).isNamed
    (of_decide_eq_true own).1

theorem HasPlainNames.isNamed_of_mem_initial (plain : system.HasPlainNames)
    (coherent : system.Coherent) : ∀ state ∈ system.initial.toList, IsNamed state :=
  fun state member =>
    plain.states state (coherent.initial_subset state (OrderedSet.mem_toList.1 member))

theorem HasPlainNames.program (plain : system.HasPlainNames) (coherent : system.Coherent)
    (closed : system.kind = .closed) (process : Text) : (system.program process).IsPlain where
  declared := by
    rw [System.program, List.forall_mem_map]
    exact fun proposition member => isName_text (plain.isNamed_of_mem_declarable _ member)
  initial := by
    rw [System.program, List.forall_mem_map]
    exact fun state member => isName_text (plain.isNamed_of_mem_initial coherent _ member)
  blocks := by
    intro block member
    obtain ⟨state, listed, rfl⟩ := List.mem_map.1 member
    exact plain.block coherent closed (Array.mem_toList_iff.1 listed)

/-! ## Recovery -/

/-- Two systems agree on what an export tells. -/
structure ExportsAlike (system other : System) : Prop where
  /-- The propositions that are neither negated nor `true`. -/
  propositions : system.declarable = other.declarable
  initial : system.initial.toList = other.initial.toList
  states : system.states.toList = other.states.toList
  /-- The labels up to the constants. -/
  holding : ∀ state ∈ system.states, ∀ proposition, isConstant proposition = false →
    (proposition ∈ system.holding state ↔ proposition ∈ other.holding state)
  leaving : ∀ state ∈ system.states,
    (system.leaving state).map (fun transition => (transition.label, transition.target)) =
      (other.leaving state).map fun transition => (transition.label, transition.target)

theorem eq_of_map_text {symbols others : List Symbol} (named : ∀ symbol ∈ symbols, IsNamed symbol)
    (named' : ∀ symbol ∈ others, IsNamed symbol)
    (same : symbols.map Symbol.text = others.map Symbol.text) : symbols = others := by
  have values : symbols.map id = others.map id := map_eq_map_of_tells
    (fun symbol member other member' =>
      text_injOn_isNamed (named symbol member) (named' other member')) same
  simpa using values

/-- The names behind the negation marks tell lists of negated literals. -/
theorem eq_of_map_unsignedName {symbols others : List Symbol}
    (literal : ∀ symbol ∈ symbols, IsLiteral symbol ∧ symbol.isNegated = true)
    (literal' : ∀ symbol ∈ others, IsLiteral symbol ∧ symbol.isNegated = true)
    (same : symbols.map Symbol.unsignedName = others.map Symbol.unsignedName) :
    symbols = others := by
  have tells : ∀ symbol ∈ symbols, ∀ other ∈ others,
      symbol.unsignedName = other.unsignedName → symbol = other := by
    intro symbol member other member' same
    obtain ⟨name, -, rfl⟩ := (literal symbol member).1.exists_name (literal symbol member).2
    obtain ⟨name', -, rfl⟩ := (literal' other member').1.exists_name (literal' other member').2
    exact congrArg (fun name => Symbol.atom (Symbol.negationMark :: name)) same
  have values : symbols.map id = others.map id := map_eq_map_of_tells tells same
  simpa using values

section

variable (coherent : system.Coherent) (coherent' : other.Coherent) (plain : system.HasPlainNames)
  (plain' : other.HasPlainNames)

include coherent coherent' plain plain'

/-- The block of a state tells what holds in it, up to the constants. -/
theorem mem_holding_iff_of_block_eq {state : Symbol}
    (same : system.block state = other.block state) {proposition : Symbol}
    (proper : isConstant proposition = false) :
    proposition ∈ system.holding state ↔ proposition ∈ other.holding state := by
  have positives := eq_of_map_text (plain.isNamed_of_mem_positives coherent)
    (plain'.isNamed_of_mem_positives coherent') (congrArg Promela.Block.present same)
  have negatives := eq_of_map_unsignedName (plain.isLiteral_of_mem_negatives coherent)
    (plain'.isLiteral_of_mem_negatives coherent') (congrArg Promela.Block.negated same)
  cases negated : proposition.isNegated with
  | false =>
      have own : HasVariable proposition := hasVariable_iff.2 (by rw [negated, proper]; rfl)
      have mem_iff := congrArg (proposition ∈ ·) positives
      simpa [mem_positives, own] using mem_iff
  | true =>
      have mem_iff := congrArg (proposition ∈ ·) negatives
      simpa [mem_negatives, negated, proper] using mem_iff

/-- The block of a state tells the transitions that leave it. -/
theorem leaving_eq_of_block_eq (closed : system.kind = .closed) (closed' : other.kind = .closed)
    {state : Symbol} (same : system.block state = other.block state) :
    (system.leaving state).map (fun transition => (transition.label, transition.target)) =
      (other.leaving state).map fun transition => (transition.label, transition.target) := by
  refine map_eq_map_of_tells ?_ (congrArg Promela.Block.choices same)
  intro transition leaves transition' leaves' same
  have member := (coherent.mem_leaving_iff.1 leaves).1
  have member' := (coherent'.mem_leaving_iff.1 leaves').1
  have labels : transition.label.text ++ [] = transition'.label.text ++ [] :=
    congrArg (Promela.Choice.output · ++ []) same
  obtain ⟨label, -⟩ := (plain.label coherent closed member).tells_text _
    (plain'.label coherent' closed' member') _ _ labels
  have target := text_injOn_isNamed (plain.target coherent member)
    (plain'.target coherent' member') (congrArg Promela.Choice.target same)
  exact Prod.ext label target

end

/-- Closed systems whose states, propositions and actions are built from names agree on what an
export tells when they have the same export. The name of the process, which may be any text, is then
the same as well. -/
theorem Reachable.promela_tells_system (reachable : system.Reachable)
    (reachable' : other.Reachable) (closed : system.kind = .closed)
    (closed' : other.kind = .closed) (plain : system.HasPlainNames) (plain' : other.HasPlainNames)
    {process process' : Option Text} (same : system.promela process = other.promela process') :
    system.ExportsAlike other ∧ process.getD system.name = process'.getD other.name := by
  have coherent := reachable.coherent
  have coherent' := reachable'.coherent
  rw [promela_eq closed, promela_eq closed', Except.ok.injEq] at same
  have programs := (plain.program coherent closed _).text_inj (plain'.program coherent' closed' _)
    same
  have known (state : Symbol) (listed : state ∈ system.states.toList) : IsNamed state :=
    plain.states state (Array.mem_toList_iff.1 listed)
  have known' (state : Symbol) (listed : state ∈ other.states.toList) : IsNamed state :=
    plain'.states state (Array.mem_toList_iff.1 listed)
  have listed := congrArg Promela.Program.blocks programs
  have states : system.states.toList = other.states.toList := by
    have names := congrArg (List.map Promela.Block.state) listed
    simp only [program, List.map_map] at names
    exact eq_of_map_text known known' names
  have blocks (state : Symbol) (member : state ∈ system.states) :
      system.block state = other.block state := by
    simp only [program, ← states] at listed
    exact List.map_inj_left.1 listed state (Array.mem_toList_iff.2 member)
  refine ⟨⟨?_, ?_, states, ?_, ?_⟩, congrArg Promela.Program.process programs⟩
  · exact eq_of_map_text plain.isNamed_of_mem_declarable plain'.isNamed_of_mem_declarable
      (congrArg Promela.Program.declared programs)
  · exact eq_of_map_text (plain.isNamed_of_mem_initial coherent)
      (plain'.isNamed_of_mem_initial coherent') (congrArg Promela.Program.initial programs)
  · intro state member proposition proper
    exact mem_holding_iff_of_block_eq coherent coherent' plain plain' (blocks state member) proper
  · intro state member
    exact leaving_eq_of_block_eq coherent coherent' plain plain' closed closed'
      (blocks state member)

/-- The action of waving a flag. -/
def wave : Symbol :=
  .tuple [.atom "wave", .tuple [], .tuple [.atom "flag_1"]]

/-- A crossing over a universe with a label for its open state. -/
def crossing (propositions : List Symbol) (label : Label) : System :=
  ((System.empty (.closed (.ofList propositions) (.ofList [.atom "go", wave])) "crossing").run
    [.addLabeledState (.atom "open") label, .addState (.atom "shut"),
      .setInitial [.atom "shut"], .addAction (.atom "shut") (.atom "open") wave,
      .addTransition (.atom "open") (.atom "shut") .unlabeled]).2

/-- The crossing with a green signal. -/
def greenCrossing : System :=
  crossing [.atom "green", .atom "!red"] (.ofList [.atom "green", .atom "!red"])

/-- The crossing with a green signal, where a constant holds and another proposition occurs
negated. -/
def busyCrossing : System :=
  crossing [.atom "true", .atom "green", .atom "!red", .atom "!amber"]
    (.ofList [.atom "true", .atom "green", .atom "!red"])

theorem named_wave : wave.Named := by
  refine .tuple (List.forall_mem_cons.2 ⟨.atom (by decide), List.forall_mem_cons.2
    ⟨.tuple nofun, List.forall_mem_singleton.2 (.tuple ?_)⟩⟩)
  exact List.forall_mem_singleton.2 (.atom (by decide))

theorem hasPlainNames_of_crossing_actions
    (actions : system.schema.alphabetLists = [(actionsField, [.atom "go", wave])])
    (states : ∀ state ∈ system.states, IsNamed state)
    (propositions : ∀ proposition ∈ system.propositions.toList, IsLiteral proposition) :
    system.HasPlainNames := by
  refine ⟨states, by simpa using propositions, fun action admitted => ?_⟩
  obtain ⟨symbols, listed, member⟩ := Schema.admits_iff_mem_alphabetLists.1 admitted
  rw [actions, List.mem_singleton, Prod.mk.injEq] at listed
  rw [listed.2, List.mem_pair] at member
  rcases member with rfl | rfl
  · exact .atom (by decide)
  · exact named_wave

/-- Both crossings have the same export, so they agree on what it tells. -/
theorem crossings_export_alike :
    greenCrossing.promela = busyCrossing.promela (some "crossing") ∧
      greenCrossing.ExportsAlike busyCrossing := by
  have green : greenCrossing.HasPlainNames := by
    refine hasPlainNames_of_crossing_actions (by decide +kernel) (by decide +kernel) ?_
    change ∀ proposition ∈ [Symbol.atom "green", Symbol.atom "!red"], IsLiteral proposition
    simp only [List.forall_mem_cons]
    exact ⟨⟨"green", by decide, .inl rfl⟩, ⟨"red", by decide, .inr rfl⟩, nofun⟩
  have busy : busyCrossing.HasPlainNames := by
    refine hasPlainNames_of_crossing_actions (by decide +kernel) (by decide +kernel) ?_
    change ∀ proposition ∈ [Symbol.atom "true", Symbol.atom "green", Symbol.atom "!red",
      Symbol.atom "!amber"], IsLiteral proposition
    simp only [List.forall_mem_cons]
    exact ⟨⟨"true", by decide, .inl rfl⟩, ⟨"green", by decide, .inl rfl⟩,
      ⟨"red", by decide, .inr rfl⟩, ⟨"amber", by decide, .inr rfl⟩, nofun⟩
  have same : greenCrossing.promela = busyCrossing.promela (some "crossing") := by
    rw [promela_eq rfl, promela_eq rfl]
    exact congrArg Except.ok (by decide +kernel)
  have told := ((Reachable.fresh ..).run _).promela_tells_system ((Reachable.fresh ..).run _)
    rfl rfl green busy same
  exact ⟨same, told.1⟩

end System

end TransitionSystems
