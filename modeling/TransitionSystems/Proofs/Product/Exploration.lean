import Mathlib.Data.List.Nodup
import TransitionSystems.Product.Exploration
import TransitionSystems.Proofs.Decimal
import TransitionSystems.Proofs.FirstOccurrences
import TransitionSystems.Proofs.System.Coherence

/-!
# What an exploration builds

An exploration visits pairs and requests transitions. At any time its queue holds the first
occurrences of the pairs that it has visited, and its system has the first occurrences of the
transitions that it has requested. The visits and requests of a complete exploration are those of
the initial pairs and of all moves out of the pairs of the queue; the pairs of the queue are the
pairs that can be reached.
-/

namespace TransitionSystems

/-- The pair that a discovery is about. -/
def Discovery.pair (discovery : Discovery) : Symbol × Symbol :=
  (discovery.first, discovery.second)

/-- The pair that a move leads to. -/
def Move.target (move : Move) : Symbol × Symbol :=
  (move.first, move.second)

namespace Rules

/-- There is a move from a pair to another one. -/
def Moves (rules : Rules) (source target : Symbol × Symbol) : Prop :=
  ∃ move ∈ rules.moves source.1 source.2, move.target = target

/-- The pairs that can be reached from the initial ones by moves. -/
inductive Reaches (rules : Rules) : Symbol × Symbol → Prop
  | initial {pair : Symbol × Symbol} (member : pair ∈ rules.initial) : Reaches rules pair
  | step {pair : Symbol × Symbol} {move : Move} (reaches : Reaches rules pair)
      (member : move ∈ rules.moves pair.1 pair.2) : Reaches rules move.target

theorem Reaches.moves {rules : Rules} {source target : Symbol × Symbol}
    (reaches : rules.Reaches source) (moves : rules.Moves source target) :
    rules.Reaches target := by
  obtain ⟨move, listed, rfl⟩ := moves
  exact .step reaches listed

/-- The labels of pairs and moves are within a universe, and there are no more pairs to reach than
the bound says. -/
structure Admissible (rules : Rules) (schema : Schema) : Prop where
  label : ∀ first second label, rules.label first second = some label →
    ∀ proposition ∈ label, proposition ∈ schema.propositions
  move : ∀ first second, ∀ move ∈ rules.moves first second, ∀ entry ∈ move.label.entries,
    schema.Admits entry.1 entry.2
  bounded : ∃ pairs : List (Symbol × Symbol),
    pairs.length ≤ rules.bound ∧ ∀ pair, rules.Reaches pair → pair ∈ pairs

end Rules

namespace Exploration

/-! ## Names -/

/-- The state that stands for the pair at a place of the queue. -/
def stateName (isMutable : Bool) (place : Nat) (pair : Symbol × Symbol) : Symbol :=
  if isMutable then .atom (Text.ofNat place) else .pair pair.1 pair.2

theorem stateName_injective {isMutable : Bool} {place place' : Nat} {pair pair' : Symbol × Symbol}
    (same : stateName isMutable place pair = stateName isMutable place' pair') :
    place = place' ∨ pair = pair' := by
  cases isMutable with
  | false =>
      right
      simpa [stateName, Symbol.pair, Prod.ext_iff] using same
  | true =>
      left
      exact Text.ofNat_injective (by simpa [stateName] using same)

/-- The state that stands for a visited pair. -/
def stateOf (exploration : Exploration) (pair : Symbol × Symbol) : Symbol :=
  exploration.states.getD (.pair pair.1 pair.2) .truth

/-- The transition that a move out of a pair requests. -/
def requested (exploration : Exploration) (source : Discovery) (move : Move) : Transition where
  source := source.state
  target := exploration.stateOf move.target
  label := exploration.system.schema.arrange move.label

/-- The system with a new state for a pair. -/
def placed (system : System) (state : Symbol) (pair : Symbol × Symbol) (label : Option Label) :
    System :=
  { system.putState state label with
    factors := if system.isMutable then system.factors.insert state pair else system.factors }

theorem coherent_placed {system : System} {state : Symbol} {label : Option Label}
    (coherent : system.Coherent) (pair : Symbol × Symbol)
    (known : ∀ given, label = some given →
      ∀ proposition ∈ given, proposition ∈ system.propositions) :
    (placed system state pair label).Coherent := by
  have put := coherent.putState state known
  rw [placed]
  split
  · exact put.putFactors pair (by simp [System.putState])
  · exact put

/-- A new state can be placed with a label of propositions. -/
theorem place_of_not_mem {system : System} {state : Symbol} {label : Option Label}
    (pair : Symbol × Symbol) (new : state ∉ system.labels)
    (known : ∀ given, label = some given →
      ∀ proposition ∈ given, proposition ∈ system.propositions) :
    place system state pair.1 pair.2 label = .ok (placed system state pair label) := by
  have member : state ∈ (system.putState state label).labels := by simp [System.putState]
  have record : (if system.isMutable then
        (system.putState state label).setFactors state pair.1 pair.2
      else
        .ok (system.putState state label)) = Except.ok (placed system state pair label) := by
    cases flag : system.isMutable with
    | false => simp [placed, flag, System.putState]
    | true =>
        rw [if_pos rfl, System.setFactors_eq_ok_iff]
        exact ⟨member, by simp [placed, flag, System.putState]⟩
  cases label with
  | none =>
      rw [← record, ← System.addState_of_not_mem new]
      rfl
  | some label =>
      have labeled : system.addLabeledState state label =
          .ok (system.putState state (some label)) := by
        rw [System.addLabeledState_eq_ok_iff]
        refine ⟨known label rfl, fun present found => ?_, rfl⟩
        rw [System.label?_eq_some_iff] at found
        exact absurd (System.mem_labels_iff_getElem?.2 ⟨_, found⟩) new
      rw [← record]
      simp only [place, labeled]
      rfl

/-- The exploration that has found a new pair. -/
def discover (rules : Rules) (exploration : Exploration) (pair : Symbol × Symbol) : Exploration :=
  let state := exploration.freshState pair.1 pair.2
  { exploration with
    system := placed exploration.system state pair (rules.label pair.1 pair.2)
    found := exploration.found.push ⟨state, pair.1, pair.2⟩
    states := exploration.states.insert (.pair pair.1 pair.2) state
    stats.created := exploration.stats.created + 1 }

/-! ## The account of an exploration -/

/-- What an exploration on a system has built when it has visited pairs, requested transitions and
expanded a number of pairs. -/
structure Account (rules : Rules) (base : System) (visits : List (Symbol × Symbol))
    (requests : List Transition) (count : Nat) (exploration : Exploration) : Prop where
  coherent : exploration.system.Coherent
  schema : exploration.system.schema = base.schema
  name : exploration.system.name = base.name
  isMutable : exploration.system.isMutable = base.isMutable
  initial : exploration.system.initial = base.initial
  reaches : ∀ pair ∈ visits, rules.Reaches pair
  /-- The queue holds the first occurrences of the visited pairs. -/
  pairs : exploration.found.toList.map Discovery.pair = visits.eraseDups
  named : ∀ (place : Nat) (discovery : Discovery), exploration.found[place]? = some discovery →
    discovery.state = stateName base.isMutable place discovery.pair
  states : exploration.system.states.toList = exploration.found.toList.map Discovery.state
  lookup : ∀ (pair : Symbol × Symbol) (state : Symbol),
    exploration.states[Symbol.pair pair.1 pair.2]? = some state ↔
      ⟨state, pair.1, pair.2⟩ ∈ exploration.found
  labels : ∀ discovery ∈ exploration.found,
    exploration.system.label? discovery.state = rules.label discovery.first discovery.second
  factors : ∀ discovery ∈ exploration.found,
    exploration.system.factors[discovery.state]? =
      if base.isMutable then some discovery.pair else none
  /-- The system has the first occurrences of the requested transitions. -/
  transitions : exploration.system.transitions.toList = requests.eraseDups
  next : exploration.next = count
  expanded : exploration.stats.expanded = count
  created : exploration.stats.created = exploration.found.size
  counted : exploration.stats.transitions = exploration.system.transitions.size

namespace Account

variable {rules : Rules} {base : System} {visits : List (Symbol × Symbol)}
  {requests : List Transition} {count : Nat} {exploration : Exploration}

theorem exists_mem_found_iff (account : Account rules base visits requests count exploration)
    {pair : Symbol × Symbol} :
    (∃ discovery ∈ exploration.found, discovery.pair = pair) ↔ pair ∈ visits := by
  rw [← List.mem_eraseDups, ← account.pairs]
  simp

theorem mem_states_iff (account : Account rules base visits requests count exploration)
    {state : Symbol} :
    state ∈ exploration.system.states ↔
      ∃ discovery ∈ exploration.found, discovery.state = state := by
  rw [← Array.mem_toList_iff, account.states]
  simp

theorem stateOf_pair (account : Account rules base visits requests count exploration)
    {discovery : Discovery} (member : discovery ∈ exploration.found) :
    exploration.stateOf discovery.pair = discovery.state := by
  have found := (account.lookup discovery.pair discovery.state).2 member
  rw [stateOf, Std.ExtTreeMap.getD_eq_getD_getElem?, found]
  rfl

theorem stateOf_mem_states (account : Account rules base visits requests count exploration)
    {pair : Symbol × Symbol} (visited : pair ∈ visits) :
    exploration.stateOf pair ∈ exploration.system.states := by
  obtain ⟨discovery, member, rfl⟩ := account.exists_mem_found_iff.2 visited
  exact account.mem_states_iff.2 ⟨discovery, member, (account.stateOf_pair member).symm⟩

theorem stateOf_eq {visits' : List (Symbol × Symbol)} {requests' : List Transition} {count' : Nat}
    {later : Exploration} (account : Account rules base visits requests count exploration)
    (account' : Account rules base visits' requests' count' later)
    (longer : exploration.found.toList <+: later.found.toList) {pair : Symbol × Symbol}
    (visited : pair ∈ visits) : later.stateOf pair = exploration.stateOf pair := by
  obtain ⟨discovery, member, rfl⟩ := account.exists_mem_found_iff.2 visited
  have member' := Array.mem_toList_iff.1 (longer.subset (Array.mem_toList_iff.2 member))
  rw [account.stateOf_pair member, account'.stateOf_pair member']

/-- The queue is no longer than the bound. -/
theorem size_found_le (account : Account rules base visits requests count exploration)
    (admissible : rules.Admissible base.schema) : exploration.found.size ≤ rules.bound := by
  obtain ⟨pairs, bounded, complete⟩ := admissible.bounded
  have within : exploration.found.toList.map Discovery.pair ⊆ pairs := by
    intro pair member
    rw [account.pairs, List.mem_eraseDups] at member
    exact complete pair (account.reaches pair member)
  have nodup : (exploration.found.toList.map Discovery.pair).Nodup :=
    account.pairs ▸ nodup_eraseDups visits
  calc
    exploration.found.size = (exploration.found.toList.map Discovery.pair).length := by simp
    _ ≤ pairs.length := (List.subperm_of_subset nodup within).length_le
    _ ≤ rules.bound := bounded

/-! ## Visiting a pair -/

theorem freshState_not_mem (account : Account rules base visits requests count exploration)
    {pair : Symbol × Symbol} (new : pair ∉ visits) :
    exploration.freshState pair.1 pair.2 ∉ exploration.system.states := by
  intro member
  obtain ⟨discovery, listed, same⟩ := account.mem_states_iff.1 member
  obtain ⟨place, below, found⟩ := Array.mem_iff_getElem.1 listed
  have name := account.named place discovery (by rw [Array.getElem?_eq_getElem below, found])
  rw [name, freshState, account.isMutable] at same
  rcases stateName_injective same with equal | equal
  · omega
  · exact new (account.exists_mem_found_iff.1 ⟨discovery, listed, equal⟩)

theorem states_getElem?_eq_none (account : Account rules base visits requests count exploration)
    {pair : Symbol × Symbol} (new : pair ∉ visits) :
    exploration.states[Symbol.pair pair.1 pair.2]? = none := by
  rw [Option.eq_none_iff_forall_ne_some]
  intro state found
  have member := (account.lookup pair state).1 found
  exact new (account.exists_mem_found_iff.1 ⟨_, member, rfl⟩)

/-- A new pair comes last in the queue. -/
theorem discover (account : Account rules base visits requests count exploration)
    (admissible : rules.Admissible base.schema) {pair : Symbol × Symbol} (new : pair ∉ visits)
    (reaches : rules.Reaches pair) :
    Account rules base (visits ++ [pair]) requests count (exploration.discover rules pair) := by
  have fresh := account.freshState_not_mem new
  have absent : exploration.freshState pair.1 pair.2 ∉ exploration.system.labels :=
    mt (account.coherent.mem_states_iff _).2 fresh
  have known : ∀ given, rules.label pair.1 pair.2 = some given →
      ∀ proposition ∈ given, proposition ∈ exploration.system.propositions := by
    rw [System.propositions, account.schema]
    exact admissible.label pair.1 pair.2
  have others {discovery : Discovery} (member : discovery ∈ exploration.found) :
      discovery.state ≠ exploration.freshState pair.1 pair.2 := by
    rintro same
    exact fresh (account.mem_states_iff.2 ⟨discovery, member, same⟩)
  have unknown : exploration.system.hasState (exploration.freshState pair.1 pair.2) = false := by
    simpa [System.hasState] using absent
  exact {
    coherent := coherent_placed account.coherent pair known
    schema := account.schema
    name := account.name
    isMutable := account.isMutable
    initial := account.initial
    reaches := by
      intro other member
      rcases List.mem_append.1 member with member | member
      · exact account.reaches other member
      · obtain rfl := List.mem_singleton.1 member
        exact reaches
    pairs := by
      rw [eraseDups_concat_of_not_mem new, ← account.pairs]
      simp [Exploration.discover, Discovery.pair]
    named := by
      intro place discovery found
      simp only [Exploration.discover, Array.getElem?_push] at found
      split at found
      · next last =>
          obtain rfl := Option.some.inj found
          rw [last, ← account.isMutable]
          rfl
      · exact account.named place discovery found
    states := by
      simp [Exploration.discover, placed, System.putState, unknown, account.states]
    lookup := by
      intro other state
      simp only [Exploration.discover, Std.ExtTreeMap.getElem?_insert,
        Std.LawfulEqOrd.compare_eq_iff_eq, Array.mem_push]
      split
      · next same =>
          obtain rfl : pair = other := by simpa [Symbol.pair, Prod.ext_iff] using same
          have absent : ⟨state, pair.1, pair.2⟩ ∉ exploration.found := fun member =>
            new (account.exists_mem_found_iff.1 ⟨_, member, rfl⟩)
          simp [absent, eq_comm]
      · next distinct =>
          rw [account.lookup]
          refine ⟨.inl, fun listed => ?_⟩
          rcases listed with member | last
          · exact member
          · obtain ⟨rfl, first, second⟩ := Discovery.mk.inj last
            exact absurd (by rw [first, second]) distinct
    labels := by
      intro discovery member
      change (System.putState exploration.system _ _).label? _ = _
      rw [System.label?_putState]
      rcases Array.mem_push.1 member with member | rfl
      · rw [if_neg (others member).symm, account.labels discovery member]
      · rw [if_pos rfl]
    factors := by
      intro discovery member
      simp only [Exploration.discover, placed, account.isMutable]
      rcases Array.mem_push.1 member with member | rfl
      · rw [← account.factors discovery member]
        split
        · simp [Std.ExtTreeMap.getElem?_insert, (others member).symm]
        · rfl
      · split
        · simp [Discovery.pair]
        · exact Std.ExtTreeMap.getElem?_eq_none (mt (account.coherent.factors_subset _) fresh)
    transitions := account.transitions
    next := account.next
    expanded := account.expanded
    created := by simp [Exploration.discover, account.created]
    counted := account.counted }

theorem revisit (account : Account rules base visits requests count exploration)
    {pair : Symbol × Symbol} (known : pair ∈ visits) :
    Account rules base (visits ++ [pair]) requests count exploration :=
  { account with
    reaches := by
      intro other member
      rcases List.mem_append.1 member with member | member
      · exact account.reaches other member
      · exact account.reaches other (List.mem_singleton.1 member ▸ known)
    pairs := by rw [eraseDups_concat_of_mem known, account.pairs] }

/-- Visiting a pair that can be reached succeeds. -/
theorem visit (account : Account rules base visits requests count exploration)
    (admissible : rules.Admissible base.schema) {pair : Symbol × Symbol}
    (reaches : rules.Reaches pair) :
    ∃ after, exploration.visit rules pair.1 pair.2 = .ok (after.stateOf pair, after) ∧
      Account rules base (visits ++ [pair]) requests count after ∧
      exploration.found.toList <+: after.found.toList := by
  by_cases known : pair ∈ visits
  · refine ⟨exploration, ?_, account.revisit known, List.prefix_rfl⟩
    obtain ⟨discovery, member, rfl⟩ := account.exists_mem_found_iff.2 known
    rw [account.stateOf_pair member, Exploration.visit,
      (account.lookup discovery.pair discovery.state).2 member]
  · have visited := account.discover admissible known reaches
    refine ⟨exploration.discover rules pair, ?_, visited, ?_⟩
    · have new : exploration.freshState pair.1 pair.2 ∉ exploration.system.labels :=
        mt (account.coherent.mem_states_iff _).2 (account.freshState_not_mem known)
      have within : ∀ given, rules.label pair.1 pair.2 = some given →
          ∀ proposition ∈ given, proposition ∈ exploration.system.propositions := by
        rw [System.propositions, account.schema]
        exact admissible.label pair.1 pair.2
      have state : (exploration.discover rules pair).stateOf pair =
          exploration.freshState pair.1 pair.2 :=
        visited.stateOf_pair (Array.mem_push_self ..)
      rw [state, Exploration.visit, account.states_getElem?_eq_none known]
      simp only [place_of_not_mem pair new within]
      rfl
    · simp [Exploration.discover]

/-! ## Moving -/

/-- Adding a transition between states of the product succeeds. -/
theorem connect (account : Account rules base visits requests count exploration)
    {source target : Symbol} {label : EdgeLabel}
    (source_mem : source ∈ exploration.system.states)
    (target_mem : target ∈ exploration.system.states)
    (admits : ∀ entry ∈ label.entries, base.schema.Admits entry.1 entry.2) :
    ∃ after, exploration.connect source target label = .ok after ∧
      Account rules base visits
        (requests ++ [⟨source, target, exploration.system.schema.arrange label⟩]) count after ∧
      after.found = exploration.found ∧ after.states = exploration.states := by
  have source_label := (account.coherent.mem_states_iff source).1 source_mem
  have target_label := (account.coherent.mem_states_iff target).1 target_mem
  rw [← account.schema] at admits
  have change := System.Change.transition source target label source_label target_label admits
  have added := System.addTransition_eq_ok_iff.2 ⟨source_label, target_label, admits, rfl⟩
  have coherent := account.coherent.change change
  simp only [Exploration.connect, added]
  refine ⟨_, rfl, ?_, rfl, rfl⟩
  by_cases present :
      ⟨source, target, exploration.system.schema.arrange label⟩ ∈ exploration.system.edges
  · have known : ⟨source, target, exploration.system.schema.arrange label⟩ ∈ requests := by
      rw [← List.mem_eraseDups, ← account.transitions, Array.mem_toList_iff,
        ← account.coherent.mem_edges_iff]
      exact present
    rw [System.putTransition, if_pos present, Nat.sub_self, Nat.add_zero]
    exact { account with
      transitions := by rw [eraseDups_concat_of_mem known, account.transitions] }
  · have new : ⟨source, target, exploration.system.schema.arrange label⟩ ∉ requests := by
      rw [← List.mem_eraseDups, ← account.transitions, Array.mem_toList_iff,
        ← account.coherent.mem_edges_iff]
      exact present
    rw [System.putTransition, if_neg present] at coherent ⊢
    exact { account with
      coherent := coherent
      transitions := by
        rw [eraseDups_concat_of_not_mem new, ← account.transitions]
        exact Array.toList_push
      counted := by
        have counted := account.counted
        simp only [Array.size_push]
        omega }

/-- Making a move out of a pair of the queue succeeds. -/
theorem follow (account : Account rules base visits requests count exploration)
    (admissible : rules.Admissible base.schema) {source : Discovery} {move : Move}
    (member : source ∈ exploration.found) (listed : move ∈ rules.moves source.first source.second) :
    ∃ after, exploration.follow rules source.state move = .ok after ∧
      Account rules base (visits ++ [move.target]) (requests ++ [after.requested source move]) count
        after ∧
      exploration.found.toList <+: after.found.toList := by
  have reaches : rules.Reaches move.target :=
    .step (account.reaches _ (account.exists_mem_found_iff.1 ⟨source, member, rfl⟩)) listed
  obtain ⟨middle, visited, reached, longer⟩ := account.visit admissible reaches
  have member' := Array.mem_toList_iff.1 (longer.subset (Array.mem_toList_iff.2 member))
  have source_mem := reached.mem_states_iff.2 ⟨source, member', rfl⟩
  have target_mem : middle.stateOf move.target ∈ middle.system.states :=
    reached.stateOf_mem_states (by simp)
  obtain ⟨after, connected, account', found, states⟩ :=
    reached.connect source_mem target_mem (admissible.move _ _ move listed)
  have requested : after.requested source move =
      ⟨source.state, middle.stateOf move.target, middle.system.schema.arrange move.label⟩ := by
    simp only [Exploration.requested, stateOf, states, account'.schema, reached.schema]
  refine ⟨after, ?_, requested ▸ account', found ▸ longer⟩
  rw [Exploration.follow, bind_eq_ok_iff]
  exact ⟨_, visited, connected⟩

end Account

end Exploration

end TransitionSystems
