import TransitionSystems.OrderedSet.Lemmas
import TransitionSystems.Proofs.Product.Asynchronous
import TransitionSystems.Proofs.Product.Synchronous
import TransitionSystems.Proofs.System.Isomorphism

/-!
# Numbered products

The states of a product are numbered in the order of their discovery when an operand is mutable, and
they are pairs otherwise. The queue of pairs does not depend on the names of the states: it is the
only list of reachable pairs that holds the first occurrences of what it visits. So a numbered
product is the plain one with its states renamed to their places.
-/

namespace TransitionSystems

/-! ## Queues -/

namespace Rules

variable {rules : Rules} {pairs others : List (Symbol × Symbol)}

/-- The pairs that are visited when the moves out of a list of pairs have been made. -/
def visitsOf (rules : Rules) (pairs : List (Symbol × Symbol)) : List (Symbol × Symbol) :=
  rules.initial ++ pairs.flatMap fun pair => (rules.moves pair.1 pair.2).map Move.target

/-- A list of reachable pairs that holds the first occurrences of what it visits. -/
structure IsQueue (rules : Rules) (pairs : List (Symbol × Symbol)) : Prop where
  eq_eraseDups : pairs = (rules.visitsOf pairs).eraseDups
  reaches : ∀ pair ∈ pairs, rules.Reaches pair

namespace IsQueue

theorem nodup (queue : rules.IsQueue pairs) : pairs.Nodup :=
  queue.eq_eraseDups ▸ nodup_eraseDups _

theorem visits_take_prefix (queue : rules.IsQueue pairs) (count : Nat) :
    (rules.visitsOf (pairs.take count)).eraseDups <+: pairs := by
  have begins : rules.visitsOf (pairs.take count) <+: rules.visitsOf pairs := by
    refine ⟨(pairs.drop count).flatMap fun pair => (rules.moves pair.1 pair.2).map Move.target, ?_⟩
    rw [visitsOf, List.append_assoc, ← List.flatMap_append, List.take_append_drop, visitsOf]
  have first := eraseDups_prefix begins
  rwa [← queue.eq_eraseDups] at first

theorem take_eq_self (queue : rules.IsQueue pairs) {count : Nat}
    (closed : ∀ pair ∈ rules.visitsOf (pairs.take count), pair ∈ pairs.take count) :
    pairs.take count = pairs := by
  have all (pair : Symbol × Symbol) (reaches : rules.Reaches pair) : pair ∈ pairs.take count := by
    induction reaches with
    | initial member => exact closed _ (List.mem_append_left _ member)
    | step _ listed induction =>
        refine closed _ (List.mem_append_right _ (List.mem_flatMap.2 ⟨_, induction, ?_⟩))
        exact List.mem_map_of_mem listed
  have length : pairs.length ≤ (pairs.take count).length :=
    (List.subperm_of_subset queue.nodup fun pair member =>
      all pair (queue.reaches pair member)).length_le
  exact (List.take_prefix count pairs).eq_of_length_le length

/-- The next pair of a queue is determined by the pairs in front of it. -/
theorem take_succ_eq (queue : rules.IsQueue pairs) (queue' : rules.IsQueue others) {count : Nat}
    (same : pairs.take count = others.take count) :
    pairs.take (count + 1) = others.take (count + 1) := by
  have first := queue.visits_take_prefix count
  have first' := queue'.visits_take_prefix count
  rw [← same] at first'
  by_cases long : count + 1 ≤ ((rules.visitsOf (pairs.take count)).eraseDups).length
  · -- The next pair has been visited by now.
    rw [List.prefix_iff_eq_append] at first first'
    rw [← first, ← first', List.take_append_of_le_length long, List.take_append_of_le_length long]
  · -- Nothing new is visited any more, so both queues end here.
    have short : ((rules.visitsOf (pairs.take count)).eraseDups).length ≤ count := by omega
    have closed {queued : List (Symbol × Symbol)}
        (first : (rules.visitsOf (pairs.take count)).eraseDups <+: queued) :
        ∀ pair ∈ rules.visitsOf (pairs.take count), pair ∈ queued.take count := by
      intro pair visited
      obtain ⟨rest, rfl⟩ := first
      rw [List.take_append, List.take_of_length_le short]
      exact List.mem_append_left _ (List.mem_eraseDups.2 visited)
    have all := queue.take_eq_self (closed first)
    have all' := queue'.take_eq_self (same ▸ closed first')
    have equal : pairs = others := by rw [← all, same, all']
    rw [equal]

/-- Rules have one queue at most. -/
theorem unique (queue : rules.IsQueue pairs) (queue' : rules.IsQueue others) : pairs = others := by
  have takes (count : Nat) : pairs.take count = others.take count := by
    induction count with
    | zero => rfl
    | succ count induction => exact queue.take_succ_eq queue' induction
  have whole := takes (max pairs.length others.length)
  rwa [List.take_of_length_le (Nat.le_max_left ..), List.take_of_length_le (Nat.le_max_right ..)]
    at whole

end IsQueue

end Rules

/-! ## Numbered explorations -/

/-- The discovery of a pair by another state. -/
def Discovery.rename (name : Symbol → Symbol) (discovery : Discovery) : Discovery :=
  { discovery with state := name discovery.state }

/-- The number of a state: the decimal digits of its place among the states. -/
def System.numeral (system : System) (state : Symbol) : Symbol :=
  .atom (Text.ofNat (system.states.toList.idxOf state))

theorem System.numeral_injective {system : System} {state other : Symbol}
    (member : state ∈ system.states) (same : system.numeral state = system.numeral other) :
    state = other := by
  have places := Text.ofNat_injective (Symbol.atom.inj same)
  exact (List.idxOf_inj (Array.mem_toList_iff.2 member)).1 places

theorem System.Coherent.numeral_eq {system : System} (coherent : system.Coherent) {place : Nat}
    {state : Symbol} (found : system.states[place]? = some state) :
    system.numeral state = .atom (Text.ofNat place) := by
  obtain ⟨below, rfl⟩ := Array.getElem?_eq_some_iff.1 found
  have index := coherent.nodup_states.idxOf_getElem place (by simpa using below)
  rw [Array.getElem_toList] at index
  rw [System.numeral, index]

namespace Exploration

variable {rules : Rules} {base : System} {schema : Schema} {name : Text}
  {exploration plain numbered : Exploration}

/-- The pairs of a complete queue are the queue of the rules. -/
theorem Underway.isQueue (complete : Underway rules base exploration.found.size exploration) :
    rules.IsQueue (exploration.found.toList.map Discovery.pair) where
  eq_eraseDups := by
    have pairs := complete.account.pairs
    rw [List.take_of_length_le (by rw [Array.length_toList])] at pairs
    rw [Rules.visitsOf, List.flatMap_map]
    exact pairs
  reaches := by
    intro pair member
    rw [complete.account.pairs, List.mem_eraseDups] at member
    exact complete.account.reaches pair member

theorem Underway.states_getElem?
    (complete : Underway rules base exploration.found.size exploration) (place : Nat) :
    exploration.system.states[place]? = exploration.found[place]?.map Discovery.state := by
  rw [← Array.getElem?_toList, complete.account.states, List.getElem?_map, Array.getElem?_toList]

/-- Two complete explorations with the same rules, of which the second one numbers its states. -/
structure Parallel (rules : Rules) (schema : Schema) (name : Text) (plain numbered : Exploration) :
    Prop where
  complete : Underway rules (seeded rules schema name false plain) plain.found.size plain
  complete' : Underway rules (seeded rules schema name true numbered) numbered.found.size numbered

namespace Parallel

theorem pairs_eq (parallel : Parallel rules schema name plain numbered) :
    plain.found.toList.map Discovery.pair = numbered.found.toList.map Discovery.pair :=
  parallel.complete.isQueue.unique parallel.complete'.isQueue

/-- The second exploration discovers the same pairs by the numbers of their states. -/
theorem found_eq (parallel : Parallel rules schema name plain numbered) :
    numbered.found.toList =
      plain.found.toList.map (Discovery.rename plain.system.numeral) := by
  apply List.ext_getElem?
  intro place
  have pairs := congrArg (·[place]?) parallel.pairs_eq
  simp only [List.getElem?_map, Array.getElem?_toList] at pairs ⊢
  cases found : plain.found[place]? with
  | none =>
      rw [found] at pairs
      simpa using pairs.symm
  | some discovery =>
      rw [found] at pairs
      obtain ⟨other, found', same⟩ := Option.map_eq_some_iff.1 pairs.symm
      obtain ⟨first, second⟩ := Prod.mk.inj same
      have named : other.state = .atom (Text.ofNat place) :=
        parallel.complete'.account.named place other found'
      have state : plain.system.states[place]? = some discovery.state := by
        rw [parallel.complete.states_getElem?, found]
        rfl
      rw [← parallel.complete.account.coherent.numeral_eq state] at named
      rw [found', Option.map_some, Option.some_inj]
      cases other
      simp_all [Discovery.rename]

theorem stateOf_eq (parallel : Parallel rules schema name plain numbered)
    {pair : Symbol × Symbol} (reaches : rules.Reaches pair) :
    numbered.stateOf pair = plain.system.numeral (plain.stateOf pair) := by
  obtain ⟨discovery, member, rfl⟩ := parallel.complete.exists_mem_found_iff.2 reaches
  have member' : discovery.rename plain.system.numeral ∈ numbered.found := by
    rw [← Array.mem_toList_iff, parallel.found_eq]
    exact List.mem_map_of_mem (Array.mem_toList_iff.2 member)
  rw [parallel.complete.account.stateOf_pair member]
  exact parallel.complete'.account.stateOf_pair member'

theorem schema_eq (parallel : Parallel rules schema name plain numbered) :
    numbered.system.schema = plain.system.schema :=
  parallel.complete'.account.schema.trans parallel.complete.account.schema.symm

theorem states_eq (parallel : Parallel rules schema name plain numbered) :
    numbered.system.states.toList = plain.system.states.toList.map plain.system.numeral := by
  rw [parallel.complete'.account.states, parallel.complete.account.states, parallel.found_eq,
    List.map_map, List.map_map]
  rfl

/-- The second exploration requests the same transitions between the numbers of their ends. -/
theorem requests_eq (parallel : Parallel rules schema name plain numbered) :
    numbered.requests rules numbered.found.toList =
      (plain.requests rules plain.found.toList).map
        (Transition.rename plain.system.numeral id) := by
  rw [Exploration.requests, Exploration.requests, parallel.found_eq, List.flatMap_map,
    List.map_flatMap]
  apply List.flatMap_congr
  intro discovery member
  rw [List.map_map]
  apply List.map_congr_left
  intro move listed
  have reaches : rules.Reaches discovery.pair :=
    parallel.complete.exists_mem_found_iff.1 ⟨discovery, Array.mem_toList_iff.1 member, rfl⟩
  simp only [Function.comp_apply, requested, Transition.rename, EdgeLabel.map_id,
    parallel.schema_eq]
  rw [parallel.stateOf_eq (.step reaches listed)]
  rfl

/-- So it has the same transitions in the same order. Transitions that differ do so after their
ends have been numbered. -/
theorem transitions_eq (parallel : Parallel rules schema name plain numbered) :
    numbered.system.transitions.toList =
      plain.system.transitions.toList.map (Transition.rename plain.system.numeral id) := by
  have account := parallel.complete.account
  have transitions := account.transitions
  have transitions' := parallel.complete'.account.transitions
  rw [List.take_of_length_le (by rw [Array.length_toList])] at transitions transitions'
  rw [transitions', parallel.requests_eq, transitions]
  apply eraseDups_map
  intro transition listed other listed' same
  rw [← List.mem_eraseDups, ← transitions, Array.mem_toList_iff] at listed listed'
  obtain ⟨source, target⟩ := account.coherent.ends transition listed
  obtain ⟨sources, targets, labels⟩ := Transition.mk.inj same
  rw [EdgeLabel.map_id, EdgeLabel.map_id] at labels
  have source_eq := System.numeral_injective source sources
  have target_eq := System.numeral_injective target targets
  cases transition
  cases other
  simp_all

/-- The initial states correspond in their order. -/
theorem initial_eq (parallel : Parallel rules schema name plain numbered) :
    numbered.system.initial.toList =
      plain.system.initial.toList.map plain.system.numeral := by
  have account := parallel.complete.account
  have numerals : rules.initial.map numbered.stateOf =
      (rules.initial.map plain.stateOf).map plain.system.numeral := by
    rw [List.map_map]
    apply List.map_congr_left
    intro pair listed
    exact parallel.stateOf_eq (.initial listed)
  rw [parallel.complete'.account.initial, account.initial]
  simp only [seeded, OrderedSet.toList_insertMany_empty, numerals]
  apply eraseDups_map
  intro state listed other _ same
  obtain ⟨pair, member, rfl⟩ := List.mem_map.1 listed
  exact System.numeral_injective (account.stateOf_mem_states (List.mem_append_left _ member)) same

end Parallel

end Exploration

namespace System

/-! ## Numbered products -/

/-- A system whose states are the places of the states of another system. The states of the other
one are pairs, and the numbers stand for these pairs. -/
structure Numbers (plain numbered : System) : Prop where
  isMutable : numbered.isMutable = true
  schema : numbered.schema = plain.schema
  name : numbered.name = plain.name
  size_states : numbered.states.size = plain.states.size
  state : ∀ place state, plain.states[place]? = some state →
    numbered.states[place]? = some (.atom (Text.ofNat place)) ∧
      plain.numeral state = .atom (Text.ofNat place)
  factors : ∀ state ∈ plain.states, ∃ first second, state = .pair first second ∧
    plain.factorsOf state = some (first, second) ∧
    numbered.factorsOf (plain.numeral state) = some (first, second)
  label? : ∀ state ∈ plain.states, numbered.label? (plain.numeral state) = plain.label? state
  initial : numbered.initial.toList = plain.initial.toList.map plain.numeral
  transitions : numbered.transitions.toList =
    plain.transitions.toList.map (Transition.rename plain.numeral id)

theorem factorsOf_of_recorded {system : System} {state : Symbol} {pair : Symbol × Symbol}
    (recorded : system.factors[state]? = some pair) : system.factorsOf state = some pair := by
  simp only [factorsOf, recorded]

theorem factorsOf_pair {system : System} {first second : Symbol}
    (unrecorded : system.factors[Symbol.pair first second]? = none) :
    system.factorsOf (.pair first second) = some (first, second) := by
  simp only [factorsOf, unrecorded]
  rfl

theorem Numbers.of_parallel {rules : Rules} {schema : Schema} {name : Text}
    {plain numbered : Exploration}
    (parallel : Exploration.Parallel rules schema name plain numbered) :
    Numbers plain.system numbered.system where
  isMutable := parallel.complete'.account.isMutable
  schema := parallel.schema_eq
  name := parallel.complete'.account.name.trans parallel.complete.account.name.symm
  size_states := by
    have sizes := congrArg List.length parallel.states_eq
    simpa using sizes
  state := by
    intro place state found
    have numeral := parallel.complete.account.coherent.numeral_eq found
    refine ⟨?_, numeral⟩
    rw [← Array.getElem?_toList] at found ⊢
    rw [parallel.states_eq, List.getElem?_map, found, Option.map_some, numeral]
  factors := by
    intro state member
    have account := parallel.complete.account
    obtain ⟨discovery, listed, rfl⟩ := account.mem_states_iff.1 member
    have state := account.state_eq_pair rfl listed
    have listed' : discovery.rename plain.system.numeral ∈ numbered.found := by
      rw [← Array.mem_toList_iff, parallel.found_eq]
      exact List.mem_map_of_mem (Array.mem_toList_iff.2 listed)
    have unrecorded : plain.system.factors[discovery.state]? = none :=
      account.factors discovery listed
    have recorded : numbered.system.factors[plain.system.numeral discovery.state]? =
        some discovery.pair := parallel.complete'.account.factors _ listed'
    refine ⟨discovery.first, discovery.second, state, ?_, factorsOf_of_recorded recorded⟩
    rw [state] at unrecorded ⊢
    exact factorsOf_pair unrecorded
  label? := by
    intro state member
    obtain ⟨discovery, listed, rfl⟩ := parallel.complete.account.mem_states_iff.1 member
    have listed' : discovery.rename plain.system.numeral ∈ numbered.found := by
      rw [← Array.mem_toList_iff, parallel.found_eq]
      exact List.mem_map_of_mem (Array.mem_toList_iff.2 listed)
    rw [parallel.complete.account.labels discovery listed]
    exact parallel.complete'.account.labels _ listed'
  initial := parallel.initial_eq
  transitions := parallel.transitions_eq

variable {left right : System}

/-- A product numbers its states when an operand is mutable, and it is the plain product apart from
that. -/
theorem numbers_productWith {combine : OrderedSet → OrderedSet → OrderedSet}
    {moves : System → System → Symbol → Symbol → List Move} (operation sign : Text)
    (within : MovesWithin combine moves left right) (coherent : left.Coherent)
    (coherent' : right.Coherent) (kinds : left.kind = right.kind)
    (flag : (left.isMutable || right.isMutable) = true)
    (rules : productRules moves (left.setMutable false) (right.setMutable false) =
      productRules moves left right) :
    ∃ product plain, productWith operation sign combine moves left right = .ok product ∧
      productWith operation sign combine moves (left.setMutable false) (right.setMutable false) =
        .ok plain ∧
      Numbers plain.system product.system := by
  obtain ⟨alphabets, zipped, combines⟩ := Schema.exists_combines kinds combine
  have admissible := within.admissible coherent coherent' combines
  obtain ⟨numbered, explored', complete'⟩ :=
    Exploration.explore_complete admissible (left.name ++ sign ++ right.name) true
  obtain ⟨plain, explored, complete⟩ :=
    Exploration.explore_complete admissible (left.name ++ sign ++ right.name) false
  rw [← rules] at explored
  rw [← flag] at explored'
  exact ⟨⟨numbered.system, numbered.stats⟩, ⟨plain.system, plain.stats⟩,
    productWith_eq_ok operation sign zipped explored',
    productWith_eq_ok operation sign zipped explored, .of_parallel ⟨complete, complete'⟩⟩

/-- A product of reachable systems of which one is mutable has numbers for its states. Apart from
that it is the product of the systems without the flag, in either kind of product. -/
theorem Reachable.numbers_products (reachable : left.Reachable) (reachable' : right.Reachable)
    (kinds : left.kind = right.kind) (flag : (left.isMutable || right.isMutable) = true) :
    (∃ product plain, left.synchronousProduct right = .ok product ∧
        (left.setMutable false).synchronousProduct (right.setMutable false) = .ok plain ∧
        Numbers plain.system product.system) ∧
      ∃ product plain, left.asynchronousProduct right = .ok product ∧
        (left.setMutable false).asynchronousProduct (right.setMutable false) = .ok plain ∧
        Numbers plain.system product.system := by
  have coherent := reachable.coherent
  have coherent' := reachable'.coherent
  constructor
  · exact numbers_productWith _ _ (movesWithin_synchronous coherent coherent' kinds) coherent
      coherent' kinds flag rfl
  · exact numbers_productWith _ _ (movesWithin_asynchronous coherent coherent' kinds) coherent
      coherent' kinds flag rfl

theorem setMutable_setMutable (system : System) (isMutable isMutable' : Bool) :
    (system.setMutable isMutable).setMutable isMutable' = system.setMutable isMutable' :=
  rfl

/-- A lamp that can be changed, beside one that cannot. -/
theorem numbers_products_lamp :
    (∃ product plain, (lamp.setMutable true).synchronousProduct lamp = .ok product ∧
        (lamp.setMutable false).synchronousProduct (lamp.setMutable false) = .ok plain ∧
        Numbers plain.system product.system) ∧
      ∃ product plain, (lamp.setMutable true).asynchronousProduct lamp = .ok product ∧
        (lamp.setMutable false).asynchronousProduct (lamp.setMutable false) = .ok plain ∧
        Numbers plain.system product.system := by
  have reachable : (lamp.setMutable true).Reachable := .update (.setMutable true) reachable_lamp
  have kinds : (lamp.setMutable true).kind = lamp.kind := by decide +kernel
  have flag : ((lamp.setMutable true).isMutable || lamp.isMutable) = true := by decide +kernel
  have numbers := Reachable.numbers_products reachable reachable_lamp kinds flag
  rwa [setMutable_setMutable] at numbers

end System

end TransitionSystems
