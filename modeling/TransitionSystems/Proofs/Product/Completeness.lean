import TransitionSystems.Proofs.Product.Exploration

/-!
# Complete explorations

An exploration has expanded a prefix of its queue. What it has visited and requested so far are the
initial pairs and the moves out of the pairs of this prefix. The bound on the reachable pairs is
fuel enough for the whole queue, and then the queue holds all pairs that can be reached.
-/

namespace TransitionSystems

/-- The moves out of a discovered pair. -/
def Discovery.moves (rules : Rules) (discovery : Discovery) : List Move :=
  rules.moves discovery.first discovery.second

/-- The pairs visited when a list of pairs has been expanded. -/
def Rules.visits (rules : Rules) (expanded : List Discovery) : List (Symbol × Symbol) :=
  rules.initial ++ expanded.flatMap fun discovery => (discovery.moves rules).map Move.target

namespace Exploration

/-- The transitions requested when a list of pairs has been expanded. -/
def requests (exploration : Exploration) (rules : Rules) (expanded : List Discovery) :
    List Transition :=
  expanded.flatMap fun discovery => (discovery.moves rules).map (exploration.requested discovery)

/-- An exploration that has expanded a prefix of its queue. -/
structure Underway (rules : Rules) (base : System) (count : Nat) (exploration : Exploration) :
    Prop where
  account : Account rules base (rules.visits (exploration.found.toList.take count))
    (exploration.requests rules (exploration.found.toList.take count)) count exploration
  within : count ≤ exploration.found.size

variable {rules : Rules} {base : System} {visits visits' : List (Symbol × Symbol)}
  {requests requests' : List Transition} {count count' : Nat} {exploration later : Exploration}

/-! ## Expanding a pair -/

namespace Account

theorem requested_eq (account : Account rules base visits requests count exploration)
    (account' : Account rules base visits' requests' count' later)
    (longer : exploration.found.toList <+: later.found.toList) (source : Discovery) {move : Move}
    (visited : move.target ∈ visits) :
    later.requested source move = exploration.requested source move := by
  rw [requested, requested, account.stateOf_eq account' longer visited, account.schema,
    account'.schema]

/-- Making moves out of a pair of the queue succeeds. -/
theorem followAll (account : Account rules base visits requests count exploration)
    (admissible : rules.Admissible base.schema) {source : Discovery}
    (member : source ∈ exploration.found) (moves : List Move)
    (listed : ∀ move ∈ moves, move ∈ source.moves rules) :
    ∃ after, moves.foldlM (Exploration.follow rules source.state) exploration = .ok after ∧
      Account rules base (visits ++ moves.map Move.target)
        (requests ++ moves.map (after.requested source)) count after ∧
      exploration.found.toList <+: after.found.toList := by
  induction moves generalizing exploration visits requests with
  | nil => exact ⟨exploration, rfl, by simpa using account, List.prefix_rfl⟩
  | cons move moves induction =>
      rw [List.forall_mem_cons] at listed
      obtain ⟨middle, followed, account', longer⟩ :=
        account.follow admissible member listed.1
      have member' := Array.mem_toList_iff.1 (longer.subset (Array.mem_toList_iff.2 member))
      obtain ⟨after, rest, account'', longer'⟩ := induction account' member' listed.2
      have requested : after.requested source move = middle.requested source move :=
        account'.requested_eq account'' longer' source (by simp)
      refine ⟨after, ?_, ?_, longer.trans longer'⟩
      · rw [List.foldlM_cons, followed]
        exact rest
      · rw [← requested] at account''
        simpa [List.append_assoc] using account''

end Account

namespace Underway

/-- An earlier pair of the queue is expanded to the same visits and requests later on. -/
theorem requests_eq (underway : Underway rules base count exploration)
    (account' : Account rules base visits' requests' count' later)
    (longer : exploration.found.toList <+: later.found.toList) :
    later.requests rules (exploration.found.toList.take count) =
      exploration.requests rules (exploration.found.toList.take count) := by
  rw [Exploration.requests, Exploration.requests]
  apply List.flatMap_congr
  intro discovery expanded
  apply List.map_congr_left
  intro move listed
  apply underway.account.requested_eq account' longer
  rw [Rules.visits, List.mem_append, List.mem_flatMap]
  exact .inr ⟨discovery, expanded, List.mem_map_of_mem listed⟩

/-- Expanding the next pair of the queue succeeds. -/
theorem expand (underway : Underway rules base count exploration)
    (admissible : rules.Admissible base.schema) {discovery : Discovery}
    (next : exploration.found[count]? = some discovery) :
    ∃ after, exploration.expand rules discovery = .ok after ∧
      Underway rules base (count + 1) after ∧
      exploration.found.toList <+: after.found.toList := by
  have account := underway.account
  have started : Account rules base (rules.visits (exploration.found.toList.take count))
      (exploration.requests rules (exploration.found.toList.take count)) (count + 1)
      { exploration with
        next := exploration.next + 1
        stats.expanded := exploration.stats.expanded + 1 } :=
    { account with
      next := congrArg (· + 1) account.next
      expanded := congrArg (· + 1) account.expanded }
  obtain ⟨after, followed, account', longer⟩ := started.followAll admissible
    (Array.mem_of_getElem? next) (discovery.moves rules) fun _ listed => listed
  have below := (Array.getElem?_eq_some_iff.1 next).1
  have taken : after.found.toList.take (count + 1) =
      exploration.found.toList.take count ++ [discovery] := by
    obtain ⟨rest, equal⟩ := longer
    rw [← equal, List.take_append_of_le_length (by rwa [Array.length_toList]),
      List.take_add_one]
    simp [next]
  refine ⟨after, followed, ⟨?_, ?_⟩, longer⟩
  · have visits : rules.visits (exploration.found.toList.take count ++ [discovery]) =
        rules.visits (exploration.found.toList.take count) ++
          (discovery.moves rules).map Move.target := by
      simp [Rules.visits]
    have requests : after.requests rules (exploration.found.toList.take count ++ [discovery]) =
        exploration.requests rules (exploration.found.toList.take count) ++
          (discovery.moves rules).map (after.requested discovery) := by
      rw [← underway.requests_eq account' longer]
      simp [Exploration.requests]
    rw [taken, visits, requests]
    exact account'
  · have sizes := longer.length_le
    simp only [Array.length_toList] at sizes
    omega

/-- Fuel for the whole queue makes the exploration complete. -/
theorem drain (underway : Underway rules base count exploration)
    (admissible : rules.Admissible base.schema) (fuel : Nat)
    (enough : rules.bound ≤ count + fuel) :
    ∃ after, exploration.drain rules fuel = .ok after ∧
      Underway rules base after.found.size after ∧
      exploration.found.toList <+: after.found.toList := by
  induction fuel generalizing exploration count with
  | zero =>
      have bounded := underway.account.size_found_le admissible
      have all : count = exploration.found.size := by
        have within := underway.within
        omega
      exact ⟨exploration, rfl, all ▸ underway, List.prefix_rfl⟩
  | succ fuel induction =>
      rw [Exploration.drain, underway.account.next]
      cases next : exploration.found[count]? with
      | none =>
          have all : count = exploration.found.size := by
            have within := underway.within
            rw [Array.getElem?_eq_none_iff] at next
            omega
          exact ⟨exploration, rfl, all ▸ underway, List.prefix_rfl⟩
      | some discovery =>
          obtain ⟨middle, expanded, underway', longer⟩ := underway.expand admissible next
          obtain ⟨after, drained, complete, longer'⟩ := induction underway' (by omega)
          exact ⟨after, bind_eq_ok_iff.2 ⟨middle, expanded, drained⟩, complete,
            longer.trans longer'⟩

end Underway

/-! ## Visiting the initial pairs -/

theorem account_empty (rules : Rules) (schema : Schema) (name : Text) (isMutable : Bool) :
    Account rules (.empty schema name isMutable) [] [] 0
      { system := .empty schema name isMutable } where
  coherent := System.coherent_empty schema name isMutable
  schema := rfl
  name := rfl
  isMutable := rfl
  initial := rfl
  reaches := by simp
  pairs := rfl
  named := by simp
  states := rfl
  lookup := by simp
  labels := by simp
  factors := by simp
  transitions := rfl
  next := rfl
  expanded := rfl
  created := rfl
  counted := rfl

/-- Visiting pairs that can be reached one after the other succeeds. -/
theorem Account.visitAll (account : Account rules base visits requests count exploration)
    (admissible : rules.Admissible base.schema) (pairs : List (Symbol × Symbol))
    (reaches : ∀ pair ∈ pairs, rules.Reaches pair) (states : List Symbol) :
    ∃ after,
      pairs.foldlM
          (fun (states, exploration) (first, second) => do
            let (state, exploration) ← Exploration.visit exploration rules first second
            return (states ++ [state], exploration))
          (states, exploration) =
            Except.ok (ε := Error) (states ++ pairs.map after.stateOf, after) ∧
        Account rules base (visits ++ pairs) requests count after ∧
        exploration.found.toList <+: after.found.toList := by
  induction pairs generalizing exploration visits states with
  | nil => exact ⟨exploration, by simp, by simpa using account, List.prefix_rfl⟩
  | cons pair pairs induction =>
      rw [List.forall_mem_cons] at reaches
      obtain ⟨middle, visited, account', longer⟩ := account.visit admissible reaches.1
      obtain ⟨after, rest, account'', longer'⟩ :=
        induction account' reaches.2 (states ++ [middle.stateOf pair])
      have state : after.stateOf pair = middle.stateOf pair :=
        account'.stateOf_eq account'' longer' (by simp)
      refine ⟨after, ?_, by simpa [List.append_assoc] using account'', longer.trans longer'⟩
      have first : (do
          let (state, exploration) ← exploration.visit rules pair.1 pair.2
          return (states ++ [state], exploration)) =
            Except.ok (ε := Error) (states ++ [middle.stateOf pair], middle) := by
        rw [visited]
        rfl
      rw [List.foldlM_cons, bind_eq_ok_iff]
      exact ⟨_, first, by rw [rest, List.map_cons, state, List.append_assoc]; rfl⟩

/-! ## The whole exploration -/

/-- The system that an exploration starts to expand from, with its initial states. -/
def seeded (rules : Rules) (schema : Schema) (name : Text) (isMutable : Bool)
    (exploration : Exploration) : System :=
  { System.empty schema name isMutable with
    initial := (OrderedSet.empty isMutable).insertMany
      (rules.initial.map exploration.stateOf) }

/-- What an exploration expands from: the initial pairs have been visited, and the states that stand
for them are initial. -/
def start (rules : Rules) (system : System) : Except Error Exploration := do
  let (initial, exploration) ← seed { system := system } rules
  let system ← exploration.system.setInitial initial
  return { exploration with system := system }

theorem explore_eq_start_bind_drain (system : System) :
    rules.explore system = start rules system >>= drain rules rules.bound := by
  simp only [Rules.explore, start, bind_assoc, pure_bind]

/-- Starting to explore admissible rules succeeds. -/
theorem exists_start {schema : Schema} (admissible : rules.Admissible schema) (name : Text)
    (isMutable : Bool) :
    ∃ started, start rules (.empty schema name isMutable) = .ok started ∧
      Underway rules (seeded rules schema name isMutable started) 0 started := by
  obtain ⟨middle, visited, account, -⟩ :=
    (account_empty rules schema name isMutable).visitAll admissible rules.initial
      (fun _ => .initial) []
  have known : ∀ state ∈ rules.initial.map middle.stateOf, state ∈ middle.system.labels := by
    intro state member
    obtain ⟨pair, listed, rfl⟩ := List.mem_map.1 member
    exact (account.coherent.mem_states_iff _).1 (account.stateOf_mem_states (by simpa using listed))
  refine ⟨{ middle with
    system := { middle.system with
      initial := middle.system.initial.insertMany (rules.initial.map middle.stateOf) } }, ?_, ?_⟩
  · rw [start, bind_eq_ok_iff]
    refine ⟨_, visited, ?_⟩
    rw [bind_eq_ok_iff]
    exact ⟨_, System.setInitial_eq_ok_iff.2 ⟨known, rfl⟩, rfl⟩
  · refine ⟨?_, Nat.zero_le _⟩
    have visits : rules.visits (middle.found.toList.take 0) = [] ++ rules.initial := by
      simp [Rules.visits]
    rw [visits]
    exact { account with
      coherent := account.coherent.putInitial known
      initial := by rw [account.initial]; rfl }

/-- Exploring admissible rules succeeds and expands every pair of the queue. -/
theorem explore_complete {schema : Schema} (admissible : rules.Admissible schema) (name : Text)
    (isMutable : Bool) :
    ∃ after, rules.explore (.empty schema name isMutable) = .ok after ∧
      Underway rules (seeded rules schema name isMutable after) after.found.size after := by
  obtain ⟨started, begun, underway⟩ := exists_start admissible name isMutable
  obtain ⟨after, drained, complete, longer⟩ :=
    underway.drain admissible rules.bound (by omega)
  have states : rules.initial.map after.stateOf = rules.initial.map started.stateOf := by
    apply List.map_congr_left
    intro pair listed
    exact underway.account.stateOf_eq complete.account longer (List.mem_append_left _ listed)
  refine ⟨after, ?_, by rwa [seeded, states]⟩
  rw [explore_eq_start_bind_drain, bind_eq_ok_iff]
  exact ⟨started, begun, drained⟩

/-- The pairs of a complete queue are those that can be reached. -/
theorem Underway.exists_mem_found_iff
    (complete : Underway rules base exploration.found.size exploration) {pair : Symbol × Symbol} :
    (∃ discovery ∈ exploration.found, discovery.pair = pair) ↔ rules.Reaches pair := by
  rw [complete.account.exists_mem_found_iff]
  refine ⟨complete.account.reaches pair, fun reaches => ?_⟩
  have all : exploration.found.toList.take exploration.found.size = exploration.found.toList :=
    List.take_of_length_le (by rw [Array.length_toList])
  induction reaches with
  | initial member => exact List.mem_append_left _ member
  | @step pair move _ listed induction =>
      obtain ⟨discovery, member, rfl⟩ := complete.account.exists_mem_found_iff.2 induction
      rw [Rules.visits, List.mem_append, List.mem_flatMap]
      refine .inr ⟨discovery, ?_, List.mem_map_of_mem listed⟩
      rw [all]
      exact Array.mem_toList_iff.2 member

theorem Underway.mem_transitions_iff
    (complete : Underway rules base exploration.found.size exploration) {transition : Transition} :
    transition ∈ exploration.system.transitions ↔
      ∃ discovery ∈ exploration.found, ∃ move ∈ discovery.moves rules,
        exploration.requested discovery move = transition := by
  rw [← Array.mem_toList_iff, complete.account.transitions, List.mem_eraseDups,
    Exploration.requests, List.take_of_length_le (by rw [Array.length_toList])]
  simp only [List.mem_flatMap, List.mem_map, Array.mem_toList_iff]

/-! ## Products whose states are pairs -/

theorem Account.state_eq_pair (account : Account rules base visits requests count exploration)
    (flag : base.isMutable = false) {discovery : Discovery}
    (member : discovery ∈ exploration.found) :
    discovery.state = .pair discovery.first discovery.second := by
  obtain ⟨place, below, found⟩ := Array.mem_iff_getElem.1 member
  have named := account.named place discovery (by rw [Array.getElem?_eq_getElem below, found])
  rw [flag] at named
  exact named

theorem Underway.mem_found (complete : Underway rules base exploration.found.size exploration)
    (flag : base.isMutable = false) {first second : Symbol}
    (reaches : rules.Reaches (first, second)) :
    ⟨.pair first second, first, second⟩ ∈ exploration.found := by
  obtain ⟨⟨state, first', second'⟩, member, same⟩ := complete.exists_mem_found_iff.2 reaches
  obtain ⟨rfl, rfl⟩ := Prod.mk.inj same
  have named := complete.account.state_eq_pair flag member
  exact named ▸ member

theorem Underway.stateOf_eq_pair
    (complete : Underway rules base exploration.found.size exploration)
    (flag : base.isMutable = false) {pair : Symbol × Symbol} (reaches : rules.Reaches pair) :
    exploration.stateOf pair = .pair pair.1 pair.2 :=
  complete.account.stateOf_pair (complete.mem_found flag reaches)

end Exploration

namespace Rules

variable {rules : Rules} {schema : Schema} {name : Text}

/-- A system that is the reachable part of a product, with pairs as its states. -/
structure ReachablePart (rules : Rules) (schema : Schema) (name : Text) (system : System) :
    Prop where
  coherent : system.Coherent
  schema : system.schema = schema
  name : system.name = name
  isMutable : system.isMutable = false
  initial : system.initial = .ofList (rules.initial.map fun pair => .pair pair.1 pair.2)
  mem_states_iff : ∀ state, state ∈ system.states ↔
    ∃ first second, rules.Reaches (first, second) ∧ state = .pair first second
  label? : ∀ first second, rules.Reaches (first, second) →
    system.label? (.pair first second) = rules.label first second
  mem_transitions_iff : ∀ transition, transition ∈ system.transitions ↔
    ∃ first second, rules.Reaches (first, second) ∧ ∃ move ∈ rules.moves first second,
      transition =
        ⟨.pair first second, .pair move.first move.second, system.schema.arrange move.label⟩

theorem ReachablePart.pair_mem_states_iff {system : System}
    (part : rules.ReachablePart schema name system) {first second : Symbol} :
    .pair first second ∈ system.states ↔ rules.Reaches (first, second) := by
  rw [part.mem_states_iff]
  constructor
  · rintro ⟨first', second', reaches, same⟩
    obtain ⟨rfl, rfl⟩ : first = first' ∧ second = second' := by simpa [Symbol.pair] using same
    exact reaches
  · intro reaches
    exact ⟨first, second, reaches, rfl⟩

/-- Exploring admissible rules on a system that is not mutable builds their reachable part. -/
theorem explore_reachablePart (admissible : rules.Admissible schema) (name : Text) :
    ∃ after, rules.explore (.empty schema name) = .ok after ∧
      rules.ReachablePart schema name after.system := by
  obtain ⟨after, explored, complete⟩ := Exploration.explore_complete admissible name false
  have account := complete.account
  have reached {discovery : Discovery} (member : discovery ∈ after.found) :
      rules.Reaches discovery.pair :=
    complete.exists_mem_found_iff.1 ⟨discovery, member, rfl⟩
  refine ⟨after, explored, {
    coherent := account.coherent
    schema := account.schema
    name := account.name
    isMutable := account.isMutable
    initial := ?_
    mem_states_iff := ?_
    label? := fun first second reaches => account.labels _ (complete.mem_found rfl reaches)
    mem_transitions_iff := ?_ }⟩
  · rw [account.initial]
    change (OrderedSet.empty false).insertMany _ = (OrderedSet.empty false).insertMany _
    congr 1
    apply List.map_congr_left
    intro pair listed
    exact complete.stateOf_eq_pair rfl (.initial listed)
  · intro state
    rw [account.mem_states_iff]
    constructor
    · rintro ⟨discovery, member, rfl⟩
      exact ⟨discovery.first, discovery.second, reached member, account.state_eq_pair rfl member⟩
    · rintro ⟨first, second, reaches, rfl⟩
      exact ⟨_, complete.mem_found rfl reaches, rfl⟩
  · intro transition
    have requested {discovery : Discovery} (member : discovery ∈ after.found) {move : Move}
        (listed : move ∈ discovery.moves rules) :
        after.requested discovery move =
          ⟨.pair discovery.first discovery.second, .pair move.first move.second,
            after.system.schema.arrange move.label⟩ := by
      rw [Exploration.requested, account.state_eq_pair rfl member,
        complete.stateOf_eq_pair rfl (.step (reached member) listed)]
      rfl
    rw [complete.mem_transitions_iff]
    constructor
    · rintro ⟨discovery, member, move, listed, rfl⟩
      exact ⟨discovery.first, discovery.second, reached member, move, listed,
        requested member listed⟩
    · rintro ⟨first, second, reaches, move, listed, rfl⟩
      have member := complete.mem_found rfl reaches
      exact ⟨_, member, move, listed, requested member listed⟩

end Rules

end TransitionSystems
