import Mathlib.Order.Bounds.Defs
import TransitionSystems.Proofs.Product.Numbering

/-!
# Breadth-first discovery

The queue of a product is in the order of the distances from the initial pairs: what has been
visited when the pairs up to some distance have been expanded are the pairs up to the next distance,
and what has been visited first comes first in the queue. The states of the product inherit the
order of the queue, and so do the transitions, which are requested when their source is expanded.
-/

namespace TransitionSystems

/-! ## Distances -/

/-- A number of steps leads from one of the starts to a place. -/
inductive StepsTo {α : Type} (starts : List α) (step : α → α → Prop) : Nat → α → Prop
  | start {place : α} (member : place ∈ starts) : StepsTo starts step 0 place
  | step {count : Nat} {place next : α} (steps : StepsTo starts step count place)
      (stepped : step place next) : StepsTo starts step (count + 1) next

/-- The least number of steps that lead to a place. -/
def IsDistance {α : Type} (starts : List α) (step : α → α → Prop) (place : α) (count : Nat) :
    Prop :=
  IsLeast {count | StepsTo starts step count place} count

theorem StepsTo.exists_isDistance {α : Type} {starts : List α} {step : α → α → Prop} {place : α}
    {count : Nat} (steps : StepsTo starts step count place) :
    ∃ least, IsDistance starts step place least := by
  classical
  have reached : ∃ count, StepsTo starts step count place := ⟨count, steps⟩
  exact ⟨Nat.find reached, Nat.find_spec reached, fun _ others => Nat.find_min' reached others⟩

namespace Rules

variable {rules : Rules} {pairs : List (Symbol × Symbol)}

/-- What can be reached is reached in some number of steps. -/
theorem reaches_iff_exists_stepsTo {pair : Symbol × Symbol} :
    rules.Reaches pair ↔ ∃ count, StepsTo rules.initial rules.Moves count pair := by
  constructor
  · intro reaches
    induction reaches with
    | initial member => exact ⟨0, .start member⟩
    | step _ listed induction =>
        obtain ⟨count, steps⟩ := induction
        exact ⟨count + 1, steps.step ⟨_, listed, rfl⟩⟩
  · rintro ⟨count, steps⟩
    induction steps with
    | start member => exact .initial member
    | step _ stepped induction =>
        exact induction.moves stepped

theorem mem_visitsOf {pair : Symbol × Symbol} :
    pair ∈ rules.visitsOf pairs ↔
      pair ∈ rules.initial ∨ ∃ source ∈ pairs, rules.Moves source pair := by
  simp [visitsOf, Moves]

namespace IsQueue

theorem exists_take_eq_visited (queue : rules.IsQueue pairs) (size : Nat) :
    ∃ size', ∀ pair, pair ∈ pairs.take size' ↔ pair ∈ rules.visitsOf (pairs.take size) := by
  refine ⟨((rules.visitsOf (pairs.take size)).eraseDups).length, fun pair => ?_⟩
  rw [← List.prefix_iff_eq_take.1 (queue.visits_take_prefix size), List.mem_eraseDups]

/-- The pairs up to a distance are a beginning of the queue. -/
theorem exists_take_iff (queue : rules.IsQueue pairs) (count : Nat) :
    ∃ size, ∀ pair, pair ∈ pairs.take size ↔
      ∃ earlier ≤ count, StepsTo rules.initial rules.Moves earlier pair := by
  -- What the pairs up to one distance visit are the pairs up to the next one.
  induction count with
  | zero =>
      obtain ⟨size, visited⟩ := queue.exists_take_eq_visited 0
      refine ⟨size, fun pair => ?_⟩
      rw [visited, mem_visitsOf]
      constructor
      · rintro (member | ⟨source, absent, -⟩)
        · exact ⟨0, le_rfl, .start member⟩
        · cases absent
      · rintro ⟨_, none_left, steps⟩
        obtain rfl := Nat.le_zero.1 none_left
        cases steps with
        | start member => exact .inl member
  | succ count induction =>
      obtain ⟨size, near⟩ := induction
      obtain ⟨size', visited⟩ := queue.exists_take_eq_visited size
      refine ⟨size', fun pair => ?_⟩
      rw [visited, mem_visitsOf]
      constructor
      · rintro (member | ⟨source, member, moves⟩)
        · exact ⟨0, Nat.zero_le _, .start member⟩
        · obtain ⟨earlier, bounded, steps⟩ := (near source).1 member
          exact ⟨earlier + 1, Nat.succ_le_succ bounded, steps.step moves⟩
      · rintro ⟨_, bounded, steps⟩
        cases steps with
        | start member => exact .inl member
        | step steps moves =>
            exact .inr ⟨_, (near _).2 ⟨_, Nat.le_of_succ_le_succ bounded, steps⟩, moves⟩

/-- Pairs that come earlier in the queue are no farther from the initial ones. -/
theorem pairwise_isDistance (queue : rules.IsQueue pairs) :
    pairs.Pairwise fun earlier later => ∀ near far,
      IsDistance rules.initial rules.Moves earlier near →
        IsDistance rules.initial rules.Moves later far → near ≤ far := by
  rw [List.pairwise_iff_getElem]
  intro place place' below below' before near far distance distance'
  -- The beginning up to the distance of the later pair holds both pairs.
  obtain ⟨size, within⟩ := queue.exists_take_iff far
  have later : pairs[place'] ∈ pairs.take size := (within _).2 ⟨far, le_rfl, distance'.1⟩
  obtain ⟨other, bounded, same⟩ := List.mem_take_iff_getElem.1 later
  obtain rfl := queue.nodup.getElem_inj_iff.1 same
  have earlier : pairs[place] ∈ pairs.take size :=
    List.mem_take_iff_getElem.2 ⟨place, by omega, rfl⟩
  obtain ⟨count, limited, steps⟩ := (within _).1 earlier
  exact (distance.2 steps).trans limited

/-- So the distances of the pairs never decrease along the queue. -/
theorem exists_distance (queue : rules.IsQueue pairs) :
    ∃ distance : Symbol × Symbol → Nat,
      (∀ pair ∈ pairs, IsDistance rules.initial rules.Moves pair (distance pair)) ∧
        (pairs.map distance).Pairwise (· ≤ ·) := by
  have measured (pair : Symbol × Symbol) : ∃ count, pair ∈ pairs →
      IsDistance rules.initial rules.Moves pair count := by
    by_cases member : pair ∈ pairs
    · obtain ⟨_, steps⟩ := reaches_iff_exists_stepsTo.1 (queue.reaches pair member)
      obtain ⟨count, distance⟩ := steps.exists_isDistance
      exact ⟨count, fun _ => distance⟩
    · exact ⟨0, fun listed => absurd listed member⟩
  choose distance measures using measured
  refine ⟨distance, measures, ?_⟩
  rw [List.pairwise_map]
  refine queue.pairwise_isDistance.imp_of_mem fun listed listed' ordered => ?_
  exact ordered _ _ (measures _ listed) (measures _ listed')

theorem initial_prefix (queue : rules.IsQueue pairs) (nodup : rules.initial.Nodup) :
    rules.initial <+: pairs := by
  have visits := queue.visits_take_prefix 0
  rwa [List.take_zero, visitsOf, List.flatMap_nil, List.append_nil, eraseDups_of_nodup nodup]
    at visits

end IsQueue

end Rules

/-! ## States and transitions in order -/

/-- The states of a system stand for the pairs that steps reach from the starts, in the order of a
breadth-first search, and its transitions follow the order of the states. -/
structure System.IsBreadthFirst (system : System) (starts : List (Symbol × Symbol))
    (step : Symbol × Symbol → Symbol × Symbol → Prop) (pairs : List (Symbol × Symbol)) : Prop where
  /-- Every state stands for the pair at its place. -/
  factors : system.states.toList.map system.factorsOf = pairs.map some
  nodup : pairs.Nodup
  starts_prefix : starts <+: pairs
  mem_iff : ∀ pair, pair ∈ pairs ↔ ∃ count, StepsTo starts step count pair
  /-- The distances from the starts never decrease. -/
  distances : ∃ distance : Symbol × Symbol → Nat,
    (∀ pair ∈ pairs, IsDistance starts step pair (distance pair)) ∧
      (pairs.map distance).Pairwise (· ≤ ·)
  /-- The transitions are grouped by their sources, which come in the order of the states. -/
  grouped : system.transitions.toList =
    system.states.toList.flatMap fun state => system.transitions.toList.filter (·.source = state)

namespace Exploration

variable {rules : Rules} {base : System} {exploration : Exploration}

theorem Underway.factorsOf_state {count : Nat} (underway : Underway rules base count exploration)
    {discovery : Discovery} (member : discovery ∈ exploration.found) :
    exploration.system.factorsOf discovery.state = some discovery.pair := by
  have recorded := underway.account.factors discovery member
  cases flag : base.isMutable with
  | true =>
      rw [flag] at recorded
      exact System.factorsOf_of_recorded recorded
  | false =>
      rw [flag, underway.account.state_eq_pair flag member] at recorded
      rw [underway.account.state_eq_pair flag member]
      exact System.factorsOf_pair recorded

/-- The transitions of a complete exploration are grouped by their sources. -/
theorem Underway.transitions_grouped
    (complete : Underway rules base exploration.found.size exploration) :
    exploration.system.transitions.toList = exploration.system.states.toList.flatMap fun state =>
      exploration.system.transitions.toList.filter (·.source = state) := by
  have account := complete.account
  have nodup := account.coherent.nodup_states
  rw [account.states] at nodup
  have sources (discovery : Discovery) :
      ∀ transition ∈ (discovery.moves rules).map (exploration.requested discovery),
        transition.source = discovery.state := by
    intro transition member
    obtain ⟨move, -, rfl⟩ := List.mem_map.1 member
    rfl
  have groups : exploration.system.transitions.toList = exploration.found.toList.flatMap
      fun discovery =>
        ((discovery.moves rules).map (exploration.requested discovery)).eraseDups := by
    rw [account.transitions, Exploration.requests,
      List.take_of_length_le (by rw [Array.length_toList])]
    exact eraseDups_flatMap nodup sources
  have first_sources (discovery : Discovery) :
      ∀ transition ∈ ((discovery.moves rules).map (exploration.requested discovery)).eraseDups,
        transition.source = discovery.state := by
    intro transition member
    exact sources discovery transition (List.mem_eraseDups.1 member)
  have grouped := flatMap_eq_flatMap_filter nodup first_sources
  rwa [← groups, ← account.states] at grouped

/-- A complete exploration is breadth first. -/
theorem Underway.isBreadthFirst
    (complete : Underway rules base exploration.found.size exploration)
    (nodup : rules.initial.Nodup) :
    exploration.system.IsBreadthFirst rules.initial rules.Moves
      (exploration.found.toList.map Discovery.pair) where
  factors := by
    rw [complete.account.states, List.map_map, List.map_map]
    apply List.map_congr_left
    intro discovery member
    exact complete.factorsOf_state (Array.mem_toList_iff.1 member)
  nodup := complete.isQueue.nodup
  starts_prefix := complete.isQueue.initial_prefix nodup
  mem_iff := by
    intro pair
    rw [← Rules.reaches_iff_exists_stepsTo, ← complete.exists_mem_found_iff]
    simp
  distances := complete.isQueue.exists_distance
  grouped := complete.transitions_grouped

end Exploration

/-! ## Products -/

namespace System

variable {left right : System}

theorem initialPairs_eq_product (left right : System) :
    initialPairs left right = left.initial.toList ×ˢ right.initial.toList :=
  rfl

theorem nodup_initialPairs (left right : System) : (initialPairs left right).Nodup :=
  initialPairs_eq_product left right ▸ left.initial.nodup.product right.initial.nodup

theorem MovesWithin.exists_isBreadthFirst {combine : OrderedSet → OrderedSet → OrderedSet}
    {moves : System → System → Symbol → Symbol → List Move}
    (within : MovesWithin combine moves left right) (coherent : left.Coherent)
    (coherent' : right.Coherent) (kinds : left.kind = right.kind) (operation sign : Text) :
    ∃ product pairs, productWith operation sign combine moves left right = .ok product ∧
      product.system.IsBreadthFirst (initialPairs left right)
        (productRules moves left right).Moves pairs := by
  obtain ⟨_, _, after, built, -, -, complete⟩ :=
    within.exists_productWith coherent coherent' kinds operation sign
  exact ⟨_, _, built, complete.isBreadthFirst (nodup_initialPairs left right)⟩

/-- Both products of reachable systems are breadth first. They start with the pairs of initial
states, those of the first system varying slowest, whether or not a system is mutable. -/
theorem Reachable.products_isBreadthFirst (reachable : left.Reachable)
    (reachable' : right.Reachable) (kinds : left.kind = right.kind) :
    (∃ product pairs, left.synchronousProduct right = .ok product ∧
        product.system.IsBreadthFirst (left.initial.toList ×ˢ right.initial.toList)
          (JointlyMoves left right) pairs) ∧
      ∃ product pairs, left.asynchronousProduct right = .ok product ∧
        product.system.IsBreadthFirst (left.initial.toList ×ˢ right.initial.toList)
          (SeparatelyMoves left right) pairs := by
  have coherent := reachable.coherent
  have coherent' := reachable'.coherent
  have jointly : (productRules synchronousMoves left right).Moves = JointlyMoves left right := by
    funext source target
    exact propext (moves_synchronous_iff coherent coherent' kinds)
  have separately :
      (productRules asynchronousMoves left right).Moves = SeparatelyMoves left right := by
    funext source target
    exact propext (moves_asynchronous_iff coherent coherent')
  rw [← jointly, ← separately, ← initialPairs_eq_product]
  exact ⟨(movesWithin_synchronous coherent coherent' kinds).exists_isBreadthFirst coherent
      coherent' kinds _ _,
    (movesWithin_asynchronous coherent coherent' kinds).exists_isBreadthFirst coherent
      coherent' kinds _ _⟩

/-- A lamp that can be changed, beside one that cannot. -/
theorem products_isBreadthFirst_lamp :
    (∃ product pairs, (lamp.setMutable true).synchronousProduct lamp = .ok product ∧
        product.system.IsBreadthFirst
          ((lamp.setMutable true).initial.toList ×ˢ lamp.initial.toList)
          (JointlyMoves (lamp.setMutable true) lamp) pairs) ∧
      ∃ product pairs, (lamp.setMutable true).asynchronousProduct lamp = .ok product ∧
        product.system.IsBreadthFirst
          ((lamp.setMutable true).initial.toList ×ˢ lamp.initial.toList)
          (SeparatelyMoves (lamp.setMutable true) lamp) pairs := by
  have reachable : (lamp.setMutable true).Reachable := .update (.setMutable true) reachable_lamp
  have kinds : (lamp.setMutable true).kind = lamp.kind := by decide +kernel
  exact reachable.products_isBreadthFirst reachable_lamp kinds

end System

end TransitionSystems
