import TransitionSystems.System.Basic

/-!
# Exploring products

The states of a product are the pairs of states that can be reached from its initial pairs. They are
found breadth first: the pairs form a queue in the order of their discovery, and expanding a pair
adds the targets of its moves that are new to the end of the queue. Every pair enters the queue once
and leaves it once.
-/

namespace TransitionSystems

/-- What an exploration has done so far. -/
structure ProductStats where
  created : Nat := 0
  expanded : Nat := 0
  transitions : Nat := 0
  deriving DecidableEq, Inhabited

/-- The counts, one on a line. -/
def ProductStats.text (stats : ProductStats) : Text :=
  "States created:      " ++ Text.ofNat stats.created ++ "\n" ++
    "States expanded:     " ++ Text.ofNat stats.expanded ++ "\n" ++
    "Transitions created: " ++ Text.ofNat stats.transitions ++ "\n"

/-- A joint move to a pair. -/
structure Move where
  first : Symbol
  second : Symbol
  label : EdgeLabel
  deriving DecidableEq

/-- How a product moves: its initial pairs, the label and the moves of every pair, and a bound on
the number of pairs that can be reached. -/
structure Rules where
  initial : List (Symbol × Symbol)
  label : Symbol → Symbol → Option Label
  moves : Symbol → Symbol → List Move
  bound : Nat

/-- A pair with the state that stands for it. -/
structure Discovery where
  state : Symbol
  first : Symbol
  second : Symbol
  deriving DecidableEq, Inhabited

/-- The product built so far and the queue of its pairs. -/
structure Exploration where
  system : System
  /-- The pairs in the order of their discovery. -/
  found : Array Discovery := #[]
  /-- The state that stands for a pair. -/
  states : Std.ExtTreeMap Symbol Symbol := ∅
  /-- The number of pairs that have left the queue. -/
  next : Nat := 0
  stats : ProductStats := {}

namespace Exploration

/-- The state that stands for a new pair: the pair itself, or a fresh number if the product is
mutable. -/
def freshState (exploration : Exploration) (first second : Symbol) : Symbol :=
  if exploration.system.isMutable then
    .atom (Text.ofNat exploration.found.size)
  else
    .pair first second

/-- Adds the state that stands for a new pair, with its label if it has one. A fresh number
remembers its pair. -/
def place (system : System) (state first second : Symbol) (label : Option Label) :
    Except Error System := do
  let placed ←
    match label with
    | none => pure (system.addState state)
    | some label => system.addLabeledState state label
  if system.isMutable then
    placed.setFactors state first second
  else
    return placed

/-- The state that stands for a pair, which joins the queue when it is new. -/
def visit (exploration : Exploration) (rules : Rules) (first second : Symbol) :
    Except Error (Symbol × Exploration) :=
  match exploration.states[Symbol.pair first second]? with
  | some state => .ok (state, exploration)
  | none => do
    let state := exploration.freshState first second
    let system ← place exploration.system state first second (rules.label first second)
    return (state,
      { exploration with
        system := system
        found := exploration.found.push ⟨state, first, second⟩
        states := exploration.states.insert (.pair first second) state
        stats.created := exploration.stats.created + 1 })

/-- Adds a transition between two states of the product. -/
def connect (exploration : Exploration) (source target : Symbol) (label : EdgeLabel) :
    Except Error Exploration := do
  let system ← exploration.system.addTransition source target label
  let added := system.transitions.size - exploration.system.transitions.size
  return { exploration with
    system := system
    stats.transitions := exploration.stats.transitions + added }

/-- Makes one move out of a state of the product. -/
def follow (rules : Rules) (source : Symbol) (exploration : Exploration) (move : Move) :
    Except Error Exploration := do
  let (target, exploration) ← exploration.visit rules move.first move.second
  exploration.connect source target move.label

/-- Takes a pair from the queue and makes all its moves. -/
def expand (exploration : Exploration) (rules : Rules) (pair : Discovery) :
    Except Error Exploration :=
  (rules.moves pair.first pair.second).foldlM (follow rules pair.state)
    { exploration with
      next := exploration.next + 1
      stats.expanded := exploration.stats.expanded + 1 }

/-- Expands pairs until the queue or the fuel is used up. -/
def drain (rules : Rules) : Nat → Exploration → Except Error Exploration
  | 0, exploration => .ok exploration
  | fuel + 1, exploration =>
    match exploration.found[exploration.next]? with
    | none => .ok exploration
    | some pair => do drain rules fuel (← exploration.expand rules pair)

/-- Visits the initial pairs and collects the states that stand for them. -/
def seed (exploration : Exploration) (rules : Rules) :
    Except Error (List Symbol × Exploration) :=
  rules.initial.foldlM
    (fun (states, exploration) (first, second) => do
      let (state, exploration) ← exploration.visit rules first second
      return (states ++ [state], exploration))
    ([], exploration)

end Exploration

/-- Builds the reachable part of a product on a system without states. -/
def Rules.explore (rules : Rules) (system : System) : Except Error Exploration := do
  let (initial, exploration) ← Exploration.seed { system := system } rules
  let system ← exploration.system.setInitial initial
  Exploration.drain rules rules.bound { exploration with system := system }

end TransitionSystems
