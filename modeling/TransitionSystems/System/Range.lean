import TransitionSystems.System.Basic

/-!
# Ranges of transitions

A range goes through the transitions that have a given source and a given target, where these are
given. It looks at candidates, which are all transitions or the ones at listed positions, and an
iterator is a place among the candidates. An access outside the candidates or outside the
transitions gives nothing, and then nothing comes of the whole iteration.
-/

namespace TransitionSystems

/-- A view of stored transitions. -/
structure TransitionRange where
  transitions : Array Transition
  /-- The positions of the candidates, or nothing when every transition is one. -/
  positions : Option (Array Nat)
  /-- The target of the wanted candidates, if it is given. -/
  target : Option Symbol

namespace TransitionRange

/-- The number of candidates, which is the place behind the last one. -/
def limit (range : TransitionRange) : Nat :=
  match range.positions with
  | none => range.transitions.size
  | some positions => positions.size

/-- The candidate at a place. -/
def candidate? (range : TransitionRange) (place : Nat) : Option Transition :=
  match range.positions with
  | none => range.transitions[place]?
  | some positions => positions[place]?.bind (range.transitions[·]?)

/-- The first place from a given one on whose candidate has a target, or the place behind the last
candidate. -/
def seek (range : TransitionRange) (target : Symbol) (place : Nat) : Option Nat :=
  if place < range.limit then
    match range.candidate? place with
    | none => none
    | some candidate =>
      if candidate.target = target then some place else range.seek target (place + 1)
  else
    some place
termination_by range.limit - place

/-- The first place from a given one on whose candidate is wanted, or the place behind the last
candidate. -/
def skip (range : TransitionRange) (place : Nat) : Option Nat :=
  match range.target with
  | none => some place
  | some target => range.seek target place

theorem le_of_seek {range : TransitionRange} {target : Symbol} {place after : Nat}
    (found : range.seek target place = some after) : place ≤ after := by
  fun_induction range.seek target place with
  | case1 => cases found
  | case2 => exact Nat.le_of_eq (Option.some.inj found)
  | case3 place _ _ _ _ induction => exact Nat.le_of_succ_le (induction found)
  | case4 => exact Nat.le_of_eq (Option.some.inj found)

theorem le_of_skip {range : TransitionRange} {place after : Nat}
    (found : range.skip place = some after) : place ≤ after := by
  rw [skip] at found
  split at found
  · exact Nat.le_of_eq (Option.some.inj found)
  · exact le_of_seek found

/-! ## Iterating -/

/-- The iterator at the first wanted candidate. -/
def first (range : TransitionRange) : Option Nat :=
  range.skip 0

/-- The iterator after a given one. -/
def next (range : TransitionRange) (place : Nat) : Option Nat :=
  range.skip (place + 1)

/-- The iterators from a given one up to the end. An iterator behind the end never meets it. -/
def iterators (range : TransitionRange) (place : Nat) : Option (List Nat) :=
  if place = range.limit then
    some []
  else if place < range.limit then
    match found : range.next place with
    | none => none
    | some after =>
      have : place < after := le_of_skip found
      (range.iterators after).map (place :: ·)
  else
    none
termination_by range.limit - place

/-- The wanted transitions. -/
def toList (range : TransitionRange) : Option (List Transition) := do
  (← range.iterators (← range.first)).mapM range.candidate?

/-- The number of the wanted transitions. -/
def count (range : TransitionRange) : Option Nat := do
  return (← range.iterators (← range.first)).length

/-- Whether no transition is wanted. -/
def isEmpty (range : TransitionRange) : Option Bool := do
  return (← range.first) = range.limit

end TransitionRange

/-- The range of the transitions with a given source and a given target, where these are given. -/
def System.range (system : System) (source target : Option Symbol) : TransitionRange where
  transitions := system.transitions
  positions := source.map system.positions
  target := target

end TransitionSystems
