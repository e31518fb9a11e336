import TransitionSystems.InPlace
import TransitionSystems.OrderedSet

/-!
# Ordered sets, written step by step

The elements of a set and their index are two containers, which are written one after the other:
the index says whether a symbol is new, and then the symbol comes behind the elements. Nothing but
the order of these writes makes the two containers agree.

A set can be united with itself. It is then written while its own elements are gone through, so
each of them is looked up in the set as it is at that moment.
-/

namespace TransitionSystems.OrderedSet

open TransitionSystems.InPlace

/-- The elements and the index of a set with its flag. -/
structure Containers where
  elements : Array Symbol := #[]
  index : Label := ∅
  isMutable : Bool := false

/-- The containers of a set. -/
def containers (set : OrderedSet) : Containers where
  elements := set.elements
  index := set.index
  isMutable := set.isMutable

namespace Containers

/-- A change of the containers in place. -/
abbrev Action :=
  InPlace Containers

/-! ## Changes -/

/-- Enters a symbol into the index, and puts it behind the elements if the index has lacked it.
Says whether the symbol is new. -/
def add (symbol : Symbol) : Action Bool := do
  let (known, index) := (← get).index.containsThenInsert symbol
  write fun set => { set with index := index }
  if known then
    return false
  write fun set => { set with elements := set.elements.push symbol }
  return true

/-- Adds the symbols of a range, which may be found in the set itself. -/
def addFrom (range : Containers → List Symbol) : Action Unit :=
  forEach range fun symbol => discard (add symbol)

/-- Adds the elements of another set, or of the set itself, and then takes over the flag. -/
def uniteWith (other : Containers → Containers) : Action Unit := do
  addFrom fun set => (other set).elements.toList
  let flag := (other (← get)).isMutable
  write fun set => { set with isMutable := set.isMutable || flag }

/-- Sets the flag. -/
def setMutable (isMutable : Bool) : Action Unit :=
  write fun set => { set with isMutable := isMutable }

/-- Adds the pairs of an element of the first set with one of the second, the first varying
slowest, after the flag has been set. -/
def fillWithPairs (left right : Containers) : Action Unit := do
  setMutable (left.isMutable || right.isMutable)
  left.elements.toList.forM fun first =>
    right.elements.toList.forM fun second => discard (add (.pair first second))

/-! ## Sets from others -/

/-- A copy of the first set, united with the second. -/
def union (left right : Containers) : Containers :=
  ((uniteWith fun _ => right).outcome left).2

/-- An empty set that is filled with the pairs of elements. -/
def product (left right : Containers) : Containers :=
  ((fillWithPairs left right).outcome {}).2

/-! ## Questions -/

/-- Whether a symbol is found in the index. -/
def contains (set : Containers) (symbol : Symbol) : Bool :=
  set.index.contains symbol

/-- Whether every symbol of a label is found, in one pass over the index and the label. -/
def includes (set : Containers) (label : Label) : Bool :=
  scan set.index.toList label.toList

/-- Whether two sets have the same index. -/
def sameElements (left right : Containers) : Bool :=
  left.index == right.index

end Containers

end TransitionSystems.OrderedSet
