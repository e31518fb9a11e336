import TransitionSystems.Label

/-!
# Ordered sets

A set of symbols that remembers the order in which its elements came in, beside an index in which
they are searched. The elements never repeat and are exactly the indexed symbols. A set also carries
a mutability flag, which unions and products inherit from either operand.
-/

namespace TransitionSystems

/-- A duplicate-free sequence of symbols with its search index. -/
structure OrderedSet where
  elements : Array Symbol
  index : Label
  isMutable : Bool
  nodup : elements.toList.Nodup
  mem_index_iff : ∀ symbol : Symbol, symbol ∈ index ↔ symbol ∈ elements

namespace OrderedSet

/-- The set without elements. -/
def empty (isMutable : Bool := false) : OrderedSet where
  elements := #[]
  index := ∅
  isMutable := isMutable
  nodup := .nil
  mem_index_iff := by simp

instance : Inhabited OrderedSet := ⟨empty⟩

/-- The elements in the order of their insertion. -/
def toList (set : OrderedSet) : List Symbol :=
  set.elements.toList

instance : Membership Symbol OrderedSet := ⟨fun set symbol => symbol ∈ set.index⟩

instance (symbol : Symbol) (set : OrderedSet) : Decidable (symbol ∈ set) :=
  inferInstanceAs (Decidable (symbol ∈ set.index))

theorem mem_iff_mem_index {symbol : Symbol} {set : OrderedSet} :
    symbol ∈ set ↔ symbol ∈ set.index :=
  Iff.rfl

@[simp]
theorem mem_toList {symbol : Symbol} {set : OrderedSet} : symbol ∈ set.toList ↔ symbol ∈ set := by
  simp [toList, mem_iff_mem_index, set.mem_index_iff symbol]

/-- The number of elements. -/
def size (set : OrderedSet) : Nat :=
  set.elements.size

/-- Whether the set has no elements. -/
def isEmpty (set : OrderedSet) : Bool :=
  set.elements.isEmpty

/-- Adds a symbol at the end unless it is there already. -/
def insert (set : OrderedSet) (symbol : Symbol) : OrderedSet :=
  if known : symbol ∈ set then
    set
  else
    { set with
      elements := set.elements.push symbol
      index := set.index.insert symbol
      nodup := by
        rw [Array.toList_push, List.nodup_append]
        refine ⟨set.nodup, by simp, ?_⟩
        intro element member last same equal
        obtain rfl := List.mem_singleton.1 same
        exact known ((set.mem_index_iff _).2 (equal ▸ Array.mem_def.2 member))
      mem_index_iff := by
        intro element
        rw [Std.ExtTreeSet.mem_insert, Std.LawfulEqOrd.compare_eq_iff_eq, Array.mem_push,
          set.mem_index_iff element, or_comm, eq_comm] }

/-- Adds symbols one after the other. -/
def insertMany (set : OrderedSet) (symbols : List Symbol) : OrderedSet :=
  symbols.foldl insert set

/-- The listed symbols, each at its first occurrence. -/
def ofList (symbols : List Symbol) (isMutable : Bool := false) : OrderedSet :=
  (empty isMutable).insertMany symbols

/-- The set with another mutability flag. -/
def withMutable (set : OrderedSet) (isMutable : Bool) : OrderedSet :=
  { set with isMutable := isMutable }

/-- The elements of the first set, then the new ones of the second. -/
def union (left right : OrderedSet) : OrderedSet :=
  (left.insertMany right.toList).withMutable (left.isMutable || right.isMutable)

/-- The pairs of an element of the first set with one of the second, the first varying slowest. -/
def product (left right : OrderedSet) : OrderedSet :=
  ofList (left.toList.flatMap fun first => right.toList.map fun second => .pair first second)
    (left.isMutable || right.isMutable)

/-- Whether every symbol of the second ascending list is in the first: one pass over both. -/
def scan : List Symbol → List Symbol → Bool
  | _, [] => true
  | [], _ :: _ => false
  | element :: elements, wanted :: rest =>
    match compare wanted element with
    | .lt => false
    | .eq => scan elements rest
    | .gt => scan elements (wanted :: rest)

/-- Whether every symbol of a label is an element. -/
def includes (set : OrderedSet) (label : Label) : Bool :=
  scan set.index.toList label.toList

/-- Whether two sets have the same elements, in whatever order. -/
def sameElements (left right : OrderedSet) : Bool :=
  left.index == right.index

/-- The elements between braces, in the order of their insertion. -/
def text (set : OrderedSet) : Text :=
  Text.braced (set.toList.map Symbol.text)

end OrderedSet

end TransitionSystems
