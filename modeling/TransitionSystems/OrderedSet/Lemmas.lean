import TransitionSystems.OrderedSet

/-!
# Laws of ordered sets

Every operation on ordered sets is described by its effect on the list of elements and on
membership. The elements and the flag determine a set.
-/

namespace TransitionSystems.OrderedSet

theorem nodup_toList (set : OrderedSet) : set.toList.Nodup :=
  set.nodup

theorem ext {left right : OrderedSet} (elements : left.toList = right.toList)
    (flags : left.isMutable = right.isMutable) : left = right := by
  have arrays : left.elements = right.elements := Array.toList_inj.1 elements
  have indices : left.index = right.index := by
    apply Std.ExtTreeSet.ext_mem
    intro symbol
    rw [left.mem_index_iff, right.mem_index_iff, arrays]
  cases left
  cases right
  simp_all

@[simp]
theorem toList_empty (isMutable : Bool) : (empty isMutable).toList = [] :=
  rfl

@[simp]
theorem not_mem_empty (symbol : Symbol) (isMutable : Bool) : symbol ∉ empty isMutable := by
  rw [← mem_toList, toList_empty]
  exact List.not_mem_nil

theorem insert_of_mem {set : OrderedSet} {symbol : Symbol} (member : symbol ∈ set) :
    set.insert symbol = set :=
  dif_pos member

theorem toList_insert_of_not_mem {set : OrderedSet} {symbol : Symbol} (absent : symbol ∉ set) :
    (set.insert symbol).toList = set.toList ++ [symbol] := by
  rw [insert, dif_neg absent]
  exact Array.toList_push

@[simp]
theorem isMutable_insert (set : OrderedSet) (symbol : Symbol) :
    (set.insert symbol).isMutable = set.isMutable := by
  by_cases member : symbol ∈ set
  · rw [insert_of_mem member]
  · rw [insert, dif_neg member]

@[simp]
theorem mem_insert {set : OrderedSet} {symbol other : Symbol} :
    other ∈ set.insert symbol ↔ other = symbol ∨ other ∈ set := by
  by_cases member : symbol ∈ set
  · rw [insert_of_mem member]
    constructor
    · exact .inr
    · rintro (rfl | present)
      · exact member
      · exact present
  · rw [← mem_toList, toList_insert_of_not_mem member, List.mem_append, List.mem_singleton,
      mem_toList, or_comm]

@[simp]
theorem isMutable_insertMany (set : OrderedSet) (symbols : List Symbol) :
    (set.insertMany symbols).isMutable = set.isMutable := by
  induction symbols generalizing set with
  | nil => rfl
  | cons symbol symbols induction => exact (induction (set.insert symbol)).trans (by simp)

@[simp]
theorem mem_insertMany {set : OrderedSet} {symbols : List Symbol} {other : Symbol} :
    other ∈ set.insertMany symbols ↔ other ∈ set ∨ other ∈ symbols := by
  induction symbols generalizing set with
  | nil => simp [insertMany]
  | cons symbol symbols induction =>
      change other ∈ (set.insert symbol).insertMany symbols ↔ _
      rw [induction, mem_insert, List.mem_cons, or_comm (a := other = symbol), or_assoc]

theorem insertMany_append (set : OrderedSet) (left right : List Symbol) :
    set.insertMany (left ++ right) = (set.insertMany left).insertMany right :=
  List.foldl_append

theorem insertMany_of_subset {set : OrderedSet} {symbols : List Symbol}
    (present : ∀ symbol ∈ symbols, symbol ∈ set) : set.insertMany symbols = set := by
  induction symbols with
  | nil => rfl
  | cons symbol symbols induction =>
      change (set.insert symbol).insertMany symbols = set
      rw [insert_of_mem (present symbol List.mem_cons_self)]
      exact induction fun other member => present other (List.mem_cons_of_mem symbol member)

@[simp]
theorem mem_ofList {symbols : List Symbol} {isMutable : Bool} {other : Symbol} :
    other ∈ ofList symbols isMutable ↔ other ∈ symbols := by
  simp [ofList]

@[simp]
theorem mem_union {left right : OrderedSet} {other : Symbol} :
    other ∈ left.union right ↔ other ∈ left ∨ other ∈ right := by
  change other ∈ left.insertMany right.toList ↔ _
  rw [mem_insertMany, mem_toList]

@[simp]
theorem isMutable_union (left right : OrderedSet) :
    (left.union right).isMutable = (left.isMutable || right.isMutable) :=
  rfl

theorem mem_product {left right : OrderedSet} {other : Symbol} :
    other ∈ left.product right ↔
      ∃ first ∈ left, ∃ second ∈ right, other = .pair first second := by
  simp [product, eq_comm]

/-- Of symbols that do not repeat, the new ones come last, in their order. -/
theorem toList_insertMany (set : OrderedSet) {symbols : List Symbol} (nodup : symbols.Nodup) :
    (set.insertMany symbols).toList = set.toList ++ symbols.filter (· ∉ set) := by
  induction symbols generalizing set with
  | nil => exact (List.append_nil _).symm
  | cons symbol symbols induction =>
      rw [List.nodup_cons] at nodup
      change ((set.insert symbol).insertMany symbols).toList = _
      rw [induction _ nodup.2]
      by_cases member : symbol ∈ set
      · rw [insert_of_mem member, List.filter_cons_of_neg (by simpa using member)]
      · have same : symbols.filter (· ∉ set.insert symbol) = symbols.filter (· ∉ set) := by
          apply List.filter_congr
          intro other listed
          have distinct : other ≠ symbol := fun same => nodup.1 (same ▸ listed)
          simp [distinct]
        rw [toList_insert_of_not_mem member, same, List.append_assoc,
          List.filter_cons_of_pos (by simpa using member)]
        rfl

theorem toList_insertMany_of_nodup (set : OrderedSet) (symbols : List Symbol)
    (nodup : (set.toList ++ symbols).Nodup) :
    (set.insertMany symbols).toList = set.toList ++ symbols := by
  rw [List.nodup_append] at nodup
  have new : ∀ symbol ∈ symbols, symbol ∉ set := fun symbol member present =>
    nodup.2.2 symbol (mem_toList.2 present) symbol member rfl
  rw [toList_insertMany set nodup.2.1, List.filter_eq_self.2 (by simpa using new)]

theorem toList_ofList_of_nodup {symbols : List Symbol} (nodup : symbols.Nodup) (isMutable : Bool) :
    (ofList symbols isMutable).toList = symbols :=
  toList_insertMany_of_nodup (empty isMutable) symbols nodup

theorem ofList_toList {set : OrderedSet} (flag : set.isMutable = false) :
    ofList set.toList = set := by
  apply ext
  · exact toList_ofList_of_nodup set.nodup_toList false
  · rw [flag]
    exact isMutable_insertMany _ _

theorem isEmpty_iff {set : OrderedSet} : set.isEmpty = true ↔ set.toList = [] := by
  simp [isEmpty, toList]

theorem union_ofList_nil (set : OrderedSet) : set.union (ofList []) = set := by
  apply ext
  · rfl
  · simp [ofList, insertMany, empty]

end TransitionSystems.OrderedSet
