import Mathlib.Data.List.Nodup
import Mathlib.Data.List.ProdSigma
import TransitionSystems.OrderedSet.Lemmas

/-!
# The algebra of ordered sets

A union has what is new in the second set behind the elements of the first, so it is associative
even as a list, and its order is all that depends on the order of the operands. A product has one
pair for every choice of two elements. Products distribute over unions up to the order of the
elements.
-/

namespace TransitionSystems

/-! ## New elements come last -/

/-- The elements of the first list, then those of the second that are new. -/
def appendNew {α : Type} [DecidableEq α] (left right : List α) : List α :=
  left ++ right.filter (· ∉ left)

theorem mem_appendNew {α : Type} [DecidableEq α] {left right : List α} {element : α} :
    element ∈ appendNew left right ↔ element ∈ left ∨ element ∈ right := by
  by_cases present : element ∈ left <;> simp [appendNew, present]

theorem appendNew_assoc {α : Type} [DecidableEq α] (first second third : List α) :
    appendNew (appendNew first second) third = appendNew first (appendNew second third) := by
  have new : third.filter (· ∉ appendNew first second) =
      (third.filter (· ∉ second)).filter (· ∉ first) := by
    rw [List.filter_filter]
    apply List.filter_congr
    intro element _
    simp [mem_appendNew]
  calc
    appendNew (appendNew first second) third
      = appendNew first second ++ third.filter (· ∉ appendNew first second) := rfl
    _ = first ++ (second.filter (· ∉ first) ++ (third.filter (· ∉ second)).filter (· ∉ first)) := by
        rw [new, appendNew, List.append_assoc]
    _ = appendNew first (appendNew second third) := by
        rw [← List.filter_append]
        rfl

namespace OrderedSet

variable {first second third : OrderedSet}

theorem toList_union (left right : OrderedSet) :
    (left.union right).toList = appendNew left.toList right.toList := by
  change (left.insertMany right.toList).toList = _
  rw [toList_insertMany left right.nodup_toList, appendNew]
  simp only [mem_toList]

theorem union_assoc (first second third : OrderedSet) :
    (first.union second).union third = first.union (second.union third) := by
  apply ext
  · simp only [toList_union, appendNew_assoc]
  · simp only [isMutable_union, Bool.or_assoc]

theorem union_self (set : OrderedSet) : set.union set = set := by
  have listed : ∀ symbol ∈ set.toList, symbol ∈ set := fun _ => mem_toList.1
  rw [union, insertMany_of_subset listed, Bool.or_self]
  rfl

/-! ## Subsets -/

private theorem ne_of_lt {left right : Symbol} (below : compare left right = .lt) :
    left ≠ right := by
  rintro rfl
  rw [Std.LawfulEqOrd.compare_eq_iff_eq.2 rfl] at below
  cases below

/-- The pass over two ascending lists finds out whether the second is within the first. -/
theorem scan_eq_true_iff {elements wanted : List Symbol}
    (ascending : elements.Pairwise fun left right => compare left right = .lt)
    (ascending' : wanted.Pairwise fun left right => compare left right = .lt) :
    scan elements wanted = true ↔ ∀ symbol ∈ wanted, symbol ∈ elements := by
  fun_induction scan elements wanted with
  | case1 elements => simp
  | case2 symbol rest =>
      simp only [Bool.false_eq_true, false_iff]
      intro within
      exact List.not_mem_nil (within symbol List.mem_cons_self)
  | case3 element elements symbol rest below =>
      -- `symbol` is below `element` and with it below every later element.
      simp only [Bool.false_eq_true, false_iff]
      intro within
      rcases List.mem_cons.1 (within symbol List.mem_cons_self) with same | later
      · exact ne_of_lt below same
      · have above := (List.pairwise_cons.1 ascending).1 symbol later
        exact ne_of_lt (Std.TransCmp.lt_trans below above) rfl
  | case4 element elements symbol rest same induction =>
      obtain rfl := Std.LawfulEqOrd.compare_eq_iff_eq.1 same
      obtain ⟨above, ascendingRest⟩ := List.pairwise_cons.1 ascending'
      rw [induction (List.pairwise_cons.1 ascending).2 ascendingRest, List.forall_mem_cons]
      constructor
      · intro within
        exact ⟨List.mem_cons_self, fun other member => List.mem_cons_of_mem _ (within other member)⟩
      · rintro ⟨-, within⟩ other member
        rcases List.mem_cons.1 (within other member) with rfl | later
        · exact absurd rfl (ne_of_lt (above other member))
        · exact later
  | case5 element elements symbol rest above induction =>
      rw [induction (List.pairwise_cons.1 ascending).2 ascending']
      constructor
      · intro within other member
        exact List.mem_cons_of_mem _ (within other member)
      · intro within other member
        have below : compare element other = .lt := by
          rw [Std.OrientedCmp.gt_iff_lt] at above
          rcases List.mem_cons.1 member with rfl | later
          · exact above
          · exact Std.TransCmp.lt_trans above ((List.pairwise_cons.1 ascending').1 other later)
        rcases List.mem_cons.1 (within other member) with rfl | later
        · exact absurd rfl (ne_of_lt below)
        · exact later

theorem includes_eq_true_iff {set : OrderedSet} {label : Label} :
    set.includes label = true ↔ ∀ symbol ∈ label, symbol ∈ set := by
  rw [includes, scan_eq_true_iff Std.ExtTreeSet.ordered_toList Std.ExtTreeSet.ordered_toList]
  simp [mem_iff_mem_index]

/-! ## Sets with the same elements -/

theorem sameElements_eq_true_iff :
    first.sameElements second = true ↔ ∀ symbol, symbol ∈ first ↔ symbol ∈ second := by
  rw [sameElements, beq_iff_eq]
  exact ⟨fun same symbol => by rw [mem_iff_mem_index, mem_iff_mem_index, same],
    fun same => Std.ExtTreeSet.ext_mem fun {symbol} => same symbol⟩

theorem sameElements_union_comm (first second : OrderedSet) :
    (first.union second).sameElements (second.union first) = true := by
  rw [sameElements_eq_true_iff]
  intro symbol
  rw [mem_union, mem_union, or_comm]

/-! ## Products -/

theorem toList_product (first second : OrderedSet) :
    (first.product second).toList =
      (first.toList ×ˢ second.toList).map fun pair => .pair pair.1 pair.2 := by
  have pairs : (first.toList.flatMap fun element => second.toList.map (Symbol.pair element)) =
      (first.toList ×ˢ second.toList).map fun pair => .pair pair.1 pair.2 := by
    simp only [SProd.sprod, List.product, List.map_flatMap, List.map_map, Function.comp_def]
  have injective : Function.Injective fun pair : Symbol × Symbol => Symbol.pair pair.1 pair.2 := by
    intro pair pair' same
    exact Prod.ext_iff.2 (Symbol.pair_inj.1 same)
  have nodup := (first.nodup_toList.product second.nodup_toList).map injective
  rw [product, pairs, toList_ofList_of_nodup nodup]

theorem length_toList_product (first second : OrderedSet) :
    (first.product second).toList.length = first.toList.length * second.toList.length := by
  rw [toList_product, List.length_map, List.length_product]

theorem pair_mem_product {left right : Symbol} :
    .pair left right ∈ first.product second ↔ left ∈ first ∧ right ∈ second := by
  rw [mem_product]
  constructor
  · rintro ⟨left', member, right', member', same⟩
    obtain ⟨rfl, rfl⟩ := Symbol.pair_inj.1 same
    exact ⟨member, member'⟩
  · rintro ⟨member, member'⟩
    exact ⟨left, member, right, member', rfl⟩

theorem isMutable_product (first second : OrderedSet) :
    (first.product second).isMutable = (first.isMutable || second.isMutable) :=
  isMutable_insertMany ..

theorem sameElements_product_union (first second third : OrderedSet) :
    (first.product (second.union third)).sameElements
      ((first.product second).union (first.product third)) = true := by
  rw [sameElements_eq_true_iff]
  intro symbol
  simp only [mem_union, mem_product, or_and_right, exists_or, and_or_left]

theorem sameElements_union_product (first second third : OrderedSet) :
    ((first.union second).product third).sameElements
      ((first.product third).union (second.product third)) = true := by
  rw [sameElements_eq_true_iff]
  intro symbol
  simp only [mem_union, mem_product, or_and_right, exists_or]

end OrderedSet

end TransitionSystems
