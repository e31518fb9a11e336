import Mathlib.Data.List.Induction
import Mathlib.Data.List.Sort
import Std.Data.ExtTreeMap
import TransitionSystems.Symbol.Basic

/-!
# Indices of positions

Items come in one after the other, and an index finds the positions of those with a given key. A new
item has the last position, so its position comes last in the index as well.
-/

namespace TransitionSystems

/-- The items at the places that satisfy a condition are the items that do. -/
theorem filterMap_getElem?_filter_range {α : Type} (items : List α) (wanted : α → Bool) :
    ((List.range items.length).filter fun place => items[place]?.any wanted).filterMap (items[·]?) =
      items.filter wanted := by
  rw [List.filterMap_filter]
  induction items using List.reverseRecOn with
  | nil => rfl
  | append_singleton items item induction =>
      have former : (List.range items.length).filterMap (fun place =>
            if (items ++ [item])[place]?.any wanted then (items ++ [item])[place]? else none) =
          items.filter wanted := by
        rw [← induction]
        apply List.filterMap_congr
        intro place below
        rw [List.getElem?_append_left (List.mem_range.1 below)]
      rw [List.length_append, List.length_singleton, List.range_succ, List.filterMap_append,
        List.filter_append, former]
      by_cases wants : wanted item = true <;> simp [wants]

/-- Under every key, an index has the positions of the items with this key, in ascending order. -/
structure IsIndex {α : Type} (key : α → Symbol) (items : Array α)
    (index : Std.ExtTreeMap Symbol (Array Nat)) : Prop where
  ascending : ∀ source, (index.getD source #[]).toList.Pairwise (· < ·)
  mem_iff : ∀ source place, place ∈ index.getD source #[] ↔
    ∃ item, items[place]? = some item ∧ key item = source

namespace IsIndex

variable {α : Type} {key : α → Symbol} {items : Array α}
  {index : Std.ExtTreeMap Symbol (Array Nat)}

theorem empty (key : α → Symbol) : IsIndex key #[] ∅ where
  ascending := by simp
  mem_iff := by simp

theorem lt_size (isIndex : IsIndex key items index) {source : Symbol} {place : Nat}
    (member : place ∈ index.getD source #[]) : place < items.size := by
  obtain ⟨_, found, -⟩ := (isIndex.mem_iff source place).1 member
  exact (Array.getElem?_eq_some_iff.1 found).1

/-- The positions of a new item are the former ones of its key and the next one. -/
theorem push (isIndex : IsIndex key items index) (item : α) :
    IsIndex key (items.push item)
      (index.insert (key item) ((index.getD (key item) #[]).push items.size)) := by
  have positions (source : Symbol) :
      (index.insert (key item) ((index.getD (key item) #[]).push items.size)).getD source #[] =
        if key item = source then
          (index.getD source #[]).push items.size
        else
          index.getD source #[] := by
    simp only [Std.ExtTreeMap.getD_insert, Std.LawfulEqOrd.compare_eq_iff_eq]
    split
    · next same => rw [same]
    · rfl
  refine ⟨fun source => ?_, fun source place => ?_⟩
  · rw [positions]
    split
    · rw [Array.toList_push, List.pairwise_append]
      refine ⟨isIndex.ascending source, List.pairwise_singleton .., ?_⟩
      intro place member last same
      obtain rfl := List.mem_singleton.1 same
      exact isIndex.lt_size (Array.mem_def.2 member)
    · exact isIndex.ascending source
  · rw [positions, Array.getElem?_push]
    by_cases last : place = items.size
    · have old : place ∉ index.getD source #[] := fun member =>
        Nat.ne_of_lt (isIndex.lt_size member) last
      rw [if_pos last]
      split
      · next same => simp [last, same]
      · next distinct => simp [old, distinct]
    · rw [if_neg last, ← isIndex.mem_iff]
      split
      · simp [last]
      · rfl

/-- The items at the positions of a key are the items with this key, in their order. -/
theorem filterMap_eq_filter (isIndex : IsIndex key items index) (source : Symbol) :
    (index.getD source #[]).toList.filterMap (items[·]?) =
      items.toList.filter (key · = source) := by
  have positions : (index.getD source #[]).toList =
      (List.range items.toList.length).filter fun place =>
        items.toList[place]?.any (key · = source) := by
    refine (isIndex.ascending source).eq_of_mem_iff
      (List.pairwise_lt_range.filter _) fun place => ?_
    rw [Array.mem_toList_iff, isIndex.mem_iff, List.mem_filter, List.mem_range, Option.any_eq_true,
      Array.getElem?_toList]
    constructor
    · rintro ⟨item, found, same⟩
      exact ⟨(Array.getElem?_eq_some_iff.1 found).1, item, found, by simpa using same⟩
    · rintro ⟨-, item, found, same⟩
      exact ⟨item, found, by simpa using same⟩
  have scanned := filterMap_getElem?_filter_range items.toList (key · = source)
  simp only [Array.getElem?_toList] at positions scanned
  rw [positions, scanned]

end IsIndex

end TransitionSystems
