import Mathlib.Data.List.Induction
import Mathlib.Data.List.Nodup
import TransitionSystems.OrderedSet.Lemmas

/-!
# First occurrences

Lists from which all but the first occurrence of every element have been removed, and lists that
are put together from groups of elements with the same key.
-/

namespace TransitionSystems

/-- A list that is put together from groups with different keys is regained from the groups of its
elements with the same key. -/
theorem flatMap_eq_flatMap_filter {α ι κ : Type} [DecidableEq κ] {name : ι → κ} {key : α → κ}
    {group : ι → List α} {items : List ι} (nodup : (items.map name).Nodup)
    (keys : ∀ item, ∀ value ∈ group item, key value = name item) :
    items.flatMap group =
      (items.map name).flatMap fun k => (items.flatMap group).filter (key · = k) := by
  induction items with
  | nil => rfl
  | cons item items induction =>
      rw [List.map_cons, List.nodup_cons] at nodup
      have own : (group item).filter (key · = name item) = group item := by
        apply List.filter_eq_self.2
        intro value member
        simpa using keys item value member
      have others : (items.flatMap group).filter (key · = name item) = [] := by
        apply List.filter_eq_nil_iff.2
        intro value member
        obtain ⟨other, listed, member⟩ := List.mem_flatMap.1 member
        rw [keys other value member, decide_eq_true_iff]
        exact fun same => nodup.1 (same ▸ List.mem_map_of_mem listed)
      have rest : (items.map name).flatMap (fun k =>
            (group item ++ items.flatMap group).filter (key · = k)) =
          (items.map name).flatMap fun k => (items.flatMap group).filter (key · = k) := by
        apply List.flatMap_congr
        intro k listed
        have absent : (group item).filter (key · = k) = [] := by
          apply List.filter_eq_nil_iff.2
          intro value member
          rw [keys item value member, decide_eq_true_iff]
          exact fun same => nodup.1 (same ▸ listed)
        rw [List.filter_append, absent, List.nil_append]
      rw [List.map_cons, List.flatMap_cons, List.flatMap_cons, rest, ← induction nodup.2,
        List.filter_append, own, others, List.append_nil]

/-- Of values with different keys, the only one with the key of a value is this value. -/
theorem filter_key_eq {α κ : Type} [DecidableEq κ] {key : α → κ} {values : List α}
    (nodup : (values.map key).Nodup) {value : α} (member : value ∈ values) :
    values.filter (key · = key value) = [value] := by
  induction values with
  | nil => cases member
  | cons first values induction =>
      rw [List.map_cons, List.nodup_cons] at nodup
      rcases List.mem_cons.1 member with rfl | later
      · have others : values.filter (key · = key value) = [] := by
          simp only [List.filter_eq_nil_iff, decide_eq_true_eq]
          intro other listed same
          exact nodup.1 (same ▸ List.mem_map_of_mem listed)
        rw [List.filter_cons_of_pos (by simp), others]
      · have distinct : key first ≠ key value := by
          intro same
          exact nodup.1 (same ▸ List.mem_map_of_mem later)
        rw [List.filter_cons_of_neg (by simpa using distinct), induction nodup.2 later]

variable {α : Type} [BEq α] [LawfulBEq α]

theorem eraseDups_concat (values : List α) (value : α) [Decidable (value ∈ values)] :
    (values ++ [value]).eraseDups =
      if value ∈ values then values.eraseDups else values.eraseDups ++ [value] := by
  rw [List.eraseDups_append]
  by_cases present : value ∈ values
  · simp [List.removeAll, present]
  · simp [List.removeAll, present, List.eraseDups_cons]

theorem eraseDups_concat_of_mem {values : List α} {value : α} (present : value ∈ values) :
    (values ++ [value]).eraseDups = values.eraseDups := by
  classical rw [eraseDups_concat, if_pos present]

theorem eraseDups_concat_of_not_mem {values : List α} {value : α} (absent : value ∉ values) :
    (values ++ [value]).eraseDups = values.eraseDups ++ [value] := by
  classical rw [eraseDups_concat, if_neg absent]

theorem nodup_eraseDups (values : List α) : values.eraseDups.Nodup := by
  induction values using List.reverseRecOn with
  | nil => exact .nil
  | append_singleton values value induction =>
      by_cases present : value ∈ values
      · rwa [eraseDups_concat_of_mem present]
      · rw [eraseDups_concat_of_not_mem present, List.nodup_append]
        refine ⟨induction, by simp, ?_⟩
        intro other member last same equal
        obtain rfl := List.mem_singleton.1 same
        exact present (List.mem_eraseDups.1 (equal ▸ member))

theorem eraseDups_prefix {front values : List α} (begins : front <+: values) :
    front.eraseDups <+: values.eraseDups := by
  obtain ⟨rest, rfl⟩ := begins
  rw [List.eraseDups_append]
  exact List.prefix_append ..

/-- Where different values have different images, first occurrences are mapped to those of the
images. -/
theorem eraseDups_map {β : Type} [BEq β] [LawfulBEq β] {change : α → β} {values : List α}
    (injective : ∀ value ∈ values, ∀ other ∈ values, change value = change other →
      value = other) :
    (values.map change).eraseDups = values.eraseDups.map change := by
  induction values using List.reverseRecOn with
  | nil => rfl
  | append_singleton values value induction =>
      have former := induction fun value member other member' =>
        injective value (List.mem_append_left _ member) other (List.mem_append_left _ member')
      have last : value ∈ values ++ [value] := by simp
      rw [List.map_append, List.map_singleton]
      by_cases present : value ∈ values
      · rw [eraseDups_concat_of_mem present, eraseDups_concat_of_mem (List.mem_map_of_mem present),
          former]
      · have absent : change value ∉ values.map change := by
          intro member
          obtain ⟨other, listed, same⟩ := List.mem_map.1 member
          rw [injective other (List.mem_append_left _ listed) value last same] at listed
          exact present listed
        rw [eraseDups_concat_of_not_mem present, eraseDups_concat_of_not_mem absent, former,
          List.map_append, List.map_singleton]

theorem eraseDups_append_of_disjoint {values others : List α} (disjoint : values.Disjoint others) :
    (values ++ others).eraseDups = values.eraseDups ++ others.eraseDups := by
  have kept : others.removeAll values = others := by
    apply List.filter_eq_self.2
    intro value member
    simpa using fun listed => disjoint listed member
  rw [List.eraseDups_append, kept]

theorem eraseDups_of_nodup {values : List α} (nodup : values.Nodup) :
    values.eraseDups = values := by
  induction values with
  | nil => rfl
  | cons value values induction =>
      rw [List.nodup_cons] at nodup
      have disjoint : [value].Disjoint values := by simpa using nodup.1
      have front : [value].eraseDups = [value] := by simp [List.eraseDups_cons]
      have parts := eraseDups_append_of_disjoint disjoint
      rwa [List.singleton_append, front, induction nodup.2] at parts

/-- First occurrences in groups with different keys are found group by group. -/
theorem eraseDups_flatMap {ι κ : Type} {name : ι → κ} {key : α → κ} {group : ι → List α}
    {items : List ι} (nodup : (items.map name).Nodup)
    (keys : ∀ item, ∀ value ∈ group item, key value = name item) :
    (items.flatMap group).eraseDups = items.flatMap fun item => (group item).eraseDups := by
  induction items with
  | nil => rfl
  | cons item items induction =>
      rw [List.map_cons, List.nodup_cons] at nodup
      have disjoint : (group item).Disjoint (items.flatMap group) := by
        intro value member member'
        obtain ⟨other, listed, member'⟩ := List.mem_flatMap.1 member'
        have same := (keys item value member).symm.trans (keys other value member')
        exact nodup.1 (same ▸ List.mem_map_of_mem listed)
      rw [List.flatMap_cons, List.flatMap_cons, eraseDups_append_of_disjoint disjoint,
        induction nodup.2]

theorem OrderedSet.toList_insertMany_empty (symbols : List Symbol) (isMutable : Bool) :
    ((OrderedSet.empty isMutable).insertMany symbols).toList = symbols.eraseDups := by
  induction symbols using List.reverseRecOn with
  | nil => rfl
  | append_singleton symbols symbol induction =>
      rw [insertMany_append]
      change (((empty isMutable).insertMany symbols).insert symbol).toList = _
      by_cases member : symbol ∈ symbols
      · rw [insert_of_mem (mem_insertMany.2 (.inr member)), induction,
          eraseDups_concat_of_mem member]
      · have absent : symbol ∉ (empty isMutable).insertMany symbols := by simp [member]
        rw [toList_insert_of_not_mem absent, induction, eraseDups_concat_of_not_mem member]

end TransitionSystems
