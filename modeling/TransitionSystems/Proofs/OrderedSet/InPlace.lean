import TransitionSystems.OrderedSet.InPlace
import TransitionSystems.Proofs.InPlace
import TransitionSystems.Proofs.OrderedSet.Algebra

/-!
# The containers of a set agree

Every change that is written step by step leaves the containers of a set: the elements do not
repeat, and the index has exactly the elements. So whatever the changes are and in whichever order
they come, the containers obey the laws of ordered sets, and a set that is united with itself in
place stays as it is.
-/

namespace TransitionSystems.OrderedSet

open TransitionSystems.InPlace

variable {set : OrderedSet} {symbol : Symbol}

theorem index_insert_of_mem (member : symbol ∈ set) : set.index.insert symbol = set.index := by
  apply Std.ExtTreeSet.ext_mem
  intro other
  rw [Std.ExtTreeSet.mem_insert, Std.LawfulEqOrd.compare_eq_iff_eq]
  exact or_iff_right_of_imp fun same => same ▸ member

namespace Containers

/-! ## Outcomes of changes -/

theorem containsThenInsert_eq (index : Label) (symbol : Symbol) :
    index.containsThenInsert symbol = (index.contains symbol, index.insert symbol) :=
  Prod.ext Std.ExtTreeSet.containsThenInsert_fst Std.ExtTreeSet.containsThenInsert_snd

theorem outcome_add (set : OrderedSet) (symbol : Symbol) :
    (add symbol).outcome set.containers =
      (.ok (decide (symbol ∉ set)), (set.insert symbol).containers) := by
  rw [add, outcome_get_bind, containsThenInsert_eq]
  by_cases member : symbol ∈ set
  · have known : set.containers.index.contains symbol = true := member
    have same : set.containers.index.insert symbol = set.containers.index :=
      index_insert_of_mem member
    simp only [known, same, if_true, outcome_write_bind, outcome_pure]
    rw [insert_of_mem member]
    simp [member]
  · have new : set.containers.index.contains symbol = false := Bool.eq_false_iff.2 member
    simp only [new, Bool.false_eq_true, if_false, outcome_write_bind, outcome_pure]
    rw [insert, dif_neg member]
    simp [member, containers]

theorem outcome_discard_add (set : OrderedSet) (symbol : Symbol) :
    (discard (add symbol)).outcome set.containers = (.ok (), (set.insert symbol).containers) := by
  change (add symbol >>= fun _ => pure ()).outcome set.containers = _
  rw [outcome_bind_of_ok (outcome_add set symbol), outcome_pure]

theorem outcome_addEach (set : OrderedSet) (symbols : List Symbol) :
    (symbols.forM fun symbol => discard (add symbol)).outcome set.containers =
      (.ok (), (set.insertMany symbols).containers) := by
  induction symbols generalizing set with
  | nil => rfl
  | cons symbol symbols induction =>
      change (discard (add symbol) >>= fun _ =>
        symbols.forM fun symbol => discard (add symbol)).outcome set.containers = _
      rw [outcome_bind_of_ok (outcome_discard_add set symbol), induction]
      rfl

theorem outcome_addFrom (set : OrderedSet) (symbols : List Symbol) :
    (addFrom fun _ => symbols).outcome set.containers =
      (.ok (), (set.insertMany symbols).containers) := by
  rw [addFrom, forEach_const, outcome_addEach]

theorem outcome_addFrom_self (set : OrderedSet) :
    (addFrom fun set => set.elements.toList).outcome set.containers = (.ok (), set.containers) := by
  apply outcome_forEach_of_fixed
  intro symbol listed
  have member : symbol ∈ set := mem_toList.1 listed
  rw [outcome_discard_add, insert_of_mem member]

theorem outcome_uniteWith (set other : OrderedSet) :
    (uniteWith fun _ => other.containers).outcome set.containers =
      (.ok (), (set.union other).containers) := by
  have added : (addFrom fun _ => other.containers.elements.toList).outcome set.containers =
      (.ok (), (set.insertMany other.toList).containers) := outcome_addFrom set other.toList
  rw [uniteWith, outcome_bind_of_ok added, outcome_get_bind, outcome_write]
  simp [containers, OrderedSet.union, withMutable]

/-- A set that is united with itself in place stays as it is. -/
theorem outcome_uniteWith_self (set : OrderedSet) :
    (uniteWith id).outcome set.containers = (.ok (), set.containers) := by
  have added : (addFrom fun set => (id set).elements.toList).outcome set.containers =
      (.ok (), set.containers) := outcome_addFrom_self set
  rw [uniteWith, outcome_bind_of_ok added, outcome_get_bind, outcome_write]
  simp [containers]

theorem outcome_addPairs (set : OrderedSet) (lefts rights : List Symbol) :
    (lefts.forM fun first =>
        rights.forM fun second => discard (add (.pair first second))).outcome set.containers =
      (.ok (), (set.insertMany
        (lefts.flatMap fun first => rights.map fun second => .pair first second)).containers) := by
  induction lefts generalizing set with
  | nil => rfl
  | cons first lefts induction =>
      have row : (rights.forM fun second => discard (add (.pair first second))) =
          (rights.map fun second => .pair first second).forM
            fun symbol => discard (add symbol) := by
        simp only [List.forM_eq_forM, List.forM_map]
      change ((rights.forM fun second => discard (add (.pair first second))) >>= fun _ =>
        lefts.forM fun first =>
          rights.forM fun second => discard (add (.pair first second))).outcome set.containers = _
      rw [row, outcome_bind_of_ok (outcome_addEach set _), induction, List.flatMap_cons,
        insertMany_append]

theorem outcome_fillWithPairs (left right : OrderedSet) :
    (fillWithPairs left.containers right.containers).outcome {} =
      (.ok (), (left.product right).containers) :=
  outcome_addPairs (empty (left.isMutable || right.isMutable)) left.toList right.toList

theorem union_containers (left right : OrderedSet) :
    left.containers.union right.containers = (left.union right).containers :=
  congrArg Prod.snd (outcome_uniteWith left right)

theorem product_containers (left right : OrderedSet) :
    left.containers.product right.containers = (left.product right).containers :=
  congrArg Prod.snd (outcome_fillWithPairs left right)

/-! ## Sets and their containers -/

/-- Whatever is written to the containers of sets or asked of them has the same result as for the
sets. -/
structure Mirrors (first second : Containers) (left right : OrderedSet) : Prop where
  first_eq : first = left.containers
  second_eq : second = right.containers
  outcome_add : ∀ symbol, (add symbol).outcome first =
    (.ok (decide (symbol ∉ left)), (left.insert symbol).containers)
  outcome_addFrom : ∀ symbols, (addFrom fun _ => symbols).outcome first =
    (.ok (), (left.insertMany symbols).containers)
  outcome_setMutable : ∀ isMutable, (setMutable isMutable).outcome first =
    (.ok (), (left.withMutable isMutable).containers)
  outcome_uniteWith : (uniteWith fun _ => second).outcome first =
    (.ok (), (left.union right).containers)
  outcome_uniteWith_self : (uniteWith id).outcome first = (.ok (), (left.union left).containers)
  union : first.union second = (left.union right).containers
  product : first.product second = (left.product right).containers
  contains : ∀ symbol, first.contains symbol = decide (symbol ∈ left)
  includes : ∀ label, first.includes label = left.includes label
  sameElements : first.sameElements second = left.sameElements right

theorem mirrors (left right : OrderedSet) :
    Mirrors left.containers right.containers left right where
  first_eq := rfl
  second_eq := rfl
  outcome_add := outcome_add left
  outcome_addFrom := outcome_addFrom left
  outcome_setMutable _ := rfl
  outcome_uniteWith := outcome_uniteWith left right
  outcome_uniteWith_self := by rw [outcome_uniteWith_self, union_self]
  union := union_containers left right
  product := product_containers left right
  contains symbol := by
    rw [Bool.eq_iff_iff, decide_eq_true_iff]
    exact Iff.rfl
  includes _ := rfl
  sameElements := rfl

/-- The containers that any sequence of changes leaves, starting from those of the set without
elements. -/
inductive Reachable : Containers → Prop
  | empty : Reachable {}
  | add {set : Containers} (symbol : Symbol) (reachable : Reachable set) :
      Reachable ((add symbol).outcome set).2
  | addFrom {set : Containers} (symbols : List Symbol) (reachable : Reachable set) :
      Reachable ((addFrom fun _ => symbols).outcome set).2
  | addFromSelf {set : Containers} (reachable : Reachable set) :
      Reachable ((addFrom fun set => set.elements.toList).outcome set).2
  | uniteWith {set other : Containers} (reachable : Reachable set) (reachable' : Reachable other) :
      Reachable ((uniteWith fun _ => other).outcome set).2
  | uniteWithSelf {set : Containers} (reachable : Reachable set) :
      Reachable ((uniteWith id).outcome set).2
  | setMutable {set : Containers} (isMutable : Bool) (reachable : Reachable set) :
      Reachable ((setMutable isMutable).outcome set).2
  | union {left right : Containers} (reachable : Reachable left) (reachable' : Reachable right) :
      Reachable (left.union right)
  | product {left right : Containers} (reachable : Reachable left) (reachable' : Reachable right) :
      Reachable (left.product right)

/-- Changes leave the containers of sets, and those of all sets. -/
theorem reachable_iff {set : Containers} : set.Reachable ↔ ∃ known, set = containers known := by
  constructor
  · intro reachable
    induction reachable with
    | empty => exact ⟨.empty, rfl⟩
    | add symbol _ induction =>
        obtain ⟨known, rfl⟩ := induction
        exact ⟨_, congrArg Prod.snd (outcome_add known symbol)⟩
    | addFrom symbols _ induction =>
        obtain ⟨known, rfl⟩ := induction
        exact ⟨_, congrArg Prod.snd (outcome_addFrom known symbols)⟩
    | addFromSelf _ induction =>
        obtain ⟨known, rfl⟩ := induction
        exact ⟨_, congrArg Prod.snd (outcome_addFrom_self known)⟩
    | uniteWith _ _ first second =>
        obtain ⟨known, rfl⟩ := first
        obtain ⟨other, rfl⟩ := second
        exact ⟨_, congrArg Prod.snd (outcome_uniteWith known other)⟩
    | uniteWithSelf _ induction =>
        obtain ⟨known, rfl⟩ := induction
        exact ⟨_, congrArg Prod.snd (outcome_uniteWith_self known)⟩
    | setMutable isMutable _ induction =>
        obtain ⟨known, rfl⟩ := induction
        exact ⟨known.withMutable isMutable, rfl⟩
    | union _ _ first second =>
        obtain ⟨left, rfl⟩ := first
        obtain ⟨right, rfl⟩ := second
        exact ⟨_, union_containers left right⟩
    | product _ _ first second =>
        obtain ⟨left, rfl⟩ := first
        obtain ⟨right, rfl⟩ := second
        exact ⟨_, product_containers left right⟩
  · rintro ⟨known, rfl⟩
    have listed : (OrderedSet.empty known.isMutable).insertMany known.toList = known := by
      apply ext
      · exact toList_ofList_of_nodup known.nodup_toList known.isMutable
      · exact isMutable_insertMany ..
    have filled := Reachable.addFrom known.toList (Reachable.setMutable known.isMutable .empty)
    have outcome := outcome_addFrom (.empty known.isMutable) known.toList
    rw [listed] at outcome
    change Reachable ((addFrom fun _ => known.toList).outcome (containers (.empty _))).2 at filled
    rwa [outcome] at filled

/-! ## Laws -/

/-- What holds of three sets and of those that are made of them. -/
structure SetLaws (first second third : Containers) : Prop where
  nodup : first.elements.toList.Nodup
  contains_iff : ∀ symbol, first.contains symbol = true ↔ symbol ∈ first.elements
  sameElements_iff : first.sameElements second = true ↔
    ∀ symbol, symbol ∈ first.elements ↔ symbol ∈ second.elements
  includes_iff : ∀ label, first.includes label = true ↔ ∀ symbol ∈ label, symbol ∈ first.elements
  union_elements : (first.union second).elements.toList =
    first.elements.toList ++ second.elements.toList.filter (· ∉ first.elements)
  union_assoc : (first.union second).union third = first.union (second.union third)
  union_self : first.union first = first
  uniteWith_self : (uniteWith id).outcome first = (.ok (), first)
  union_comm : (first.union second).sameElements (second.union first) = true
  product_nodup : (first.product second).elements.toList.Nodup
  product_size : (first.product second).elements.size = first.elements.size * second.elements.size
  pair_mem_product : ∀ left right,
    .pair left right ∈ (first.product second).elements ↔
      left ∈ first.elements ∧ right ∈ second.elements
  /-- There are only pairs in a product. -/
  exists_pair : ∀ symbol ∈ (first.product second).elements, ∃ left right, symbol = .pair left right
  product_union : (first.product (second.union third)).sameElements
    ((first.product second).union (first.product third)) = true
  union_product : ((first.union second).product third).sameElements
    ((first.product third).union (second.product third)) = true
  union_isMutable : (first.union second).isMutable = (first.isMutable || second.isMutable)
  product_isMutable : (first.product second).isMutable = (first.isMutable || second.isMutable)

theorem mem_elements : symbol ∈ set.containers.elements ↔ symbol ∈ set :=
  (set.mem_index_iff symbol).symm

theorem setLaws (left middle right : OrderedSet) :
    SetLaws left.containers middle.containers right.containers where
  nodup := left.nodup
  contains_iff := left.mem_index_iff
  sameElements_iff := by
    simp only [mem_elements]
    exact sameElements_eq_true_iff
  includes_iff label := by
    simp only [mem_elements]
    exact includes_eq_true_iff
  union_elements := by
    rw [union_containers]
    simp only [mem_elements, ← mem_toList]
    exact toList_union left middle
  union_assoc := by simp only [union_containers, OrderedSet.union_assoc]
  union_self := by rw [union_containers, OrderedSet.union_self]
  uniteWith_self := outcome_uniteWith_self left
  union_comm := by
    rw [union_containers, union_containers]
    exact sameElements_union_comm left middle
  product_nodup := by
    rw [product_containers]
    exact (left.product middle).nodup
  product_size := by
    rw [product_containers]
    exact length_toList_product left middle
  pair_mem_product _ _ := by
    simp only [product_containers, mem_elements]
    exact pair_mem_product
  exists_pair symbol member := by
    rw [product_containers, mem_elements] at member
    obtain ⟨first, -, second, -, paired⟩ := mem_product.1 member
    exact ⟨first, second, paired⟩
  product_union := by
    simp only [union_containers, product_containers]
    exact sameElements_product_union left middle right
  union_product := by
    simp only [union_containers, product_containers]
    exact sameElements_union_product left middle right
  union_isMutable := by
    rw [union_containers]
    exact isMutable_union left middle
  product_isMutable := by
    rw [product_containers]
    exact isMutable_product left middle

variable {first second third : Containers}

/-- However three sets have been written, their containers are those of ordered sets and obey the
laws of sets. -/
theorem Reachable.mirrors_and_setLaws (reachable : first.Reachable) (reachable' : second.Reachable)
    (reachable'' : third.Reachable) :
    (∃ left right, Mirrors first second left right) ∧ SetLaws first second third := by
  obtain ⟨left, rfl⟩ := reachable_iff.1 reachable
  obtain ⟨middle, rfl⟩ := reachable_iff.1 reachable'
  obtain ⟨right, rfl⟩ := reachable_iff.1 reachable''
  exact ⟨⟨left, middle, mirrors left middle⟩, setLaws left middle right⟩

/-- Two lights, one of which is named twice. -/
def lights : Containers :=
  ((addFrom fun _ => [.atom "green", .atom "red", .atom "green"]).outcome {}).2

/-- A sound in a set with the flag. -/
def sounds : Containers :=
  ((add (.atom "bell")).outcome ((setMutable true).outcome {}).2).2

/-- Lights and sounds, and the set of the pairs of them after it has been united with itself. -/
theorem lights_and_sounds_mirrors_and_setLaws :
    (∃ left right, Mirrors lights sounds left right) ∧
      SetLaws lights sounds ((uniteWith id).outcome (lights.product sounds)).2 := by
  have reachable_lights : lights.Reachable := .addFrom _ .empty
  have reachable_sounds : sounds.Reachable := .add _ (.setMutable true .empty)
  exact Reachable.mirrors_and_setLaws reachable_lights reachable_sounds
    (.uniteWithSelf (.product reachable_lights reachable_sounds))

example : (lights.union sounds).elements.toList = [.atom "green", .atom "red", .atom "bell"] := by
  decide +kernel

end Containers

end TransitionSystems.OrderedSet
