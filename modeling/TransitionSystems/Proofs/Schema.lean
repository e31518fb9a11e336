import Mathlib.Data.List.Basic
import TransitionSystems.Proofs.OrderedSet.Algebra
import TransitionSystems.Proofs.Outcome
import TransitionSystems.Schema

/-!
# Laws of universes

What a schema accepts: a label of propositions, and an edge label whose values are in the alphabets
of their fields. Arranging an edge label changes the order of its fields only, and a universe that
grows goes on accepting what it has accepted.
-/

namespace TransitionSystems

/-! ## Entries with distinct keys -/

/-- Where no key occurs twice, looking up a key finds its entry. -/
theorem lookup_eq_some_iff_mem {β : Type} {entries : List (Text × β)}
    (nodup : (entries.map Prod.fst).Nodup) {key : Text} {value : β} :
    entries.lookup key = some value ↔ (key, value) ∈ entries := by
  induction entries with
  | nil => simp
  | cons entry entries induction =>
      obtain ⟨first, present⟩ := entry
      rw [List.map_cons, List.nodup_cons] at nodup
      by_cases same : key = first
      · subst same
        rw [List.lookup_cons_self, List.mem_cons, Option.some_inj, Prod.mk.injEq]
        constructor
        · rintro rfl
          exact .inl ⟨rfl, rfl⟩
        · rintro (⟨-, rfl⟩ | later)
          · rfl
          · exact absurd (List.mem_map_of_mem later) nodup.1
      · rw [List.lookup_cons, beq_false_of_ne same]
        simp only [induction nodup.2, List.mem_cons, Prod.mk.injEq, same, false_and, false_or]

namespace EdgeLabel

theorem get?_eq_some_iff {label : EdgeLabel} {field : Text} {value : Symbol} :
    label.get? field = some value ↔ (field, value) ∈ label.entries :=
  lookup_eq_some_iff_mem label.nodup

theorem mem_fields_iff {label : EdgeLabel} {field : Text} :
    field ∈ label.fields ↔ ∃ value, label.get? field = some value := by
  simp [fields, get?_eq_some_iff]

theorem entries_eq_filterMap (label : EdgeLabel) :
    label.entries =
      label.fields.filterMap fun field => (label.get? field).map fun value => (field, value) := by
  have value : ∀ entry ∈ label.entries, label.get? entry.1 = some entry.2 := fun entry member =>
    get?_eq_some_iff.2 member
  rw [fields, List.filterMap_map]
  symm
  calc
    label.entries.filterMap _ = label.entries.filterMap some := by
      apply List.filterMap_congr
      intro entry member
      simp [value entry member]
    _ = label.entries := List.filterMap_some

theorem ext_entries {left right : EdgeLabel} (entries : left.entries = right.entries) :
    left = right := by
  cases left
  cases right
  simpa using entries

theorem ext_get? {left right : EdgeLabel} (fields : left.fields = right.fields)
    (values : ∀ field, left.get? field = right.get? field) : left = right := by
  apply ext_entries
  rw [left.entries_eq_filterMap, right.entries_eq_filterMap, fields]
  simp only [values]

theorem entries_set_of_not_mem {label : EdgeLabel} {field : Text} (value : Symbol)
    (new : field ∉ label.fields) :
    (label.set field value).entries = label.entries ++ [(field, value)] := by
  change assign field value label.entries = _
  rw [fields] at new
  generalize label.entries = entries at new
  induction entries with
  | nil => rfl
  | cons entry entries induction =>
      rw [List.map_cons, List.mem_cons, not_or] at new
      rw [assign, if_neg (Ne.symm new.1), induction new.2, List.cons_append]

/-- Setting the fields of a label one after the other makes up the label. -/
theorem ofList_entries (label : EdgeLabel) : ofList label.entries = label := by
  have entries (former : EdgeLabel) (entries : List (Text × Symbol))
      (nodup : (former.fields ++ entries.map Prod.fst).Nodup) :
      (entries.foldl (fun label entry => label.set entry.1 entry.2) former).entries =
        former.entries ++ entries := by
    induction entries generalizing former with
    | nil => simp
    | cons entry entries induction =>
        have new : entry.1 ∉ former.fields := by
          intro member
          exact (List.nodup_append.1 nodup).2.2 entry.1 member entry.1 (by simp) rfl
        have set := entries_set_of_not_mem entry.2 new
        have fields : (former.set entry.1 entry.2).fields = former.fields ++ [entry.1] := by
          rw [EdgeLabel.fields, set, List.map_append]
          rfl
        rw [List.foldl_cons, induction, set, List.append_assoc]
        · rfl
        · rw [fields, List.append_assoc]
          exact nodup
  exact ext_entries (entries unlabeled label.entries label.nodup)

/-- Setting new fields one after the other lists those that have a value. -/
theorem entries_foldl_set (value : Text → Option Symbol) {fields : List Text}
    (nodup : fields.Nodup) (label : EdgeLabel) (new : ∀ field ∈ fields, field ∉ label.fields) :
    (fields.foldl
        (fun label field =>
          match value field with
          | some value => label.set field value
          | none => label)
        label).entries =
      label.entries ++
        fields.filterMap fun field => (value field).map fun value => (field, value) := by
  induction fields generalizing label with
  | nil => simp
  | cons field fields induction =>
      rw [List.nodup_cons] at nodup
      rw [List.forall_mem_cons] at new
      rw [List.foldl_cons]
      cases found : value field with
      | none =>
          rw [induction nodup.2 label new.2, List.filterMap_cons_none (by simp [found])]
      | some present =>
          have entries := entries_set_of_not_mem present new.1
          rw [induction nodup.2, entries, List.filterMap_cons_some (b := (field, present))
            (by simp [found])]
          · simp
          · intro other member
            rw [EdgeLabel.fields, entries, List.map_append, List.mem_append, not_or]
            refine ⟨new.2 other member, ?_⟩
            intro same
            obtain rfl : other = field := by simpa using same
            exact nodup.1 member

/-- The label of those fields of a list that have a value. -/
def tabulate (value : Text → Option Symbol) (fields : List Text) : EdgeLabel :=
  fields.foldl
    (fun label field =>
      match value field with
      | some value => label.set field value
      | none => label)
    unlabeled

variable {value : Text → Option Symbol} {fields : List Text}

theorem entries_tabulate (nodup : fields.Nodup) :
    (tabulate value fields).entries =
      fields.filterMap fun field => (value field).map fun value => (field, value) :=
  entries_foldl_set value nodup unlabeled fun _ _ => List.not_mem_nil

theorem get?_tabulate (nodup : fields.Nodup) (field : Text) :
    (tabulate value fields).get? field = if field ∈ fields then value field else none := by
  apply Option.ext
  intro present
  rw [get?_eq_some_iff, entries_tabulate nodup, List.mem_filterMap]
  by_cases member : field ∈ fields
  · rw [if_pos member]
    constructor
    · rintro ⟨other, -, listed⟩
      obtain ⟨_, found, same⟩ := Option.map_eq_some_iff.1 listed
      obtain ⟨rfl, rfl⟩ := Prod.mk.inj same
      exact found
    · intro found
      exact ⟨field, member, by simp [found]⟩
  · rw [if_neg member]
    constructor
    · rintro ⟨other, listed, mapped⟩
      obtain ⟨_, -, same⟩ := Option.map_eq_some_iff.1 mapped
      exact absurd ((Prod.mk.inj same).1 ▸ listed) member
    · intro found
      cases found

theorem fields_tabulate (nodup : fields.Nodup) :
    (tabulate value fields).fields = fields.filter fun field => (value field).isSome := by
  rw [EdgeLabel.fields, entries_tabulate nodup, List.map_filterMap, ← List.filterMap_eq_filter]
  apply List.filterMap_congr
  intro field _
  cases found : value field <;> simp [Option.guard, found]

end EdgeLabel

/-- The elements of a list without repetitions that lie in a sublist are the sublist. -/
theorem filter_mem_of_sublist {fields within : List Text} (nodup : within.Nodup)
    (sublist : fields.Sublist within) : (within.filter fun field => field ∈ fields) = fields := by
  induction sublist with
  | slnil => rfl
  | @cons fields within field sublist induction =>
      rw [List.nodup_cons] at nodup
      have absent : field ∉ fields := fun member => nodup.1 (sublist.subset member)
      rw [List.filter_cons_of_neg (by simpa using absent), induction nodup.2]
  | @cons_cons fields within field sublist induction =>
      rw [List.nodup_cons] at nodup
      rw [List.filter_cons_of_pos (by simp)]
      congr 1
      calc
        (within.filter fun other => other ∈ field :: fields) =
            within.filter fun other => other ∈ fields := by
          apply List.filter_congr
          intro other member
          have distinct : other ≠ field := fun same => nodup.1 (same ▸ member)
          simp [distinct]
        _ = fields := induction nodup.2

namespace Schema

@[simp]
theorem kind_empty (kind : Kind) : (Schema.empty kind).kind = kind := by
  cases kind <;> rfl

@[simp]
theorem propositions_empty (kind : Kind) : (Schema.empty kind).propositions = .empty := by
  cases kind <;> rfl

theorem map_fst_entries (schema : Schema) :
    schema.alphabets.entries.map Prod.fst = schema.kind.fields := by
  cases same : schema.alphabets <;>
    simp [kind, same, Alphabets.kind, Alphabets.entries, Kind.fields]

theorem alphabet_eq_ok_iff {schema : Schema} {field : Text} {alphabet : OrderedSet} :
    schema.alphabet field = .ok alphabet ↔ (field, alphabet) ∈ schema.alphabets.entries := by
  have nodup : (schema.alphabets.entries.map Prod.fst).Nodup :=
    schema.map_fst_entries ▸ schema.kind.fields_nodup
  rw [← lookup_eq_some_iff_mem nodup, Schema.alphabet]
  cases schema.alphabets.entries.lookup field <;> simp

theorem exists_alphabet_iff {schema : Schema} {field : Text} :
    (∃ alphabet, schema.alphabet field = .ok alphabet) ↔ field ∈ schema.kind.fields := by
  simp [alphabet_eq_ok_iff, ← map_fst_entries]

/-- A value that the alphabet of a field contains. -/
def Admits (schema : Schema) (field : Text) (value : Symbol) : Prop :=
  ∃ alphabet, schema.alphabet field = .ok alphabet ∧ value ∈ alphabet

/-- The fields with the elements of their alphabets. -/
def alphabetLists (schema : Schema) : List (Text × List Symbol) :=
  schema.alphabets.entries.map fun entry => (entry.1, entry.2.toList)

theorem admits_iff_mem_alphabetLists {schema : Schema} {field : Text} {value : Symbol} :
    schema.Admits field value ↔
      ∃ symbols, (field, symbols) ∈ schema.alphabetLists ∧ value ∈ symbols := by
  simp only [Admits, alphabet_eq_ok_iff, alphabetLists, List.mem_map, Prod.exists, Prod.mk.injEq]
  constructor
  · rintro ⟨alphabet, listed, member⟩
    exact ⟨_, ⟨field, alphabet, listed, rfl, rfl⟩, OrderedSet.mem_toList.2 member⟩
  · rintro ⟨_, ⟨_, alphabet, listed, rfl, rfl⟩, member⟩
    exact ⟨alphabet, listed, OrderedSet.mem_toList.1 member⟩

theorem checkLabel_eq_ok_iff {schema : Schema} {label : Label} :
    schema.checkLabel label = .ok () ↔
      ∀ proposition ∈ label, proposition ∈ schema.propositions := by
  rw [← OrderedSet.includes_eq_true_iff, checkLabel]
  cases schema.propositions.includes label <;> simp

theorem checkEntry_eq_ok_iff {schema : Schema} {entry : Text × Symbol} :
    schema.checkEntry entry = .ok () ↔ schema.Admits entry.1 entry.2 := by
  rw [checkEntry, bind_eq_ok_iff]
  refine exists_congr fun alphabet => and_congr_right fun _ => ?_
  by_cases member : entry.2 ∈ alphabet
  · simp [member]
  · simp [member]

theorem checkEdgeLabel_eq_ok_iff {schema : Schema} {label : EdgeLabel} :
    schema.checkEdgeLabel label = .ok () ↔
      ∀ entry ∈ label.entries, schema.Admits entry.1 entry.2 := by
  simp only [checkEdgeLabel, forM_eq_ok_iff, checkEntry_eq_ok_iff]

/-! ## Arranging labels -/

theorem get?_arrange (schema : Schema) (label : EdgeLabel) (field : Text) :
    (schema.arrange label).get? field =
      if field ∈ schema.kind.fields then label.get? field else none :=
  EdgeLabel.get?_tabulate schema.kind.fields_nodup field

theorem fields_arrange (schema : Schema) (label : EdgeLabel) :
    (schema.arrange label).fields =
      schema.kind.fields.filter fun field => field ∈ label.fields := by
  refine (EdgeLabel.fields_tabulate schema.kind.fields_nodup).trans (List.filter_congr ?_)
  intro field _
  rw [Bool.eq_iff_iff, decide_eq_true_iff, Option.isSome_iff_exists, EdgeLabel.mem_fields_iff]

theorem fields_arrange_sublist (schema : Schema) (label : EdgeLabel) :
    (schema.arrange label).fields.Sublist schema.kind.fields := by
  rw [fields_arrange]
  exact List.filter_sublist

theorem arrange_of_sublist {schema : Schema} {label : EdgeLabel}
    (sublist : label.fields.Sublist schema.kind.fields) : schema.arrange label = label := by
  apply EdgeLabel.ext_get?
  · rw [fields_arrange, filter_mem_of_sublist schema.kind.fields_nodup sublist]
  · intro field
    rw [get?_arrange]
    by_cases member : field ∈ schema.kind.fields
    · rw [if_pos member]
    · rw [if_neg member]
      symm
      rw [Option.eq_none_iff_forall_ne_some]
      intro value found
      exact member (sublist.subset (EdgeLabel.mem_fields_iff.2 ⟨value, found⟩))

/-! ## Growth -/

/-- A universe that accepts everything that another one of its kind accepts. -/
structure Extends (old new : Schema) : Prop where
  kind : new.kind = old.kind
  propositions : ∀ proposition ∈ old.propositions, proposition ∈ new.propositions
  values : ∀ field value, old.Admits field value → new.Admits field value

namespace Extends

variable {old middle new : Schema}

theorem refl (schema : Schema) : schema.Extends schema where
  kind := rfl
  propositions _ member := member
  values _ _ admits := admits

theorem trans (first : old.Extends middle) (second : middle.Extends new) : old.Extends new where
  kind := second.kind.trans first.kind
  propositions proposition member :=
    second.propositions proposition (first.propositions proposition member)
  values field value admits := second.values field value (first.values field value admits)

theorem checkLabel (extends' : old.Extends new) {label : Label}
    (accepted : old.checkLabel label = .ok ()) : new.checkLabel label = .ok () := by
  rw [checkLabel_eq_ok_iff] at *
  exact fun proposition member => extends'.propositions proposition (accepted proposition member)

theorem checkEdgeLabel (extends' : old.Extends new) {label : EdgeLabel}
    (accepted : old.checkEdgeLabel label = .ok ()) : new.checkEdgeLabel label = .ok () := by
  rw [checkEdgeLabel_eq_ok_iff] at *
  exact fun entry member => extends'.values entry.1 entry.2 (accepted entry member)

end Extends

theorem extends_union (schema : Schema) (more : OrderedSet) :
    schema.Extends { schema with propositions := schema.propositions.union more } where
  kind := rfl
  propositions _ member := OrderedSet.mem_union.2 (.inl member)
  values _ _ admits := admits

theorem entries_modify (alphabets : Alphabets) (field : Text) (change : OrderedSet → OrderedSet) :
    (alphabets.modify field change).entries =
      alphabets.entries.map fun entry =>
        (entry.1, if entry.1 = field then change entry.2 else entry.2) := by
  cases alphabets <;> simp [Alphabets.modify, Alphabets.entries, eq_comm]

theorem alphabet_modify_eq_ok_iff {schema : Schema} {field other : Text}
    {change : OrderedSet → OrderedSet} {alphabet : OrderedSet} :
    Schema.alphabet { schema with alphabets := schema.alphabets.modify field change } other =
        .ok alphabet ↔
      ∃ former, schema.alphabet other = .ok former ∧
        alphabet = if other = field then change former else former := by
  simp only [alphabet_eq_ok_iff, entries_modify, List.mem_map, Prod.exists, Prod.mk.injEq]
  constructor
  · rintro ⟨name, former, member, rfl, rfl⟩
    exact ⟨former, member, rfl⟩
  · rintro ⟨former, member, rfl⟩
    exact ⟨other, former, member, rfl, rfl⟩

@[simp]
theorem kind_modify (alphabets : Alphabets) (field : Text) (change : OrderedSet → OrderedSet) :
    (alphabets.modify field change).kind = alphabets.kind := by
  cases alphabets <;> rfl

theorem modify_eq_ok_iff {schema next : Schema} {field : Text} {change : OrderedSet → OrderedSet} :
    schema.modify field change = .ok next ↔
      field ∈ schema.kind.fields ∧
        next = { schema with alphabets := schema.alphabets.modify field change } := by
  rw [modify, bind_eq_ok_iff, ← exists_alphabet_iff, exists_and_right]
  exact and_congr_right fun _ => pure_eq_ok_iff

theorem extends_modify_union (schema : Schema) (field : Text) (more : OrderedSet) :
    schema.Extends { schema with alphabets := schema.alphabets.modify field (·.union more) } where
  kind := kind_modify ..
  propositions _ member := member
  values other value admits := by
    obtain ⟨former, found, member⟩ := admits
    refine ⟨_, alphabet_modify_eq_ok_iff.2 ⟨former, found, rfl⟩, ?_⟩
    split
    · exact OrderedSet.mem_union.2 (.inl member)
    · exact member

/-- The kind, the propositions and the alphabets of its fields determine a schema. -/
theorem ext_alphabet {left right : Schema} (kind : left.kind = right.kind)
    (propositions : left.propositions = right.propositions)
    (alphabets : ∀ field alphabet,
      left.alphabet field = .ok alphabet → right.alphabet field = .ok alphabet) :
    left = right := by
  obtain ⟨_, entries⟩ := left
  obtain ⟨_, entries'⟩ := right
  obtain rfl := propositions
  congr 1
  simp only [alphabet_eq_ok_iff] at alphabets
  cases entries with
  | closed actions =>
      cases entries' with
      | closed actions' =>
          have same := alphabets actionsField actions (by simp [Alphabets.entries])
          simp_all [Alphabets.entries]
      | opened => cases kind
  | opened system environment =>
      cases entries' with
      | closed => cases kind
      | opened system' environment' =>
          have distinct : systemActionsField ≠ environmentActionsField := by decide
          have same := alphabets systemActionsField system (by simp [Alphabets.entries])
          have same' := alphabets environmentActionsField environment (by simp [Alphabets.entries])
          simp_all [Alphabets.entries, distinct.symm]

/-! ## Combining alphabets -/

/-- A universe that has the propositions of two others, and their alphabets combined field by
field. -/
structure Combines (combine : OrderedSet → OrderedSet → OrderedSet) (left right schema : Schema) :
    Prop where
  kind : schema.kind = left.kind
  propositions : schema.propositions = left.propositions.union right.propositions
  alphabet_eq_ok_iff : ∀ field alphabet, schema.alphabet field = .ok alphabet ↔
    ∃ first second, left.alphabet field = .ok first ∧ right.alphabet field = .ok second ∧
      alphabet = combine first second

/-- Universes of one kind can be combined. -/
theorem exists_combines {left right : Schema} (kinds : left.kind = right.kind)
    (combine : OrderedSet → OrderedSet → OrderedSet) :
    ∃ alphabets, left.alphabets.zipWith? combine right.alphabets = some alphabets ∧
      Combines combine left right
        { propositions := left.propositions.union right.propositions, alphabets } := by
  obtain ⟨_, alphabets⟩ := left
  obtain ⟨_, alphabets'⟩ := right
  cases alphabets with
  | closed actions =>
      cases alphabets' with
      | closed actions' =>
          refine ⟨_, rfl, rfl, rfl, fun field alphabet => ?_⟩
          simp only [Schema.alphabet_eq_ok_iff, Alphabets.entries, List.mem_singleton,
            Prod.mk.injEq]
          constructor
          · rintro ⟨rfl, rfl⟩
            exact ⟨_, _, ⟨rfl, rfl⟩, ⟨rfl, rfl⟩, rfl⟩
          · rintro ⟨_, _, ⟨rfl, rfl⟩, ⟨-, rfl⟩, rfl⟩
            exact ⟨rfl, rfl⟩
      | opened => cases kinds
  | opened system environment =>
      cases alphabets' with
      | closed => cases kinds
      | opened system' environment' =>
          have distinct : systemActionsField ≠ environmentActionsField := by decide
          refine ⟨_, rfl, rfl, rfl, fun field alphabet => ?_⟩
          simp only [Schema.alphabet_eq_ok_iff, Alphabets.entries, List.mem_cons, List.not_mem_nil,
            or_false, Prod.mk.injEq]
          constructor
          · rintro (⟨rfl, rfl⟩ | ⟨rfl, rfl⟩)
            · exact ⟨_, _, .inl ⟨rfl, rfl⟩, .inl ⟨rfl, rfl⟩, rfl⟩
            · exact ⟨_, _, .inr ⟨rfl, rfl⟩, .inr ⟨rfl, rfl⟩, rfl⟩
          · rintro ⟨first, second, ⟨rfl, rfl⟩ | ⟨rfl, rfl⟩, other, rfl⟩
            · obtain rfl : second = system' := by simpa [distinct] using other
              exact .inl ⟨rfl, rfl⟩
            · obtain rfl : second = environment' := by simpa [distinct.symm] using other
              exact .inr ⟨rfl, rfl⟩

theorem Combines.arrange_eq_self {combine : OrderedSet → OrderedSet → OrderedSet}
    {left right schema : Schema} (combines : Combines combine left right schema)
    {label : EdgeLabel} (sublist : label.fields.Sublist left.kind.fields) :
    schema.arrange label = label :=
  arrange_of_sublist (combines.kind ▸ sublist)

theorem Combines.admits_product_iff {left right schema : Schema}
    (combines : Combines .product left right schema) {field : Text} {value : Symbol} :
    schema.Admits field value ↔
      ∃ first second, left.Admits field first ∧ right.Admits field second ∧
        value = .pair first second := by
  simp only [Admits, combines.alphabet_eq_ok_iff]
  constructor
  · rintro ⟨_, ⟨alphabet, alphabet', found, found', rfl⟩, paired⟩
    obtain ⟨first, member, second, member', rfl⟩ := OrderedSet.mem_product.1 paired
    exact ⟨first, second, ⟨alphabet, found, member⟩, ⟨alphabet', found', member'⟩, rfl⟩
  · rintro ⟨first, second, ⟨alphabet, found, member⟩, ⟨alphabet', found', member'⟩, rfl⟩
    exact ⟨_, ⟨alphabet, alphabet', found, found', rfl⟩,
      OrderedSet.mem_product.2 ⟨first, member, second, member', rfl⟩⟩

theorem Combines.admits_union_iff {left right schema : Schema}
    (combines : Combines .union left right schema) (kinds : left.kind = right.kind) {field : Text}
    {value : Symbol} :
    schema.Admits field value ↔ left.Admits field value ∨ right.Admits field value := by
  have other : (∃ alphabet, left.alphabet field = .ok alphabet) ↔
      ∃ alphabet, right.alphabet field = .ok alphabet := by
    rw [exists_alphabet_iff, exists_alphabet_iff, kinds]
  simp only [Admits, combines.alphabet_eq_ok_iff]
  constructor
  · rintro ⟨_, ⟨alphabet, alphabet', found, found', rfl⟩, member⟩
    rcases OrderedSet.mem_union.1 member with member | member
    · exact .inl ⟨alphabet, found, member⟩
    · exact .inr ⟨alphabet', found', member⟩
  · rintro (⟨alphabet, found, member⟩ | ⟨alphabet', found', member⟩)
    · obtain ⟨alphabet', found'⟩ := other.1 ⟨alphabet, found⟩
      exact ⟨_, ⟨alphabet, alphabet', found, found', rfl⟩, OrderedSet.mem_union.2 (.inl member)⟩
    · obtain ⟨alphabet, found⟩ := other.2 ⟨alphabet', found'⟩
      exact ⟨_, ⟨alphabet, alphabet', found, found', rfl⟩, OrderedSet.mem_union.2 (.inr member)⟩

end Schema

end TransitionSystems
