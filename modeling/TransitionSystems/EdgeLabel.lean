import TransitionSystems.Error

/-!
# Edge labels

An edge label gives values to named fields. It keeps its fields in the order in which they were
first set, no field twice; the label without fields marks an unlabeled edge. Labels are ordered
lexicographically by their entries, and this order is lawful.
-/

namespace TransitionSystems

/-- A list of fields with their values, in which no field occurs twice. -/
structure EdgeLabel where
  entries : List (Text × Symbol)
  nodup : (entries.map Prod.fst).Nodup
  deriving DecidableEq

namespace EdgeLabel

/-- The label of an unlabeled edge. -/
def unlabeled : EdgeLabel where
  entries := []
  nodup := .nil

instance : Inhabited EdgeLabel := ⟨unlabeled⟩

/-- The names of the fields in their order. -/
def fields (label : EdgeLabel) : List Text :=
  label.entries.map Prod.fst

/-- Gives `value` to `field`, in its place if it is there and at the end otherwise. -/
def assign (field : Text) (value : Symbol) : List (Text × Symbol) → List (Text × Symbol)
  | [] => [(field, value)]
  | entry :: entries =>
    if entry.1 = field then
      (field, value) :: entries
    else
      entry :: assign field value entries

private theorem mem_assign {field other : Text} {value : Symbol} {entries : List (Text × Symbol)} :
    other ∈ (assign field value entries).map Prod.fst ↔
      other = field ∨ other ∈ entries.map Prod.fst := by
  induction entries with
  | nil => simp [assign]
  | cons entry entries induction =>
      by_cases same : entry.1 = field
      · simp [assign, same]
      · rw [assign, if_neg same, List.map_cons, List.mem_cons, induction, List.map_cons,
          List.mem_cons, or_left_comm]

private theorem nodup_assign (field : Text) (value : Symbol) {entries : List (Text × Symbol)}
    (nodup : (entries.map Prod.fst).Nodup) :
    ((assign field value entries).map Prod.fst).Nodup := by
  induction entries with
  | nil => simp [assign]
  | cons entry entries induction =>
      rw [List.map_cons, List.nodup_cons] at nodup
      by_cases same : entry.1 = field
      · rw [assign, if_pos same, List.map_cons, List.nodup_cons, ← same]
        exact nodup
      · rw [assign, if_neg same, List.map_cons, List.nodup_cons, mem_assign, not_or]
        exact ⟨⟨same, nodup.1⟩, induction nodup.2⟩

/-- The label with `field` set to `value`; a field that is already there keeps its place. -/
def set (label : EdgeLabel) (field : Text) (value : Symbol) : EdgeLabel where
  entries := assign field value label.entries
  nodup := nodup_assign field value label.nodup

/-- The label obtained by setting the listed fields one after the other. -/
def ofList (entries : List (Text × Symbol)) : EdgeLabel :=
  entries.foldl (fun label entry => label.set entry.1 entry.2) unlabeled

/-- The label with a single action. -/
def action (value : Symbol) : EdgeLabel :=
  unlabeled.set actionsField value

/-- The value of a field, if the label has it. -/
def get? (label : EdgeLabel) (field : Text) : Option Symbol :=
  label.entries.lookup field

/-- Setting a field changes the value of this field only. -/
@[simp]
theorem get?_set (label : EdgeLabel) (field other : Text) (value : Symbol) :
    (label.set field value).get? other =
      if other = field then some value else label.get? other := by
  change (assign field value label.entries).lookup other =
    if other = field then some value else label.entries.lookup other
  induction label.entries with
  | nil => by_cases same : other = field <;> simp [assign, same]
  | cons entry entries induction =>
      obtain ⟨name, present⟩ := entry
      by_cases found : name = field
      · by_cases same : other = field
        · simp [assign, found, same]
        · simp [assign, List.lookup_cons, found, same, beq_false_of_ne same]
      · by_cases same : other = name
        · simp [assign, found, same]
        · simpa [assign, List.lookup_cons, found, beq_false_of_ne same] using induction

/-- The value of a field, which the label must have. -/
def get (label : EdgeLabel) (field : Text) : Except Error Symbol :=
  match label.get? field with
  | some value => .ok value
  | none => .error (.missingField field)

/-- Whether the label has a field. -/
def has (label : EdgeLabel) (field : Text) : Bool :=
  (label.get? field).isSome

/-- Whether the label is the one of unlabeled edges. -/
def isEmpty (label : EdgeLabel) : Bool :=
  label.entries.isEmpty

/-- The fields and values between braces, all in single quotes. -/
def text (label : EdgeLabel) : Text :=
  Text.braced (label.entries.map fun entry => "'" ++ entry.1 ++ "': " ++ entry.2.quoted)

/-! ## Order -/

/-- Compares two entries by field, then by value. -/
def compareEntry : Text × Symbol → Text × Symbol → Ordering :=
  compareLex (compareOn Prod.fst) (compareOn Prod.snd)

instance : Std.TransCmp compareEntry :=
  inferInstanceAs (Std.TransCmp (compareLex (compareOn Prod.fst) (compareOn Prod.snd)))

instance : Std.LawfulEqCmp compareEntry where
  eq_of_compare {left right} equal := by
    rw [compareEntry, compareLex_eq_eq, compareOn, compareOn,
      Std.LawfulEqOrd.compare_eq_iff_eq, Std.LawfulEqOrd.compare_eq_iff_eq] at equal
    exact Prod.ext equal.1 equal.2

/-- Compares two labels entry by entry. -/
def order (left right : EdgeLabel) : Ordering :=
  List.compareLex compareEntry left.entries right.entries

instance : Ord EdgeLabel := ⟨order⟩

instance : Std.OrientedOrd EdgeLabel where
  eq_swap {left right} :=
    @Std.OrientedCmp.eq_swap _ (List.compareLex compareEntry) _ left.entries right.entries

instance : Std.TransOrd EdgeLabel where
  isLE_trans {first second third} :=
    @Std.TransCmp.isLE_trans _ (List.compareLex compareEntry) _ first.entries second.entries
      third.entries

instance : Std.LawfulEqOrd EdgeLabel where
  compare_self {label} := @Std.ReflCmp.compare_self _ (List.compareLex compareEntry) _ label.entries
  eq_of_compare {left right} equal := by
    cases left
    cases right
    simpa using @Std.LawfulEqCmp.eq_of_compare _ (List.compareLex compareEntry) _ _ _ equal

end EdgeLabel

end TransitionSystems
