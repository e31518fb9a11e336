import TransitionSystems.Comparison

/-!
# Order of symbols, edge labels and transitions

The two tests on symbols, edge labels and transitions decide a strict total order whose equality is
equality of values. They agree with the three-way comparison by which sets and indices are ordered:
judging two values by asking both ways which one is below gives the same answer as comparing them,
because the answer for swapped values is the swapped answer.
-/

namespace TransitionSystems

/-- Two tests decide the order of a type, which is strict and total. -/
structure DecidesOrder {α : Type} [Ord α] (equals less : α → α → Bool) : Prop where
  equals_iff : ∀ left right, equals left right = true ↔ left = right
  less_iff : ∀ left right, less left right = true ↔ compare left right = .lt
  irreflexive : ∀ value, less value value = false
  transitive : ∀ first second third,
    less first second = true → less second third = true → less first third = true
  /-- Exactly one of three tests succeeds. -/
  exactlyOne : ∀ left right,
    [less left right, equals left right, less right left].count true = 1

section

variable {α : Type} [Ord α] {equals less : α → α → Bool}

theorem judge_eq [Std.OrientedOrd α]
    (less_eq : ∀ left right, less left right = (compare left right).isLT) (left right : α) :
    judge less left right = compare left right := by
  rw [judge, less_eq, less_eq, Std.OrientedOrd.eq_swap (a := right)]
  cases compare left right <;> rfl

/-- Tests that agree with a lawful comparison decide an order. -/
theorem decidesOrder_of_compare [Std.TransOrd α] [Std.LawfulEqOrd α]
    (equals_iff : ∀ left right, equals left right = true ↔ left = right)
    (less_eq : ∀ left right, less left right = (compare left right).isLT) :
    DecidesOrder equals less where
  equals_iff := equals_iff
  less_iff left right := by rw [less_eq, Ordering.isLT_iff_eq_lt]
  irreflexive value := by rw [less_eq, Std.ReflOrd.compare_self]; rfl
  transitive first second third below above := by
    rw [less_eq, Ordering.isLT_iff_eq_lt] at *
    exact Std.TransCmp.lt_trans below above
  exactlyOne left right := by
    have same : equals left right = (compare left right).isEq := by
      rw [Bool.eq_iff_iff, equals_iff, Ordering.isEq_iff_eq_eq,
        Std.LawfulEqOrd.compare_eq_iff_eq]
    rw [same, less_eq, less_eq, Std.OrientedOrd.eq_swap (a := right)]
    cases compare left right <;> rfl

end

/-! ## Symbols -/

namespace Symbol

mutual

theorem equals_eq_true_iff (left right : Symbol) : left.equals right = true ↔ left = right := by
  rw [equals, Bool.and_eq_true, Bool.and_eq_true, beq_iff_eq, beq_iff_eq, equalParts_eq_true_iff]
  cases left <;> cases right <;> simp [isTuple, name, parts]
termination_by sizeOf left
decreasing_by exact left.sizeOf_parts_lt

theorem equalParts_eq_true_iff (lefts rights : List Symbol) :
    equalParts lefts rights = true ↔ lefts = rights := by
  match lefts, rights with
  | [], [] => simp [equalParts]
  | [], _ :: _ => simp [equalParts]
  | _ :: _, [] => simp [equalParts]
  | left :: lefts, right :: rights =>
      rw [equalParts, Bool.and_eq_true, equals_eq_true_iff left right,
        equalParts_eq_true_iff lefts rights, List.cons.injEq]
termination_by sizeOf lefts

end

mutual

theorem less_eq (left right : Symbol) : left.less right = (compare left right).isLT := by
  rw [less, judgeParts_eq]
  cases left <;> cases right <;> rfl
termination_by sizeOf left + sizeOf right
decreasing_by exact Nat.add_lt_add left.sizeOf_parts_lt right.sizeOf_parts_lt

theorem judgeParts_eq (lefts rights : List Symbol) :
    judgeParts lefts rights = orderParts lefts rights := by
  match lefts, rights with
  | [], [] => simp [judgeParts, orderParts]
  | [], _ :: _ => simp [judgeParts, orderParts]
  | _ :: _, [] => simp [judgeParts, orderParts]
  | left :: lefts, right :: rights =>
      have compared : order right left = (order left right).swap :=
        Std.OrientedOrd.eq_swap (a := right)
      rw [judgeParts, less_eq left right, less_eq right left, judgeParts_eq lefts rights,
        orderParts]
      change (if (order left right).isLT then _ else if (order right left).isLT then _ else _) = _
      rw [compared]
      cases order left right <;> rfl
termination_by sizeOf lefts + sizeOf rights

end

theorem decidesOrder : DecidesOrder equals less :=
  decidesOrder_of_compare equals_eq_true_iff less_eq

end Symbol

/-! ## Lists -/

section

variable {α : Type} {left right : List α}

theorem isEqv_eq_true_iff {equals : α → α → Bool}
    (equals_iff : ∀ value other, equals value other = true ↔ value = other) :
    left.isEqv right equals = true ↔ left = right := by
  induction left generalizing right with
  | nil => cases right <;> simp [List.isEqv]
  | cons value left induction =>
      cases right with
      | nil => simp [List.isEqv]
      | cons other right =>
          rw [List.isEqv, Bool.and_eq_true, equals_iff, induction, List.cons.injEq]

/-- Comparing lists from left to right is their lexicographic order. -/
theorem compareLex_eq_lt_iff {comparison : α → α → Ordering} [Std.LawfulEqCmp comparison] :
    List.compareLex comparison left right = .lt ↔
      List.Lex (fun value other => comparison value other = .lt) left right := by
  induction left generalizing right with
  | nil => cases right <;> simp [List.compareLex]
  | cons value left induction =>
      cases right with
      | nil => simp [List.compareLex]
      | cons other right =>
          rw [List.compareLex_cons_cons, Ordering.then_eq_lt, List.cons_lex_cons_iff, induction,
            Std.LawfulEqCmp.compare_eq_iff_eq]

end

theorem Text.compare_eq_lt_iff {left right : Text} : compare left right = .lt ↔ left < right := by
  rw [List.compare_eq_compareLex, compareLex_eq_lt_iff]
  simp only [Std.compare_eq_lt]
  exact Iff.rfl

/-! ## Edge labels -/

namespace EdgeLabel

theorem equals_eq_true_iff (left right : EdgeLabel) : left.equals right = true ↔ left = right := by
  have entries (entry other : Text × Symbol) :
      (entry.1 == other.1 && entry.2.equals other.2) = true ↔ entry = other := by
    rw [Bool.and_eq_true, beq_iff_eq, Symbol.equals_eq_true_iff, Prod.ext_iff]
  rw [equals, isEqv_eq_true_iff entries]
  cases left
  cases right
  simp

theorem judgeEntry_eq : judgeEntry = compareEntry := by
  funext entry other
  rw [judgeEntry, judge_eq Symbol.less_eq]
  rfl

theorem less_eq (left right : EdgeLabel) : left.less right = (compare left right).isLT := by
  rw [less, judgeEntry_eq]
  rfl

theorem decidesOrder : DecidesOrder equals less :=
  decidesOrder_of_compare equals_eq_true_iff less_eq

theorem compareEntry_eq_lt_iff {entry other : Text × Symbol} :
    compareEntry entry other = .lt ↔
      entry.1 < other.1 ∨ entry.1 = other.1 ∧ entry.2.less other.2 = true := by
  rw [compareEntry, compareLex, Ordering.then_eq_lt, compareOn, compareOn, Text.compare_eq_lt_iff,
    Std.LawfulEqOrd.compare_eq_iff_eq, Symbol.less_eq, Ordering.isLT_iff_eq_lt]

theorem less_eq_true_iff {left right : EdgeLabel} :
    left.less right = true ↔
      List.Lex
        (fun entry other => entry.1 < other.1 ∨ entry.1 = other.1 ∧ entry.2.less other.2 = true)
        left.entries right.entries := by
  simp only [less, judgeEntry_eq, Ordering.isLT_iff_eq_lt, compareLex_eq_lt_iff,
    compareEntry_eq_lt_iff]

end EdgeLabel

/-! ## Transitions -/

namespace Transition

theorem equals_eq_true_iff (left right : Transition) :
    left.equals right = true ↔ left = right := by
  rw [equals, Bool.and_eq_true, Bool.and_eq_true, Symbol.equals_eq_true_iff,
    Symbol.equals_eq_true_iff, EdgeLabel.equals_eq_true_iff]
  cases left
  cases right
  simp [and_assoc]

theorem less_eq (left right : Transition) : left.less right = (compare left right).isLT := by
  rw [less, judge_eq Symbol.less_eq, judge_eq Symbol.less_eq, judge_eq EdgeLabel.less_eq]
  rfl

theorem decidesOrder : DecidesOrder equals less :=
  decidesOrder_of_compare equals_eq_true_iff less_eq

theorem less_eq_true_iff {left right : Transition} :
    left.less right = true ↔
      left.source.less right.source = true ∨ left.source = right.source ∧
        (left.target.less right.target = true ∨ left.target = right.target ∧
          left.label.less right.label = true) := by
  rw [less, judge_eq Symbol.less_eq, judge_eq Symbol.less_eq, judge_eq EdgeLabel.less_eq]
  simp only [Ordering.isLT_iff_eq_lt, Ordering.then_eq_lt, Symbol.less_eq, EdgeLabel.less_eq,
    Std.LawfulEqOrd.compare_eq_iff_eq]

end Transition

/-- The tests on symbols, edge labels and transitions decide strict total orders. No atom is equal
to a tuple, labels are ordered lexicographically by fields and values, and transitions by source,
target and label. -/
theorem comparisons_decide_orders :
    DecidesOrder Symbol.equals Symbol.less ∧
      (∀ name parts, Symbol.equals (.atom name) (.tuple parts) = false ∧
        Symbol.equals (.tuple parts) (.atom name) = false) ∧
      DecidesOrder EdgeLabel.equals EdgeLabel.less ∧
      (∀ left right : EdgeLabel, left.less right = true ↔
        List.Lex
          (fun entry other => entry.1 < other.1 ∨ entry.1 = other.1 ∧ entry.2.less other.2 = true)
          left.entries right.entries) ∧
      DecidesOrder Transition.equals Transition.less ∧
      (∀ left right : Transition, left.less right = true ↔
        left.source.less right.source = true ∨ left.source = right.source ∧
          (left.target.less right.target = true ∨ left.target = right.target ∧
            left.label.less right.label = true)) := by
  refine ⟨Symbol.decidesOrder, fun name parts => ?_, EdgeLabel.decidesOrder,
    fun _ _ => EdgeLabel.less_eq_true_iff, Transition.decidesOrder,
    fun _ _ => Transition.less_eq_true_iff⟩
  constructor <;> rw [Bool.eq_false_iff, Ne, Symbol.equals_eq_true_iff] <;> exact nofun

end TransitionSystems
