import TransitionSystems.System.Basic

/-!
# Comparing by two tests

Symbols, edge labels and transitions come with two tests: whether two values are equal, and whether
the first is below the second. Lists are compared from left to right. Symbols and edge labels have
no other comparison than these tests, so wherever they stand inside of something larger, they are
judged by asking both ways which one is below, and passed over when neither is.
-/

namespace TransitionSystems

/-- Judges two values by asking both ways which one is below the other. -/
def judge {α : Type} (less : α → α → Bool) (left right : α) : Ordering :=
  if less left right then .lt
  else if less right left then .gt
  else .eq

namespace Symbol

theorem sizeOf_parts_lt (symbol : Symbol) : sizeOf symbol.parts < sizeOf symbol := by
  cases symbol with
  | atom name => cases name <;> simp +arith [parts]
  | tuple parts => simp +arith [Symbol.parts]

mutual

/-- Whether two symbols are of one form and have the same name and the same parts. -/
def equals (left right : Symbol) : Bool :=
  left.isTuple == right.isTuple && left.name == right.name && equalParts left.parts right.parts
termination_by sizeOf left
decreasing_by exact left.sizeOf_parts_lt

/-- Whether two lists have the same length and equal parts at every place. -/
def equalParts (lefts rights : List Symbol) : Bool :=
  match lefts, rights with
  | [], [] => true
  | left :: lefts, right :: rights => equals left right && equalParts lefts rights
  | _, _ => false
termination_by sizeOf lefts

end

mutual

/-- Whether a symbol is below another one: an atom is below every tuple, atoms are compared by their
names and tuples by their parts. -/
def less (left right : Symbol) : Bool :=
  if left.isTuple != right.isTuple then
    !left.isTuple
  else if !left.isTuple then
    (compare left.name right.name).isLT
  else
    (judgeParts left.parts right.parts).isLT
termination_by sizeOf left + sizeOf right
decreasing_by exact Nat.add_lt_add left.sizeOf_parts_lt right.sizeOf_parts_lt

/-- Judges two lists by their first place where one part is below the other, and otherwise by their
lengths. -/
def judgeParts (lefts rights : List Symbol) : Ordering :=
  match lefts, rights with
  | [], [] => .eq
  | [], _ :: _ => .lt
  | _ :: _, [] => .gt
  | left :: lefts, right :: rights =>
    if less left right then .lt
    else if less right left then .gt
    else judgeParts lefts rights
termination_by sizeOf lefts + sizeOf rights

end

end Symbol

namespace EdgeLabel

/-- Whether two labels have equal fields and equal values at every place. -/
def equals (left right : EdgeLabel) : Bool :=
  left.entries.isEqv right.entries fun entry other =>
    entry.1 == other.1 && entry.2.equals other.2

/-- Judges two entries by their fields, then by their values. -/
def judgeEntry (entry other : Text × Symbol) : Ordering :=
  (compare entry.1 other.1).then (judge Symbol.less entry.2 other.2)

/-- Whether a label is below another one. -/
def less (left right : EdgeLabel) : Bool :=
  (List.compareLex judgeEntry left.entries right.entries).isLT

end EdgeLabel

namespace Transition

/-- Whether two transitions have equal ends and equal labels. -/
def equals (left right : Transition) : Bool :=
  left.source.equals right.source && left.target.equals right.target &&
    left.label.equals right.label

/-- Whether a transition is below another one, by its source, then its target, then its label. -/
def less (left right : Transition) : Bool :=
  ((judge Symbol.less left.source right.source).then
    ((judge Symbol.less left.target right.target).then
      (judge EdgeLabel.less left.label right.label))).isLT

end Transition

end TransitionSystems
