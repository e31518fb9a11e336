import Mathlib.Algebra.Group.Int.Defs
import Mathlib.Algebra.Group.Nat.Defs
import TransitionSystems.Path.Bounded
import TransitionSystems.Proofs.Path.Shape

/-!
# Indices of lines fit

All indices of a line are at most one more than its last one, and that one is only computed where it
is the index of a further state. So words hold the indices of every line whose first and last index
they hold, and the bounded line is the line.
-/

namespace TransitionSystems.Path

namespace Bounded

theorem exists_add? (left right : Word) (lower : -2 ^ 31 ≤ left.toInt + right.toInt)
    (upper : left.toInt + right.toInt < 2 ^ 31) :
    ∃ sum, add? left right = some sum ∧ sum.toInt = left.toInt + right.toInt := by
  have within : Int32.minValue.toInt ≤ left.toInt + right.toInt ∧
      left.toInt + right.toInt ≤ Int32.maxValue.toInt := by
    rw [Int32.toInt_minValue, Int32.toInt_maxValue]
    omega
  have added : add? left right = some (.ofInt (left.toInt + right.toInt)) := if_pos within
  exact ⟨_, added, add?_eq_some_iff.1 added⟩

theorem index_eq_place {start : Int} {number : Word} {there : Nat}
    (same : number.toInt = start + there) : index number = place start there := by
  rw [index, same, place]

/-- From a place on, the states and edges of the remaining places are appended. -/
theorem collect_eq {start count current : Word} {states : List Symbol}
    {edges : List DescribedEdge} {number remaining : Nat} (here : current.toInt = number)
    (total : count.toInt = number + remaining) (last : start.toInt + count.toInt ≤ 2 ^ 31) :
    collect start count current states edges =
      some (states ++ (List.range' number remaining).map (place start.toInt),
        edges ++ (List.range' number (remaining - 1)).map fun number =>
          edge start.toInt (number, number + 1)) := by
  have lower := start.le_toInt
  have upper := count.toInt_lt
  induction remaining generalizing current states edges number with
  | zero =>
      have done : ¬current < count := by
        rw [Int32.lt_iff_toInt_lt]
        omega
      rw [collect, if_neg done]
      simp
  | succ remaining induction =>
      have below : current < count := by
        rw [Int32.lt_iff_toInt_lt]
        omega
      have one : Int32.toInt 1 = 1 := rfl
      obtain ⟨next, further, nextIs⟩ := exists_add? current 1 (by omega) (by omega)
      obtain ⟨numbered, added, numberedIs⟩ := exists_add? start current (by omega) (by omega)
      have ahead : next.toInt = (number + 1 : Nat) := by omega
      have name := index_eq_place (numberedIs.trans (congrArg (start.toInt + ·) here))
      rw [collect, if_pos below]
      split
      next stopped => rw [further] at stopped; cases stopped
      next next' step =>
        obtain rfl : next = next' := Option.some.inj (further.symm.trans step)
        cases remaining with
        | zero =>
            have final : ¬next < count := by
              rw [Int32.lt_iff_toInt_lt]
              omega
            simp only [added, if_neg final, Option.bind_eq_bind, Option.bind_some, pure]
            rw [induction ahead (by omega), name]
            simp
        | succ remaining =>
            have more : next < count := by
              rw [Int32.lt_iff_toInt_lt]
              omega
            obtain ⟨following, follows, followingIs⟩ :=
              exists_add? numbered 1 (by omega) (by omega)
            have target : index following = place start.toInt (number + 1) :=
              index_eq_place (by omega)
            simp only [added, if_pos more, follows, Option.bind_eq_bind, Option.bind_some, pure]
            rw [induction ahead (by omega), name, target]
            simp [List.range'_succ, edge]

/-- A line whose first and last index words hold is found. -/
theorem line?_eq {labels : List Label} {start : Word} (size : labels.length < 2 ^ 31)
    (last : start.toInt + labels.length ≤ 2 ^ 31) :
    line? labels start = some (line labels start.toInt) := by
  have count : (Int32.ofNat labels.length).toInt = labels.length := Int32.toInt_ofNat_of_lt size
  have collected : collect start (.ofNat labels.length) 0 [] [] =
      some ((List.range' 0 labels.length).map (place start.toInt),
        (List.range' 0 (labels.length - 1)).map fun number =>
          edge start.toInt (number, number + 1)) :=
    collect_eq rfl (by omega) (by omega)
  rw [line?, collected, line_eq_build, build, occurring]
  simp only [layout, lineLinks, List.map_map, ← List.range_eq_range']
  have elements := OrderedSet.toList_insertMany_empty (labels.flatMap (·.toList)) false
  rw [← elements]
  rfl

theorem cycle?_eq {labels : List Label} (size : labels.length < 2 ^ 31) :
    cycle? labels = some (cycle labels) := by
  have zero : (0 : Word).toInt = 0 := rfl
  rw [cycle?, line?_eq size (by omega)]
  rfl

end Bounded

/-! ## Lines and cycles -/

/-- Words hold the indices of every line of fewer than `2 ^ 31` states whose last index a word
holds. Unless a label has a tuple, which is a domain error, the line has the links of a line and the
cycle is a cycle. -/
theorem line_and_cycle_in_shape (labels : List Label) (start : Bounded.Word)
    (size : labels.length < 2 ^ 31) (last : start.toInt + labels.length - 1 ≤ 2 ^ 31 - 1) :
    Bounded.line? labels start = some (line labels start.toInt) ∧
      Yields labels (IsLaidOut labels start.toInt (lineLinks labels.length))
        (line labels start.toInt) ∧
      Bounded.cycle? labels = some (cycle labels) ∧
      Yields labels (IsCycle labels) (cycle labels) :=
  ⟨Bounded.line?_eq size (by omega), yields_line labels start.toInt, Bounded.cycle?_eq size,
    yields_cycle labels⟩

/-- Labels of three states, with a proposition that only occurs negated. -/
def signals : List Label :=
  [.ofList [.atom "!go"], ∅, .ofList [.atom "stop", .atom "true"]]

/-- The last index of the line is the greatest word. -/
theorem signals_in_shape :
    (∃ system, Bounded.line? signals 2147483645 = some (.ok system) ∧
      IsLaidOut signals 2147483645 [(0, 1), (1, 2)] system) ∧
      ∃ system, Bounded.cycle? signals = some (.ok system) ∧ IsCycle signals system := by
  obtain ⟨found, yields, foundCycle, yieldsCycle⟩ :=
    line_and_cycle_in_shape signals 2147483645 (by decide) (by decide)
  have without : ¬HasTuple signals := by
    rw [hasTuple_iff]
    decide +kernel
  obtain ⟨system, built, laidOut⟩ := yields.ok without
  obtain ⟨closed, builtCycle, isCycle⟩ := yieldsCycle.ok without
  exact ⟨⟨system, by rw [found, built], laidOut⟩, closed, by rw [foundCycle, builtCycle], isCycle⟩

end TransitionSystems.Path
