import TransitionSystems.Proofs.System.Coherence
import TransitionSystems.System.Range

/-!
# Lookups and full scans

A lookup by source goes through the index of leaving transitions, and a range looks at one candidate
after the other. In a reachable system either finds the transitions that a scan of all transitions
finds, in the same order, and no access on the way is outside.
-/

namespace TransitionSystems

theorem map_eq_map_some_filterMap {α β : Type} {search : α → Option β} {values : List α}
    (found : ∀ value ∈ values, ∃ result, search value = some result) :
    values.map search = (values.filterMap search).map some := by
  induction values with
  | nil => rfl
  | cons value values induction =>
      rw [List.forall_mem_cons] at found
      obtain ⟨⟨result, first⟩, rest⟩ := found
      rw [List.map_cons, List.filterMap_cons_some first, List.map_cons, induction rest, first]

namespace TransitionRange

/-- A candidate is wanted when it has the target that is given. -/
def wants (range : TransitionRange) (candidate : Transition) : Bool :=
  range.target.all (candidate.target = ·)

/-- The candidates of a range, all of which can be accessed. -/
structure Candidates (range : TransitionRange) (candidates : List Transition) : Prop where
  limit : range.limit = candidates.length
  candidate? : ∀ place, range.candidate? place = candidates[place]?

/-- No candidate from a place up to an iterator is wanted, and that of the iterator is. -/
structure Settles (range : TransitionRange) (candidates : List Transition) (place after : Nat) :
    Prop where
  within : after ≤ candidates.length
  remaining :
    (candidates.drop place).filter range.wants = (candidates.drop after).filter range.wants
  wanted : ∀ candidate, candidates[after]? = some candidate → range.wants candidate = true

variable {range : TransitionRange} {candidates : List Transition}

namespace Candidates

/-- Seeking a target ends at the next wanted candidate. -/
theorem exists_seek (accessible : range.Candidates candidates) {target : Symbol}
    (given : range.target = some target) {place : Nat} (within : place ≤ candidates.length) :
    ∃ after, range.seek target place = some after ∧ range.Settles candidates place after := by
  have wants (candidate : Transition) :
      range.wants candidate = decide (candidate.target = target) := by
    rw [TransitionRange.wants, given, Option.all_some]
  fun_induction range.seek target place with
  | case1 place below outside =>
      rw [accessible.candidate?, List.getElem?_eq_none_iff, ← accessible.limit] at outside
      omega
  | case2 place _ candidate found same =>
      refine ⟨place, rfl, within, rfl, fun other found' => ?_⟩
      rw [← accessible.candidate?, found] at found'
      obtain rfl := Option.some.inj found'
      simpa [wants] using same
  | case3 place below candidate found differs induction =>
      rw [accessible.limit] at below
      obtain ⟨after, sought, settles⟩ := induction below
      refine ⟨after, sought, settles.within, ?_, settles.wanted⟩
      rw [accessible.candidate?, List.getElem?_eq_getElem below, Option.some_inj] at found
      have unwanted : range.wants candidate = false := by simpa [wants] using differs
      rw [List.drop_eq_getElem_cons below, found, List.filter_cons, unwanted]
      exact settles.remaining
  | case4 place above =>
      refine ⟨place, rfl, within, rfl, fun candidate found => ?_⟩
      have below := (List.getElem?_eq_some_iff.1 found).1
      rw [accessible.limit] at above
      exact absurd below above

theorem exists_skip (accessible : range.Candidates candidates) (place : Nat)
    (within : place ≤ candidates.length) :
    ∃ after, range.skip place = some after ∧ range.Settles candidates place after := by
  cases given : range.target with
  | none =>
      refine ⟨place, by rw [skip, given], within, rfl, fun candidate _ => ?_⟩
      rw [wants, given, Option.all_none]
  | some target =>
      rw [skip, given]
      exact accessible.exists_seek given within

/-- From a wanted candidate on, the iterators go through the wanted candidates. -/
theorem exists_iterators (accessible : range.Candidates candidates) {place : Nat}
    (within : place ≤ candidates.length)
    (wanted : ∀ candidate, candidates[place]? = some candidate → range.wants candidate = true) :
    ∃ iterators, range.iterators place = some iterators ∧
      iterators.mapM range.candidate? = some ((candidates.drop place).filter range.wants) ∧
      iterators.length = ((candidates.drop place).filter range.wants).length := by
  fun_induction range.iterators place with
  | case1 =>
      refine ⟨[], rfl, ?_⟩
      rw [accessible.limit, List.drop_length]
      exact ⟨rfl, rfl⟩
  | case2 place _ below stopped =>
      rw [accessible.limit] at below
      obtain ⟨after, skipped, -⟩ := accessible.exists_skip (place + 1) below
      rw [next, skipped] at stopped
      cases stopped
  | case3 place _ below after found _ induction =>
      rw [accessible.limit] at below
      obtain ⟨after', skipped, settles⟩ := accessible.exists_skip (place + 1) below
      obtain rfl : after' = after := Option.some.inj (skipped.symm.trans found)
      obtain ⟨iterators, iterated, collected, size⟩ := induction settles.within settles.wanted
      have access := List.getElem?_eq_getElem below
      have rest : (candidates.drop place).filter range.wants =
          candidates[place] :: (candidates.drop after').filter range.wants := by
        rw [List.drop_eq_getElem_cons below, List.filter_cons, if_pos (wanted _ access),
          settles.remaining]
      refine ⟨place :: iterators, by rw [iterated]; rfl, ?_, by rw [rest]; simp [size]⟩
      rw [List.mapM_cons, accessible.candidate?, access, collected, rest]
      rfl
  | case4 place _ above =>
      rw [accessible.limit] at *
      omega

end Candidates

/-- A range lists transitions: that is what iterating over it gives, whenever one starts, and no
access on the way is outside. -/
structure Lists (range : TransitionRange) (listed : List Transition) : Prop where
  /-- Every candidate can be accessed. -/
  accessible : ∀ place < range.limit, ∃ candidate, range.candidate? place = some candidate
  toList : range.toList = some listed
  count : range.count = some listed.length
  isEmpty : range.isEmpty = some (decide (listed = []))
  twice : (do return (← range.toList, ← range.toList)) = some (listed, listed)

/-- A range lists its wanted candidates. -/
theorem Candidates.lists (accessible : range.Candidates candidates) :
    range.Lists (candidates.filter range.wants) := by
  obtain ⟨start, skipped, settles⟩ := accessible.exists_skip 0 (Nat.zero_le _)
  obtain ⟨iterators, iterated, collected, size⟩ :=
    accessible.exists_iterators settles.within settles.wanted
  rw [← settles.remaining, List.drop_zero] at collected size
  have toList : range.toList = some (candidates.filter range.wants) := by
    rw [TransitionRange.toList, first, skipped, Option.bind_eq_bind, Option.bind_some, iterated]
    exact collected
  refine ⟨?_, toList, ?_, ?_, by rw [toList]; rfl⟩
  · intro place below
    rw [accessible.limit] at below
    exact ⟨candidates[place], by rw [accessible.candidate?, List.getElem?_eq_getElem below]⟩
  · rw [count, first, skipped, Option.bind_eq_bind, Option.bind_some, iterated, ← size]
    rfl
  · have empty : start = range.limit ↔ candidates.filter range.wants = [] := by
      have remaining := settles.remaining
      rw [List.drop_zero] at remaining
      rw [accessible.limit, remaining]
      constructor
      · rintro rfl
        rw [List.drop_length, List.filter_nil]
      · intro none_wanted
        by_contra differs
        have below : start < candidates.length := lt_of_le_of_ne settles.within differs
        have wanted := settles.wanted _ (List.getElem?_eq_getElem below)
        rw [List.drop_eq_getElem_cons below, List.filter_cons, if_pos wanted] at none_wanted
        cases none_wanted
    rw [isEmpty, first, skipped]
    simp [empty]

end TransitionRange

namespace System

variable {system : System}

/-- The transitions with a given source and a given target, where these are given, found by looking
at all transitions. -/
def scan (system : System) (source target : Option Symbol) : List Transition :=
  system.transitions.toList.filter fun transition =>
    (∀ state ∈ source, transition.source = state) ∧ ∀ state ∈ target, transition.target = state

theorem Coherent.leaving_eq_filter (coherent : system.Coherent) (source : Symbol) :
    system.leaving source = system.transitions.toList.filter (·.source = source) := by
  have index : IsIndex Transition.source system.transitions system.outgoing :=
    ⟨coherent.ascending, coherent.mem_positions_iff⟩
  exact index.filterMap_eq_filter source

/-- The candidates of a lookup: the transitions that leave the source, or all of them. -/
def candidates (system : System) : Option Symbol → List Transition
  | none => system.transitions.toList
  | some source => system.leaving source

theorem find_eq_filter (source target : Option Symbol) :
    system.find source target =
      (system.candidates source).filter (system.range source target).wants := by
  cases target with
  | none => exact (List.filter_eq_self.2 fun _ _ => rfl).symm
  | some target => rfl

/-- The wanted candidates are the transitions with the source and the target. -/
theorem Coherent.find_eq_scan (coherent : system.Coherent) (source target : Option Symbol) :
    system.find source target = system.scan source target := by
  have wanted : (system.range source target).wants = fun transition =>
      decide (∀ state ∈ target, transition.target = state) := by
    funext transition
    cases target <;> simp [TransitionRange.wants, range]
  rw [find_eq_filter, wanted, scan]
  cases source with
  | none => simp [candidates]
  | some source =>
      rw [candidates, coherent.leaving_eq_filter, List.filter_filter]
      apply List.filter_congr
      intro transition _
      simp [Bool.and_comm]

theorem Coherent.map_positions (coherent : system.Coherent) (source : Symbol) :
    (system.positions source).toList.map (system.transitions[·]?) =
      (system.leaving source).map some := by
  apply map_eq_map_some_filterMap
  intro place listed
  obtain ⟨transition, found, -⟩ :=
    (coherent.mem_positions_iff source place).1 (Array.mem_toList_iff.1 listed)
  exact ⟨transition, found⟩

/-- The range of a lookup has the candidates of the lookup. -/
theorem Coherent.range_candidates (coherent : system.Coherent) (source target : Option Symbol) :
    (system.range source target).Candidates (system.candidates source) := by
  cases source with
  | none => exact ⟨(Array.length_toList).symm, fun place => (Array.getElem?_toList).symm⟩
  | some source =>
      have same := coherent.map_positions source
      constructor
      · have lengths := congrArg List.length same
        rw [List.length_map, List.length_map, Array.length_toList] at lengths
        exact lengths
      · intro place
        have there := congrArg (·[place]?) same
        simp only [List.getElem?_map, Array.getElem?_toList] at there
        change (system.positions source)[place]?.bind (system.transitions[·]?) =
          (system.leaving source)[place]?
        cases listed : (system.positions source)[place]? <;>
          cases left : (system.leaving source)[place]? <;> simp_all

/-- A lookup by source and target finds what a scan of all transitions finds, whether the states
that are given are known or not. The range of the lookup lists the same transitions. -/
theorem Reachable.lookup_agrees_with_scan (reachable : system.Reachable)
    (source target : Option Symbol) :
    system.find source target = system.scan source target ∧
      (system.range source target).Lists (system.scan source target) := by
  have coherent := reachable.coherent
  have found := coherent.find_eq_scan source target
  have lists := (coherent.range_candidates source target).lists
  rw [← find_eq_filter, found] at lists
  exact ⟨found, lists⟩

/-- Looking up how the lamp breaks passes over the transition to the dark. -/
theorem lookup_agrees_with_scan_lamp :
    lamp.find (some (.atom "bright")) (some (.atom "broken")) =
        lamp.scan (some (.atom "bright")) (some (.atom "broken")) ∧
      (lamp.range (some (.atom "bright")) (some (.atom "broken"))).Lists
        (lamp.scan (some (.atom "bright")) (some (.atom "broken"))) ∧
      lamp.scan (some (.atom "bright")) (some (.atom "broken")) =
        [⟨.atom "bright", .atom "broken", .unlabeled⟩] := by
  have agrees := reachable_lamp.lookup_agrees_with_scan (some (.atom "bright"))
    (some (.atom "broken"))
  exact ⟨agrees.1, agrees.2, by decide +kernel⟩

end System

end TransitionSystems
