import TransitionSystems.Proofs.OrderedSet.Algebra
import TransitionSystems.Proofs.System.Extensionality
import TransitionSystems.Proofs.System.InPlace

/-!
# Laws of merging

Merging puts what is new in the source behind what the target has, in every list of a system, and
lets a label of the source count unless it is empty. Each of these is an associative operation in
which an operand that comes a second time adds nothing. A reachable system is determined by what it
lists, so merging as a whole obeys the same laws.
-/

namespace TransitionSystems

/-! ## Universes -/

/-- Uniting universes is associative. -/
theorem Schema.Combines.union_assoc {first second third front back whole whole' : Schema}
    (combines : Combines .union first second front) (combines' : Combines .union second third back)
    (left : Combines .union front third whole) (right : Combines .union first back whole') :
    whole = whole' := by
  refine ext_alphabet ?_ ?_ fun field alphabet found => ?_
  · rw [left.kind, combines.kind, right.kind]
  · rw [left.propositions, combines.propositions, right.propositions, combines'.propositions,
      OrderedSet.union_assoc]
  · obtain ⟨united, last, found_front, found_third, rfl⟩ :=
      (left.alphabet_eq_ok_iff field _).1 found
    obtain ⟨former, later, found_first, found_second, rfl⟩ :=
      (combines.alphabet_eq_ok_iff field _).1 found_front
    have found_back := (combines'.alphabet_eq_ok_iff field _).2
      ⟨later, last, found_second, found_third, rfl⟩
    exact (right.alphabet_eq_ok_iff field _).2
      ⟨former, _, found_first, found_back, OrderedSet.union_assoc ..⟩

/-! ## Labels -/

/-- The later label counts unless it is empty. -/
def laterLabel (former later : Option Label) : Option Label :=
  if (later.getD ∅).isEmpty then former else later

theorem laterLabel_assoc (first second third : Option Label) :
    laterLabel (laterLabel first second) third = laterLabel first (laterLabel second third) := by
  by_cases empty : (third.getD ∅).isEmpty = true
  · simp only [laterLabel, if_pos empty]
  · simp only [laterLabel, if_neg empty]

namespace System

variable {first second third front back whole whole' target source result : System}

/-! ## Merges -/

/-- A merge with everything that it determines: the flags of the sets are included. -/
structure Unites (target source result : System) : Prop extends Merges target source result where
  schema : Schema.Combines .union target.schema source.schema result.schema
  initial_isMutable : result.initial.isMutable = target.initial.isMutable

/-- Reachable systems of one kind can be merged. -/
theorem Reachable.exists_unites (reachable : target.Reachable) (reachable' : source.Reachable)
    (kinds : target.kind = source.kind) :
    ∃ result, target.merge source = (.ok (), result) ∧ result.Reachable ∧
      Unites target source result := by
  obtain ⟨schema, settled, result, combines, states, transitions, runs⟩ :=
    reachable'.coherent.exists_runsTo_contents kinds
  have merged : target.merge source = (.ok (), result) := by
    rw [System.merge, if_pos kinds]
    exact runs
  have reached := reachable.merge reachable'
  rw [merged] at reached
  refine ⟨result, merged, reached, ?_⟩
  exact {
    transitions.merges states combines reachable.coherent reachable'.coherent with
    schema := by
      rw [transitions.frame, beginAt, states.frame]
      exact combines
    initial_isMutable := by
      rw [transitions.frame, beginAt, states.frame]
      exact OrderedSet.isMutable_insertMany .. }

namespace Unites

theorem states_eq (unites : Unites target source result) :
    result.states.toList = appendNew target.states.toList source.states.toList := by
  rw [unites.states, appendNew]
  simp only [Array.mem_toList_iff]

theorem initial_eq (unites : Unites target source result) :
    result.initial.toList = appendNew target.initial.toList source.initial.toList := by
  rw [unites.initial, appendNew]
  simp only [OrderedSet.mem_toList]

theorem transitions_eq (unites : Unites target source result) :
    result.transitions.toList = appendNew target.transitions.toList source.transitions.toList := by
  rw [unites.transitions, appendNew]
  simp only [Array.mem_toList_iff]

theorem label?_eq (unites : Unites target source result) (coherent : target.Coherent)
    (state : Symbol) :
    result.label? state = laterLabel (target.label? state) (source.label? state) := by
  rw [unites.label?, laterLabel, ← holding]
  by_cases member : state ∈ target.states
  · rw [if_pos member]
  · rw [if_neg member, label?_of_not_mem (mt (coherent.mem_states_iff state).2 member)]

/-- Two merges one after the other result in the same system, whichever comes first. -/
theorem assoc (unites : Unites first second front) (unites' : Unites second third back)
    (left : Unites front third whole) (right : Unites first back whole')
    (coherent : first.Coherent) (coherent' : second.Coherent) (reachable : front.Reachable)
    (reachable' : whole.Reachable) (reachable'' : whole'.Reachable) : whole = whole' := by
  apply reachable'.ext reachable''
  · exact unites.schema.union_assoc unites'.schema left.schema right.schema
  · rw [left.name, unites.name, right.name]
  · rw [left.isMutable, unites.isMutable, right.isMutable, unites'.isMutable, Bool.or_assoc]
  · rw [left.states_eq, unites.states_eq, right.states_eq, unites'.states_eq, appendNew_assoc]
  · intro state
    rw [left.label?_eq reachable.coherent, unites.label?_eq coherent, right.label?_eq coherent,
      unites'.label?_eq coherent', laterLabel_assoc]
  · apply OrderedSet.ext
    · rw [left.initial_eq, unites.initial_eq, right.initial_eq, unites'.initial_eq,
        appendNew_assoc]
    · rw [left.initial_isMutable, unites.initial_isMutable, right.initial_isMutable]
  · rw [left.transitions_eq, unites.transitions_eq, right.transitions_eq, unites'.transitions_eq,
      appendNew_assoc]
  · rw [left.factors, unites.factors, right.factors]

end Unites

theorem Reachable.merge_self (reachable : first.Reachable) :
    first.merge first = (.ok (), first) := by
  rw [← InPlace.outcome_merge]
  exact InPlace.outcome_merge_self rfl reachable.coherent

/-- Merging is associative. It keeps the order of both operands, merging a system a second time
changes nothing, and a system that is merged into itself in place stays exactly as it was. -/
theorem Reachable.merge_assoc_and_idempotent (reachable : first.Reachable)
    (reachable' : second.Reachable) (reachable'' : third.Reachable)
    (kinds : first.kind = second.kind) (kinds' : second.kind = third.kind) :
    (∃ front back whole, first.merge second = (.ok (), front) ∧ Merges first second front ∧
      front.merge third = (.ok (), whole) ∧ second.merge third = (.ok (), back) ∧
      first.merge back = (.ok (), whole) ∧ front.merge second = (.ok (), front)) ∧
    (InPlace.merge id).outcome first = (.ok (), first) := by
  obtain ⟨front, merged_front, reached_front, unites_front⟩ :=
    reachable.exists_unites reachable' kinds
  obtain ⟨back, merged_back, reached_back, unites_back⟩ :=
    reachable'.exists_unites reachable'' kinds'
  obtain ⟨whole, merged_whole, reached_whole, unites_whole⟩ :=
    reached_front.exists_unites reachable'' (unites_front.kind.trans (kinds.trans kinds'))
  obtain ⟨whole', merged_whole', reached_whole', unites_whole'⟩ :=
    reachable.exists_unites reached_back (kinds.trans unites_back.kind.symm)
  have assoc : whole = whole' := unites_front.assoc unites_back unites_whole unites_whole'
    reachable.coherent reachable'.coherent reached_front reached_whole reached_whole'
  -- Merging the second system once more is merging it with itself before.
  obtain ⟨second', merged_second, -, unites_second⟩ := reachable'.exists_unites reachable' rfl
  obtain rfl : second = second' :=
    congrArg Prod.snd (reachable'.merge_self.symm.trans merged_second)
  obtain ⟨again, merged_again, reached_again, unites_again⟩ :=
    reached_front.exists_unites reachable' (unites_front.kind.trans kinds)
  have idempotent : again = front := unites_front.assoc unites_second unites_again unites_front
    reachable.coherent reachable'.coherent reached_front reached_again reached_front
  refine ⟨⟨front, back, whole, merged_front, unites_front.toMerges, merged_whole, merged_back, ?_,
    ?_⟩, InPlace.outcome_merge_self rfl reachable.coherent⟩
  · rw [merged_whole', assoc]
  · rw [merged_again, idempotent]

/-- The lamp and the dimmer, each of which labels the states that they share differently. -/
theorem merge_assoc_and_idempotent_lamp :
    (∃ front back whole, lamp.merge dimmer = (.ok (), front) ∧ Merges lamp dimmer front ∧
      front.merge lamp = (.ok (), whole) ∧ dimmer.merge lamp = (.ok (), back) ∧
      lamp.merge back = (.ok (), whole) ∧ front.merge dimmer = (.ok (), front)) ∧
    (InPlace.merge id).outcome lamp = (.ok (), lamp) :=
  reachable_lamp.merge_assoc_and_idempotent reachable_dimmer reachable_lamp (by decide +kernel)
    (by decide +kernel)

end System

end TransitionSystems
