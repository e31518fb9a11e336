import TransitionSystems.Proofs.FailedCalls
import TransitionSystems.Proofs.FirstOccurrences

/-!
# Transitions in the order of their insertion

Calls that add transitions are tried one after the other. The transitions of a system are then those
that it had, followed by the first occurrences of the new ones. Two calls are for the same
transition when their labels give the same values to the same fields: the order of the fields, and
how the label came about, make no difference.
-/

namespace TransitionSystems

/-! ## Labels with the same values -/

namespace EdgeLabel

/-- Two labels give the same values to the same fields. -/
def SameValues (left right : EdgeLabel) : Prop :=
  ∀ field, left.get? field = right.get? field

theorem sameValues_set_set (label : EdgeLabel) (field : Text) (former value : Symbol) :
    ((label.set field former).set field value).SameValues (label.set field value) := by
  intro other
  simp only [get?_set]
  split <;> rfl

theorem sameValues_set_comm (label : EdgeLabel) {first second : Text} (distinct : first ≠ second)
    (value value' : Symbol) :
    ((label.set first value).set second value').SameValues
      ((label.set second value').set first value) := by
  intro other
  simp only [get?_set]
  by_cases isFirst : other = first
  · simp [isFirst, distinct]
  · simp [isFirst]

end EdgeLabel

namespace Schema

theorem arrange_congr (schema : Schema) {left right : EdgeLabel} (same : left.SameValues right) :
    schema.arrange left = schema.arrange right := by
  have values : left.get? = right.get? := funext same
  rw [arrange, arrange, values]

theorem forall_admits_congr (schema : Schema) {left right : EdgeLabel}
    (same : left.SameValues right) :
    (∀ entry ∈ left.entries, schema.Admits entry.1 entry.2) ↔
      ∀ entry ∈ right.entries, schema.Admits entry.1 entry.2 := by
  simp only [Prod.forall, ← EdgeLabel.get?_eq_some_iff, same _]

/-- Arranging an accepted label only moves its entries. -/
theorem arrange_perm (schema : Schema) {label : EdgeLabel}
    (admits : ∀ entry ∈ label.entries, schema.Admits entry.1 entry.2) :
    (schema.arrange label).entries.Perm label.entries := by
  refine (List.perm_ext_iff_of_nodup (schema.arrange label).nodup.of_map label.nodup.of_map).2 ?_
  rintro ⟨field, value⟩
  rw [← EdgeLabel.get?_eq_some_iff, get?_arrange, EdgeLabel.get?_eq_some_iff.symm]
  refine ⟨fun found => ?_, fun found => ?_⟩
  · split at found
    · exact found
    · cases found
  · obtain ⟨alphabet, known, -⟩ := admits (field, value) (EdgeLabel.get?_eq_some_iff.1 found)
    rwa [if_pos (exists_alphabet_iff.1 ⟨alphabet, known⟩)]

end Schema

namespace System

variable {system : System}

/-! ## Calls -/

/-- A call is for states of the system, and its label has fields of the kind only, each with a value
in its alphabet. -/
structure IsValid (system : System) (call : Transition) : Prop where
  source_mem : call.source ∈ system.states
  target_mem : call.target ∈ system.states
  values : ∀ entry ∈ call.label.entries,
    ∃ alphabet, (entry.1, alphabet) ∈ system.schema.alphabets.entries ∧ entry.2 ∈ alphabet

/-- Whether a call that adds a transition succeeds. -/
def succeeds (system : System) (call : Transition) : Bool :=
  (system.perform (transitionUpdate call)).isOk

/-- The transition of a call, whose label has its fields in the order of the kind. -/
def arranged (system : System) (call : Transition) : Transition :=
  { call with label := system.schema.arrange call.label }

/-- Tries to add transitions one after the other. Calls that fail are passed over. -/
def attempt (system : System) (calls : List Transition) : System :=
  calls.foldl (fun system call => (system.run [transitionUpdate call]).2) system

theorem attempt_concat (system : System) (calls : List Transition) (call : Transition) :
    system.attempt (calls ++ [call]) =
      ((system.attempt calls).run [transitionUpdate call]).2 :=
  List.foldl_append

theorem perform_transitionUpdate_eq_ok_iff {next : System} {call : Transition} :
    system.perform (transitionUpdate call) = .ok next ↔
      call.source ∈ system.labels ∧ call.target ∈ system.labels ∧
        (∀ entry ∈ call.label.entries, system.schema.Admits entry.1 entry.2) ∧
        next = system.putTransition (system.arranged call) :=
  addTransition_eq_ok_iff

theorem succeeds_iff {call : Transition} :
    system.succeeds call = true ↔
      call.source ∈ system.labels ∧ call.target ∈ system.labels ∧
        ∀ entry ∈ call.label.entries, system.schema.Admits entry.1 entry.2 := by
  have found : system.succeeds call = true ↔
      ∃ next, system.perform (transitionUpdate call) = .ok next := by
    rw [succeeds]
    cases system.perform (transitionUpdate call) <;> simp [Except.isOk, Except.toBool]
  simp only [found, perform_transitionUpdate_eq_ok_iff, exists_and_left, exists_eq, and_true]

theorem Coherent.succeeds_iff_isValid (coherent : system.Coherent) {call : Transition} :
    system.succeeds call = true ↔ system.IsValid call := by
  simp only [succeeds_iff, ← coherent.mem_states_iff, Schema.Admits, Schema.alphabet_eq_ok_iff]
  constructor
  · rintro ⟨source, target, values⟩
    exact ⟨source, target, values⟩
  · intro valid
    exact ⟨valid.source_mem, valid.target_mem, valid.values⟩

theorem run_transitionUpdate (system : System) (call : Transition) :
    (system.run [transitionUpdate call]).2 =
      if system.succeeds call then system.putTransition (system.arranged call) else system := by
  rw [run_singleton, succeeds]
  cases performed : system.perform (transitionUpdate call) with
  | ok next => exact (perform_transitionUpdate_eq_ok_iff.1 performed).2.2.2
  | error error => rfl

/-! ## First occurrences -/

/-- The containers that calls for transitions leave alone. -/
def SameFrame (system later : System) : Prop :=
  later = { system with
    transitions := later.transitions, edges := later.edges, outgoing := later.outgoing }

theorem SameFrame.putTransition {later : System} (frame : system.SameFrame later)
    (transition : Transition) : system.SameFrame (later.putTransition transition) := by
  rw [System.putTransition]
  split
  · exact frame
  · rw [SameFrame, frame]

theorem SameFrame.succeeds_eq {later : System} (frame : system.SameFrame later)
    (call : Transition) : later.succeeds call = system.succeeds call := by
  rw [Bool.eq_iff_iff, succeeds_iff, succeeds_iff, frame]

theorem SameFrame.arranged_eq {later : System} (frame : system.SameFrame later)
    (call : Transition) : later.arranged call = system.arranged call := by
  rw [arranged, arranged, frame]

theorem sameFrame_attempt (system : System) (calls : List Transition) :
    system.SameFrame (system.attempt calls) := by
  induction calls using List.reverseRecOn with
  | nil => rfl
  | append_singleton calls call induction =>
      rw [attempt_concat, run_transitionUpdate]
      split
      · exact induction.putTransition _
      · exact induction

theorem Reachable.attempt (reachable : system.Reachable) (calls : List Transition) :
    (system.attempt calls).Reachable := by
  induction calls using List.reverseRecOn with
  | nil => exact reachable
  | append_singleton calls call induction =>
      rw [attempt_concat]
      exact induction.run _

theorem Coherent.toList_putTransition (coherent : system.Coherent) (transition : Transition) :
    (system.putTransition transition).transitions.toList =
      if transition ∈ system.transitions then
        system.transitions.toList
      else
        system.transitions.toList ++ [transition] := by
  rw [System.putTransition]
  simp only [coherent.mem_edges_iff]
  split
  · rfl
  · exact Array.toList_push

/-- The transitions that calls ask for: those of the calls that succeed. -/
def requested (system : System) (calls : List Transition) : List Transition :=
  (calls.filter system.succeeds).map system.arranged

/-- One call after the other, the transitions are first occurrences. -/
theorem Reachable.toList_attempt_eq_eraseDups (reachable : system.Reachable)
    (calls : List Transition) :
    (system.attempt calls).transitions.toList =
      (system.transitions.toList ++ system.requested calls).eraseDups := by
  induction calls using List.reverseRecOn with
  | nil =>
      rw [requested, List.filter_nil, List.map_nil, List.append_nil,
        eraseDups_of_nodup reachable.coherent.nodup_transitions]
      rfl
  | append_singleton calls call induction =>
      have frame := system.sameFrame_attempt calls
      rw [attempt_concat, run_transitionUpdate, frame.succeeds_eq, frame.arranged_eq]
      by_cases succeeds : system.succeeds call = true
      · have last : system.requested (calls ++ [call]) =
            system.requested calls ++ [system.arranged call] := by
          simp [requested, succeeds]
        have present : system.arranged call ∈ (system.attempt calls).transitions ↔
            system.arranged call ∈ system.transitions.toList ++ system.requested calls := by
          rw [← Array.mem_toList_iff, induction, List.mem_eraseDups]
        rw [if_pos succeeds, (reachable.attempt calls).coherent.toList_putTransition, last,
          ← List.append_assoc, induction]
        simp only [present]
        exact (eraseDups_concat ..).symm
      · have same : system.requested (calls ++ [call]) = system.requested calls := by
          simp [requested, succeeds]
        rw [if_neg succeeds, same, induction]

theorem Reachable.toList_attempt (reachable : system.Reachable) (calls : List Transition) :
    (system.attempt calls).transitions.toList =
      system.transitions.toList ++
        ((system.requested calls).filter (· ∉ system.transitions)).eraseDups := by
  have new : (system.requested calls).removeAll system.transitions.toList =
      (system.requested calls).filter (· ∉ system.transitions) := by
    apply List.filter_congr
    intro transition _
    simp
  rw [reachable.toList_attempt_eq_eraseDups, List.eraseDups_append,
    eraseDups_of_nodup reachable.coherent.nodup_transitions, new]

/-! ## Calls for one transition -/

/-- Two calls do the same, and they store one transition. -/
structure AreInterchangeable (system : System) (first second : Transition) : Prop where
  succeeds_eq : system.succeeds first = system.succeeds second
  attempt_eq : system.attempt [first] = system.attempt [second]
  attempt_both : system.attempt [first, second] = system.attempt [first]
  count_eq_one : system.succeeds first = true →
    (system.attempt [first, second]).transitions.toList.count (system.arranged first) = 1

theorem attempt_singleton (system : System) (call : Transition) :
    system.attempt [call] =
      if system.succeeds call then system.putTransition (system.arranged call) else system :=
  system.run_transitionUpdate call

theorem putTransition_putTransition (system : System) (transition : Transition) :
    (system.putTransition transition).putTransition transition =
      system.putTransition transition := by
  have present : transition ∈ (system.putTransition transition).edges := by
    rw [putTransition]
    split
    · assumption
    · exact Std.ExtTreeSet.mem_insert_self
  rw [putTransition, if_pos present]

/-- Labels with the same values belong to the same transition. -/
theorem Reachable.areInterchangeable (reachable : system.Reachable) (source target : Symbol)
    {left right : EdgeLabel} (same : left.SameValues right) :
    system.AreInterchangeable ⟨source, target, left⟩ ⟨source, target, right⟩ := by
  have arranged_eq : system.arranged ⟨source, target, left⟩ =
      system.arranged ⟨source, target, right⟩ := by
    rw [arranged, arranged, system.schema.arrange_congr same]
  have succeeds_eq : system.succeeds ⟨source, target, left⟩ =
      system.succeeds ⟨source, target, right⟩ := by
    rw [Bool.eq_iff_iff, succeeds_iff, succeeds_iff, system.schema.forall_admits_congr same]
  have frame := system.sameFrame_attempt [⟨source, target, left⟩]
  have both : system.attempt [⟨source, target, left⟩, ⟨source, target, right⟩] =
      system.attempt [⟨source, target, left⟩] := by
    have second := run_transitionUpdate (system.attempt [⟨source, target, left⟩])
      ⟨source, target, right⟩
    rw [frame.succeeds_eq, frame.arranged_eq, ← succeeds_eq, ← arranged_eq] at second
    refine second.trans ?_
    rw [attempt_singleton]
    split
    · exact system.putTransition_putTransition _
    · rfl
  refine ⟨succeeds_eq, ?_, both, fun succeeds => ?_⟩
  · rw [attempt_singleton, attempt_singleton, succeeds_eq, arranged_eq]
  · have stored : system.arranged ⟨source, target, left⟩ ∈
        (system.attempt [⟨source, target, left⟩]).transitions.toList := by
      rw [reachable.toList_attempt_eq_eraseDups, List.mem_eraseDups, requested,
        List.filter_cons_of_pos succeeds]
      simp
    rw [both]
    exact List.count_eq_one_of_mem (reachable.attempt _).coherent.nodup_transitions stored

/-- After any calls for transitions, the former transitions are followed by the first occurrences of
the new ones, in the order of the calls. The calls that count are the valid ones; each stores the
entries of its label, in the order of the kind. So labels with the same values make one transition,
also when a field has been overwritten. -/
theorem Reachable.attempt_keeps_first_occurrences (reachable : system.Reachable) :
    (∀ calls, (system.attempt calls).transitions.toList =
      system.transitions.toList ++
        (((calls.filter system.succeeds).map system.arranged).filter
          (· ∉ system.transitions)).eraseDups) ∧
    (∀ call, system.succeeds call = true ↔ system.IsValid call) ∧
    (∀ call, system.IsValid call →
      (system.arranged call).label.entries.Perm call.label.entries ∧
        (system.arranged call).label.fields.Sublist system.kind.fields) ∧
    (∀ source target left right, EdgeLabel.SameValues left right →
      system.AreInterchangeable ⟨source, target, left⟩ ⟨source, target, right⟩) ∧
    ∀ source target label field former value,
      system.AreInterchangeable
        ⟨source, target, (EdgeLabel.set label field former).set field value⟩
        ⟨source, target, EdgeLabel.set label field value⟩ := by
  refine ⟨reachable.toList_attempt, fun call => reachable.coherent.succeeds_iff_isValid,
    fun call valid => ⟨?_, system.schema.fields_arrange_sublist call.label⟩,
    fun source target _ _ => reachable.areInterchangeable source target,
    fun source target label field former value => ?_⟩
  · have succeeds := reachable.coherent.succeeds_iff_isValid.2 valid
    exact system.schema.arrange_perm (succeeds_iff.1 succeeds).2.2
  · exact reachable.areInterchangeable source target
      (label.sameValues_set_set field former value)

/-- The label with which the lamp is switched on, its fields the other way round. -/
def pressGlow : EdgeLabel :=
  .ofList [(environmentActionsField, .atom "press"), (systemActionsField, .atom "glow")]

/-- The same label, in which the lamp was to spark first. -/
def pressSparkGlow : EdgeLabel :=
  .ofList [(environmentActionsField, .atom "press"), (systemActionsField, .atom "spark"),
    (systemActionsField, .atom "glow")]

/-- Calls for transitions of the lamp: one that is there, one to an unknown state, a new one, one
with an action that only closed systems have, and the new one again. -/
def lampCalls : List Transition :=
  [⟨.atom "dark", .atom "bright", pressGlow⟩,
    ⟨.atom "dark", .atom "absent", .unlabeled⟩,
    ⟨.atom "broken", .atom "dark", pressGlow⟩,
    ⟨.atom "broken", .atom "broken", .action (.atom "glow")⟩,
    ⟨.atom "broken", .atom "dark", pressSparkGlow⟩]

/-- Of the calls for the lamp, one stores a transition. Neither the order of the fields nor a
passing spark makes a difference. -/
theorem lamp_attempt_keeps_first_occurrences :
    (lamp.attempt lampCalls).transitions.toList =
      lamp.transitions.toList ++
        [⟨.atom "broken", .atom "dark",
          .ofList [(systemActionsField, .atom "glow"),
            (environmentActionsField, .atom "press")]⟩] ∧
    lamp.AreInterchangeable ⟨.atom "broken", .atom "dark", pressGlow⟩
      ⟨.atom "broken", .atom "dark",
        .ofList [(systemActionsField, .atom "glow"), (environmentActionsField, .atom "press")]⟩ ∧
    lamp.AreInterchangeable ⟨.atom "broken", .atom "dark", pressSparkGlow⟩
      ⟨.atom "broken", .atom "dark", pressGlow⟩ := by
  obtain ⟨transitions, -, -, same, overwritten⟩ :=
    Reachable.attempt_keeps_first_occurrences reachable_lamp
  refine ⟨(transitions lampCalls).trans (congrArg (lamp.transitions.toList ++ ·) ?_), ?_, ?_⟩
  · decide +kernel
  · exact same _ _ _ _ (EdgeLabel.unlabeled.sameValues_set_comm (by decide) _ _)
  · exact overwritten _ _ (EdgeLabel.unlabeled.set environmentActionsField (.atom "press")) _ _ _

end System

end TransitionSystems
