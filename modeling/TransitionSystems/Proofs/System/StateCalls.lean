import TransitionSystems.Proofs.System.Extensionality
import TransitionSystems.Proofs.System.Merge

/-!
# States in any order

Calls that add states, with or without labels, succeed together when every label fits into the
universe and no state is given two labels, counting the one that it may have. What they lead to is
then told by which calls there are: a state has the label that it had or that some call gives it. So
the order of the calls decides about the order of the states and about nothing else.
-/

namespace TransitionSystems

/-- A call that adds a state, with a label if one is given. -/
structure StateCall where
  state : Symbol
  label : Option Label

/-- The update that a call asks for. -/
def StateCall.update : StateCall → Update
  | ⟨state, none⟩ => .addState state
  | ⟨state, some label⟩ => .addLabeledState state label

namespace System

variable {system next : System} {call : StateCall} {calls : List StateCall}

/-! ## Labels that fit -/

/-- Every given label holds propositions of the universe, and for each state the given labels agree
with each other and with the label that the state has, if it has one. -/
structure Accepts (system : System) (calls : List StateCall) : Prop where
  subset : ∀ state label, ⟨state, some label⟩ ∈ calls →
    ∀ proposition ∈ label, proposition ∈ system.propositions
  present : ∀ state label present, ⟨state, some label⟩ ∈ calls →
    system.label? state = some present → present = label
  agree : ∀ state left right, ⟨state, some left⟩ ∈ calls → ⟨state, some right⟩ ∈ calls →
    left = right

theorem Accepts.of_subset {others : List StateCall} (accepts : system.Accepts calls)
    (listed : others ⊆ calls) : system.Accepts others where
  subset state label given := accepts.subset state label (listed given)
  present state label present given := accepts.present state label present (listed given)
  agree state left right given given' :=
    accepts.agree state left right (listed given) (listed given')

theorem accepts_nil (system : System) : system.Accepts [] where
  subset := by simp
  present := by simp
  agree := by simp

/-! ## One call -/

/-- What a call that succeeds leaves. -/
def receive (system : System) : StateCall → System
  | ⟨state, none⟩ => system.addState state
  | ⟨state, some label⟩ => system.putState state (some label)

theorem perform_stateCall_eq_ok_iff :
    system.perform call.update = .ok next ↔
      system.Accepts [call] ∧ next = system.receive call := by
  obtain ⟨state, label | label⟩ := call
  · have accepts : system.Accepts [⟨state, none⟩] := by constructor <;> simp
    simp [accepts, StateCall.update, perform, receive, eq_comm]
  · rw [StateCall.update, perform, addLabeledState_eq_ok_iff, ← and_assoc]
    refine and_congr_left fun _ => ⟨fun ⟨known, same⟩ => ?_, fun accepts => ?_⟩
    · constructor <;> simp_all
    · exact ⟨accepts.subset state label (by simp),
        fun present => accepts.present state label present (by simp)⟩

theorem propositions_receive : (system.receive call).propositions = system.propositions := by
  obtain ⟨state, label | label⟩ := call
  · exact system.propositions_addState state
  · rfl

theorem receive_eq : system.receive call =
    { system with
      states := (system.receive call).states
      labels := (system.receive call).labels } := by
  obtain ⟨state, label | label⟩ := call
  · rw [receive, addState]
    split <;> rfl
  · rfl

theorem mem_labels_receive {state : Symbol} :
    state ∈ (system.receive call).labels ↔ state ∈ system.labels ∨ state = call.state := by
  obtain ⟨added, label | label⟩ := call
  · by_cases present : added ∈ system.labels
    · rw [receive, addState_of_mem present, or_iff_left_of_imp]
      rintro rfl
      exact present
    · rw [receive, addState_of_not_mem present, mem_labels_putState]
  · exact mem_labels_putState

/-- A state has the label that it had or is given. -/
theorem label?_receive_eq_some_iff (accepts : system.Accepts [call]) {state : Symbol}
    {label : Label} :
    (system.receive call).label? state = some label ↔
      system.label? state = some label ∨ call = ⟨state, some label⟩ := by
  obtain ⟨added, given | given⟩ := call
  · by_cases present : added ∈ system.labels
    · simp [receive, addState_of_mem present]
    · rw [receive, addState_of_not_mem present, label?_putState]
      split
      · next same =>
          subst same
          simp [label?_of_not_mem present]
      · simp
  · rw [receive, label?_putState]
    split
    · next same =>
        subst same
        have kept := accepts.present added given
        constructor
        · intro found
          rw [Option.some.inj found]
          exact .inr rfl
        · rintro (had | same)
          · rw [kept label (by simp) had]
          · exact congrArg StateCall.label same
    · next other => simp [other]

/-! ## Calls one after the other -/

/-- Calls fit when the first one does and the others fit afterwards. -/
theorem accepts_cons_iff : system.Accepts (call :: calls) ↔
    system.Accepts [call] ∧ (system.receive call).Accepts calls := by
  constructor
  · intro accepts
    have first : system.Accepts [call] := accepts.of_subset (by simp)
    refine ⟨first, ?_, ?_, ?_⟩
    · intro state label given
      rw [propositions_receive]
      exact accepts.subset state label (List.mem_cons_of_mem _ given)
    · intro state label present given has
      have given' := List.mem_cons_of_mem call given
      rcases (label?_receive_eq_some_iff first).1 has with had | rfl
      · exact accepts.present state label present given' had
      · exact accepts.agree state present label List.mem_cons_self given'
    · intro state left right given given'
      exact accepts.agree state left right (List.mem_cons_of_mem _ given)
        (List.mem_cons_of_mem _ given')
  · rintro ⟨first, rest⟩
    -- A label that a state has, or is given by the first call, is there for the other calls.
    have later {state : Symbol} {label : Label} :
        system.label? state = some label ∨ call = ⟨state, some label⟩ →
          (system.receive call).label? state = some label :=
      (label?_receive_eq_some_iff first).2
    refine ⟨?_, ?_, ?_⟩
    · intro state label given
      rcases List.mem_cons.1 given with rfl | given
      · exact first.subset state label (by simp)
      · have known := rest.subset state label given
        rwa [propositions_receive] at known
    · intro state label present given had
      rcases List.mem_cons.1 given with rfl | given
      · exact first.present state label present (by simp) had
      · exact rest.present state label present given (later (.inl had))
    · intro state left right given given'
      rcases List.mem_cons.1 given with given | given <;>
        rcases List.mem_cons.1 given' with given' | given'
      · exact first.agree state left right (by simp [given]) (by simp [given'])
      · exact rest.present state right left given' (later (.inr given.symm))
      · exact (rest.present state left right given (later (.inr given'.symm))).symm
      · exact rest.agree state left right given given'

/-- What calls for states lead to. -/
structure Receives (system : System) (calls : List StateCall) (next : System) : Prop where
  frame : next = { system with states := next.states, labels := next.labels }
  mem_labels : ∀ state, state ∈ next.labels ↔
    state ∈ system.labels ∨ ∃ label, ⟨state, label⟩ ∈ calls
  label? : ∀ state label, next.label? state = some label ↔
    system.label? state = some label ∨ ⟨state, some label⟩ ∈ calls

theorem receives_nil (system : System) : system.Receives [] system where
  frame := rfl
  mem_labels := by simp
  label? := by simp

theorem Receives.cons (accepts : system.Accepts [call])
    (rest : (system.receive call).Receives calls next) :
    system.Receives (call :: calls) next where
  frame := by rw [rest.frame, receive_eq]
  mem_labels state := by
    have named : (∃ label, call = ⟨state, label⟩) ↔ state = call.state := by
      constructor
      · rintro ⟨label, rfl⟩
        rfl
      · rintro rfl
        exact ⟨call.label, rfl⟩
    simp only [rest.mem_labels, mem_labels_receive, List.mem_cons, eq_comm (b := call),
      exists_or, named, or_assoc]
  label? state label := by
    rw [rest.label?, label?_receive_eq_some_iff accepts, List.mem_cons, or_assoc,
      eq_comm (a := call)]

/-- The calls succeed exactly when they fit. -/
theorem exists_runsTo_iff_accepts :
    (∃ next, system.RunsTo (calls.map StateCall.update) next) ↔ system.Accepts calls := by
  induction calls generalizing system with
  | nil => exact ⟨fun _ => accepts_nil system, fun _ => ⟨system, .nil system⟩⟩
  | cons call calls induction =>
      rw [accepts_cons_iff, ← induction]
      constructor
      · rintro ⟨next, runs⟩
        obtain ⟨middle, performed, rest⟩ := runs.exists_middle
        obtain ⟨first, rfl⟩ := perform_stateCall_eq_ok_iff.1 performed
        exact ⟨first, next, rest⟩
      · rintro ⟨first, next, rest⟩
        exact ⟨next, .cons (perform_stateCall_eq_ok_iff.2 ⟨first, rfl⟩) rest⟩

theorem receives_of_runsTo (runs : system.RunsTo (calls.map StateCall.update) next) :
    system.Receives calls next := by
  induction calls generalizing system with
  | nil =>
      obtain ⟨-, rfl⟩ := Prod.mk.inj runs
      exact receives_nil system
  | cons call calls induction =>
      obtain ⟨middle, performed, rest⟩ := runs.exists_middle
      obtain ⟨first, rfl⟩ := perform_stateCall_eq_ok_iff.1 performed
      exact .cons first (induction rest)

/-! ## Permutations of the calls -/

/-- Adds states one after the other, up to the first call that fails. -/
def addEach (system : System) (calls : List StateCall) : Except Error Unit × System :=
  system.run (calls.map StateCall.update)

/-- Two systems that have the same states, labeled in the same way, and differ at most in the order
of these states. The label map tells a state without a label from one with the empty label. -/
structure SameUpToOrder (left right : System) : Prop where
  states : left.states.toList.Perm right.states.toList
  labels : left.labels = right.labels
  frame : left = { right with states := left.states, labels := left.labels }

theorem addEach_eq_ok_iff :
    (system.addEach calls).1 = .ok () ↔
      system.RunsTo (calls.map StateCall.update) (system.addEach calls).2 :=
  ⟨fun succeeds => Prod.ext succeeds rfl, congrArg Prod.fst⟩

/-- Where the same calls lead to is the same up to the order of the states. -/
theorem Receives.sameUpToOrder {others : List StateCall} {next' : System}
    (receives : system.Receives calls next) (receives' : system.Receives others next')
    (coherent : next.Coherent) (coherent' : next'.Coherent)
    (same : ∀ call, call ∈ others ↔ call ∈ calls) : SameUpToOrder next' next := by
  have mem_labels (state : Symbol) : state ∈ next'.labels ↔ state ∈ next.labels := by
    simp only [receives.mem_labels, receives'.mem_labels, same]
  have mem_states (state : Symbol) : state ∈ next'.states ↔ state ∈ next.states := by
    rw [coherent.mem_states_iff, coherent'.mem_states_iff, mem_labels]
  have label?_eq (state : Symbol) : next'.label? state = next.label? state := by
    ext label
    rw [receives.label?, receives'.label?, same]
  refine ⟨?_, ?_, ?_⟩
  · rw [List.perm_ext_iff_of_nodup coherent'.nodup_states coherent.nodup_states]
    intro state
    rw [Array.mem_toList_iff, Array.mem_toList_iff, mem_states]
  · apply Std.ExtTreeMap.ext_getElem?
    intro state
    rw [coherent.getElem?_labels, coherent'.getElem?_labels, label?_eq]
    simp only [mem_states]
  · rw [receives'.frame, receives.frame]

/-- Calls that add states succeed exactly when their labels fit. If they succeed in one order, they
do so in every order, and they lead to the same states with the same labels. -/
theorem Reachable.addEach_in_any_order (reachable : system.Reachable) (calls : List StateCall) :
    ((system.addEach calls).1 = .ok () ↔ system.Accepts calls) ∧
      ∀ others, others.Perm calls → (system.addEach calls).1 = .ok () →
        (system.addEach others).1 = .ok () ∧
          SameUpToOrder (system.addEach others).2 (system.addEach calls).2 := by
  have succeeds_iff (calls : List StateCall) :
      (system.addEach calls).1 = .ok () ↔ system.Accepts calls := by
    rw [← exists_runsTo_iff_accepts]
    refine ⟨fun succeeds => ⟨_, addEach_eq_ok_iff.1 succeeds⟩, ?_⟩
    rintro ⟨next, runs⟩
    exact congrArg Prod.fst runs
  refine ⟨succeeds_iff calls, fun others perm succeeds => ?_⟩
  have accepts := (succeeds_iff calls).1 succeeds
  have succeeds' := (succeeds_iff others).2 (accepts.of_subset perm.subset)
  exact ⟨succeeds', (receives_of_runsTo (addEach_eq_ok_iff.1 succeeds)).sameUpToOrder
    (receives_of_runsTo (addEach_eq_ok_iff.1 succeeds')) (reachable.run _).coherent
    (reachable.run _).coherent fun call => perm.mem_iff⟩

/-- Calls for the lamp: a state that it has, one that it has without a label, one with its label,
and two new states, one of them with the empty label and without one. -/
def lampStateCalls : List StateCall :=
  [⟨.atom "dark", none⟩, ⟨.atom "broken", some (.ofList [.atom "on"])⟩,
    ⟨.atom "bright", some (.ofList [.atom "on"])⟩, ⟨.atom "spare", some ∅⟩, ⟨.atom "spare", none⟩,
    ⟨.atom "stored", none⟩]

/-- The calls for the lamp succeed in the reversed order, too, and have the same effect. -/
theorem lamp_addEach_in_any_order :
    (lamp.addEach lampStateCalls).1 = .ok () ∧
      lampStateCalls.reverse.Perm lampStateCalls ∧
      (lamp.addEach lampStateCalls.reverse).1 = .ok () ∧
      SameUpToOrder (lamp.addEach lampStateCalls.reverse).2 (lamp.addEach lampStateCalls).2 := by
  have completes : (lamp.addEach lampStateCalls).1.isOk = true := by decide +kernel
  have succeeds : (lamp.addEach lampStateCalls).1 = .ok () := by
    cases outcome : (lamp.addEach lampStateCalls).1 with
    | error error =>
        rw [outcome] at completes
        cases completes
    | ok _ => rfl
  have perm := lampStateCalls.reverse_perm
  obtain ⟨-, permuted⟩ := Reachable.addEach_in_any_order reachable_lamp lampStateCalls
  exact ⟨succeeds, perm, permuted _ perm succeeds⟩

example :
    (lamp.addEach lampStateCalls).2.states ≠ (lamp.addEach lampStateCalls.reverse).2.states := by
  decide +kernel

end System

end TransitionSystems
