import TransitionSystems.Automaton.InPlace
import TransitionSystems.Proofs.Automaton.Construction

/-!
# Calls that fail leave no edges

A call of an automaton makes its checks before it writes to the states and the edges, so written
step by step it either succeeds or leaves these as they were. Only a guard that is found wrong
half-way leaves something behind: what was complete by then has been added at the end of the table.
-/

namespace TransitionSystems.Automaton

open TransitionSystems.InPlace

namespace InPlace

/-- Carries out one call step by step. -/
def perform : Call → Action
  | .addState state => addState state
  | .setInitial states => setInitial states
  | .setAccepting states => setAccepting states
  | .addEdge source target guard => addEdge source target guard
  | .addReadEdge source target guard line => addReadEdge source target guard line
  | .guards call => do
    let (answer, guards) := (← get).guards.perform call
    write fun automaton => { automaton with guards := guards }
    let _ ← ofExcept answer
  | .rename name => write (·.rename name)

/-! ## Outcomes -/

theorem outcome_setInitial (automaton : Automaton) (states : List Symbol) :
    (setInitial states).outcome automaton = settle automaton (automaton.setInitial states) :=
  outcome_insertAll changeInitial (fun _ => rfl) (fun _ _ _ => rfl)
    (fun state automaton => automaton.requireState "set_initial" state) states automaton

theorem outcome_setAccepting (automaton : Automaton) (states : List Symbol) :
    (setAccepting states).outcome automaton = settle automaton (automaton.setAccepting states) :=
  outcome_insertAll changeAccepting (fun _ => rfl) (fun _ _ _ => rfl)
    (fun state automaton => automaton.requireState "set_accepting" state) states automaton

theorem requireEnds_eq (source target : Symbol) :
    requireEnds source target = check (·.requireEnds source target) :=
  check_bind_check _ _

theorem outcome_addEdge (automaton : Automaton) (source target : Symbol) (guard : Nat) :
    (addEdge source target guard).outcome automaton =
      settle automaton (automaton.addEdge source target guard) := by
  rw [addEdge, requireEnds_eq]
  exact outcome_check_bind fun _ => outcome_check_bind fun _ => rfl

theorem outcome_readGuard (automaton : Automaton) (guard : Text) (line : Nat) :
    (readGuard guard line).outcome automaton =
      ((automaton.guards.readText guard line).1,
        { automaton with guards := (automaton.guards.readText guard line).2 }) := by
  rw [readGuard, outcome_get_bind]
  exact outcome_check (fun _ => (automaton.guards.readText guard line).1) _

theorem outcome_addReadEdge (automaton : Automaton) (source target : Symbol) (guard : Text)
    (line : Nat) :
    (addReadEdge source target guard line).outcome automaton =
      automaton.addReadEdge source target guard line := by
  let inspect (automaton : Automaton) := automaton.requireEnds source target
  have read := outcome_readGuard automaton guard line
  rw [addReadEdge, requireEnds_eq, Automaton.addReadEdge]
  cases ends : automaton.requireEnds source target with
  | error error => exact outcome_check_bind_of_error inspect ends _
  | ok _ =>
      rw [outcome_check_bind_of_ok inspect ends]
      cases found : automaton.guards.readText guard line with
      | mk answer guards =>
          rw [found] at read
          cases answer with
          | error error => exact outcome_bind_of_error read _
          | ok number =>
              rw [outcome_bind_of_ok read, outcome_addEdge]
              simp only []
              cases { automaton with guards := guards }.addEdge source target number <;> rfl

/-- Written step by step, a call has the outcome of the call. -/
theorem outcome_perform (automaton : Automaton) (call : Call) :
    (perform call).outcome automaton = automaton.perform call := by
  cases call with
  | addState | rename => rfl
  | setInitial states => exact outcome_setInitial automaton states
  | setAccepting states => exact outcome_setAccepting automaton states
  | addEdge source target guard => exact outcome_addEdge automaton source target guard
  | addReadEdge source target guard line =>
      exact outcome_addReadEdge automaton source target guard line
  | guards call =>
      rw [perform, outcome_get_bind, Automaton.perform]
      cases automaton.guards.perform call with
      | mk answer guards => cases answer <;> rfl

end InPlace

/-! ## Failures -/

variable {automaton next : Automaton} {error : Error}

/-- An automaton after a call that has failed: only its table may have grown, and only when a guard
has a fault. -/
structure AfterFailure (automaton : Automaton) (error : Error) (next : Automaton) : Prop where
  frame : next = { automaton with guards := next.guards }
  continues : automaton.guards.Continues next.guards
  unchanged_or_fault : next.guards = automaton.guards ∨ ∃ position fault,
    error = .guard position fault

namespace Coherent

theorem afterFailure_refl (coherent : automaton.Coherent) (error : Error) :
    automaton.AfterFailure error automaton where
  frame := rfl
  continues := (Guard.Table.Extends.refl _).continues coherent.guards coherent.guards
  unchanged_or_fault := .inl rfl

theorem afterFailure_of_settle (coherent : automaton.Coherent) {result : Except Error Automaton}
    (fails : settle automaton result = (.error error, next)) :
    automaton.AfterFailure error next := by
  obtain rfl := eq_of_settle_eq_error fails
  exact coherent.afterFailure_refl error

theorem afterFailure_guards (coherent : automaton.Coherent) {guards : Guard.Table}
    (coherent' : guards.Coherent) (grown : automaton.guards.Extends guards)
    (unchanged_or_fault : guards = automaton.guards ∨ ∃ position fault,
      error = .guard position fault) :
    automaton.AfterFailure error { automaton with guards := guards } where
  frame := rfl
  continues := grown.continues coherent.guards coherent'
  unchanged_or_fault := unchanged_or_fault

theorem afterFailure_addReadEdge (coherent : automaton.Coherent) {source target : Symbol}
    {guard : Text} {line : Nat}
    (fails : automaton.addReadEdge source target guard line = (.error error, next)) :
    automaton.AfterFailure error next := by
  obtain ⟨coherent', grown⟩ := coherent.guards.readText guard line
  rcases addReadEdge_cases coherent.guards source target guard line with
    ⟨-, fault, refused⟩ | ⟨-, ⟨fault, guards, read, refused⟩ | ⟨number, guards, -, -, added⟩⟩
  · obtain ⟨-, rfl⟩ := Prod.mk.inj (fails.symm.trans refused)
    exact coherent.afterFailure_refl error
  · rw [read] at coherent' grown
    obtain ⟨same, rfl⟩ := Prod.mk.inj (fails.symm.trans refused)
    obtain rfl := Except.error.inj same
    exact coherent.afterFailure_guards coherent' grown
      (Guard.Table.eq_or_exists_fault_of_readText read)
  · cases fails.symm.trans added

/-- A call that fails leaves no trace but nodes at the end of the table. -/
theorem afterFailure_perform (coherent : automaton.Coherent) {call : Call}
    (fails : automaton.perform call = (.error error, next)) :
    automaton.AfterFailure error next := by
  cases call with
  | addState | rename => cases fails
  | setInitial | setAccepting | addEdge => exact coherent.afterFailure_of_settle fails
  | addReadEdge => exact coherent.afterFailure_addReadEdge fails
  | guards call =>
      obtain ⟨coherent', grown⟩ := coherent.guards.perform call
      rw [Automaton.perform] at fails
      cases performed : automaton.guards.perform call with
      | mk answer guards =>
          rw [performed] at fails coherent' grown
          obtain ⟨failed, rfl⟩ := Prod.mk.inj fails
          cases answer with
          | ok number => cases failed
          | error fault =>
              obtain rfl := Except.error.inj failed
              exact coherent.afterFailure_guards coherent' grown
                (Guard.Table.eq_or_exists_fault_of_perform performed)

end Coherent

end TransitionSystems.Automaton
