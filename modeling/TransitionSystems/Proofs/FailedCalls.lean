import TransitionSystems.Proofs.Automaton.InPlace
import TransitionSystems.Proofs.System.InPlace

/-!
# Failed calls leave no trace

Systems and automata are changed in place, container by container. A call that fails has failed in
one of its checks, before anything was written; so it leaves the system or the automaton as it was.
The table of an automaton is the exception: what is complete of a guard is written before the guard
is found wrong.
-/

namespace TransitionSystems

open InPlace (outcome settle eq_of_settle_eq_error)

namespace System

variable {system source next : System} {error : Error}

theorem run_singleton (system : System) (update : Update) :
    system.run [update] = settle system (system.perform update) := by
  rw [run]
  cases system.perform update <;> rfl

theorem Reachable.eq_of_merge_eq_error (reachable : system.Reachable)
    (reachable' : source.Reachable) (fails : system.merge source = (.error error, next)) :
    next = system := by
  obtain ⟨unites, differ⟩ := reachable.merge_unites reachable'
  by_cases kinds : system.kind = source.kind
  · obtain ⟨result, merged, -⟩ := unites kinds
    rw [merged] at fails
    cases fails
  · obtain ⟨other, refused, -⟩ := differ kinds
    rw [refused] at fails
    exact (Prod.mk.inj fails).2.symm

end System

/-- Written step by step, updates, merges and calls have their outcomes. When an update or a merge
fails, the system is what it was; a merge of a system into itself does not fail. When a call of an
automaton fails, at most its table has grown, because of a fault in a guard. -/
theorem failed_calls_leave_no_trace {system source : System} {automaton : Automaton}
    (reachable : system.Reachable) (reachable' : source.Reachable)
    (reachable'' : automaton.Reachable) :
    (∀ update, (System.InPlace.perform update).outcome system = system.run [update] ∧
      ∀ error next, (System.InPlace.perform update).outcome system = (.error error, next) →
        next = system) ∧
    ((System.InPlace.merge fun _ => source).outcome system = system.merge source ∧
      ∀ error next, (System.InPlace.merge fun _ => source).outcome system = (.error error, next) →
        next = system) ∧
    ((System.InPlace.merge id).outcome system).1 = .ok () ∧
    ∀ call, (Automaton.InPlace.perform call).outcome automaton = automaton.perform call ∧
      ∀ error next, (Automaton.InPlace.perform call).outcome automaton = (.error error, next) →
        automaton.AfterFailure error next := by
  refine ⟨fun update => ?_, ?_, ?_, fun call => ?_⟩
  · have performed := System.InPlace.outcome_perform system update
    refine ⟨performed.trans (system.run_singleton update).symm, fun error next fails => ?_⟩
    exact eq_of_settle_eq_error (performed.symm.trans fails)
  · have merged := System.InPlace.outcome_merge system source
    refine ⟨merged, fun error next fails => ?_⟩
    exact reachable.eq_of_merge_eq_error reachable' (merged.symm.trans fails)
  · rw [System.InPlace.outcome_merge_self rfl reachable.coherent]
  · have performed := Automaton.InPlace.outcome_perform automaton call
    refine ⟨performed, fun error next fails => ?_⟩
    exact reachable''.coherent.afterFailure_perform (performed.symm.trans fails)

theorem exists_error_of_isOk {σ : Type} {result : Except Error Unit × σ}
    (fails : result.1.isOk = false) : ∃ error next, result = (.error error, next) := by
  obtain ⟨outcome, next⟩ := result
  cases outcome with
  | ok _ => cases fails
  | error error => exact ⟨error, next, rfl⟩

/-- The lamp refuses the second of two states and a merge with a counter. The monitor refuses a
guard that ends too early, but keeps its atoms. -/
theorem failed_calls_leave_no_trace_lamp :
    (∃ error, (System.InPlace.perform (.setInitial [.atom "bright", .atom "absent"])).outcome
      System.lamp = (.error error, System.lamp)) ∧
    (∃ error, (System.InPlace.merge fun _ => .empty (.empty .closed) "counter").outcome
      System.lamp = (.error error, System.lamp)) ∧
    ((System.InPlace.merge id).outcome System.lamp).1 = .ok () ∧
    ∃ error next, (Automaton.InPlace.perform
        (.addReadEdge (.atom "idle") (.atom "idle") "r | (s" 1)).outcome Automaton.monitor =
      (.error error, next) ∧ Automaton.monitor.AfterFailure error next := by
  obtain ⟨updates, ⟨-, merges⟩, self, calls⟩ := failed_calls_leave_no_trace System.reachable_lamp
    (.fresh (.empty .closed) "counter" false) Automaton.reachable_monitor
  refine ⟨?_, ?_, self, ?_⟩
  · obtain ⟨error, next, fails⟩ := exists_error_of_isOk
      (by decide +kernel : ((System.InPlace.perform
        (.setInitial [.atom "bright", .atom "absent"])).outcome System.lamp).1.isOk = false)
    rw [(updates _).2 error next fails] at fails
    exact ⟨error, fails⟩
  · obtain ⟨error, next, fails⟩ := exists_error_of_isOk
      (by decide +kernel : ((System.InPlace.merge fun _ =>
        .empty (.empty .closed) "counter").outcome System.lamp).1.isOk = false)
    rw [merges error next fails] at fails
    exact ⟨error, fails⟩
  · obtain ⟨error, next, fails⟩ := exists_error_of_isOk
      (by decide +kernel : ((Automaton.InPlace.perform
        (.addReadEdge (.atom "idle") (.atom "idle") "r | (s" 1)).outcome
          Automaton.monitor).1.isOk = false)
    exact ⟨error, next, fails, (calls _).2 error next fails⟩

end TransitionSystems
