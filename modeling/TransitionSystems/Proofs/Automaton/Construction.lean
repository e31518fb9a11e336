import TransitionSystems.Proofs.Automaton.Coherence
import TransitionSystems.Proofs.Model.Lines

/-!
# Construction of automata

Automata are made by calls, or read from files. A file that declares an automaton begins with a
fresh one and goes on by calls, so every automaton is the result of calls on a fresh one. It is
coherent, and its edges are those of the calls in their order.
-/

namespace TransitionSystems

namespace Automaton

variable {automaton next : Automaton}

/-- The automata that calls lead to, from a fresh one or from one that a file declares. Calls that
fail count. -/
inductive Reachable : Automaton → Prop
  | fresh (name : Text) : Reachable { name := name }
  | file {lines : List Text} {automaton : Automaton}
      (read : Model.ofLines lines = .ok (.automaton automaton)) : Reachable automaton
  | call {automaton : Automaton} (call : Call) (reachable : Reachable automaton) :
      Reachable (automaton.perform call).2

/-- Calls on a fresh automaton have led to the automaton. -/
def IsMade (automaton : Automaton) : Prop :=
  ∃ name calls, automaton = ({ name := name } : Automaton).run calls

theorem IsMade.run (made : automaton.IsMade) (calls : List Call) :
    (automaton.run calls).IsMade := by
  obtain ⟨name, former, rfl⟩ := made
  exact ⟨name, former ++ calls, List.foldl_append.symm⟩

theorem IsMade.perform (made : automaton.IsMade) (call : Call) :
    (automaton.perform call).2.IsMade :=
  made.run [call]

theorem IsMade.coherent (made : automaton.IsMade) : automaton.Coherent := by
  obtain ⟨name, calls, rfl⟩ := made
  exact (coherent_fresh name).evolves (evolves_run (coherent_fresh name) calls)

/-! ## Files -/

theorem IsMade.addStates (made : automaton.IsMade) (states : List Symbol) :
    (states.foldl addState automaton).IsMade := by
  induction states generalizing automaton with
  | nil => exact made
  | cons state states induction => exact induction (made.perform (.addState state))

theorem IsMade.readGuardedEdge (made : automaton.IsMade) {number : Nat} {content : Text}
    (read : Model.readGuardedEdge number automaton content = .ok next) : next.IsMade := by
  rw [Model.readGuardedEdge] at read
  split at read
  · simp only at read
    split at read
    · cases read
    obtain ⟨source, -, read⟩ := bind_eq_ok_iff.1 read
    obtain ⟨target, -, read⟩ := bind_eq_ok_iff.1 read
    obtain ⟨-, read⟩ := check_bind_eq_ok_iff.1 read
    obtain ⟨-, read⟩ := check_bind_eq_ok_iff.1 read
    obtain ⟨-, read⟩ := check_bind_eq_ok_iff.1 read
    obtain rfl := pure_eq_ok_iff.1 read
    exact made.perform (.addReadEdge source target _ number)
  · cases read

/-- A declaration is a sequence of calls. -/
theorem IsMade.readAutomatonLine (made : automaton.IsMade) {number : Nat} {content keyword : Text}
    {arguments : List Text}
    (read : Model.readAutomatonLine number automaton content keyword arguments = .ok next) :
    next.IsMade := by
  rw [Model.readAutomatonLine] at read
  split at read
  · split at read
    · cases read
    · obtain ⟨states, -, read⟩ := bind_eq_ok_iff.1 read
      obtain rfl := Except.ok.inj read
      exact made.addStates states
  split at read
  · obtain ⟨states, -, set⟩ := bind_eq_ok_iff.1 read
    have called := made.perform (.setInitial states)
    rwa [Automaton.perform, set] at called
  split at read
  · obtain ⟨states, -, set⟩ := bind_eq_ok_iff.1 read
    have called := made.perform (.setAccepting states)
    rwa [Automaton.perform, set] at called
  split at read
  · exact made.readGuardedEdge read
  · cases read

/-- Automata that are read from files are made by calls. -/
theorem isMade_ofLines {lines : List Text}
    (read : Model.ofLines lines = .ok (.automaton automaton)) : automaton.IsMade :=
  Model.automaton_induction
    (fun _ declared => by
      obtain ⟨name, rfl, -⟩ := Model.eq_blank_of_declare declared
      exact ⟨name, [], rfl⟩)
    (fun _ made read => made.readAutomatonLine read) read

/-! ## Reachable automata -/

theorem Reachable.isMade (reachable : automaton.Reachable) : automaton.IsMade := by
  induction reachable with
  | fresh name => exact ⟨name, [], rfl⟩
  | file read => exact isMade_ofLines read
  | call call _ induction => exact induction.perform call

theorem Reachable.coherent (reachable : automaton.Reachable) : automaton.Coherent :=
  reachable.isMade.coherent

theorem Coherent.exists_text (coherent : automaton.Coherent) {edge : GuardedEdge}
    (member : edge ∈ automaton.edges) : ∃ text, automaton.guards.text edge.guard = .ok text := by
  obtain ⟨formula, denotes⟩ := coherent.guards.exists_denotes (coherent.guard_lt edge member)
  refine ⟨formula.text, ?_⟩
  rw [Guard.Table.text, coherent.guards.formula_eq_ok_iff.2 denotes]
  rfl

/-- The containers of a reachable automaton agree with each other. Its edges are those of the calls,
repeated ones included, in the order of the calls; and the guard of an edge has a text that no
further calls change. -/
theorem Reachable.coherent_and_keeps_edges (reachable : automaton.Reachable) :
    automaton.Coherent ∧
      (automaton.states.toList.Nodup ∧ automaton.initial.toList.Nodup ∧
        automaton.accepting.toList.Nodup) ∧
      (∃ name calls, automaton = ({ name := name } : Automaton).run calls ∧
        automaton.edges.toList = ({ name := name } : Automaton).newEdges calls) ∧
      ∀ calls,
        (automaton.run calls).edges.toList = automaton.edges.toList ++ automaton.newEdges calls ∧
        ∀ edge ∈ automaton.edges, ∃ text, automaton.guards.text edge.guard = .ok text ∧
          (automaton.run calls).guards.text edge.guard = .ok text := by
  have coherent := reachable.coherent
  refine ⟨coherent, ⟨OrderedSet.nodup_toList _, OrderedSet.nodup_toList _,
    OrderedSet.nodup_toList _⟩, ?_, fun calls => ⟨coherent.toList_edges_run calls, ?_⟩⟩
  · obtain ⟨name, calls, rfl⟩ := reachable.isMade
    exact ⟨name, calls, rfl, (coherent_fresh name).toList_edges_run calls⟩
  · intro edge member
    obtain ⟨text, written⟩ := coherent.exists_text member
    have evolves := evolves_run coherent calls
    have continues := evolves.extends_guards.continues coherent.guards
      (coherent.evolves evolves).guards
    refine ⟨text, written, ?_⟩
    rw [continues.text edge.guard (coherent.guard_lt edge member), written]

theorem Reachable.run (reachable : automaton.Reachable) (calls : List Call) :
    (automaton.run calls).Reachable := by
  induction calls generalizing automaton with
  | nil => exact reachable
  | cons call calls induction => exact induction (.call call reachable)

/-- An automaton with two equal edges, made by calls some of which fail. -/
def monitor : Automaton :=
  let idle : Symbol := .atom "idle"
  ({ name := "monitor" } : Automaton).run
    [.addState idle, .addReadEdge idle idle "p & q" 1, .addReadEdge idle idle "p & q" 1,
      .addReadEdge idle idle "p & !" 1, .setAccepting [idle, .atom "busy"], .setInitial [idle]]

theorem reachable_monitor : monitor.Reachable :=
  (Reachable.fresh _).run _

/-- Both edges of the monitor are kept, and they have the same guard. -/
theorem monitor_coherent_and_keeps_edges :
    monitor.Coherent ∧
      (monitor.states.toList.Nodup ∧ monitor.initial.toList.Nodup ∧
        monitor.accepting.toList.Nodup) ∧
      (∃ name calls, monitor = ({ name := name } : Automaton).run calls ∧
        monitor.edges.toList = ({ name := name } : Automaton).newEdges calls) ∧
      ∀ calls,
        (monitor.run calls).edges.toList = monitor.edges.toList ++ monitor.newEdges calls ∧
        ∀ edge ∈ monitor.edges, ∃ text, monitor.guards.text edge.guard = .ok text ∧
          (monitor.run calls).guards.text edge.guard = .ok text :=
  reachable_monitor.coherent_and_keeps_edges

example : monitor.edges = #[⟨.atom "idle", .atom "idle", 4⟩, ⟨.atom "idle", .atom "idle", 4⟩] := by
  decide +kernel

end Automaton

end TransitionSystems
