import Mathlib.Logic.Relation
import TransitionSystems.Proofs.Automaton.Edges
import TransitionSystems.Proofs.Guard.Sharing
import TransitionSystems.Proofs.InPlace
import TransitionSystems.Proofs.Positions

/-!
# Coherent automata

The edges of an automaton, the index of the edges that leave a state and the table of the guards are
kept beside each other, and the table can also be used directly. Calls that succeed and calls that
fail keep them in agreement: edges are only ever added at the end, and the table only grows at its
end, so the guard of an edge keeps its text.
-/

namespace TransitionSystems.Automaton

open TransitionSystems.InPlace (settle settle_induction)

/-! ## Calls -/

/-- A call of an automaton, or of its table. -/
inductive Call where
  | addState (state : Symbol)
  | setInitial (states : List Symbol)
  | setAccepting (states : List Symbol)
  | addEdge (source target : Symbol) (guard : Nat)
  | addReadEdge (source target : Symbol) (guard : Text) (line : Nat)
  | guards (call : Guard.Table.Call)
  | rename (name : Text)

/-- The outcome of a call with the automaton that it leaves. -/
def perform (automaton : Automaton) : Call → Except Error Unit × Automaton
  | .addState state => (.ok (), automaton.addState state)
  | .setInitial states => settle automaton (automaton.setInitial states)
  | .setAccepting states => settle automaton (automaton.setAccepting states)
  | .addEdge source target guard => settle automaton (automaton.addEdge source target guard)
  | .addReadEdge source target guard line => automaton.addReadEdge source target guard line
  | .guards call =>
    let (answer, guards) := automaton.guards.perform call
    (answer.map fun _ => (), { automaton with guards := guards })
  | .rename name => (.ok (), automaton.rename name)

/-- The automaton that calls leave, whether they succeed or fail. -/
def run (automaton : Automaton) (calls : List Call) : Automaton :=
  calls.foldl (fun automaton call => (automaton.perform call).2) automaton

/-- The edge that a call adds. Its ends are states, and its guard is in the table or can be read. -/
def newEdge? (automaton : Automaton) : Call → Option GuardedEdge
  | .addEdge source target guard =>
    if (source ∈ automaton.states ∧ target ∈ automaton.states) ∧ guard < automaton.guards.size then
      some ⟨source, target, guard⟩
    else
      none
  | .addReadEdge source target guard line =>
    if source ∈ automaton.states ∧ target ∈ automaton.states then
      (automaton.guards.readText guard line).1.toOption.map fun number => ⟨source, target, number⟩
    else
      none
  | _ => none

/-- The edges that calls add one after the other. -/
def newEdges (automaton : Automaton) : List Call → List GuardedEdge
  | [] => []
  | call :: calls => (automaton.newEdge? call).toList ++ (automaton.perform call).2.newEdges calls

/-! ## Changes -/

variable {automaton next : Automaton}

/-- Stores an edge. -/
def pushEdge (automaton : Automaton) (edge : GuardedEdge) : Automaton :=
  { automaton with
    edges := automaton.edges.push edge
    outgoing := automaton.outgoing.insert edge.source
      ((automaton.positions edge.source).push automaton.edges.size) }

theorem addEdge_eq_ok_iff {source target : Symbol} {guard : Nat} :
    automaton.addEdge source target guard = .ok next ↔
      (source ∈ automaton.states ∧ target ∈ automaton.states) ∧ guard < automaton.guards.size ∧
        next = automaton.pushEdge ⟨source, target, guard⟩ := by
  rw [addEdge, check_bind_eq_ok_iff, requireEnds_eq_ok_iff, bind_eq_ok_iff]
  refine and_congr_right fun _ => ⟨?_, ?_⟩
  · rintro ⟨node, known, ⟨⟩⟩
    exact ⟨Guard.Table.Coherent.lt_size_of_node known, rfl⟩
  · rintro ⟨known, rfl⟩
    obtain ⟨node, found⟩ := Guard.Table.exists_node known
    exact ⟨node, found, rfl⟩

/-- An edge with a guard to read is refused for its ends or for its guard, or it is added. -/
theorem addReadEdge_cases (coherent : automaton.guards.Coherent) (source target : Symbol)
    (guard : Text) (line : Nat) :
    (¬(source ∈ automaton.states ∧ target ∈ automaton.states) ∧
      ∃ error, automaton.addReadEdge source target guard line = (.error error, automaton)) ∨
    (source ∈ automaton.states ∧ target ∈ automaton.states) ∧
      ((∃ error guards, automaton.guards.readText guard line = (.error error, guards) ∧
        automaton.addReadEdge source target guard line =
          (.error error, { automaton with guards := guards })) ∨
      ∃ number guards, automaton.guards.readText guard line = (.ok number, guards) ∧
        number < guards.size ∧
        automaton.addReadEdge source target guard line =
          (.ok (), { automaton with guards := guards }.pushEdge ⟨source, target, number⟩)) := by
  cases ends : automaton.requireEnds source target with
  | error error =>
      refine .inl ⟨fun known => ?_, error, by rw [addReadEdge, ends]⟩
      rw [requireEnds_eq_ok_iff.2 known] at ends
      cases ends
  | ok _ =>
      have known := requireEnds_eq_ok_iff.1 ends
      refine .inr ⟨known, ?_⟩
      cases read : automaton.guards.readText guard line with
      | mk answer guards =>
          cases answer with
          | error error => exact .inl ⟨error, guards, rfl, by simp only [addReadEdge, ends, read]⟩
          | ok number =>
              have below := coherent.lt_size_of_readText read
              -- The ends have been checked and the number is one of the table.
              have added : { automaton with guards := guards }.addEdge source target number =
                  .ok ({ automaton with guards := guards }.pushEdge ⟨source, target, number⟩) :=
                addEdge_eq_ok_iff.2 ⟨known, below, rfl⟩
              exact .inr ⟨number, guards, rfl, below, by simp only [addReadEdge, ends, read, added]⟩

/-- A change of an automaton, with what the checks before it have found out. -/
inductive Change (automaton : Automaton) : Automaton → Prop
  | state (state : Symbol) : Change automaton (automaton.addState state)
  | initial (states : List Symbol) (known : ∀ state ∈ states, state ∈ automaton.states) :
      Change automaton { automaton with initial := automaton.initial.insertMany states }
  | accepting (states : List Symbol) (known : ∀ state ∈ states, state ∈ automaton.states) :
      Change automaton { automaton with accepting := automaton.accepting.insertMany states }
  | guards (guards : Guard.Table) (coherent : guards.Coherent)
      (grown : automaton.guards.Extends guards) : Change automaton { automaton with guards }
  | edge (source target : Symbol) (guard : Nat)
      (ends : source ∈ automaton.states ∧ target ∈ automaton.states)
      (known : guard < automaton.guards.size) :
      Change automaton (automaton.pushEdge ⟨source, target, guard⟩)
  | name (name : Text) : Change automaton (automaton.rename name)

/-- One automaton is changed into another. -/
def Evolves : Automaton → Automaton → Prop :=
  Relation.ReflTransGen Change

theorem evolves_settle {result : Except Error Automaton}
    (changes : ∀ next, result = .ok next → automaton.Change next) :
    automaton.Evolves (settle automaton result).2 :=
  settle_induction .refl fun next succeeds => .single (changes next succeeds)

theorem evolves_addReadEdge (coherent : automaton.guards.Coherent) (source target : Symbol)
    (guard : Text) (line : Nat) :
    automaton.Evolves (automaton.addReadEdge source target guard line).2 := by
  obtain ⟨coherent', grown⟩ := coherent.readText guard line
  rcases addReadEdge_cases coherent source target guard line with
    ⟨-, error, refused⟩ | ⟨ends, ⟨error, guards, read, refused⟩ |
      ⟨number, guards, read, known, added⟩⟩
  · rw [refused]
    exact .refl
  · rw [read] at coherent' grown
    rw [refused]
    exact .single (.guards guards coherent' grown)
  · rw [read] at coherent' grown
    rw [added]
    exact (Relation.ReflTransGen.single (.guards guards coherent' grown)).tail
      (.edge source target number ends known)

/-- A call is a sequence of changes, also when it fails. -/
theorem evolves_perform (coherent : automaton.guards.Coherent) (call : Call) :
    automaton.Evolves (automaton.perform call).2 := by
  cases call with
  | addState state => exact .single (.state state)
  | setInitial states =>
      refine evolves_settle fun next set => ?_
      obtain ⟨known, rfl⟩ := setInitial_eq_ok_iff.1 set
      exact .initial states known
  | setAccepting states =>
      refine evolves_settle fun next set => ?_
      obtain ⟨known, rfl⟩ := setAccepting_eq_ok_iff.1 set
      exact .accepting states known
  | addEdge source target guard =>
      refine evolves_settle fun next added => ?_
      obtain ⟨ends, known, rfl⟩ := addEdge_eq_ok_iff.1 added
      exact .edge source target guard ends known
  | addReadEdge source target guard line => exact evolves_addReadEdge coherent ..
  | guards call =>
      obtain ⟨coherent', grown⟩ := coherent.perform call
      exact .single (.guards _ coherent' grown)
  | rename name => exact .single (.name name)

/-! ## Coherence -/

/-- The containers of an automaton agree with each other. -/
structure Coherent (automaton : Automaton) : Prop where
  guards : automaton.guards.Coherent
  initial_subset : ∀ state ∈ automaton.initial, state ∈ automaton.states
  accepting_subset : ∀ state ∈ automaton.accepting, state ∈ automaton.states
  ends : ∀ edge ∈ automaton.edges,
    edge.source ∈ automaton.states ∧ edge.target ∈ automaton.states
  guard_lt : ∀ edge ∈ automaton.edges, edge.guard < automaton.guards.size
  /-- The positions of a state are those of the edges that leave it. -/
  outgoing : IsIndex GuardedEdge.source automaton.edges automaton.outgoing

theorem coherent_fresh (name : Text) : ({ name := name } : Automaton).Coherent where
  guards := Guard.Table.coherent_initial
  initial_subset := by simp
  accepting_subset := by simp
  ends := by simp
  guard_lt := by simp
  outgoing := .empty GuardedEdge.source

namespace Coherent

theorem pushEdge (coherent : automaton.Coherent) {edge : GuardedEdge}
    (ends : edge.source ∈ automaton.states ∧ edge.target ∈ automaton.states)
    (known : edge.guard < automaton.guards.size) : (automaton.pushEdge edge).Coherent := by
  refine { coherent with
    ends := fun other member => ?_, guard_lt := fun other member => ?_,
    outgoing := coherent.outgoing.push edge }
  · rcases Array.mem_push.1 member with member | rfl
    · exact coherent.ends other member
    · exact ends
  · rcases Array.mem_push.1 member with member | rfl
    · exact coherent.guard_lt other member
    · exact known

/-- A change keeps an automaton coherent. -/
theorem change (coherent : automaton.Coherent) (change : automaton.Change next) :
    next.Coherent := by
  cases change with
  | state state =>
      have kept {other : Symbol} (member : other ∈ automaton.states) :
          other ∈ automaton.states.insert state :=
        OrderedSet.mem_insert.2 (.inr member)
      exact { coherent with
        initial_subset := fun other member => kept (coherent.initial_subset other member)
        accepting_subset := fun other member => kept (coherent.accepting_subset other member)
        ends := fun edge member =>
          ⟨kept (coherent.ends edge member).1, kept (coherent.ends edge member).2⟩ }
  | initial states known =>
      exact { coherent with
        initial_subset := fun state member =>
          (OrderedSet.mem_insertMany.1 member).elim (coherent.initial_subset state)
            (known state) }
  | accepting states known =>
      exact { coherent with
        accepting_subset := fun state member =>
          (OrderedSet.mem_insertMany.1 member).elim (coherent.accepting_subset state)
            (known state) }
  | guards guards coherent' grown =>
      exact { coherent with
        guards := coherent'
        guard_lt := fun edge member =>
          Guard.Table.Extends.lt_size grown (coherent.guard_lt edge member) }
  | edge source target guard ends known => exact coherent.pushEdge ends known
  | name name => exact { coherent with }

theorem evolves (coherent : automaton.Coherent) (evolves : automaton.Evolves next) :
    next.Coherent := by
  induction evolves with
  | refl => exact coherent
  | tail _ change induction => exact induction.change change

theorem perform (coherent : automaton.Coherent) (call : Call) :
    (automaton.perform call).2.Coherent :=
  coherent.evolves (evolves_perform coherent.guards call)

end Coherent

theorem Evolves.extends_guards (evolves : automaton.Evolves next) :
    automaton.guards.Extends next.guards := by
  induction evolves with
  | refl => exact .refl _
  | tail _ change induction =>
      cases change with
      | guards guards coherent grown => exact induction.trans grown
      | state | initial | accepting | edge | name => exact induction

theorem evolves_run (coherent : automaton.Coherent) (calls : List Call) :
    automaton.Evolves (automaton.run calls) := by
  induction calls generalizing automaton with
  | nil => exact .refl
  | cons call calls induction =>
      exact (evolves_perform coherent.guards call).trans (induction (coherent.perform call))

/-! ## Edges in their order -/

/-- A call adds its edge at the end, or leaves the edges as they are. -/
theorem toList_edges_perform (coherent : automaton.guards.Coherent) (call : Call) :
    (automaton.perform call).2.edges.toList =
      automaton.edges.toList ++ (automaton.newEdge? call).toList := by
  have none {call : Call} (other : automaton.newEdge? call = none)
      (same : (automaton.perform call).2.edges = automaton.edges) :
      (automaton.perform call).2.edges.toList =
        automaton.edges.toList ++ (automaton.newEdge? call).toList := by
    rw [other, same]
    exact (List.append_nil _).symm
  have kept {result : Except Error Automaton}
      (same : ∀ next, result = .ok next → next.edges = automaton.edges) :
      (settle automaton result).2.edges = automaton.edges :=
    settle_induction (motive := fun next : Automaton => next.edges = automaton.edges) rfl same
  cases call with
  | addState | guards | rename => exact none rfl rfl
  | setInitial states =>
      refine none rfl (kept fun next set => ?_)
      obtain ⟨-, rfl⟩ := setInitial_eq_ok_iff.1 set
      rfl
  | setAccepting states =>
      refine none rfl (kept fun next set => ?_)
      obtain ⟨-, rfl⟩ := setAccepting_eq_ok_iff.1 set
      rfl
  | addEdge source target guard =>
      by_cases accepted : (source ∈ automaton.states ∧ target ∈ automaton.states) ∧
          guard < automaton.guards.size
      · have added := addEdge_eq_ok_iff.2 ⟨accepted.1, accepted.2, rfl⟩
        rw [newEdge?, if_pos accepted, perform, added]
        exact Array.toList_push
      · refine none (if_neg accepted) (kept fun next added => ?_)
        obtain ⟨ends, known, -⟩ := addEdge_eq_ok_iff.1 added
        exact absurd ⟨ends, known⟩ accepted
  | addReadEdge source target guard line =>
      rcases addReadEdge_cases coherent source target guard line with
        ⟨unknown, error, refused⟩ | ⟨ends, ⟨error, guards, read, refused⟩ |
          ⟨number, guards, read, -, added⟩⟩
      · exact none (if_neg unknown) (by rw [perform, refused])
      · exact none (by rw [newEdge?, if_pos ends, read]; rfl) (by rw [perform, refused])
      · rw [newEdge?, if_pos ends, read, perform, added]
        exact Array.toList_push

/-- The edges of calls are all kept, in their order. -/
theorem Coherent.toList_edges_run (coherent : automaton.Coherent) (calls : List Call) :
    (automaton.run calls).edges.toList = automaton.edges.toList ++ automaton.newEdges calls := by
  induction calls generalizing automaton with
  | nil => exact (List.append_nil _).symm
  | cons call calls induction =>
      change ((automaton.perform call).2.run calls).edges.toList = _
      rw [induction (coherent.perform call), toList_edges_perform coherent.guards, newEdges,
        List.append_assoc]

end TransitionSystems.Automaton
