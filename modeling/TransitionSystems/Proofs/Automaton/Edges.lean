import Mathlib.Data.List.Forall2
import TransitionSystems.Automaton
import TransitionSystems.OrderedSet.Lemmas
import TransitionSystems.Proofs.Guard.Names

/-!
# Edges of automata

An edge that is read comes last, and its guard goes into the table of the automaton. So the table
and the numbers on the edges are determined by the guards of the edges in their order, and they have
nothing to do with the states that have been declared.
-/

namespace TransitionSystems

/-- An edge that is guarded by a formula itself. -/
structure FormulaEdge where
  source : Symbol
  target : Symbol
  guard : Guard.Formula

namespace Automaton

variable {automaton next left right : Automaton}

/-! ## States -/

theorem requireState_eq_ok_iff {operation : Text} {state : Symbol} :
    automaton.requireState operation state = .ok () ↔ state ∈ automaton.states := by
  rw [requireState]
  split <;> simp_all

theorem foldl_addState (states : List Symbol) :
    states.foldl addState automaton =
      { automaton with states := automaton.states.insertMany states } := by
  induction states generalizing automaton with
  | nil => rfl
  | cons state states induction => exact induction

theorem setInitial_eq_ok_iff {states : List Symbol} :
    automaton.setInitial states = .ok next ↔
      (∀ state ∈ states, state ∈ automaton.states) ∧
        next = { automaton with initial := automaton.initial.insertMany states } := by
  simp only [setInitial, check_bind_eq_ok_iff, forM_eq_ok_iff, requireState_eq_ok_iff,
    pure_eq_ok_iff]

theorem setAccepting_eq_ok_iff {states : List Symbol} :
    automaton.setAccepting states = .ok next ↔
      (∀ state ∈ states, state ∈ automaton.states) ∧
        next = { automaton with accepting := automaton.accepting.insertMany states } := by
  simp only [setAccepting, check_bind_eq_ok_iff, forM_eq_ok_iff, requireState_eq_ok_iff,
    pure_eq_ok_iff]

theorem requireEnds_eq_ok_iff {source target : Symbol} :
    automaton.requireEnds source target = .ok () ↔
      source ∈ automaton.states ∧ target ∈ automaton.states := by
  simp only [requireEnds, check_bind_eq_ok_iff, requireState_eq_ok_iff]

/-! ## Adding an edge -/

/-- Adds an edge with its guard. -/
def putEdge (automaton : Automaton) (edge : FormulaEdge) : Automaton :=
  { automaton with
    guards := (automaton.guards.insert edge.guard).2
    edges := automaton.edges.push
      ⟨edge.source, edge.target, (automaton.guards.insert edge.guard).1⟩
    outgoing := automaton.outgoing.insert edge.source
      ((automaton.positions edge.source).push automaton.edges.size) }

/-- The automaton with edges added one after the other. -/
def putEdges (automaton : Automaton) (edges : List FormulaEdge) : Automaton :=
  edges.foldl putEdge automaton

/-- An edge is added whose guard text stands for a formula. -/
theorem addReadEdge_of_parse (coherent : automaton.guards.Coherent) (edge : FormulaEdge)
    (source : edge.source ∈ automaton.states) (target : edge.target ∈ automaton.states)
    {text : Text} {line : Nat} {tokens : List Guard.Token}
    (scanned : Guard.tokenise text line = .ok tokens)
    (parsed : Guard.parse tokens = .ok edge.guard) :
    automaton.addReadEdge edge.source edge.target text line = (.ok (), automaton.putEdge edge) := by
  obtain ⟨-, -, denotes⟩ := coherent.insert edge.guard
  obtain ⟨node, found⟩ : ∃ node, (automaton.guards.insert edge.guard).2.node
      (automaton.guards.insert edge.guard).1 = .ok node :=
    ⟨_, Guard.Table.Coherent.node_eq_ok_iff.2 (Array.getElem?_eq_getElem denotes.lt_size)⟩
  have ends := requireEnds_eq_ok_iff.2 ⟨source, target⟩
  have ends' : { automaton with guards := (automaton.guards.insert edge.guard).2 }.requireEnds
      edge.source edge.target = .ok () := requireEnds_eq_ok_iff.2 ⟨source, target⟩
  have added : { automaton with guards := (automaton.guards.insert edge.guard).2 }.addEdge
      edge.source edge.target (automaton.guards.insert edge.guard).1 =
        .ok (automaton.putEdge edge) := by
    rw [addEdge, ends', ok_bind, found, ok_bind]
    rfl
  rw [addReadEdge, ends]
  simp only [Guard.Table.readText_of_parse scanned parsed, added]

/-- Only such edges are added. The atoms of the guard are identifiers. -/
theorem exists_putEdge_of_addReadEdge (coherent : automaton.guards.Coherent)
    {source target : Symbol} {text : Text} {line : Nat}
    (added : (automaton.addReadEdge source target text line).1 = .ok ()) :
    source ∈ automaton.states ∧ target ∈ automaton.states ∧
      ∃ formula, (∀ name ∈ formula.atoms, Guard.IsIdentifier name) ∧
        (automaton.addReadEdge source target text line).2 =
          automaton.putEdge ⟨source, target, formula⟩ := by
  cases ends : automaton.requireEnds source target with
  | error error => simp [addReadEdge, ends] at added
  | ok _ =>
      obtain ⟨present, present'⟩ := requireEnds_eq_ok_iff.1 ends
      refine ⟨present, present', ?_⟩
      cases scanned : Guard.tokenise text line with
      | error error => simp [addReadEdge, ends, Guard.Table.readText, scanned] at added
      | ok tokens =>
          cases parsed : Guard.parse tokens with
          | error failure =>
              simp [addReadEdge, ends, Guard.Table.readText, scanned, Guard.Table.read, parsed]
                at added
          | ok formula =>
              refine ⟨formula, Guard.isIdentifier_of_parse scanned parsed, ?_⟩
              rw [addReadEdge_of_parse coherent ⟨source, target, formula⟩ present present' scanned
                parsed]

/-! ## Edges and their formulas -/

/-- An edge has the ends of another one, and its number denotes the guard. -/
structure Encodes (table : Guard.Table) (stored : GuardedEdge) (edge : FormulaEdge) : Prop where
  source : stored.source = edge.source
  target : stored.target = edge.target
  denotes : table.Denotes stored.guard edge.guard

/-- An automaton with a coherent table whose edges are the given ones. -/
structure Carries (automaton : Automaton) (edges : List FormulaEdge) : Prop where
  coherent : automaton.guards.Coherent
  encodes : List.Forall₂ (Encodes automaton.guards) automaton.edges.toList edges

theorem Carries.putEdge {edges : List FormulaEdge} (carries : automaton.Carries edges)
    (edge : FormulaEdge) : (automaton.putEdge edge).Carries (edges ++ [edge]) := by
  obtain ⟨coherent, grown, denotes⟩ := carries.coherent.insert edge.guard
  refine ⟨coherent, ?_⟩
  have former : List.Forall₂ (Encodes (automaton.guards.insert edge.guard).2)
      automaton.edges.toList edges :=
    carries.encodes.imp fun _ _ encodes => { encodes with denotes := grown.denotes encodes.denotes }
  have last : Encodes (automaton.guards.insert edge.guard).2
      ⟨edge.source, edge.target, (automaton.guards.insert edge.guard).1⟩ edge :=
    ⟨rfl, rfl, denotes⟩
  rw [Automaton.putEdge, Array.toList_push]
  exact List.rel_append former (.cons last .nil)

theorem Carries.putEdges {edges : List FormulaEdge} (carries : automaton.Carries edges)
    (more : List FormulaEdge) : (automaton.putEdges more).Carries (edges ++ more) := by
  induction more generalizing automaton edges with
  | nil => rwa [List.append_nil]
  | cons edge more induction =>
      rw [← List.singleton_append, ← List.append_assoc]
      exact induction (carries.putEdge edge)

/-- Automata with the same edges and the same table. -/
structure SameEdges (left right : Automaton) : Prop where
  guards : left.guards = right.guards
  edges : left.edges = right.edges
  outgoing : left.outgoing = right.outgoing

theorem SameEdges.putEdge (same : left.SameEdges right) (edge : FormulaEdge) :
    (left.putEdge edge).SameEdges (right.putEdge edge) where
  guards := by simp only [Automaton.putEdge, same.guards]
  edges := by simp only [Automaton.putEdge, same.guards, same.edges]
  outgoing := by simp only [Automaton.putEdge, positions, same.edges, same.outgoing]

theorem SameEdges.putEdges (same : left.SameEdges right) (edges : List FormulaEdge) :
    (left.putEdges edges).SameEdges (right.putEdges edges) := by
  induction edges generalizing left right with
  | nil => exact same
  | cons edge edges induction => exact induction (same.putEdge edge)

theorem putEdges_append (automaton : Automaton) (front back : List FormulaEdge) :
    automaton.putEdges (front ++ back) = (automaton.putEdges front).putEdges back :=
  List.foldl_append

theorem putEdges_eq (automaton : Automaton) (edges : List FormulaEdge) :
    automaton.putEdges edges =
      { automaton with
        guards := (automaton.putEdges edges).guards
        edges := (automaton.putEdges edges).edges
        outgoing := (automaton.putEdges edges).outgoing } := by
  induction edges generalizing automaton with
  | nil => rfl
  | cons edge edges induction => exact induction (automaton.putEdge edge)

end Automaton

end TransitionSystems
