import TransitionSystems.Proofs.Decimal
import TransitionSystems.Proofs.Description
import TransitionSystems.Proofs.Symbol.Negation
import TransitionSystems.Proofs.System.Range

/-!
# The shape of lines and cycles

A line and a cycle are laid out in the same way, and they differ in the links between their numbered
states. A layout can be built unless one of its labels has a tuple, because the propositions of its
labels belong to their negation closure and tuples are the only symbols without a negation. The
names of its states are different, since numerals of different integers are. In a cycle only one
transition leaves every state, and following them from the first one leads through all states and
back.
-/

namespace TransitionSystems

namespace Path

variable {labels : List Label} {start : Int} {links : List (Nat × Nat)} {system : System}

/-! ## Layouts -/

/-- The state at a place, when the places are numbered from `start`. -/
def stateAt (start : Int) (place : Nat) : Symbol :=
  .atom ("s" ++ Text.ofInt (start + place))

/-- The propositions that occur in labels, at their first occurrences. -/
def occurring (labels : List Label) : List Symbol :=
  (labels.flatMap (·.toList)).eraseDups

/-- A system with states numbered from `start` that carry the labels in their order, and with
unlabeled transitions between the places that are linked. -/
structure IsLaidOut (labels : List Label) (start : Int) (links : List (Nat × Nat))
    (system : System) : Prop where
  kind : system.kind = .closed
  states : system.states.toList = (List.range labels.length).map (stateAt start)
  nodup : system.states.toList.Nodup
  labeled : system.states.toList.map system.label? = labels.map some
  initial : system.initial.toList = []
  transitions : system.transitions.toList = links.map fun (source, target) =>
    ⟨stateAt start source, stateAt start target, .unlabeled⟩
  propositions : Symbol.negationClosure (occurring labels) = .ok system.propositions.toList

theorem stateAt_injective (start : Int) : Function.Injective (stateAt start) := by
  intro left right same
  have numbers := Text.ofInt_injective (List.append_cancel_left (Symbol.atom.inj same))
  omega

theorem stateAt_zero (place : Nat) : stateAt 0 place = state place := by
  rw [stateAt, Int.zero_add]
  rfl

/-- The name of a place in the description of a layout. -/
def place (start : Int) (number : Nat) : Symbol :=
  .atom (Text.ofInt (start + number))

/-- The edge between two places. -/
def edge (start : Int) (link : Nat × Nat) : DescribedEdge where
  source := place start link.1
  target := place start link.2

/-- The description of a layout over some propositions. -/
def layout (labels : List Label) (start : Int) (links : List (Nat × Nat))
    (propositions : List Symbol) : Description where
  states := (List.range labels.length).map (place start)
  propositions := propositions
  labeling := .inOrder labels
  edges := links.map (edge start)
  stem := some "s"

section

variable {propositions : List Symbol}

theorem listed_layout : (layout labels start links propositions).listed =
    (List.range labels.length).map (stateAt start) := by
  rw [Description.listed, layout, List.map_map]
  rfl

theorem map_stateOf_labels :
    (layout labels start links propositions).labels.map
        (fun entry => (layout labels start links propositions).stateOf entry.1) =
      (layout labels start links propositions).listed := by
  have sizes : (layout labels start links propositions).states.length ≤ labels.length := by
    simp [layout]
  have states : (layout labels start links propositions).labels.map Prod.fst =
      (layout labels start links propositions).states := List.map_fst_zip sizes
  rw [Description.listed, ← states, List.map_map]
  rfl

/-- A layout fits together when its links are between places and its propositions are those of the
closure. -/
theorem isConsistent_layout
    (ends : ∀ link ∈ links, link.1 < labels.length ∧ link.2 < labels.length)
    (closure : Symbol.negationClosure (occurring labels) = .ok propositions) :
    (layout labels start links propositions).IsConsistent where
  initial := nofun
  count := by
    rintro _ ⟨⟩
    simp [layout]
  labeled := by
    intro entry member
    rw [← map_stateOf_labels]
    exact List.mem_map_of_mem (f := fun entry => Description.stateOf _ entry.1) member
  holding := by
    intro entry member proposition holds
    obtain ⟨-, listed⟩ := Symbol.negationClosure_eq_ok_iff.1 closure
    have occurs : proposition ∈ occurring labels := by
      rw [occurring, List.mem_eraseDups, List.mem_flatMap]
      exact ⟨entry.2, (List.of_mem_zip member).2, Std.ExtTreeSet.mem_toList.2 holds⟩
    change proposition ∈ propositions
    rw [← listed, List.mem_eraseDups]
    exact Symbol.mem_signed_iff.2 (.inl occurs)
  ends := by
    intro edge member
    obtain ⟨link, linked, rfl⟩ := List.mem_map.1 member
    have within (number : Nat) (below : number < labels.length) :
        stateAt start number ∈ (layout labels start links propositions).listed := by
      rw [listed_layout]
      exact List.mem_map_of_mem (List.mem_range.2 below)
    exact ⟨within _ (ends link linked).1, within _ (ends link linked).2⟩
  actions := by
    intro edge member
    obtain ⟨link, linked, rfl⟩ := List.mem_map.1 member
    exact ⟨fun _ => rfl, nofun⟩

/-- A system that is as a layout describes is laid out. -/
theorem isLaidOut_of_describes (different : (links.map Prod.fst).Nodup)
    (closure : Symbol.negationClosure (occurring labels) = .ok propositions)
    (describes : (layout labels start links propositions).Describes system) :
    IsLaidOut labels start links system := by
  have nodup : (layout labels start links propositions).listed.Nodup := by
    rw [listed_layout]
    exact List.nodup_range.map (stateAt_injective start)
  have states := describes.states
  rw [eraseDups_of_nodup nodup] at states
  refine ⟨describes.kind, states.trans listed_layout, states ▸ nodup, ?_, describes.initial, ?_, ?_⟩
  · -- Every state is given one label.
    have once := nodup
    rw [← map_stateOf_labels] at once
    have given (entry : Symbol × Label)
        (member : entry ∈ (layout labels start links propositions).labels) :
        system.label? ((layout labels start links propositions).stateOf entry.1) =
          some entry.2 := by
      rw [describes.label?, Description.labelsOf, filter_key_eq once member]
      rfl
    have values : (layout labels start links propositions).labels.map Prod.snd = labels :=
      List.map_snd_zip (by simp [layout])
    rw [states, ← map_stateOf_labels, List.map_map]
    conv_rhs => rw [← values, List.map_map]
    exact List.map_congr_left given
  · have sources : (links.map fun (source, target) =>
        (⟨stateAt start source, stateAt start target, .unlabeled⟩ : Transition)).map
          Transition.source = (links.map Prod.fst).map (stateAt start) := by
      rw [List.map_map, List.map_map]
      rfl
    have once := different.map (stateAt_injective start)
    rw [← sources] at once
    have transitions := describes.transitions
    change _ = ((links.map (edge start)).map _).eraseDups at transitions
    rw [List.map_map] at transitions
    exact transitions.trans (eraseDups_of_nodup once.of_map)
  · obtain ⟨-, listed⟩ := Symbol.negationClosure_eq_ok_iff.1 closure
    rw [closure, describes.propositions]
    change _ = Except.ok propositions.eraseDups
    rw [eraseDups_of_nodup (listed ▸ nodup_eraseDups _)]

end

/-- Builds a layout over the negation closure of the propositions of its labels. -/
def build (labels : List Label) (start : Int) (links : List (Nat × Nat)) :
    Except Error System := do
  let propositions ← Symbol.negationClosure (occurring labels)
  (layout labels start links propositions).build

/-- Whether a tuple is among the propositions of labels. -/
def HasTuple (labels : List Label) : Prop :=
  ∃ label ∈ labels, ∃ proposition ∈ label, proposition.isTuple = true

/-- What is made of labels: with a tuple among their propositions a domain error, and otherwise a
system with a given property. -/
structure Yields (labels : List Label) (property : System → Prop)
    (result : Except Error System) : Prop where
  ok : ¬HasTuple labels → ∃ system, result = .ok system ∧ property system
  error : HasTuple labels → ∃ error, result = .error error ∧ error.errorClass = .domain

theorem hasTuple_iff :
    HasTuple labels ↔ ∃ proposition ∈ occurring labels, proposition.isTuple = true := by
  simp only [HasTuple, occurring, List.mem_eraseDups, List.mem_flatMap, Std.ExtTreeSet.mem_toList]
  tauto

/-- A layout whose links are between places and begin at different ones is built unless a label has
a tuple. -/
theorem yields_build (ends : ∀ link ∈ links, link.1 < labels.length ∧ link.2 < labels.length)
    (different : (links.map Prod.fst).Nodup) :
    Yields labels (IsLaidOut labels start links) (build labels start links) := by
  constructor
  · intro without
    have closure := Symbol.negationClosure_eq_ok_iff.2
      ⟨fun proposition occurs => by_contra fun isTuple =>
        without (hasTuple_iff.2 ⟨proposition, occurs, by simpa using isTuple⟩), rfl⟩
    have consistent : (layout labels start links _).IsConsistent :=
      isConsistent_layout ends closure
    refine ⟨_, ?_, isLaidOut_of_describes different closure
      (Description.describes_described consistent)⟩
    rw [build, closure, ok_bind, Description.build_eq, Description.isConsistent_iff.1 consistent]
    rfl
  · intro tuple
    cases closure : Symbol.negationClosure (occurring labels) with
    | ok propositions =>
        obtain ⟨proposition, occurs, isTuple⟩ := hasTuple_iff.1 tuple
        obtain ⟨without, -⟩ := Symbol.negationClosure_eq_ok_iff.1 closure
        rw [without proposition occurs] at isTuple
        cases isTuple
    | error error =>
        obtain ⟨proposition, -, -, rfl⟩ := Symbol.exists_tuple_of_negationClosure closure
        exact ⟨_, by rw [build, closure]; rfl, rfl⟩

/-! ## Lines -/

/-- The links of a line lead from every place to the next one. -/
def lineLinks (count : Nat) : List (Nat × Nat) :=
  (List.range (count - 1)).map fun number => (number, number + 1)

theorem line_eq_build (labels : List Label) (start : Int) :
    line labels start = build labels start (lineLinks labels.length) := by
  have elements := OrderedSet.toList_insertMany_empty (labels.flatMap (·.toList)) false
  rw [line, description, build, occurring, ← elements, bind_assoc]
  simp only [layout, lineLinks, List.map_map]
  rfl

theorem yields_line (labels : List Label) (start : Int) :
    Yields labels (IsLaidOut labels start (lineLinks labels.length)) (line labels start) := by
  rw [line_eq_build]
  apply yields_build
  · simp only [lineLinks, List.mem_map, List.mem_range]
    rintro link ⟨number, below, rfl⟩
    constructor <;> dsimp only <;> omega
  · rw [lineLinks, List.map_map]
    exact (List.map_id _).symm ▸ List.nodup_range

/-! ## Cycles -/

/-- The links of a cycle lead from every place to the next one, and from the last to the first. -/
def cycleLinks (count : Nat) : List (Nat × Nat) :=
  (List.range count).map fun number => (number, (number + 1) % count)

/-- Following the only transition that leaves each state, one comes from a state through a list of
states to a last one. -/
inductive Tour (system : System) : Symbol → List Symbol → Symbol → Prop where
  | stay (state : Symbol) : Tour system state [] state
  | move {source target last : Symbol} {visited : List Symbol}
    (only : system.leaving source = [⟨source, target, .unlabeled⟩])
    (onward : Tour system target visited last) : Tour system source (source :: visited) last

/-- A cycle: a layout with the links of a cycle, in which a tour of the states leads back to the
first one. -/
structure IsCycle (labels : List Label) (system : System) : Prop
    extends IsLaidOut labels 0 (cycleLinks labels.length) system where
  tour : Tour system (state 0) system.states.toList (state 0)

theorem cycleLinks_succ (count : Nat) :
    cycleLinks (count + 1) = lineLinks (count + 1) ++ [(count, 0)] := by
  have further : (List.range count).map (fun number => (number, (number + 1) % (count + 1))) =
      (List.range count).map fun number => (number, number + 1) := by
    apply List.map_congr_left
    intro number below
    rw [List.mem_range] at below
    rw [Nat.mod_eq_of_lt (by omega)]
  rw [cycleLinks, lineLinks, List.range_succ, List.map_append, further, Nat.add_sub_cancel,
    List.map_singleton, Nat.mod_self]

/-- Building a layout with one more link adds a transition at the end. -/
theorem build_concat (labels : List Label) (start : Int) (links : List (Nat × Nat))
    (link : Nat × Nat) :
    build labels start (links ++ [link]) =
      build labels start links >>= fun system =>
        system.addTransition (stateAt start link.1) (stateAt start link.2) := by
  have last (propositions : List Symbol) :
      (layout labels start (links ++ [link]) propositions).build =
        (layout labels start links propositions).build >>= fun system =>
          system.addTransition (stateAt start link.1) (stateAt start link.2) := by
    simp only [Description.build, bind_assoc]
    have edges : (layout labels start (links ++ [link]) propositions).edges =
        (layout labels start links propositions).edges ++ [edge start link] := List.map_append
    rw [edges]
    simp only [List.foldlM_append, List.foldlM_cons, List.foldlM_nil, bind_pure]
    rfl
  simp only [build, bind_assoc, last]

theorem cycle_eq_build (labels : List Label) :
    cycle labels = build labels 0 (cycleLinks labels.length) := by
  rw [cycle, line_eq_build]
  cases labels with
  | nil => exact bind_pure _
  | cons label labels =>
      rw [List.length_cons, cycleLinks_succ, build_concat]
      simp only [List.isEmpty_cons, Bool.false_eq_true, if_false, stateAt_zero]
      rfl

/-- In a layout with the links of a cycle, the tour from a place leads through the later places to
the first one. -/
theorem IsLaidOut.tour_from (laidOut : IsLaidOut labels 0 (cycleLinks labels.length) system)
    (coherent : system.Coherent) {number remaining : Nat}
    (total : number + remaining = labels.length) :
    Tour system (state (number % labels.length)) ((List.range' number remaining).map state)
      (state 0) := by
  have transitions : system.transitions.toList = (List.range labels.length).map fun number =>
      ⟨state number, state ((number + 1) % labels.length), .unlabeled⟩ := by
    have links := laidOut.transitions
    simp only [cycleLinks, List.map_map, stateAt_zero] at links
    exact links
  have sources : (system.transitions.toList.map Transition.source).Nodup := by
    have places := List.nodup_range (n := labels.length).map (stateAt_injective 0)
    rw [List.map_congr_left fun place _ => stateAt_zero place] at places
    rw [transitions, List.map_map]
    exact places
  induction remaining generalizing number with
  | zero =>
      obtain rfl : number = labels.length := total
      rw [Nat.mod_self]
      exact .stay _
  | succ remaining induction =>
      have below : number < labels.length := by omega
      have member : ⟨state number, state ((number + 1) % labels.length), .unlabeled⟩ ∈
          system.transitions.toList := by
        rw [transitions, List.mem_map]
        exact ⟨number, List.mem_range.2 below, rfl⟩
      have only := filter_key_eq sources member
      rw [← coherent.leaving_eq_filter] at only
      rw [Nat.mod_eq_of_lt below]
      exact .move only (induction (by omega))

theorem yields_cycle (labels : List Label) : Yields labels (IsCycle labels) (cycle labels) := by
  have yields : Yields labels (IsLaidOut labels 0 (cycleLinks labels.length)) (cycle labels) := by
    rw [cycle_eq_build]
    apply yields_build
    · simp only [cycleLinks, List.mem_map, List.mem_range]
      rintro link ⟨number, below, rfl⟩
      exact ⟨below, Nat.mod_lt _ (by omega)⟩
    · rw [cycleLinks, List.map_map]
      exact (List.map_id _).symm ▸ List.nodup_range
  refine ⟨fun without => ?_, yields.error⟩
  obtain ⟨system, built, laidOut⟩ := yields.ok without
  have tour := laidOut.tour_from (reachable_cycle built).coherent (Nat.zero_add _)
  rw [Nat.zero_mod, ← List.range_eq_range'] at tour
  refine ⟨system, built, laidOut, ?_⟩
  rw [laidOut.states, List.map_congr_left fun place _ => stateAt_zero place]
  exact tour

end Path

end TransitionSystems
