import TransitionSystems.Model.Reader
import TransitionSystems.Path
import TransitionSystems.Product.Automaton
import TransitionSystems.Product.Systems
import TransitionSystems.Proofs.Model.Lines
import TransitionSystems.Proofs.System.Coherence

/-!
# Construction of systems

Products, descriptions, lines, cycles and model files make systems out of other data. All of them
begin with a system without states and go on by updates, so the systems they make are reachable:
whatever holds of reachable systems holds of every system, however it has come about.
-/

namespace TransitionSystems

/-! ## Products -/

namespace Exploration

variable {exploration after : Exploration} {rules : Rules}

theorem leadsTo_place {system next : System} {state first second : Symbol} {label : Option Label}
    (placed : place system state first second label = .ok next) : system.LeadsTo next := by
  have record {middle : System} (leads : system.LeadsTo middle)
      (recorded : (if system.isMutable then middle.setFactors state first second
        else .ok middle) = .ok next) : system.LeadsTo next := by
    split at recorded
    · exact leads.tail ⟨.setFactors state first second, recorded⟩
    · obtain rfl := Except.ok.inj recorded
      exact leads
  cases label with
  | none => exact record (System.leadsTo_perform (.addState state) rfl) placed
  | some label =>
      obtain ⟨middle, labeled, recorded⟩ := bind_eq_ok_iff.1 placed
      exact record (System.leadsTo_perform (.addLabeledState state label) labeled) recorded

theorem leadsTo_visit {first second state : Symbol}
    (visited : exploration.visit rules first second = .ok (state, after)) :
    exploration.system.LeadsTo after.system := by
  rw [visit] at visited
  split at visited
  · obtain ⟨-, rfl⟩ := Prod.mk.inj (Except.ok.inj visited)
    exact .refl
  · obtain ⟨system, placed, rest⟩ := bind_eq_ok_iff.1 visited
    obtain ⟨-, rfl⟩ := Prod.mk.inj (Except.ok.inj rest)
    exact leadsTo_place placed

theorem leadsTo_follow {source : Symbol} {move : Move}
    (followed : exploration.follow rules source move = .ok after) :
    exploration.system.LeadsTo after.system := by
  obtain ⟨⟨target, middle⟩, visited, connected⟩ := bind_eq_ok_iff.1 followed
  obtain ⟨system, added, rest⟩ := bind_eq_ok_iff.1 connected
  obtain rfl := Except.ok.inj rest
  exact (leadsTo_visit visited).tail ⟨.addTransition source target move.label, added⟩

theorem leadsTo_expand {pair : Discovery} (expanded : exploration.expand rules pair = .ok after) :
    exploration.system.LeadsTo after.system := by
  refine foldlM_ok_induction (fun later => exploration.system.LeadsTo later.system) ?_ ?_ expanded
  · intro later move next leads followed
    exact leads.trans (leadsTo_follow followed)
  · exact .refl

theorem leadsTo_drain {fuel : Nat} (drained : exploration.drain rules fuel = .ok after) :
    exploration.system.LeadsTo after.system := by
  induction fuel generalizing exploration with
  | zero =>
      obtain rfl := Except.ok.inj drained
      exact .refl
  | succ fuel induction =>
      rw [drain] at drained
      split at drained
      · obtain rfl := Except.ok.inj drained
        exact .refl
      · obtain ⟨middle, expanded, rest⟩ := bind_eq_ok_iff.1 drained
        exact (leadsTo_expand expanded).trans (induction rest)

theorem leadsTo_seed {states : List Symbol}
    (seeded : exploration.seed rules = .ok (states, after)) :
    exploration.system.LeadsTo after.system := by
  refine foldlM_ok_induction
    (fun later : List Symbol × Exploration => exploration.system.LeadsTo later.2.system) ?_ ?_
    seeded
  · rintro ⟨states, later⟩ ⟨first, second⟩ ⟨states', next⟩ leads stepped
    obtain ⟨⟨state, middle⟩, visited, rest⟩ := bind_eq_ok_iff.1 stepped
    obtain ⟨-, rfl⟩ := Prod.mk.inj (Except.ok.inj rest)
    exact leads.trans (leadsTo_visit visited)
  · exact .refl

theorem leadsTo_explore {system : System} (explored : rules.explore system = .ok after) :
    system.LeadsTo after.system := by
  obtain ⟨⟨states, middle⟩, seeded, rest⟩ := bind_eq_ok_iff.1 explored
  obtain ⟨next, initial, drained⟩ := bind_eq_ok_iff.1 rest
  exact ((leadsTo_seed seeded).tail ⟨.setInitial states, initial⟩).trans (leadsTo_drain drained)

end Exploration

namespace System

theorem reachable_explore {schema : Schema} {name : Text} {isMutable : Bool} {rules : Rules}
    {after : Exploration} (explored : rules.explore (.empty schema name isMutable) = .ok after) :
    after.system.Reachable :=
  (Reachable.fresh schema name isMutable).leadsTo (Exploration.leadsTo_explore explored)

theorem reachable_productWith {operation sign : Text}
    {combine : OrderedSet → OrderedSet → OrderedSet}
    {moves : System → System → Symbol → Symbol → List Move} {left right : System}
    {product : Product}
    (built : productWith operation sign combine moves left right = .ok product) :
    product.system.Reachable := by
  rw [productWith] at built
  split at built
  · cases built
  · obtain ⟨after, explored, rest⟩ := bind_eq_ok_iff.1 built
    obtain rfl := Except.ok.inj rest
    exact reachable_explore explored

theorem reachable_automatonProduct {system : System} {automaton : Automaton}
    {product : AutomatonProduct} (built : system.automatonProduct automaton = .ok product) :
    product.system.Reachable := by
  rw [automatonProduct] at built
  split at built
  · cases built
  · obtain ⟨after, explored, rest⟩ := bind_eq_ok_iff.1 built
    obtain rfl := Except.ok.inj rest
    exact reachable_explore explored

end System

/-! ## Descriptions -/

namespace Description

variable {description : Description} {system next : System}

theorem leadsTo_addEdge {edge : DescribedEdge}
    (added : description.addEdge system edge = .ok next) : system.LeadsTo next := by
  rw [addEdge] at added
  split at added
  · exact System.leadsTo_perform (.addTransition _ _ _) added
  · cases added
  · cases added
  · exact System.leadsTo_perform (.addAction _ _ _) added

theorem reachable_build (built : description.build = .ok system) : system.Reachable := by
  obtain ⟨started, initial, rest⟩ := bind_eq_ok_iff.1 built
  obtain ⟨pairs, -, rest⟩ := bind_eq_ok_iff.1 rest
  obtain ⟨labeled, labels, edges⟩ := bind_eq_ok_iff.1 rest
  have leads : started.LeadsTo labeled := System.leadsTo_foldlM
    (fun _ _ _ labeled => System.leadsTo_perform (.labelState _ _) labeled) labels
  have leads' : labeled.LeadsTo system :=
    System.leadsTo_foldlM (fun _ _ _ => leadsTo_addEdge) edges
  suffices reachable : started.Reachable from reachable.leadsTo (leads.trans leads')
  exact ((System.Reachable.fresh _ _ _).leadsTo
    (System.leadsTo_perform (.addStates _) rfl)).leadsTo
      (System.leadsTo_perform (.setInitial _) initial)

end Description

namespace Path

theorem reachable_line {labels : List Label} {start : Int} {system : System}
    (built : line labels start = .ok system) : system.Reachable := by
  obtain ⟨description, -, built⟩ := bind_eq_ok_iff.1 built
  exact Description.reachable_build built

theorem reachable_cycle {labels : List Label} {system : System}
    (built : cycle labels = .ok system) : system.Reachable := by
  obtain ⟨opened, lined, closed⟩ := bind_eq_ok_iff.1 built
  have reachable := reachable_line lined
  split at closed
  · obtain rfl := Except.ok.inj closed
    exact reachable
  · exact reachable.leadsTo (System.leadsTo_perform (.addTransition _ _ _) closed)

end Path

/-! ## Files -/

namespace Model

variable {system next : System} {number : Nat} {arguments : List Text}

theorem leadsTo_readState (read : readState number system arguments = .ok next) :
    system.LeadsTo next := by
  cases arguments with
  | nil => cases read
  | cons identifier words =>
      obtain ⟨state, -, read⟩ := bind_eq_ok_iff.1 read
      cases words with
      | nil => exact System.leadsTo_perform (.addState state) read
      | cons word more =>
          simp only at read
          split at read
          · split at read
            · exact System.leadsTo_perform (.addLabeledState state ∅) read
            · cases read
          · obtain ⟨label, -, read⟩ := bind_eq_ok_iff.1 read
            exact System.leadsTo_perform (.addLabeledState state (.ofList label)) read

theorem leadsTo_readTransition (read : readTransition number system arguments = .ok next) :
    system.LeadsTo next := by
  rcases arguments with - | ⟨source, - | ⟨target, words⟩⟩
  · cases read
  · cases read
  · obtain ⟨source, -, read⟩ := bind_eq_ok_iff.1 read
    obtain ⟨target, -, read⟩ := bind_eq_ok_iff.1 read
    obtain ⟨label, -, read⟩ := bind_eq_ok_iff.1 read
    exact System.leadsTo_perform (.addTransition source target label) read

theorem leadsTo_readAlphabet {field : Text}
    (read : readAlphabet number system field arguments = .ok next) : system.LeadsTo next := by
  rw [readAlphabet] at read
  split at read
  · obtain ⟨more, -, read⟩ := bind_eq_ok_iff.1 read
    exact System.leadsTo_perform (.growAlphabet field more) read
  · cases read

/-- A declaration of a system is an update of it. -/
theorem leadsTo_readSystemLine {keyword : Text}
    (read : readSystemLine number system keyword arguments = .ok next) : system.LeadsTo next := by
  rw [readSystemLine] at read
  split at read
  · exact System.leadsTo_perform (.setMutable true) read
  split at read
  · obtain ⟨more, -, read⟩ := bind_eq_ok_iff.1 read
    exact System.leadsTo_perform (.growPropositions more) read
  split at read
  · exact leadsTo_readAlphabet read
  split at read
  · exact leadsTo_readState read
  split at read
  · obtain ⟨states, -, read⟩ := bind_eq_ok_iff.1 read
    exact System.leadsTo_perform (.setInitial states) read
  split at read
  · exact leadsTo_readTransition read
  · cases read

theorem reachable_declare {keyword : Text}
    (declared : declare number keyword arguments = .ok (.system system)) : system.Reachable := by
  obtain ⟨kind, name, rfl, -⟩ := eq_empty_of_declare declared
  exact .fresh _ _ _

theorem reachable_ofLines {lines : List Text}
    (read : ofLines lines = .ok (.system system)) : system.Reachable :=
  system_induction (fun _ declared => reachable_declare declared)
    (fun _ reachable read => reachable.leadsTo (leadsTo_readSystemLine read)) read

end Model

/-! ## All constructions -/

namespace System

/-- The ways in which systems come about: by calls of systems that are there, also by those that
fail, as products, and from descriptions, labels and files. -/
inductive Constructed : System → Prop
  | fresh (schema : Schema) (name : Text) (isMutable : Bool) :
      Constructed (.empty schema name isMutable)
  | update {system : System} (update : Update) (operand : Constructed system) :
      Constructed (system.run [update]).2
  | merge {target source : System} (operand : Constructed target)
      (operand' : Constructed source) : Constructed (target.merge source).2
  | synchronousProduct {left right : System} {product : Product} (operand : Constructed left)
      (operand' : Constructed right) (built : left.synchronousProduct right = .ok product) :
      Constructed product.system
  | asynchronousProduct {left right : System} {product : Product} (operand : Constructed left)
      (operand' : Constructed right) (built : left.asynchronousProduct right = .ok product) :
      Constructed product.system
  | automatonProduct {system : System} {automaton : Automaton} {product : AutomatonProduct}
      (operand : Constructed system) (built : system.automatonProduct automaton = .ok product) :
      Constructed product.system
  | description {description : Description} {system : System}
      (built : description.build = .ok system) : Constructed system
  | line {labels : List Label} {start : Int} {system : System}
      (built : Path.line labels start = .ok system) : Constructed system
  | cycle {labels : List Label} {system : System} (built : Path.cycle labels = .ok system) :
      Constructed system
  | file {lines : List Text} {system : System}
      (read : Model.ofLines lines = .ok (.system system)) : Constructed system

/-- No construction makes a system that updates and merges do not lead to. -/
theorem constructed_iff_reachable {system : System} : system.Constructed ↔ system.Reachable := by
  constructor
  · intro constructed
    induction constructed with
    | fresh schema name isMutable => exact .fresh schema name isMutable
    | update update _ reachable => exact .update update reachable
    | merge _ _ reachable reachable' => exact .merge reachable reachable'
    | synchronousProduct _ _ built => exact reachable_productWith built
    | asynchronousProduct _ _ built => exact reachable_productWith built
    | automatonProduct _ built => exact reachable_automatonProduct built
    | description built => exact Description.reachable_build built
    | line built => exact Path.reachable_line built
    | cycle built => exact Path.reachable_cycle built
    | file read => exact Model.reachable_ofLines read
  · intro reachable
    induction reachable with
    | fresh schema name isMutable => exact .fresh schema name isMutable
    | update update _ constructed => exact .update update constructed
    | merge _ _ constructed constructed' => exact .merge constructed constructed'

end System

end TransitionSystems
