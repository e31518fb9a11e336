import TransitionSystems.Error

/-!
# Changes in place

A change in place writes to a value step by step, and it may fail on the way. What has been written
before a failure stays written.
-/

namespace TransitionSystems

/-- A computation that changes a value in place and may fail. -/
abbrev InPlace (σ : Type) (α : Type) :=
  ExceptT Error (StateM σ) α

namespace InPlace

variable {σ α : Type}

/-- The outcome of a change, with the value that it leaves. -/
def outcome (change : InPlace σ α) (value : σ) : Except Error α × σ :=
  (ExceptT.run change).run value

/-- Finds something out about the value, or fails. -/
def check (inspect : σ → Except Error α) : InPlace σ α := do
  ofExcept (inspect (← get))

/-- Writes to the value. -/
def write (change : σ → σ) : InPlace σ Unit :=
  modify change

/-- Treats the item at a place of a list that is found in the value, if there is one. -/
def visit (items : σ → List α) (body : α → InPlace σ Unit) (place : Nat) : InPlace σ Unit := do
  match (items (← get))[place]? with
  | some item => body item
  | none => return

/-- Goes through the items of a list that is found in the value. Each item is looked up when its
turn comes, in the value as it is then. -/
def forEach (items : σ → List α) (body : α → InPlace σ Unit) : InPlace σ Unit := do
  let count := (items (← get)).length
  (List.range count).forM (visit items body)

end InPlace

end TransitionSystems
