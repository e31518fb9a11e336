import Mathlib.Data.List.Basic
import TransitionSystems.InPlace
import TransitionSystems.OrderedSet
import TransitionSystems.Proofs.Outcome

/-!
# Laws of changes in place

The outcome of a sequence of changes is that of its parts, each of which begins with the value that
the one before it has left. A sequence of checks with writes after the last of them is settled: it
either leaves the value as it was or succeeds.
-/

namespace TransitionSystems.InPlace

variable {σ α β : Type} {value next : σ}

/-! ## Outcomes of sequences -/

@[simp]
theorem outcome_pure (result : α) (value : σ) :
    (pure result : InPlace σ α).outcome value = (.ok result, value) :=
  rfl

@[simp]
theorem outcome_write (change : σ → σ) (value : σ) :
    (write change).outcome value = (.ok (), change value) :=
  rfl

@[simp]
theorem outcome_check (inspect : σ → Except Error α) (value : σ) :
    (check inspect).outcome value = (inspect value, value) := by
  change (ofExcept (inspect value) : InPlace σ α).outcome value = _
  cases inspect value <;> rfl

@[simp]
theorem outcome_get_bind (rest : σ → InPlace σ α) (value : σ) :
    (get >>= rest).outcome value = (rest value).outcome value :=
  rfl

theorem outcome_bind_of_ok {first : InPlace σ α} {result : α}
    (succeeds : first.outcome value = (.ok result, next)) (rest : α → InPlace σ β) :
    (first >>= rest).outcome value = (rest result).outcome next := by
  change ExceptT.bindCont rest (first.outcome value).1 (first.outcome value).2 = _
  rw [succeeds]
  rfl

theorem outcome_bind_of_error {first : InPlace σ α} {error : Error}
    (fails : first.outcome value = (.error error, next)) (rest : α → InPlace σ β) :
    (first >>= rest).outcome value = (.error error, next) := by
  change ExceptT.bindCont rest (first.outcome value).1 (first.outcome value).2 = _
  rw [fails]
  rfl

@[simp]
theorem outcome_write_bind (change : σ → σ) (rest : Unit → InPlace σ α) (value : σ) :
    (write change >>= rest).outcome value = (rest ()).outcome (change value) :=
  rfl

/-! ## Checks before writes -/

theorem outcome_check_bind_of_ok (inspect : σ → Except Error α) {result : α}
    (found : inspect value = .ok result) (rest : α → InPlace σ β) :
    (check inspect >>= rest).outcome value = (rest result).outcome value :=
  outcome_bind_of_ok (by rw [outcome_check, found]) rest

theorem outcome_check_bind_of_error (inspect : σ → Except Error α) {error : Error}
    (found : inspect value = .error error) (rest : α → InPlace σ β) :
    (check inspect >>= rest).outcome value = (.error error, value) :=
  outcome_bind_of_error (by rw [outcome_check, found]) rest

/-- The outcome of a change that leaves the value as it was unless it succeeds. -/
def settle (value : σ) : Except Error σ → Except Error Unit × σ
  | .ok next => (.ok (), next)
  | .error error => (.error error, value)

theorem outcome_check_bind {inspect : σ → Except Error α} {rest : α → InPlace σ Unit}
    {settled : α → Except Error σ}
    (after : ∀ result, (rest result).outcome value = settle value (settled result)) :
    (check inspect >>= rest).outcome value = settle value (inspect value >>= settled) := by
  cases found : inspect value with
  | ok result => rw [outcome_check_bind_of_ok inspect found, after, ok_bind]
  | error error => exact outcome_check_bind_of_error inspect found rest

/-- What is true of the value and of what a success results in is true of what is left. -/
theorem settle_induction {motive : σ → Prop} {result : Except Error σ} (initial : motive value)
    (succeeds : ∀ next, result = .ok next → motive next) : motive (settle value result).2 := by
  cases result with
  | ok next => exact succeeds next rfl
  | error error => exact initial

theorem eq_of_settle_eq_error {result : Except Error σ} {error : Error}
    (fails : settle value result = (.error error, next)) : next = value := by
  cases result with
  | ok other => cases fails
  | error other => exact (Prod.mk.inj fails).2.symm

theorem check_bind_check (first : σ → Except Error α) (second : α → σ → Except Error β) :
    (check first >>= fun result => check (second result)) =
      (check fun value => first value >>= fun result => second result value : InPlace σ β) := by
  funext value
  change (check first >>= fun result => check (second result)).outcome value =
    (check _).outcome value
  rw [outcome_check]
  cases found : first value with
  | ok result => rw [outcome_check_bind_of_ok first found, outcome_check, ok_bind]
  | error error => exact outcome_check_bind_of_error first found _

/-! ## Lists -/

theorem forM_check (inspect : α → σ → Except Error Unit) (items : List α) :
    (items.forM fun item => check (inspect item)) =
      (check fun value => items.forM fun item => inspect item value : InPlace σ Unit) := by
  induction items with
  | nil => rfl
  | cons item items induction =>
      change (check (inspect item) >>= fun _ => items.forM fun item => check (inspect item)) = _
      rw [induction, check_bind_check]
      rfl

theorem forM_write (change : α → σ → σ) (items : List α) :
    (items.forM fun item => write (change item)) =
      (write fun value => items.foldl (fun value item => change item value) value :
        InPlace σ Unit) := by
  induction items with
  | nil => rfl
  | cons item items induction =>
      change (write (change item) >>= fun _ => items.forM fun item => write (change item)) = _
      rw [induction]
      rfl

theorem foldl_insert {change : (OrderedSet → OrderedSet) → σ → σ}
    (identity : ∀ value, change id value = value)
    (composes : ∀ first second value,
      change second (change first value) = change (second ∘ first) value)
    (symbols : List Symbol) (value : σ) :
    symbols.foldl (fun value symbol => change (·.insert symbol) value) value =
      change (·.insertMany symbols) value := by
  induction symbols generalizing value with
  | nil => exact (identity value).symm
  | cons symbol symbols induction =>
      rw [List.foldl_cons, induction, composes]
      rfl

/-- When all symbols are checked before the first of them is inserted, all or none are inserted. -/
theorem outcome_insertAll (change : (OrderedSet → OrderedSet) → σ → σ)
    (identity : ∀ value, change id value = value)
    (composes : ∀ first second value,
      change second (change first value) = change (second ∘ first) value)
    (inspect : Symbol → σ → Except Error Unit) (symbols : List Symbol) (value : σ) :
    (do symbols.forM fun symbol => check (inspect symbol)
        symbols.forM fun symbol => write (change (·.insert symbol))).outcome value =
      settle value (do
        symbols.forM fun symbol => inspect symbol value
        return change (·.insertMany symbols) value) := by
  rw [forM_check, forM_write]
  refine outcome_check_bind fun _ => ?_
  rw [outcome_write, foldl_insert identity composes]
  rfl

theorem visit_const (items : List α) (body : α → InPlace σ Unit) (place : Nat) :
    visit (fun _ => items) body place = items[place]?.elim (pure ()) body := by
  cases found : items[place]? <;> simp only [visit, found] <;> rfl

/-- A list that does not depend on the value is gone through from its beginning to its end. -/
theorem forEach_const (items : List α) (body : α → InPlace σ Unit) :
    forEach (fun _ => items) body = items.forM body := by
  let treat (item? : Option α) : InPlace σ Unit := item?.elim (pure ()) body
  have places : (List.range items.length).map (items[·]?) = items.map some := by
    apply List.ext_getElem <;> simp
  simp only [List.forM_eq_forM]
  calc
    forEach (fun _ => items) body
      = forM (List.range items.length) (visit (fun _ => items) body) := rfl
    _ = forM (List.range items.length) (fun place => treat items[place]?) := by
        rw [funext (visit_const items body)]
    _ = forM ((List.range items.length).map (items[·]?)) treat := List.forM_map.symm
    _ = forM (items.map some) treat := by rw [places]
    _ = forM items body := List.forM_map

theorem outcome_forM_of_fixed {items : List α} {body : α → InPlace σ Unit}
    (fixed : ∀ item ∈ items, (body item).outcome value = (.ok (), value)) :
    (items.forM body).outcome value = (.ok (), value) := by
  induction items with
  | nil => rfl
  | cons item items induction =>
      rw [List.forall_mem_cons] at fixed
      change (body item >>= fun _ => items.forM body).outcome value = _
      rw [outcome_bind_of_ok fixed.1]
      exact induction fixed.2

/-- When the items of the value change nothing, going through them changes nothing, although each
of them is looked up after those before it have been treated. -/
theorem outcome_forEach_of_fixed {items : σ → List α} {body : α → InPlace σ Unit}
    (fixed : ∀ item ∈ items value, (body item).outcome value = (.ok (), value)) :
    (forEach items body).outcome value = (.ok (), value) := by
  rw [forEach, outcome_get_bind]
  apply outcome_forM_of_fixed
  intro place _
  rw [visit, outcome_get_bind]
  split
  · next item found => exact fixed item (List.mem_of_getElem? found)
  · exact outcome_pure () value

end TransitionSystems.InPlace
