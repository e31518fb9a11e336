import TransitionSystems.Proofs.Outcome

/-!
# The first of several errors

An operation that makes one check after the other fails with the error of the first check that goes
wrong. When all errors are known beforehand, the operation reports the first of them.
-/

namespace TransitionSystems

variable {α β : Type}

/-- Fails with the first of the listed errors, if there is one. -/
def reportFirst : List Error → Except Error Unit
  | [] => .ok ()
  | error :: _ => .error error

/-- The error that is due unless a condition holds. -/
def errorUnless (condition : Prop) [Decidable condition] (error : Error) : List Error :=
  if condition then [] else [error]

theorem errorUnless_eq_nil_iff {condition : Prop} [Decidable condition] {error : Error} :
    errorUnless condition error = [] ↔ condition := by
  simp [errorUnless]

theorem reportFirst_errorUnless (condition : Prop) [Decidable condition] (error : Error) :
    reportFirst (errorUnless condition error) = if condition then .ok () else .error error := by
  rw [errorUnless]
  split <;> rfl

theorem reportFirst_append (front back : List Error) :
    reportFirst (front ++ back) = reportFirst front >>= fun _ => reportFirst back := by
  cases front <;> rfl

theorem reportFirst_bind_eq_ok_iff {errors : List Error} {value result : α} :
    reportFirst errors >>= (fun _ => Except.ok value) = .ok result ↔
      errors = [] ∧ value = result := by
  cases errors <;> simp [reportFirst, bind, Except.bind]

theorem reportFirst_bind_eq_error_iff {errors : List Error} {value : α} {error : Error} :
    reportFirst errors >>= (fun _ => Except.ok value) = .error error ↔
      errors.head? = some error := by
  cases errors <;> simp [reportFirst, bind, Except.bind]

theorem forM_eq_reportFirst {check : α → Except Error Unit} {errors : α → List Error}
    (checks : ∀ value, check value = reportFirst (errors value)) (values : List α) :
    values.forM check = reportFirst (values.flatMap errors) := by
  induction values with
  | nil => rfl
  | cons value values induction =>
      change check value >>= (fun _ => values.forM check) = _
      rw [checks, induction, List.flatMap_cons, reportFirst_append]

/-- Conversions whose errors are known report the first of them all. -/
theorem mapM_eq_reportFirst {convert : α → Except Error β} {errors : α → List Error}
    {result : α → β}
    (converts : ∀ value,
      convert value = reportFirst (errors value) >>= fun _ => .ok (result value))
    (values : List α) :
    values.mapM convert =
      reportFirst (values.flatMap errors) >>= fun _ => .ok (values.map result) := by
  induction values with
  | nil => rfl
  | cons value values induction =>
      rw [List.mapM_cons, converts, induction, List.flatMap_cons, reportFirst_append]
      cases errors value with
      | nil => cases values.flatMap errors <;> rfl
      | cons error more => rfl

/-- Steps whose errors are known as long as something is kept report the first of them all. -/
theorem foldlM_eq_reportFirst {step : β → α → Except Error β} {errors : α → List Error}
    {next : β → α → β} (kept : β → Prop)
    (steps : ∀ state value, kept state →
      step state value = reportFirst (errors value) >>= fun _ => .ok (next state value))
    (keeps : ∀ state value, kept state → errors value = [] → kept (next state value))
    {start : β} (initial : kept start) (values : List α) :
    values.foldlM step start =
      reportFirst (values.flatMap errors) >>= fun _ => .ok (values.foldl next start) := by
  induction values generalizing start with
  | nil => rfl
  | cons value values induction =>
      rw [List.foldlM_cons, steps start value initial, List.flatMap_cons]
      cases found : errors value with
      | nil => exact induction (keeps start value initial found)
      | cons error more => rfl

theorem foldl_kept {errors : α → List Error} {next : β → α → β} (kept : β → Prop)
    (keeps : ∀ state value, kept state → errors value = [] → kept (next state value)) {start : β}
    (initial : kept start) {values : List α} (fits : values.flatMap errors = []) :
    kept (values.foldl next start) := by
  induction values generalizing start with
  | nil => exact initial
  | cons value values induction =>
      rw [List.flatMap_cons, List.append_eq_nil_iff] at fits
      exact induction (keeps start value initial fits.1) fits.2

end TransitionSystems
