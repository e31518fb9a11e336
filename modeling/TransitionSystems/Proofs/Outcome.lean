import TransitionSystems.Error

/-!
# Successful outcomes

An operation that is put together from others succeeds when all of its parts do. These laws take a
successful outcome apart.
-/

namespace TransitionSystems

variable {α β : Type}

theorem exists_ok_of_isOk {ε : Type} {outcome : Except ε α} (succeeds : outcome.isOk = true) :
    ∃ value, outcome = .ok value := by
  cases outcome with
  | error error => cases succeeds
  | ok value => exact ⟨value, rfl⟩

@[simp]
theorem pure_eq_ok_iff {value result : α} :
    (pure value : Except Error α) = .ok result ↔ result = value := by
  simp [pure, Except.pure, eq_comm]

@[simp]
theorem ok_bind {ε : Type} (value : α) (next : α → Except ε β) :
    Except.ok value >>= next = next value :=
  rfl

theorem bind_eq_ok_iff {first : Except Error α} {next : α → Except Error β} {result : β} :
    first >>= next = .ok result ↔ ∃ value, first = .ok value ∧ next value = .ok result := by
  cases first with
  | error error => simp [bind, Except.bind]
  | ok value => simp [bind, Except.bind]

theorem check_bind_eq_ok_iff {check : Except Error Unit} {next : Unit → Except Error β}
    {result : β} : check >>= next = .ok result ↔ check = .ok () ∧ next () = .ok result := by
  rw [bind_eq_ok_iff]
  exact ⟨fun ⟨(), checked, rest⟩ => ⟨checked, rest⟩, fun ⟨checked, rest⟩ => ⟨(), checked, rest⟩⟩

theorem map_eq_ok_iff {convert : α → β} {outcome : Except Error α} {result : β} :
    convert <$> outcome = .ok result ↔ ∃ value, outcome = .ok value ∧ convert value = result := by
  cases outcome <;> simp [Functor.map, Except.map]

theorem forM_eq_ok_iff {check : α → Except Error Unit} {values : List α} :
    values.forM check = .ok () ↔ ∀ value ∈ values, check value = .ok () := by
  induction values with
  | nil => simp
  | cons value values induction =>
      change check value >>= (fun _ => values.forM check) = .ok () ↔ _
      rw [check_bind_eq_ok_iff, List.forall_mem_cons, ← induction]

/-- What every step keeps, a successful fold keeps. -/
theorem foldlM_ok_induction {step : β → α → Except Error β} (kept : β → Prop) {values : List α}
    (steps : ∀ state value next, kept state → step state value = .ok next → kept next)
    {start result : β} (initial : kept start) (folded : values.foldlM step start = .ok result) :
    kept result := by
  induction values generalizing start with
  | nil =>
      obtain rfl := Except.ok.inj folded
      exact initial
  | cons value values induction =>
      rw [List.foldlM_cons, bind_eq_ok_iff] at folded
      obtain ⟨next, stepped, rest⟩ := folded
      exact induction (steps start value next initial stepped) rest

end TransitionSystems
