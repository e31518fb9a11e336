import TransitionSystems.Proofs.FirstError
import TransitionSystems.Proofs.FirstOccurrences
import TransitionSystems.Symbol.Negation

/-!
# Negation closures

A tuple has no negation, and every other symbol has one. So the closure of a list fails with its
first tuple, and without tuples it has the listed propositions, their negations and `true`. Negating
twice gives back a name with at most one mark in front, so the closure of literals is closed under
negation, but for a `true` that is in no other way part of it.
-/

namespace TransitionSystems.Symbol

/-- The symbol with the opposite negation mark. -/
def toggled (symbol : Symbol) : Symbol :=
  .atom (if symbol.isNegated then symbol.name.tail else negationMark :: symbol.name)

/-- The propositions with their negations, and `true`. -/
def signed (propositions : List Symbol) : List Symbol :=
  propositions.flatMap (fun proposition => [proposition, proposition.toggled]) ++ [truth]

/-- The error of negating a tuple. -/
def negationErrors (symbol : Symbol) : List Error :=
  errorUnless (symbol.isTuple = false) (.negatedTuple symbol)

theorem negate_eq (symbol : Symbol) :
    symbol.negate = reportFirst symbol.negationErrors >>= fun _ => .ok symbol.toggled := by
  cases symbol <;> rfl

/-- The closure reports the first tuple, and without one it lists the first occurrences of the
propositions, their negations and `true`. -/
theorem negationClosure_eq (propositions : List Symbol) :
    negationClosure propositions =
      reportFirst (propositions.flatMap negationErrors) >>= fun _ =>
        .ok (signed propositions).eraseDups := by
  have each (proposition : Symbol) :
      (do return [proposition, ← proposition.negate] : Except Error (List Symbol)) =
        reportFirst proposition.negationErrors >>= fun _ =>
          .ok [proposition, proposition.toggled] := by
    rw [negate_eq]
    cases proposition.negationErrors <;> rfl
  have elements := OrderedSet.toList_insertMany_empty (signed propositions) false
  rw [negationClosure, mapM_eq_reportFirst each, ← elements]
  cases propositions.flatMap negationErrors <;> rfl

theorem flatMap_negationErrors_eq_nil_iff {propositions : List Symbol} :
    propositions.flatMap negationErrors = [] ↔
      ∀ proposition ∈ propositions, proposition.isTuple = false := by
  simp [negationErrors, errorUnless_eq_nil_iff]

theorem negationClosure_eq_ok_iff {propositions closure : List Symbol} :
    negationClosure propositions = .ok closure ↔
      (∀ proposition ∈ propositions, proposition.isTuple = false) ∧
        (signed propositions).eraseDups = closure := by
  rw [negationClosure_eq, reportFirst_bind_eq_ok_iff, flatMap_negationErrors_eq_nil_iff]

theorem mem_signed_iff {propositions : List Symbol} {symbol : Symbol} :
    symbol ∈ signed propositions ↔
      symbol ∈ propositions ∨ symbol ∈ propositions.map toggled ∨ symbol = truth := by
  simp only [signed, List.mem_append, List.mem_flatMap, List.mem_cons, List.mem_map,
    List.not_mem_nil, or_false, and_or_left, exists_or, exists_eq_right', or_assoc, eq_comm]

theorem exists_tuple_of_negationClosure {propositions : List Symbol} {error : Error}
    (fails : negationClosure propositions = .error error) :
    ∃ proposition ∈ propositions, proposition.isTuple = true ∧
      error = .negatedTuple proposition := by
  rw [negationClosure_eq, reportFirst_bind_eq_error_iff] at fails
  obtain ⟨proposition, member, reported⟩ := List.mem_flatMap.1 (List.mem_of_mem_head? fails)
  rw [negationErrors, errorUnless] at reported
  split at reported
  · cases reported
  · next isTuple =>
      exact ⟨proposition, member, by simpa using isTuple, List.mem_singleton.1 reported⟩

/-! ## Literals -/

/-- A symbol is an atom whose name has at most one mark in front. -/
structure IsLiteral (symbol : Symbol) : Prop where
  isTuple : symbol.isTuple = false
  single : ¬[negationMark, negationMark] <+: symbol.name

theorem negate_of_isTuple {symbol : Symbol} (isTuple : symbol.isTuple = false) :
    symbol.negate = .ok symbol.toggled := by
  cases symbol with
  | atom name => rfl
  | tuple parts => cases isTuple

theorem isTuple_toggled (symbol : Symbol) : symbol.toggled.isTuple = false := rfl

/-- Toggling the mark of a literal twice gives the literal back. -/
theorem IsLiteral.toggled_toggled {symbol : Symbol} (literal : symbol.IsLiteral) :
    symbol.toggled.toggled = symbol := by
  obtain ⟨isTuple, single⟩ := literal
  cases symbol with
  | tuple parts => cases isTuple
  | atom name =>
      rcases name with _ | ⟨first, rest⟩
      · rfl
      by_cases marked : first = negationMark
      · subst marked
        -- What follows the mark does not start with another one.
        have unmarked : rest.head? ≠ some negationMark := by
          intro starts
          obtain ⟨more, rfl⟩ := List.head?_eq_some_iff.1 starts
          exact single ⟨more, rfl⟩
        simp [toggled, isNegated, Symbol.name, unmarked]
      · simp [toggled, isNegated, Symbol.name, marked]

/-- What the closure of propositions with given negations is. -/
structure IsNegationClosure (propositions negations closure : List Symbol) : Prop where
  nodup : closure.Nodup
  /-- The symbols are in the order in which they are first met. -/
  order : closure =
    ((propositions.zip negations).flatMap (fun pair => [pair.1, pair.2]) ++ [truth]).eraseDups
  mem_iff : ∀ symbol, symbol ∈ closure ↔
    symbol ∈ propositions ∨ symbol ∈ negations ∨ symbol = truth
  /-- Every symbol has its negation in the closure, and is the negation of that one. Only `true` may
  be there without its negation, when it is neither a proposition nor a negation of one. -/
  negates : ∀ symbol ∈ closure, (symbol = truth → symbol ∈ propositions ∨ symbol ∈ negations) →
    ∃ opposite ∈ closure, symbol.negate = .ok opposite ∧ opposite.negate = .ok symbol

theorem mapM_negate {propositions : List Symbol}
    (atoms : ∀ proposition ∈ propositions, proposition.isTuple = false) :
    propositions.mapM negate = .ok (propositions.map toggled) := by
  rw [mapM_eq_reportFirst negate_eq, flatMap_negationErrors_eq_nil_iff.2 atoms]
  rfl

theorem signed_eq_zip (propositions : List Symbol) :
    signed propositions =
      (propositions.zip (propositions.map toggled)).flatMap (fun pair => [pair.1, pair.2]) ++
        [truth] := by
  rw [signed, ← List.map_prod_left_eq_zip, List.flatMap_map]

/-- The first occurrences among literals, their negations and `true` are a closure. -/
theorem isNegationClosure_signed {propositions : List Symbol}
    (literals : ∀ proposition ∈ propositions, proposition.IsLiteral) :
    IsNegationClosure propositions (propositions.map toggled) (signed propositions).eraseDups where
  nodup := nodup_eraseDups _
  order := by rw [signed_eq_zip]
  mem_iff symbol := by rw [List.mem_eraseDups, mem_signed_iff]
  negates symbol member proper := by
    rw [List.mem_eraseDups, mem_signed_iff] at member
    have met : symbol ∈ propositions ∨ symbol ∈ propositions.map toggled := by
      rcases member with given | negation | rfl
      · exact .inl given
      · exact .inr negation
      · exact proper rfl
    rcases met with given | negation
    · refine ⟨symbol.toggled, ?_, negate_of_isTuple (literals symbol given).isTuple, ?_⟩
      · exact List.mem_eraseDups.2 (mem_signed_iff.2 (.inr (.inl (List.mem_map_of_mem given))))
      · rw [negate_of_isTuple symbol.isTuple_toggled, (literals symbol given).toggled_toggled]
    · obtain ⟨proposition, given, rfl⟩ := List.mem_map.1 negation
      refine ⟨proposition, List.mem_eraseDups.2 (mem_signed_iff.2 (.inl given)), ?_,
        negate_of_isTuple (literals proposition given).isTuple⟩
      rw [negate_of_isTuple proposition.isTuple_toggled, (literals _ given).toggled_toggled]

theorem negationClosure_of_find? {propositions : List Symbol} {tuple : Symbol}
    (first : propositions.find? isTuple = some tuple) :
    negationClosure propositions = .error (.negatedTuple tuple) := by
  obtain ⟨isTuple, before, after, rfl, atoms⟩ := List.find?_eq_some_iff_append.1 first
  have none : before.flatMap negationErrors = [] :=
    flatMap_negationErrors_eq_nil_iff.2 (by simpa using atoms)
  rw [negationClosure_eq, reportFirst_bind_eq_error_iff, List.flatMap_append, none,
    List.flatMap_cons, negationErrors, errorUnless, if_neg (by simp [isTuple])]
  rfl

/-- The closure of literals lists them, their negations and `true` at their first occurrences, and
negating pairs up its symbols, a `true` apart that was only appended. A list with a tuple has no
closure. -/
theorem negationClosure_closes (propositions : List Symbol) :
    ((∀ proposition ∈ propositions, proposition.IsLiteral) →
      ∃ negations closure, propositions.mapM negate = .ok negations ∧
        negationClosure propositions = .ok closure ∧
        IsNegationClosure propositions negations closure) ∧
      ((∃ proposition ∈ propositions, proposition.isTuple = true) →
        ∃ tuple, propositions.find? isTuple = some tuple ∧
          negationClosure propositions = .error (.negatedTuple tuple) ∧
          (Error.negatedTuple tuple).errorClass = .domain) := by
  constructor
  · intro literals
    have atoms : ∀ proposition ∈ propositions, proposition.isTuple = false :=
      fun proposition member => (literals proposition member).isTuple
    exact ⟨_, _, mapM_negate atoms, negationClosure_eq_ok_iff.2 ⟨atoms, rfl⟩,
      isNegationClosure_signed literals⟩
  · rintro ⟨proposition, member, isTuple⟩
    obtain ⟨tuple, first⟩ := Option.isSome_iff_exists.1
      (List.find?_isSome.2 ⟨proposition, member, isTuple⟩)
    exact ⟨tuple, first, negationClosure_of_find? first, rfl⟩

/-- Literals with repetitions and opposites, the empty name and the negation of `true`. -/
def mixedLiterals : List Symbol :=
  [.atom "p", .atom "!q", .atom "p", .atom "!p", .atom "", .atom "!true"]

/-- The closure of these literals is closed under negation, with `true` as the negation of `!true`,
and it fails when a pair is appended to them. -/
theorem mixedLiterals_closes :
    (∃ negations closure, mixedLiterals.mapM negate = .ok negations ∧
        negationClosure mixedLiterals = .ok closure ∧
        IsNegationClosure mixedLiterals negations closure) ∧
      negationClosure (mixedLiterals ++ [pair (.atom "p") (.atom "q")]) =
        .error (.negatedTuple (pair (.atom "p") (.atom "q"))) := by
  constructor
  · have literals : ∀ proposition ∈ mixedLiterals,
        proposition.isTuple = false ∧ ¬[negationMark, negationMark] <+: proposition.name := by
      decide +kernel
    exact (negationClosure_closes mixedLiterals).1 fun proposition member =>
      ⟨(literals proposition member).1, (literals proposition member).2⟩
  · obtain ⟨tuple, first, fails, -⟩ :=
      (negationClosure_closes (mixedLiterals ++ [pair (.atom "p") (.atom "q")])).2
        ⟨pair (.atom "p") (.atom "q"), by simp, rfl⟩
    rw [fails, ← Option.some.inj first]

end TransitionSystems.Symbol
