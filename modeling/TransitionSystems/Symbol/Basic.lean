import TransitionSystems.Text.Basic

/-!
# Symbols

States, propositions and actions are symbols: atoms named by a text, or tuples of symbols. Atoms
come before tuples, atoms are ordered by their bytes and tuples lexicographically. The order is
lawful: it is transitive, and symbols that compare equal are equal.
-/

namespace TransitionSystems

/-- An atom or a finite tuple of symbols. -/
inductive Symbol where
  | atom (name : Text)
  | tuple (parts : List Symbol)
  deriving Inhabited

namespace Symbol

/-- The tuple of two symbols. -/
def pair (first second : Symbol) : Symbol :=
  .tuple [first, second]

theorem pair_inj {first second first' second' : Symbol} :
    pair first second = pair first' second' ↔ first = first' ∧ second = second' := by
  simp [pair]

/-- The atom `true`, which holds everywhere. -/
def truth : Symbol :=
  .atom "true"

/-- Whether a symbol is a tuple. -/
def isTuple : Symbol → Bool
  | .atom _ => false
  | .tuple _ => true

/-- The name of an atom; a tuple has the empty name. -/
def name : Symbol → Text
  | .atom name => name
  | .tuple _ => []

/-- The parts of a tuple; an atom has none. -/
def parts : Symbol → List Symbol
  | .atom _ => []
  | .tuple parts => parts

/-! ## Order -/

mutual

/-- Compares two symbols. -/
def order : Symbol → Symbol → Ordering
  | .atom left, .atom right => compare left right
  | .atom _, .tuple _ => .lt
  | .tuple _, .atom _ => .gt
  | .tuple left, .tuple right => orderParts left right

/-- Compares two lists of parts lexicographically. -/
def orderParts : List Symbol → List Symbol → Ordering
  | [], [] => .eq
  | [], _ :: _ => .lt
  | _ :: _, [] => .gt
  | left :: lefts, right :: rights => (order left right).then (orderParts lefts rights)

end

instance : Ord Symbol := ⟨order⟩

mutual

private theorem order_self : ∀ symbol : Symbol, order symbol symbol = .eq
  | .atom _ => by simp [order]
  | .tuple parts => by simp [order, orderParts_self parts]

private theorem orderParts_self : ∀ parts : List Symbol, orderParts parts parts = .eq
  | [] => rfl
  | part :: parts => by simp [orderParts, order_self part, orderParts_self parts]

end

mutual

private theorem eq_of_order :
    ∀ left right : Symbol, order left right = .eq → left = right
  | .atom left, .atom right, equal => by
      simp only [order, Std.LawfulEqOrd.compare_eq_iff_eq] at equal
      rw [equal]
  | .atom _, .tuple _, equal => by simp [order] at equal
  | .tuple _, .atom _, equal => by simp [order] at equal
  | .tuple left, .tuple right, equal => by
      rw [eq_of_orderParts left right (by simpa only [order] using equal)]

private theorem eq_of_orderParts :
    ∀ left right : List Symbol, orderParts left right = .eq → left = right
  | [], [], _ => rfl
  | [], _ :: _, equal => by simp [orderParts] at equal
  | _ :: _, [], equal => by simp [orderParts] at equal
  | left :: lefts, right :: rights, equal => by
      rw [orderParts, Ordering.then_eq_eq] at equal
      rw [eq_of_order left right equal.1, eq_of_orderParts lefts rights equal.2]

end

mutual

private theorem order_swap :
    ∀ left right : Symbol, order left right = (order right left).swap
  | .atom left, .atom right => by
      simp only [order]
      exact Std.OrientedOrd.eq_swap
  | .atom _, .tuple _ => rfl
  | .tuple _, .atom _ => rfl
  | .tuple left, .tuple right => by
      simp only [order]
      exact orderParts_swap left right

private theorem orderParts_swap :
    ∀ left right : List Symbol, orderParts left right = (orderParts right left).swap
  | [], [] => rfl
  | [], _ :: _ => rfl
  | _ :: _, [] => rfl
  | left :: lefts, right :: rights => by
      simp only [orderParts, Ordering.swap_then]
      rw [← order_swap left right, ← orderParts_swap lefts rights]

end

mutual

private theorem order_lt_trans :
    ∀ first second third : Symbol,
      order first second = .lt → order second third = .lt → order first third = .lt
  | .atom first, .atom second, .atom third, below, above => by
      simp only [order] at *
      exact Std.TransCmp.lt_trans below above
  | .atom _, .atom _, .tuple _, _, _ => rfl
  | .atom _, .tuple _, .atom _, _, above => by simp [order] at above
  | .atom _, .tuple _, .tuple _, _, _ => rfl
  | .tuple _, .atom _, _, below, _ => by simp [order] at below
  | .tuple _, .tuple _, .atom _, _, above => by simp [order] at above
  | .tuple first, .tuple second, .tuple third, below, above => by
      simp only [order] at *
      exact orderParts_lt_trans first second third below above

private theorem orderParts_lt_trans :
    ∀ first second third : List Symbol,
      orderParts first second = .lt → orderParts second third = .lt →
        orderParts first third = .lt
  | [], [], _, below, _ => by simp [orderParts] at below
  | [], _ :: _, [], _, above => by simp [orderParts] at above
  | [], _ :: _, _ :: _, _, _ => rfl
  | _ :: _, [], _, below, _ => by simp [orderParts] at below
  | _ :: _, _ :: _, [], _, above => by simp [orderParts] at above
  | first :: firsts, second :: seconds, third :: thirds, below, above => by
      simp only [orderParts, Ordering.then_eq_lt] at *
      rcases below with below | ⟨same, below⟩
      · rcases above with above | ⟨same', _⟩
        · exact .inl (order_lt_trans first second third below above)
        · exact .inl (eq_of_order second third same' ▸ below)
      · rw [eq_of_order first second same]
        rcases above with above | ⟨same', above⟩
        · exact .inl above
        · exact .inr ⟨same', orderParts_lt_trans firsts seconds thirds below above⟩

end

instance : Std.OrientedOrd Symbol where
  eq_swap := order_swap _ _

instance : Std.LawfulEqOrd Symbol where
  compare_self := order_self _
  eq_of_compare := eq_of_order _ _

instance : Std.TransOrd Symbol where
  isLE_trans {first second third} below above := by
    rw [Ordering.isLE_iff_eq_lt_or_eq_eq] at *
    rcases below with below | same
    · rcases above with above | same'
      · exact .inl (order_lt_trans first second third below above)
      · exact .inl (eq_of_order second third same' ▸ below)
    · rwa [eq_of_order first second same]

instance : DecidableEq Symbol := fun left right =>
  if same : compare left right = .eq then
    isTrue (eq_of_order left right same)
  else
    isFalse fun equal => same (equal ▸ order_self left)

/-! ## Written forms -/

mutual

/-- A symbol with its atoms written by `atom` and the parts of its tuples in parentheses. -/
def render (atom : Text → Text) (separator : Text) : Symbol → Text
  | .atom name => atom name
  | .tuple parts => "(" ++ Text.join separator (renderParts atom separator parts) ++ ")"

/-- The written parts of a tuple. -/
def renderParts (atom : Text → Text) (separator : Text) : List Symbol → List Text
  | [] => []
  | part :: parts => render atom separator part :: renderParts atom separator parts

end

/-- The form shown to people, `(a, b)`. -/
def text (symbol : Symbol) : Text :=
  symbol.render id ", "

/-- The form with every atom in single quotes, `('a', 'b')`. -/
def quoted (symbol : Symbol) : Text :=
  symbol.render (fun name => "'" ++ name ++ "'") ", "

/-- The form without spaces, `(a,b)`, which is the identifier of the symbol in a model file. -/
def compact (symbol : Symbol) : Text :=
  symbol.render id ","

end Symbol

end TransitionSystems
