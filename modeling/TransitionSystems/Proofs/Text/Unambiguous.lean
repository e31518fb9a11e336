import Mathlib.Data.List.Basic
import TransitionSystems.Proofs.Text.Lines

/-!
# Unambiguous texts

A value is told by what is written for it when no other value is written at the beginning of the
same text. Then a list of values is told by what is written for them one after the other, provided
it ends where no further value begins. A text is told by a byte behind it that is not in it, and
what precedes the last line that ends in an opening brace is told by this line.
-/

namespace TransitionSystems.Text

variable {text other rest rest' : Text}

/-! ## Ends of texts -/

/-- A text ends in front of a byte that is not in it. -/
theorem append_stop_inj {byte : UInt8} {stop : Text} (begins : stop.head? = some byte)
    (absent : byte ∉ text) (absent' : byte ∉ other)
    (same : text ++ (stop ++ rest) = other ++ (stop ++ rest')) : text = other ∧ rest = rest' := by
  obtain ⟨more, rfl⟩ := List.head?_eq_some_iff.1 begins
  induction text generalizing other with
  | nil =>
      cases other with
      | nil => exact ⟨rfl, List.append_cancel_left same⟩
      | cons first other =>
          have here : byte = first := (List.cons.inj same).1
          exact absurd (here ▸ List.mem_cons_self) absent'
  | cons first text induction =>
      cases other with
      | nil =>
          have here : first = byte := (List.cons.inj same).1
          exact absurd (here ▸ List.mem_cons_self) absent
      | cons first' other =>
          obtain ⟨rfl, further⟩ := List.cons.inj same
          rw [List.mem_cons, not_or] at absent absent'
          obtain ⟨rfl, behind⟩ := induction absent.2 absent'.2 further
          exact ⟨rfl, behind⟩

theorem append_ne_append {front front' : Text}
    (differ : (front.isPrefixOf front' || front'.isPrefixOf front) = false) :
    front ++ rest ≠ front' ++ rest' := by
  intro same
  have either := List.prefix_or_prefix_of_prefix (List.prefix_append front rest)
    (same ▸ List.prefix_append front' rest')
  rw [← List.isPrefixOf_iff_prefix, ← List.isPrefixOf_iff_prefix, ← Bool.or_eq_true,
    differ] at either
  cases either

/-! ## Values -/

section

variable {α : Type} {allowed : α → Prop} {write : α → Text} {values others : List α}

/-- No other value that is allowed is written at the beginning of a text that begins with what is
written for a value. -/
def Tells (allowed : α → Prop) (write : α → Text) (value : α) : Prop :=
  ∀ other, allowed other → ∀ rest rest', write value ++ rest = write other ++ rest' →
    value = other ∧ rest = rest'

theorem Tells.prepend {value : α} (tells : Tells allowed write value) (front : Text) :
    Tells allowed (fun value => front ++ write value) value := by
  intro other allows rest rest' same
  rw [List.append_assoc, List.append_assoc] at same
  exact tells other allows rest rest' (List.append_cancel_left same)

/-- Values that are written one after the other are told up to a text with which none begins. -/
theorem flatMap_stop_inj {stop : Text} (tells : ∀ value ∈ values, Tells allowed write value)
    (allows : ∀ value ∈ values, allowed value) (allows' : ∀ value ∈ others, allowed value)
    (stops : ∀ value, allowed value → ∀ rest rest', write value ++ rest ≠ stop ++ rest')
    (same : values.flatMap write ++ (stop ++ rest) = others.flatMap write ++ (stop ++ rest')) :
    values = others ∧ rest = rest' := by
  induction values generalizing others with
  | nil =>
      cases others with
      | nil => exact ⟨rfl, List.append_cancel_left same⟩
      | cons other others =>
          rw [List.flatMap_cons, List.append_assoc] at same
          exact absurd same.symm (stops other (allows' other List.mem_cons_self) _ _)
  | cons value values induction =>
      cases others with
      | nil =>
          rw [List.flatMap_cons, List.append_assoc] at same
          exact absurd same (stops value (allows value List.mem_cons_self) _ _)
      | cons other others =>
          rw [List.forall_mem_cons] at tells allows allows'
          rw [List.flatMap_cons, List.flatMap_cons, List.append_assoc, List.append_assoc] at same
          obtain ⟨rfl, further⟩ := tells.1 other allows'.1 _ _ same
          obtain ⟨rfl, behind⟩ := induction tells.2 allows.2 allows'.2 further
          exact ⟨rfl, behind⟩

end

theorem join_cons (separator text : Text) (texts : List Text) :
    join separator (text :: texts) = text ++ texts.flatMap (separator ++ ·) := by
  induction texts generalizing text with
  | nil => simp
  | cons next texts induction =>
      rw [join_cons_cons, induction, List.flatMap_cons, List.append_assoc, List.append_assoc]

/-! ## Names -/

/-- Letters, digits and the underscore. -/
def isNameByte (byte : UInt8) : Bool :=
  isAlpha byte || isDigit byte || byte == 95

/-- A text of letters, digits and underscores. -/
structure IsName (name : Text) : Prop where
  nonempty : name ≠ []
  bytes : ∀ byte ∈ name, isNameByte byte = true

theorem isName_iff {name : Text} : name.IsName ↔ name ≠ [] ∧ name.all isNameByte = true := by
  rw [List.all_eq_true]
  exact ⟨fun isName => ⟨isName.1, isName.2⟩, fun isName => ⟨isName.1, isName.2⟩⟩

instance : DecidablePred IsName := fun _ =>
  decidable_of_iff' _ isName_iff

/-- Whether the first byte of a text does not belong to names. -/
def stopsNames (stop : Text) : Bool :=
  stop.head?.any (!isNameByte ·)

theorem IsName.not_mem (isName : text.IsName) {byte : UInt8} (foreign : isNameByte byte = false) :
    byte ∉ text := by
  intro member
  rw [isName.bytes byte member] at foreign
  cases foreign

theorem exists_foreign_of_stopsNames {stop : Text} (stops : stop.stopsNames = true) :
    ∃ byte, stop.head? = some byte ∧ isNameByte byte = false := by
  cases begins : stop.head? with
  | none =>
      rw [stopsNames, begins] at stops
      cases stops
  | some byte =>
      rw [stopsNames, begins, Option.any_some, Bool.not_eq_true'] at stops
      exact ⟨byte, rfl, stops⟩

theorem IsName.append_inj {stop : Text} (isName : text.IsName) (isName' : other.IsName)
    (stops : stop.stopsNames = true)
    (same : text ++ (stop ++ rest) = other ++ (stop ++ rest')) : text = other ∧ rest = rest' := by
  obtain ⟨byte, begins, foreign⟩ := exists_foreign_of_stopsNames stops
  exact append_stop_inj begins (isName.not_mem foreign) (isName'.not_mem foreign) same

theorem IsName.append_ne {stop : Text} (isName : text.IsName) (stops : stop.stopsNames = true) :
    text ++ rest ≠ stop ++ rest' := by
  obtain ⟨byte, begins, foreign⟩ := exists_foreign_of_stopsNames stops
  obtain ⟨first, more, rfl⟩ := List.exists_cons_of_ne_nil isName.nonempty
  obtain ⟨more', rfl⟩ := List.head?_eq_some_iff.1 begins
  intro same
  have here : first = byte := (List.cons.inj same).1
  exact isName.not_mem foreign (here ▸ List.mem_cons_self)

/-! ## Opening braces at the ends of lines -/

/-- Whether another byte than a newline follows every opening brace. -/
def keepsBraces : Text → Bool
  | [] => true
  | byte :: text => (byte != 123 || text.head?.any (· != 10)) && keepsBraces text

theorem keepsBraces_append_of_no_brace (absent : 123 ∉ text) (keeps : keepsBraces rest = true) :
    keepsBraces (text ++ rest) = true := by
  induction text with
  | nil => exact keeps
  | cons byte text induction =>
      rw [List.mem_cons, not_or] at absent
      have other : (byte != 123) = true := bne_iff_ne.2 (Ne.symm absent.1)
      rw [List.cons_append, keepsBraces, other, Bool.true_or, Bool.true_and]
      exact induction absent.2

/-- A text without newlines may be put in front of another byte than a newline. -/
theorem keepsBraces_append_of_no_newline (absent : 10 ∉ text)
    (begins : rest.head?.any (· != 10) = true) (keeps : keepsBraces rest = true) :
    keepsBraces (text ++ rest) = true := by
  induction text with
  | nil => exact keeps
  | cons byte text induction =>
      rw [List.mem_cons, not_or] at absent
      have follows : (text ++ rest).head?.any (· != 10) = true := by
        cases text with
        | nil => exact begins
        | cons next text =>
            rw [List.mem_cons, not_or] at absent
            exact bne_iff_ne.2 (Ne.symm absent.2.1)
      rw [List.cons_append, keepsBraces, follows, Bool.or_true, Bool.true_and]
      exact induction absent.2

theorem keepsBraces_flatMap_append {α : Type} {write : α → Text} {values : List α}
    (each : ∀ value ∈ values, ∀ rest, keepsBraces rest = true →
      keepsBraces (write value ++ rest) = true) (keeps : keepsBraces rest = true) :
    keepsBraces (values.flatMap write ++ rest) = true := by
  induction values with
  | nil => exact keeps
  | cons value values induction =>
      rw [List.forall_mem_cons] at each
      rw [List.flatMap_cons, List.append_assoc]
      exact each.1 _ (induction each.2)

theorem keepsBraces_open (text rest : Text) :
    keepsBraces (text ++ ("\x7b\n" ++ rest)) = false := by
  induction text with
  | nil => rfl
  | cons byte text induction => rw [List.cons_append, keepsBraces, induction, Bool.and_false]

theorem eq_nil_of_keepsBraces (keeps : keepsBraces rest = true)
    (same : "\x7b\n" ++ rest = text ++ ("\x7b\n" ++ rest')) : text = [] := by
  match text with
  | [] => rfl
  | [_] =>
      have newline : (10 : UInt8) = 123 := (List.cons.inj (List.cons.inj same).2).1
      cases newline
  | _ :: _ :: more =>
      have behind : rest = more ++ ("\x7b\n" ++ rest') := (List.cons.inj (List.cons.inj same).2).2
      rw [behind, keepsBraces_open] at keeps
      cases keeps

/-- What precedes the last line that ends in an opening brace is told by this line. -/
theorem append_open_inj (keeps : keepsBraces rest = true) (keeps' : keepsBraces rest' = true)
    (same : text ++ ("\x7b\n" ++ rest) = other ++ ("\x7b\n" ++ rest')) :
    text = other ∧ rest = rest' := by
  rcases List.append_eq_append_iff.1 same with ⟨between, rfl, behind⟩ | ⟨between, rfl, behind⟩
  · obtain rfl := eq_nil_of_keepsBraces keeps behind
    exact ⟨(List.append_nil text).symm, List.append_cancel_left behind⟩
  · obtain rfl := eq_nil_of_keepsBraces keeps' behind
    exact ⟨List.append_nil other, (List.append_cancel_left behind).symm⟩

end TransitionSystems.Text
