import TransitionSystems.EdgeLabel
import TransitionSystems.Proofs.Symbol.Identifier
import TransitionSystems.Proofs.Text.Unambiguous

/-!
# Quoted symbols

The quoted form of a symbol tells the symbol when its atoms are names: the quotes tell where an atom
ends, and commas and parentheses tell where the parts of a tuple end. So does the text of the label
of an edge with one field.
-/

namespace TransitionSystems

open Text

namespace Symbol

/-- A symbol whose atoms are names. -/
inductive Named : Symbol → Prop
  | atom {name : Text} (isName : name.IsName) : Named (.atom name)
  | tuple {parts : List Symbol} (named : ∀ part ∈ parts, Named part) : Named (.tuple parts)

theorem quoted_atom (name : Text) : (atom name).quoted = "'" ++ name ++ "'" :=
  rfl

theorem quoted_tuple (parts : List Symbol) :
    (tuple parts).quoted = "(" ++ Text.join ", " (parts.map quoted) ++ ")" := by
  rw [quoted, render, renderParts_eq_map]
  rfl

theorem quoted_tuple_cons (part : Symbol) (parts : List Symbol) :
    (tuple (part :: parts)).quoted =
      "(" ++ (part.quoted ++
        (parts.flatMap (fun part => ofString ", " ++ part.quoted) ++ ")")) := by
  rw [quoted_tuple, List.map_cons, join_cons, List.flatMap_map, List.append_assoc,
    List.append_assoc]

theorem quoted_append_ne (symbol : Symbol) (rest rest' : Text) :
    symbol.quoted ++ rest ≠ ")" ++ rest' := by
  cases symbol with
  | atom name =>
      rw [quoted_atom, List.append_assoc, List.append_assoc]
      exact append_ne_append rfl
  | tuple parts =>
      rw [quoted_tuple, List.append_assoc, List.append_assoc]
      exact append_ne_append rfl

theorem quoted_atom_append_ne (name : Text) (parts : List Symbol) (rest rest' : Text) :
    (atom name).quoted ++ rest ≠ (tuple parts).quoted ++ rest' := by
  rw [quoted_atom, quoted_tuple, List.append_assoc, List.append_assoc, List.append_assoc,
    List.append_assoc]
  exact append_ne_append rfl

/-- The quoted form tells a symbol whose atoms are names. -/
theorem Named.tells_quoted {symbol : Symbol} (named : symbol.Named) :
    Tells Named quoted symbol := by
  induction named with
  | @atom name isName =>
      intro other named rest rest' same
      cases named with
      | atom isName' =>
          simp only [quoted_atom, List.append_assoc] at same
          obtain ⟨rfl, behind⟩ := isName.append_inj isName' rfl
            (List.append_cancel_left same)
          exact ⟨rfl, behind⟩
      | tuple _ => exact absurd same (quoted_atom_append_ne _ _ _ _)
  | @tuple parts named induction =>
      intro other named' rest rest' same
      cases named' with
      | atom _ => exact absurd same.symm (quoted_atom_append_ne _ _ _ _)
      | @tuple parts' named' =>
          -- The first part stands out since a separator precedes the others only.
          cases parts with
          | nil =>
              cases parts' with
              | nil => exact ⟨rfl, List.append_cancel_left same⟩
              | cons part parts =>
                  rw [quoted_tuple_cons, quoted_tuple] at same
                  simp only [List.append_assoc] at same
                  exact absurd (List.append_cancel_left same).symm (quoted_append_ne _ _ _)
          | cons part parts =>
              cases parts' with
              | nil =>
                  rw [quoted_tuple_cons, quoted_tuple] at same
                  simp only [List.append_assoc] at same
                  exact absurd (List.append_cancel_left same) (quoted_append_ne _ _ _)
              | cons part' parts' =>
                  rw [List.forall_mem_cons] at named named' induction
                  simp only [quoted_tuple_cons, List.append_assoc] at same
                  obtain ⟨rfl, further⟩ := induction.1 part' named'.1 _ _
                    (List.append_cancel_left same)
                  obtain ⟨rfl, behind⟩ := flatMap_stop_inj
                    (fun value member => (induction.2 value member).prepend ", ")
                    named.2 named'.2 (fun value _ rest rest' => by
                      rw [List.append_assoc]
                      exact append_ne_append rfl) further
                  exact ⟨rfl, behind⟩

/-- The bytes of names, quotes, separators, parentheses and braces. -/
def isLabelByte (byte : UInt8) : Bool :=
  isNameByte byte || (ofString "'(, ):\x7b\x7d").contains byte

theorem Named.all_quoted {symbol : Symbol} (named : symbol.Named) :
    symbol.quoted.all isLabelByte = true := by
  induction named with
  | @atom name isName =>
      have letters : name.all isLabelByte = true := by
        rw [List.all_eq_true]
        intro byte member
        rw [isLabelByte, isName.bytes byte member, Bool.true_or]
      rw [quoted_atom, List.all_append, List.all_append, letters]
      rfl
  | @tuple parts _ induction =>
      have inside : (join ", " (parts.map quoted)).all isLabelByte = true := by
        rw [List.all_eq_true]
        intro byte member
        rcases mem_join member with mark | ⟨text, listed, member⟩
        · exact List.all_eq_true.1 (rfl : (ofString ", ").all isLabelByte = true) byte mark
        · obtain ⟨part, present, rfl⟩ := List.mem_map.1 listed
          exact List.all_eq_true.1 (induction part present) byte member
      rw [quoted_tuple, List.all_append, List.all_append, inside]
      rfl

end Symbol

namespace EdgeLabel

/-- The label without fields, or that with an action whose atoms are names. -/
inductive IsPlain : EdgeLabel → Prop
  | unlabeled : IsPlain .unlabeled
  | action {value : Symbol} (named : value.Named) : IsPlain (.action value)

theorem text_unlabeled : unlabeled.text = "\x7b" ++ ofString "\x7d" :=
  rfl

theorem text_action (value : Symbol) :
    (action value).text = "\x7b" ++ ("'actions': " ++ (value.quoted ++ "\x7d")) := by
  have entries : (action value).text =
      Text.braced ["'" ++ actionsField ++ "': " ++ value.quoted] := rfl
  rw [entries, Text.braced, join_singleton, List.append_assoc, List.append_assoc]
  rfl

/-- The text of a plain label tells the label. -/
theorem IsPlain.tells_text {label : EdgeLabel} (plain : label.IsPlain) :
    Tells IsPlain text label := by
  intro other plain' rest rest' same
  cases plain with
  | unlabeled =>
      cases plain' with
      | unlabeled => exact ⟨rfl, List.append_cancel_left same⟩
      | action _ =>
          rw [text_unlabeled, text_action] at same
          simp only [List.append_assoc] at same
          exact absurd (List.append_cancel_left same) (append_ne_append rfl)
  | action named =>
      cases plain' with
      | unlabeled =>
          rw [text_unlabeled, text_action] at same
          simp only [List.append_assoc] at same
          exact absurd (List.append_cancel_left same) (append_ne_append rfl)
      | action named' =>
          simp only [text_action, List.append_assoc] at same
          obtain ⟨rfl, further⟩ := named.tells_quoted _ named' _ _
            (List.append_cancel_left (List.append_cancel_left same))
          exact ⟨rfl, List.append_cancel_left further⟩

theorem IsPlain.all_text {label : EdgeLabel} (plain : label.IsPlain) :
    label.text.all Symbol.isLabelByte = true := by
  cases plain with
  | unlabeled => rfl
  | action named =>
      rw [text_action, List.all_append, List.all_append, List.all_append, named.all_quoted]
      rfl

end EdgeLabel

end TransitionSystems
