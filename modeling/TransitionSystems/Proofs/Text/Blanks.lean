import TransitionSystems.Proofs.Text.Lines

/-!
# Blanks

Blanks around a line and a comment at its end make no difference to its content. A content without
bytes has no words; the converse holds but for vertical tabs and form feeds, which separate words
and are no blanks.
-/

namespace TransitionSystems.Text

variable {text front back line padded : Text}

theorem isSpace_of_isBlank {byte : UInt8} (blank : isBlank byte = true) : isSpace byte = true := by
  cases space : isSpace byte with
  | true => rfl
  | false =>
      rw [isBlank_eq_false space] at blank
      cases blank

/-! ## Trimmed texts -/

theorem trimEnd_append (blank : ∀ byte ∈ back, isBlank byte = true) :
    trimEnd (text ++ back) = trimEnd text := by
  rw [trimEnd, trimEnd, List.reverse_append, List.dropWhile_append_of_pos]
  simpa using blank

theorem trim_prepend (blank : ∀ byte ∈ front, isBlank byte = true) :
    trim (front ++ text) = trim text := by
  rw [trim, trim, List.dropWhile_append_of_pos blank]

theorem trim_append (blank : ∀ byte ∈ back, isBlank byte = true) :
    trim (text ++ back) = trim text := by
  rw [trim, trim, List.dropWhile_append]
  split
  · next empty =>
      rw [List.isEmpty_iff.1 empty, List.dropWhile_eq_nil_iff.2 blank]
  · exact trimEnd_append blank

theorem mem_trim_or_isBlank {byte : UInt8} (member : byte ∈ text) :
    byte ∈ trim text ∨ isBlank byte = true := by
  rw [← List.takeWhile_append_dropWhile (p := isBlank) (l := text), List.mem_append] at member
  rcases member with leading | member
  · exact .inr (List.mem_takeWhile_imp leading)
  · rw [← List.mem_reverse, ← List.takeWhile_append_dropWhile (p := isBlank)
      (l := (text.dropWhile isBlank).reverse), List.mem_append] at member
    rcases member with trailing | member
    · exact .inr (List.mem_takeWhile_imp trailing)
    · exact .inl (List.mem_reverse.2 member)

theorem trim_eq_nil_iff : trim text = [] ↔ ∀ byte ∈ text, isBlank byte = true := by
  constructor
  · intro empty byte member
    rcases mem_trim_or_isBlank member with remains | blank
    · rw [empty] at remains
      cases remains
    · exact blank
  · intro blank
    rw [← List.append_nil text, trim_prepend blank]
    rfl

/-! ## Texts without words -/

theorem words_eq_nil_iff : words text = [] ↔ ∀ byte ∈ text, isSpace byte = true := by
  induction text with
  | nil => simp [words]
  | cons first text induction =>
      rw [List.forall_mem_cons, ← induction, words, words, List.splitOnP_cons_eq_if_modifyHead]
      split
      · next space => simp [space]
      · next solid =>
          obtain ⟨piece, pieces, found⟩ :=
            List.exists_cons_of_ne_nil (List.splitOnP_ne_nil isSpace text)
          simp [found, solid]

/-! ## Contents -/

/-- The bytes of a line in front of its comment. -/
def beforeComment (line : Text) : Text :=
  line.takeWhile (· != commentMark)

theorem content_eq (line : Text) : content line = trim (beforeComment line) :=
  rfl

theorem content_eq_nil_iff :
    content line = [] ↔ ∀ byte ∈ beforeComment line, isBlank byte = true := by
  rw [content_eq, trim_eq_nil_iff]

theorem words_content_eq_nil_iff :
    words (content line) = [] ↔ ∀ byte ∈ beforeComment line, isSpace byte = true := by
  rw [words_eq_nil_iff, content_eq]
  constructor
  · intro spaces byte member
    rcases mem_trim_or_isBlank member with remains | blank
    · exact spaces byte remains
    · exact isSpace_of_isBlank blank
  · exact fun spaces byte member => spaces byte (mem_of_mem_trim member)

/-- A line with a content that consists of spaces, so that it has no words. -/
structure IsWordless (line : Text) : Prop where
  content_ne_nil : content line ≠ []
  spaces : ∀ byte ∈ content line, isSpace byte = true

theorem isWordless_iff : IsWordless line ↔ content line ≠ [] ∧ words (content line) = [] := by
  rw [words_eq_nil_iff]
  exact ⟨fun wordless => ⟨wordless.1, wordless.2⟩, fun wordless => ⟨wordless.1, wordless.2⟩⟩

theorem not_isWordless_iff :
    ¬IsWordless line ↔ (content line = [] ↔ words (content line) = []) := by
  have empty : content line = [] → words (content line) = [] := by
    intro empty
    rw [empty]
    rfl
  rw [isWordless_iff]
  tauto

instance : DecidablePred IsWordless := fun _ =>
  decidable_of_iff' _ isWordless_iff

/-! ## Padded lines -/

/-- A line with blanks in front of it and behind it, and perhaps a comment at the end. -/
inductive Pads (line : Text) : Text → Prop
  | blanks {front back : Text} (front_blank : ∀ byte ∈ front, isBlank byte = true)
      (back_blank : ∀ byte ∈ back, isBlank byte = true) : Pads line (front ++ line ++ back)
  | comment {front back : Text} (front_blank : ∀ byte ∈ front, isBlank byte = true)
      (back_blank : ∀ byte ∈ back, isBlank byte = true) (comment : Text) :
      Pads line (front ++ line ++ back ++ commentMark :: comment)

theorem Pads.refl (line : Text) : line.Pads line := by
  have pads : line.Pads ([] ++ line ++ []) := .blanks nofun nofun
  rwa [List.nil_append, List.append_nil] at pads

theorem bne_commentMark_of_isBlank {byte : UInt8} (blank : isBlank byte = true) :
    (byte != commentMark) = true := by
  rw [bne_iff_ne]
  rintro rfl
  cases blank

/-- What follows a line makes no difference to its content if it is blank up to a comment. -/
theorem content_surround (front_blank : ∀ byte ∈ front, isBlank byte = true)
    (back_blank : ∀ byte ∈ beforeComment back, isBlank byte = true) :
    content (front ++ (line ++ back)) = content line := by
  have whole : beforeComment (front ++ (line ++ back)) = front ++ beforeComment (line ++ back) :=
    List.takeWhile_append_of_pos fun byte member =>
      bne_commentMark_of_isBlank (front_blank byte member)
  rw [content_eq, whole, trim_prepend front_blank, beforeComment, List.takeWhile_append]
  split
  · next uncommented =>
      have same : beforeComment line = line :=
        (List.takeWhile_prefix _).eq_of_length uncommented
      rw [content_eq, same]
      exact trim_append back_blank
  · rfl

/-- Padding keeps the content of a line. -/
theorem Pads.content_eq (pads : Pads line padded) : content padded = content line := by
  cases pads with
  | @blanks front back front_blank back_blank =>
      rw [List.append_assoc]
      refine content_surround front_blank fun byte member => back_blank byte ?_
      exact (List.takeWhile_sublist _).subset member
  | @comment front back front_blank back_blank comment =>
      rw [List.append_assoc, List.append_assoc]
      refine content_surround front_blank fun byte member => back_blank byte ?_
      rw [beforeComment, List.takeWhile_append, List.takeWhile_cons_of_neg (by simp)] at member
      split at member
      · rwa [List.append_nil] at member
      · exact (List.takeWhile_sublist _).subset member

end TransitionSystems.Text
