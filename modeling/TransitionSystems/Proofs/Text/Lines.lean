import Mathlib.Data.List.Basic
import Mathlib.Data.List.TakeWhile
import TransitionSystems.Text.Lines

/-!
# Laws of lines and words

Words on a line are found again when they have no spaces in them and no byte that starts a comment,
and lines are found again when they end in a newline each.
-/

namespace TransitionSystems.Text

/-! ## Joined texts -/

@[simp]
theorem join_singleton (separator text : Text) : join separator [text] = text :=
  List.intercalate_singleton

theorem join_cons_cons (separator text next : Text) (texts : List Text) :
    join separator (text :: next :: texts) = text ++ separator ++ join separator (next :: texts) :=
  List.intercalate_cons_cons

theorem join_concat (separator last : Text) (texts : List Text) :
    join separator (texts ++ [last]) = texts.flatMap (· ++ separator) ++ last := by
  induction texts with
  | nil => exact join_singleton separator last
  | cons text texts induction =>
      obtain ⟨next, more, found⟩ := List.exists_cons_of_ne_nil (List.concat_ne_nil last texts)
      rw [List.cons_append, found, join_cons_cons, ← found, induction, List.flatMap_cons,
        List.append_assoc (text ++ separator)]

theorem mem_join {separator : Text} {texts : List Text} {byte : UInt8}
    (member : byte ∈ join separator texts) : byte ∈ separator ∨ ∃ text ∈ texts, byte ∈ text := by
  induction texts with
  | nil => exact absurd member List.not_mem_nil
  | cons text texts induction =>
      cases texts with
      | nil =>
          rw [join_singleton] at member
          exact .inr ⟨text, List.mem_cons_self, member⟩
      | cons next texts =>
          rw [join_cons_cons, List.mem_append, List.mem_append] at member
          rcases member with (member | member) | member
          · exact .inr ⟨text, List.mem_cons_self, member⟩
          · exact .inl member
          · rcases induction member with separated | ⟨other, listed, member⟩
            · exact .inl separated
            · exact .inr ⟨other, List.mem_cons_of_mem _ listed, member⟩

/-! ## Words -/

/-- A text that is a word of every line in which spaces surround it. -/
structure IsWord (word : Text) : Prop where
  nonempty : word ≠ []
  plain : ∀ byte ∈ word, isSpace byte = false ∧ byte ≠ commentMark

theorem ofString_space : ofString " " = [32] := by
  decide

/-- Words that are joined by spaces are found again. -/
theorem words_join {texts : List Text} (isWord : ∀ text ∈ texts, text.IsWord) :
    words (join " " texts) = texts := by
  rw [ofString_space]
  induction texts with
  | nil => rfl
  | cons text texts induction =>
      rw [List.forall_mem_cons] at isWord
      have solid : ∀ byte ∈ text, isSpace byte = false := fun byte member =>
        (isWord.1.plain byte member).1
      have kept : (!text.isEmpty) = true := by simpa using isWord.1.nonempty
      cases texts with
      | nil =>
          rw [join_singleton, words, List.splitOnP_eq_singleton solid,
            List.filter_cons, if_pos kept, List.filter_nil]
      | cons next texts =>
          rw [join_cons_cons, List.append_assoc, List.singleton_append, words,
            List.splitOnP_append_cons_of_forall_mem solid 32 (by decide),
            List.filter_cons, if_pos kept]
          exact congrArg (text :: ·) (induction isWord.2)

theorem trim_eq_self {text : Text} (first : ∀ byte ∈ text.head?, isBlank byte = false)
    (last : ∀ byte ∈ text.getLast?, isBlank byte = false) : trim text = text := by
  have keep {text : Text} (first : ∀ byte ∈ text.head?, isBlank byte = false) :
      text.dropWhile isBlank = text := by
    cases text with
    | nil => rfl
    | cons byte text => exact List.dropWhile_cons_of_neg (by simp [first byte rfl])
  rw [trim, keep first, trimEnd, keep, List.reverse_reverse]
  rw [List.head?_reverse]
  exact last

theorem mem_of_mem_head?_join {texts : List Text} (isWord : ∀ text ∈ texts, text.IsWord)
    {separator : Text} {byte : UInt8} (first : byte ∈ (join separator texts).head?) :
    ∃ text ∈ texts, byte ∈ text := by
  cases texts with
  | nil => cases first
  | cons text texts =>
      refine ⟨text, List.mem_cons_self, ?_⟩
      have nonempty := (isWord text List.mem_cons_self).nonempty
      cases texts with
      | nil =>
          rw [join_singleton] at first
          exact List.mem_of_mem_head? first
      | cons next texts =>
          rw [join_cons_cons, List.append_assoc, List.head?_append_of_ne_nil _ nonempty] at first
          exact List.mem_of_mem_head? first

theorem mem_of_mem_getLast?_join {texts : List Text} (isWord : ∀ text ∈ texts, text.IsWord)
    {separator : Text} {byte : UInt8} (last : byte ∈ (join separator texts).getLast?) :
    ∃ text ∈ texts, byte ∈ text := by
  induction texts with
  | nil => cases last
  | cons text texts induction =>
      rw [List.forall_mem_cons] at isWord
      cases texts with
      | nil =>
          rw [join_singleton] at last
          exact ⟨text, List.mem_cons_self, List.mem_of_mem_getLast? last⟩
      | cons next texts =>
          have rest : join separator (next :: texts) ≠ [] := by
            have nonempty := (isWord.2 next List.mem_cons_self).nonempty
            cases texts with
            | nil => simpa using nonempty
            | cons other texts => simp [join_cons_cons, nonempty]
          rw [join_cons_cons, List.getLast?_append_of_ne_nil _ rest] at last
          obtain ⟨other, listed, member⟩ := induction isWord.2 last
          exact ⟨other, List.mem_cons_of_mem _ listed, member⟩

theorem isBlank_eq_false {byte : UInt8} (solid : isSpace byte = false) : isBlank byte = false := by
  have blanks : isBlank byte = true → isSpace byte = true := by
    simp only [isBlank, isSpace, Bool.or_eq_true, beq_iff_eq, Bool.and_eq_true, decide_eq_true_eq]
    rintro (((rfl | rfl) | rfl) | rfl) <;> decide
  rw [← Bool.not_eq_true] at solid ⊢
  exact mt blanks solid

theorem trim_join {texts : List Text} (isWord : ∀ text ∈ texts, text.IsWord) :
    trim (join " " texts) = join " " texts := by
  apply trim_eq_self
  · intro byte first
    obtain ⟨text, listed, member⟩ := mem_of_mem_head?_join isWord first
    exact isBlank_eq_false ((isWord text listed).plain byte member).1
  · intro byte last
    obtain ⟨text, listed, member⟩ := mem_of_mem_getLast?_join isWord last
    exact isBlank_eq_false ((isWord text listed).plain byte member).1

theorem content_join {texts : List Text} (isWord : ∀ text ∈ texts, text.IsWord) :
    content (join " " texts) = join " " texts := by
  have uncommented : (join " " texts).takeWhile (· != commentMark) = join " " texts := by
    rw [List.takeWhile_eq_self_iff]
    intro byte member
    rw [bne_iff_ne]
    rcases mem_join member with separator | ⟨text, listed, member⟩
    · rw [ofString_space, List.mem_singleton] at separator
      rw [separator]
      decide
    · exact ((isWord text listed).plain byte member).2
  rw [content, uncommented, trim_join isWord]

/-! ## Words of any line -/

/-- The pieces between separators are made of bytes of the text that are no separators. -/
theorem mem_of_mem_splitOnP {separates : UInt8 → Bool} {text piece : Text} {byte : UInt8}
    (listed : piece ∈ text.splitOnP separates) (member : byte ∈ piece) :
    byte ∈ text ∧ separates byte = false := by
  induction text generalizing piece with
  | nil =>
      obtain rfl := List.mem_singleton.1 listed
      cases member
  | cons first text induction =>
      rw [List.splitOnP_cons_eq_if_modifyHead] at listed
      have further {piece : Text} (listed : piece ∈ text.splitOnP separates)
          (member : byte ∈ piece) : byte ∈ first :: text ∧ separates byte = false :=
        (induction listed member).imp (List.mem_cons_of_mem first) id
      split at listed
      · rcases List.mem_cons.1 listed with rfl | listed
        · cases member
        · exact further listed member
      · next solid =>
          obtain ⟨piece', pieces, found⟩ :=
            List.exists_cons_of_ne_nil (List.splitOnP_ne_nil separates text)
          rw [found, List.modifyHead_cons] at listed
          rw [found] at further
          rcases List.mem_cons.1 listed with rfl | listed
          · rcases List.mem_cons.1 member with rfl | member
            · exact ⟨List.mem_cons_self, by simpa using solid⟩
            · exact further List.mem_cons_self member
          · exact further (List.mem_cons_of_mem _ listed) member

theorem mem_of_mem_trim {text : Text} {byte : UInt8} (member : byte ∈ trim text) : byte ∈ text := by
  rw [trim, trimEnd, List.mem_reverse] at member
  have member := (List.dropWhile_sublist _).subset member
  rw [List.mem_reverse] at member
  exact (List.dropWhile_sublist _).subset member

theorem mem_of_mem_words {text word : Text} {byte : UInt8} (listed : word ∈ words text)
    (member : byte ∈ word) : byte ∈ text :=
  (mem_of_mem_splitOnP (List.mem_filter.1 listed).1 member).1

theorem isWord_of_mem_words_of_not_mem {text word : Text} (uncommented : commentMark ∉ text)
    (listed : word ∈ words text) : word.IsWord where
  nonempty := by simpa using (List.mem_filter.1 listed).2
  plain := by
    intro byte member
    refine ⟨(mem_of_mem_splitOnP (List.mem_filter.1 listed).1 member).2, ?_⟩
    rintro rfl
    exact uncommented (mem_of_mem_words listed member)

theorem commentMark_not_mem_content (line : Text) : commentMark ∉ content line := by
  intro member
  simpa using List.mem_takeWhile_imp (mem_of_mem_trim member)

theorem isWord_of_mem_words {line word : Text} (listed : word ∈ words (content line)) :
    word.IsWord :=
  isWord_of_mem_words_of_not_mem (commentMark_not_mem_content line) listed

/-! ## Lines -/

theorem dropReturn_eq_self {line : Text} (noReturn : line.getLast? ≠ some 13) :
    dropReturn line = line := by
  rw [dropReturn, if_neg (by simpa using noReturn)]

theorem dropReturn_concat (line : Text) : dropReturn (line ++ [13]) = line := by
  simp [dropReturn]

theorem beq_newline_of_mem {line : Text} (whole : newline ∉ line) :
    ∀ byte ∈ line, (byte == newline) = false := by
  intro byte member
  rw [beq_eq_false_iff_ne]
  rintro rfl
  exact whole member

@[simp]
theorem lines_nil : lines [] = [] := rfl

theorem lines_of_not_mem {line : Text} (whole : newline ∉ line) (nonempty : line ≠ []) :
    lines line = [dropReturn line] := by
  rw [lines, List.splitOnP_eq_singleton (beq_newline_of_mem whole)]
  simp [nonempty]

theorem lines_append {line : Text} (whole : newline ∉ line) (rest : Text) :
    lines (line ++ newline :: rest) = dropReturn line :: lines rest := by
  obtain ⟨piece, pieces, found⟩ :=
    List.exists_cons_of_ne_nil (List.splitOnP_ne_nil (· == newline) rest)
  rw [lines, List.splitOnP_append_cons_of_forall_mem (beq_newline_of_mem whole) newline BEq.rfl,
    lines, found, List.getLast?_cons_cons, List.dropLast_cons_cons]
  split <;> rfl

theorem lines_flatMap {texts : List Text} (whole : ∀ text ∈ texts, newline ∉ text)
    (noReturn : ∀ text ∈ texts, text.getLast? ≠ some 13) :
    lines (texts.flatMap (· ++ [newline])) = texts := by
  induction texts with
  | nil => exact lines_nil
  | cons text texts induction =>
      rw [List.forall_mem_cons] at whole noReturn
      rw [List.flatMap_cons, List.append_assoc, List.singleton_append, lines_append whole.1,
        dropReturn_eq_self noReturn.1, induction whole.2 noReturn.2]

/-- The lines of a file of words are found again. -/
theorem lines_flatMap_join (declarations : List (List Text))
    (isWord : ∀ texts ∈ declarations, ∀ text ∈ texts, text.IsWord) :
    lines (declarations.flatMap fun texts => (join " " texts ++ "\n" : Text)) =
      declarations.map (join " ") := by
  have lined : (declarations.flatMap fun texts => (join " " texts ++ "\n" : Text)) =
      (declarations.map (join " ")).flatMap (· ++ [newline]) := by
    rw [List.flatMap_map]
    rfl
  have solid {texts : List Text} (listed : texts ∈ declarations) {byte : UInt8}
      (member : ∃ text ∈ texts, byte ∈ text) : isSpace byte = false := by
    obtain ⟨text, listed', member⟩ := member
    exact ((isWord texts listed text listed').plain byte member).1
  rw [lined, lines_flatMap]
  · rintro line mapped member
    obtain ⟨texts, listed, rfl⟩ := List.mem_map.1 mapped
    rcases mem_join member with separator | member
    · exact absurd separator (by decide)
    · exact absurd (solid listed member) (by decide)
  · intro line mapped last
    obtain ⟨texts, listed, rfl⟩ := List.mem_map.1 mapped
    have member := mem_of_mem_getLast?_join (isWord texts listed) last
    exact absurd (solid listed member) (by decide)

end TransitionSystems.Text
