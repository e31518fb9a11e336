import TransitionSystems.Model.Reader
import TransitionSystems.Model.Writer
import TransitionSystems.Proofs.Schema
import TransitionSystems.Proofs.Symbol.Identifier

/-!
# Reading what has been written

A model is written as a list of declarations, each a keyword with words on a line of its own. The
words of symbols that can be told from blanks and comments are read back one by one, so every
declaration arrives at the reader as it was written.
-/

namespace TransitionSystems

/-! ## Words of symbols -/

/-- The bytes that may occur in the atoms of a model file. -/
def IsPlain (byte : UInt8) : Prop :=
  Text.isSpace byte = false ∧ byte ≠ Text.commentMark ∧ ¬Symbol.IsMark byte

instance : DecidablePred IsPlain := fun byte =>
  inferInstanceAs (Decidable
    (Text.isSpace byte = false ∧ byte ≠ Text.commentMark ∧ ¬Symbol.IsMark byte))

namespace Symbol

theorem Spelled.isWord {symbol : Symbol} (spelled : symbol.Spelled IsPlain) :
    symbol.compact.IsWord where
  nonempty := spelled.compact_ne_nil
  plain := by
    intro byte member
    rcases spelled.mem_compact member with plain | mark
    · exact ⟨plain.1, plain.2.1⟩
    · rcases mark with rfl | rfl | rfl <;> decide

theorem Spelled.ofIdentifier {symbol : Symbol} (spelled : symbol.Spelled IsPlain) :
    Symbol.ofIdentifier symbol.compact = .ok symbol :=
  ofIdentifier_compact spelled fun _ plain => plain.2.2

end Symbol

/-! ## What words stand for -/

theorem Text.IsWord.spelled_of_ofIdentifier {word : Text} {symbol : Symbol} (isWord : word.IsWord)
    (read : Symbol.ofIdentifier word = .ok symbol) :
    symbol.Spelled IsPlain ∧ symbol.compact = word := by
  refine Symbol.spelled_of_ofIdentifier (fun byte member unmarked => ?_) read
  obtain ⟨solid, uncommented⟩ := isWord.plain byte member
  exact ⟨solid, uncommented, unmarked⟩

namespace Model

/-- Words identify symbols with plain atoms, and the words are their compact forms. -/
theorem spelled_of_symbols {words : List Text} {symbols : List Symbol}
    (isWord : ∀ word ∈ words, word.IsWord) (read : Model.symbols words = .ok symbols) :
    (∀ symbol ∈ symbols, symbol.Spelled IsPlain) ∧ symbols.map Symbol.compact = words := by
  induction words generalizing symbols with
  | nil =>
      obtain rfl := Except.ok.inj read
      exact ⟨by simp, rfl⟩
  | cons word words induction =>
      rw [List.forall_mem_cons] at isWord
      rw [Model.symbols, List.mapM_cons] at read
      obtain ⟨symbol, first, rest⟩ := bind_eq_ok_iff.1 read
      obtain ⟨symbols', listed, done⟩ := bind_eq_ok_iff.1 rest
      obtain rfl := Except.ok.inj done
      obtain ⟨spelled, compact⟩ := isWord.1.spelled_of_ofIdentifier first
      obtain ⟨spelled', compact'⟩ := induction isWord.2 listed
      exact ⟨List.forall_mem_cons.2 ⟨spelled, spelled'⟩, by rw [List.map_cons, compact, compact']⟩

theorem spelled_of_symbolSet {words : List Text} {set : OrderedSet}
    (isWord : ∀ word ∈ words, word.IsWord) (read : symbolSet words = .ok set) :
    ∀ symbol ∈ set, symbol.Spelled IsPlain := by
  obtain ⟨symbols, listed, done⟩ := bind_eq_ok_iff.1 read
  obtain rfl := Except.ok.inj done
  intro symbol member
  exact (spelled_of_symbols isWord listed).1 symbol (OrderedSet.mem_ofList.1 member)

/-! ## Words that are written -/

theorem symbols_compact {symbols : List Symbol}
    (spelled : ∀ symbol ∈ symbols, symbol.Spelled IsPlain) :
    Model.symbols (symbols.map Symbol.compact) = .ok symbols := by
  induction symbols with
  | nil => rfl
  | cons symbol symbols induction =>
      rw [List.forall_mem_cons] at spelled
      have rest := induction spelled.2
      rw [Model.symbols] at rest ⊢
      rw [List.map_cons, List.mapM_cons, spelled.1.ofIdentifier, ok_bind, rest, ok_bind]
      rfl

theorem symbolSet_compact {symbols : List Symbol}
    (spelled : ∀ symbol ∈ symbols, symbol.Spelled IsPlain) :
    symbolSet (symbols.map Symbol.compact) = .ok (.ofList symbols) := by
  rw [symbolSet, symbols_compact spelled]
  rfl

/-! ## Declarations -/

/-- A keyword with the words that follow it. -/
structure Declaration where
  keyword : Text
  arguments : List Text

namespace Declaration

/-- The line of a declaration without its end. -/
def line (declaration : Declaration) : Text :=
  Text.join " " (declaration.keyword :: declaration.arguments)

/-- The line of a declaration with its end. -/
def written (declaration : Declaration) : Text :=
  declarationLine declaration.keyword declaration.arguments

/-- A declaration whose words can be told from blanks and comments. -/
structure Clean (declaration : Declaration) : Prop where
  keyword : declaration.keyword.IsWord
  arguments : ∀ word ∈ declaration.arguments, word.IsWord

end Declaration

theorem lines_flatMap_written {declarations : List Declaration}
    (clean : ∀ declaration ∈ declarations, declaration.Clean) :
    Text.lines (declarations.flatMap Declaration.written) = declarations.map Declaration.line := by
  have lines := Text.lines_flatMap_join
    (declarations.map fun declaration => declaration.keyword :: declaration.arguments)
    (by
      intro texts mapped word listed
      obtain ⟨declaration, member, rfl⟩ := List.mem_map.1 mapped
      rcases List.mem_cons.1 listed with rfl | listed
      · exact (clean declaration member).keyword
      · exact (clean declaration member).arguments word listed)
  rw [List.flatMap_map, List.map_map] at lines
  exact lines

/-- Reads a declaration into what has been read so far. -/
def readDeclaration (model : Option Model) (number : Nat) (declaration : Declaration) :
    Except Error Model :=
  match model with
  | none => declare number declaration.keyword declaration.arguments
  | some (.system current) =>
    .system <$> readSystemLine number current declaration.keyword declaration.arguments
  | some (.automaton current) =>
    .automaton <$> readAutomatonLine number current declaration.line declaration.keyword
      declaration.arguments

/-- A clean declaration arrives at the reader with its keyword and its words. -/
theorem readLine_line {declaration : Declaration} (clean : declaration.Clean)
    (model : Option Model) (number : Nat) :
    readLine model number declaration.line =
      located number (some <$> readDeclaration model number declaration) := by
  have isWord : ∀ word ∈ declaration.keyword :: declaration.arguments, word.IsWord :=
    List.forall_mem_cons.2 ⟨clean.keyword, clean.arguments⟩
  have content : Text.content declaration.line = declaration.line := Text.content_join isWord
  have words : Text.words declaration.line = declaration.keyword :: declaration.arguments :=
    Text.words_join isWord
  rw [readLine, content, words]
  rfl

theorem readLines_append (model : Option Model) (number : Nat) (front rest : List Text) :
    readLines model number (front ++ rest) =
      readLines model number front >>= fun model =>
        readLines model (number + front.length) rest := by
  induction front generalizing model number with
  | nil => rfl
  | cons line front induction =>
      rw [List.cons_append, readLines, readLines]
      cases readLine model number line with
      | error error => rfl
      | ok next =>
          rw [ok_bind, ok_bind, induction, List.length_cons, Nat.add_assoc, Nat.add_comm 1]

instance : Coe System Model := ⟨.system⟩

instance : Coe Automaton Model := ⟨.automaton⟩

/-- Reading declarations leads from a model to another one, on whichever line they begin. -/
def Reads (before : Model) (declarations : List Declaration) (after : Model) : Prop :=
  ∀ number, readLines (some before) number (declarations.map Declaration.line) = .ok (some after)

namespace Reads

variable {before middle after : Model}

theorem nil (model : Model) : Reads model [] model :=
  fun _ => rfl

theorem append {front rest : List Declaration} (first : Reads before front middle)
    (second : Reads middle rest after) : Reads before (front ++ rest) after := by
  intro number
  rw [List.map_append, readLines_append, first number, ok_bind]
  exact second _

theorem one {declaration : Declaration} (clean : declaration.Clean)
    (read : ∀ number, readDeclaration (some before) number declaration = .ok after) :
    Reads before [declaration] after := by
  intro number
  rw [List.map_singleton, readLines, readLine_line clean, read number]
  rfl

theorem single {before after : System} {declaration : Declaration} (clean : declaration.Clean)
    (read : ∀ number,
      readSystemLine number before declaration.keyword declaration.arguments = .ok after) :
    Reads before [declaration] after :=
  one clean fun number => congrArg (Model.system <$> ·) (read number)

theorem ofAutomaton {before after : Automaton} {declaration : Declaration}
    (clean : declaration.Clean)
    (read : ∀ number, readAutomatonLine number before declaration.line declaration.keyword
      declaration.arguments = .ok after) : Reads before [declaration] after :=
  one clean fun number => congrArg (Model.automaton <$> ·) (read number)

end Reads

end Model

open Model

/-! ## Declarations of sets -/

/-- The declaration of a set, if it has elements. -/
def setDeclarations (keyword : Text) (set : OrderedSet) : List Declaration :=
  if set.isEmpty then [] else [⟨keyword, set.toList.map Symbol.compact⟩]

theorem flatMap_setDeclarations (keyword : Text) (set : OrderedSet) :
    (setDeclarations keyword set).flatMap Declaration.written = setLine keyword set := by
  rw [setDeclarations, setLine]
  split
  · rfl
  · exact List.flatMap_singleton ..

theorem clean_setDeclarations {keyword : Text} {set : OrderedSet} (isWord : keyword.IsWord)
    (spelled : ∀ symbol ∈ set, symbol.Spelled IsPlain) :
    ∀ declaration ∈ setDeclarations keyword set, declaration.Clean := by
  intro declaration member
  rw [setDeclarations] at member
  split at member
  · cases member
  · obtain rfl := List.mem_singleton.1 member
    refine ⟨isWord, fun word listed => ?_⟩
    obtain ⟨symbol, present, rfl⟩ := List.mem_map.1 listed
    exact (spelled symbol (OrderedSet.mem_toList.1 present)).isWord

/-- The declaration of a set has an effect that depends on its elements, and none when there are
no elements. -/
theorem Model.Reads.set {keyword : Text} {set : OrderedSet} {before after : Model}
    (isWord : keyword.IsWord) (spelled : ∀ symbol ∈ set, symbol.Spelled IsPlain)
    (unchanged : set.toList = [] → after = before)
    (read : set.toList ≠ [] → ∀ number,
      readDeclaration (some before) number ⟨keyword, set.toList.map Symbol.compact⟩ = .ok after) :
    Reads before (setDeclarations keyword set) after := by
  have clean := clean_setDeclarations isWord spelled
  rw [setDeclarations] at clean ⊢
  split
  · next empty =>
      rw [unchanged (OrderedSet.isEmpty_iff.1 empty)]
      exact .nil before
  · next nonempty =>
      rw [if_neg nonempty] at clean
      exact .one (clean _ List.mem_cons_self) (read (mt OrderedSet.isEmpty_iff.2 nonempty))

end TransitionSystems
