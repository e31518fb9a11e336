import TransitionSystems.Proofs.Outcome
import TransitionSystems.Proofs.Text.Lines
import TransitionSystems.Symbol.Identifier

/-!
# Reading identifiers

The machine that reads identifiers, started where an element is due, reads the compact form of a
symbol and leaves the open tuples around it alone. So the identifier of a symbol is read back,
provided its atoms can be told from the marks of tuples.
-/

namespace TransitionSystems.Symbol

/-- A symbol whose atoms are non-empty texts of allowed bytes and whose tuples are not empty. -/
inductive Spelled (allowed : UInt8 → Prop) : Symbol → Prop
  | atom {name : Text} (nonempty : name ≠ []) (bytes : ∀ byte ∈ name, allowed byte) :
      Spelled allowed (.atom name)
  | tuple {parts : List Symbol} (nonempty : parts ≠ [])
      (spelled : ∀ part ∈ parts, Spelled allowed part) : Spelled allowed (.tuple parts)

/-- The marks of tuples. -/
def IsMark (byte : UInt8) : Prop :=
  byte = opening ∨ byte = comma ∨ byte = closing

instance : DecidablePred IsMark := fun byte =>
  inferInstanceAs (Decidable (byte = opening ∨ byte = comma ∨ byte = closing))

/-! ## Compact forms -/

theorem renderParts_eq_map (atom : Text → Text) (separator : Text) (parts : List Symbol) :
    renderParts atom separator parts = parts.map (render atom separator) := by
  induction parts with
  | nil => rfl
  | cons part parts induction => rw [renderParts, induction, List.map_cons]

theorem compact_atom (name : Text) : (atom name).compact = name :=
  rfl

theorem compact_tuple (parts : List Symbol) :
    (tuple parts).compact = opening :: (Text.join [comma] (parts.map compact) ++ [closing]) := by
  rw [compact, render, renderParts_eq_map]
  rfl

theorem Spelled.compact_ne_nil {allowed : UInt8 → Prop} {symbol : Symbol}
    (spelled : symbol.Spelled allowed) : symbol.compact ≠ [] := by
  cases spelled with
  | atom nonempty _ => exact nonempty
  | tuple _ _ =>
      rw [compact_tuple]
      exact List.cons_ne_nil _ _

theorem Spelled.mem_compact {allowed : UInt8 → Prop} {symbol : Symbol}
    (spelled : symbol.Spelled allowed) {byte : UInt8} (member : byte ∈ symbol.compact) :
    allowed byte ∨ IsMark byte := by
  induction spelled with
  | atom _ bytes => exact .inl (bytes byte member)
  | tuple _ _ induction =>
      rw [compact_tuple, List.mem_cons, List.mem_append, List.mem_singleton] at member
      rcases member with rfl | member | rfl
      · exact .inr (.inl rfl)
      · rcases Text.mem_join member with separator | ⟨text, listed, member⟩
        · exact .inr (.inr (.inl (List.mem_singleton.1 separator)))
        · obtain ⟨part, present, rfl⟩ := List.mem_map.1 listed
          exact induction part present member
      · exact .inr (.inr (.inr rfl))

/-! ## Reading an element -/

namespace Reader

/-- The position after a symbol. -/
def after (symbol : Symbol) (frames : List (List Symbol)) : Reader :=
  match symbol with
  | .atom name => ⟨.atom name.reverse, frames⟩
  | .tuple _ => ⟨.complete symbol, frames⟩

theorem step_after_comma (symbol : Symbol) (parts : List Symbol) (outer : List (List Symbol)) :
    step (after symbol (parts :: outer)) comma = .ok ⟨.due, (symbol :: parts) :: outer⟩ := by
  cases symbol <;> simp [after, step, afterElement]

theorem step_after_closing (symbol : Symbol) (parts : List Symbol) (outer : List (List Symbol)) :
    step (after symbol (parts :: outer)) closing =
      .ok ⟨.complete (.tuple (parts.reverse ++ [symbol])), outer⟩ := by
  have distinct : closing ≠ comma := by decide
  cases symbol <;> simp [after, step, afterElement, distinct]

theorem finish_after (symbol : Symbol) : finish (after symbol []) = .ok symbol := by
  cases symbol <;> simp [after, finish]

theorem foldlM_step_atom {name : Text} (plain : ∀ byte ∈ name, ¬IsMark byte) (bytes : Text)
    (frames : List (List Symbol)) :
    name.foldlM step ⟨.atom bytes, frames⟩ = .ok ⟨.atom (name.reverse ++ bytes), frames⟩ := by
  induction name generalizing bytes with
  | nil => rfl
  | cons byte name induction =>
      rw [List.forall_mem_cons] at plain
      have read : step ⟨.atom bytes, frames⟩ byte = .ok ⟨.atom (byte :: bytes), frames⟩ :=
        if_neg plain.1
      rw [List.foldlM_cons, read, ok_bind, induction plain.2, List.reverse_cons, List.append_assoc,
        List.singleton_append]

/-- The parts of a tuple are read one after the other up to the parenthesis that closes it. -/
theorem foldlM_step_parts {parts : List Symbol} (nonempty : parts ≠ [])
    (reads : ∀ part ∈ parts, ∀ frames,
      part.compact.foldlM step ⟨.due, frames⟩ = .ok (after part frames))
    (former : List Symbol) (outer : List (List Symbol)) :
    (Text.join [comma] (parts.map compact) ++ [closing]).foldlM step ⟨.due, former :: outer⟩ =
      .ok ⟨.complete (.tuple (former.reverse ++ parts)), outer⟩ := by
  induction parts generalizing former with
  | nil => exact absurd rfl nonempty
  | cons part parts induction =>
      rw [List.forall_mem_cons] at reads
      cases parts with
      | nil =>
          rw [List.map_singleton, Text.join_singleton, List.foldlM_append, reads.1, ok_bind,
            List.foldlM_cons, step_after_closing]
          rfl
      | cons next parts =>
          have rest := induction (List.cons_ne_nil _ _) reads.2 (part :: former)
          rw [List.map_cons, List.map_cons, Text.join_cons_cons,
            List.append_assoc, List.append_assoc, List.foldlM_append, reads.1, ok_bind,
            List.singleton_append, List.foldlM_cons, step_after_comma, ok_bind]
          simpa using rest

/-- The compact form of a spelled symbol is read as an element. -/
theorem foldlM_step_compact {allowed : UInt8 → Prop} {symbol : Symbol}
    (spelled : symbol.Spelled allowed) (plain : ∀ byte, allowed byte → ¬IsMark byte)
    (frames : List (List Symbol)) :
    symbol.compact.foldlM step ⟨.due, frames⟩ = .ok (after symbol frames) := by
  induction spelled generalizing frames with
  | @atom name nonempty bytes =>
      obtain ⟨byte, name, rfl⟩ := List.exists_cons_of_ne_nil nonempty
      rw [List.forall_mem_cons] at bytes
      have unmarked := plain byte bytes.1
      have read : step ⟨.due, frames⟩ byte = .ok ⟨.atom [byte], frames⟩ := by
        simp only [IsMark, not_or] at unmarked
        simp [step, unmarked]
      have rest : ∀ other ∈ name, ¬IsMark other := fun other member =>
        plain other (bytes.2 other member)
      rw [compact_atom, List.foldlM_cons, read, ok_bind, foldlM_step_atom rest, after,
        List.reverse_cons]
  | tuple nonempty _ induction =>
      rw [compact_tuple, List.foldlM_cons]
      exact foldlM_step_parts nonempty induction [] frames

end Reader

theorem ofIdentifier_compact {allowed : UInt8 → Prop} {symbol : Symbol}
    (spelled : symbol.Spelled allowed) (plain : ∀ byte, allowed byte → ¬IsMark byte) :
    ofIdentifier symbol.compact = .ok symbol := by
  have read := Reader.foldlM_step_compact spelled plain []
  have finished : symbol.compact.foldlM Reader.step Reader.start >>= Reader.finish =
      Except.ok symbol := by
    rw [Reader.start, read]
    exact Reader.finish_after symbol
  rw [ofIdentifier, finished]

/-! ## What is read -/

namespace Reader

/-- The bytes of the tuples that are open. -/
def framesText : List (List Symbol) → Text
  | [] => []
  | parts :: outer =>
    framesText outer ++ opening :: parts.reverse.flatMap fun part => part.compact ++ [comma]

/-- The bytes of the current element. -/
def progressText : Progress → Text
  | .due => []
  | .atom bytes => bytes.reverse
  | .complete symbol => symbol.compact

/-- The current element is made of allowed bytes. -/
def ProgressSpelled (allowed : UInt8 → Prop) : Progress → Prop
  | .due => True
  | .atom bytes => bytes ≠ [] ∧ ∀ byte ∈ bytes, allowed byte
  | .complete symbol => symbol.Spelled allowed

/-- The reader has gone over these bytes, and what it holds is spelled. -/
structure HasRead (allowed : UInt8 → Prop) (bytes : Text) (reader : Reader) : Prop where
  text : framesText reader.frames ++ progressText reader.progress = bytes
  progress : ProgressSpelled allowed reader.progress
  frames : ∀ parts ∈ reader.frames, ∀ part ∈ parts, part.Spelled allowed

variable {allowed : UInt8 → Prop} {bytes : Text} {reader next : Reader}

/-- A mark after an element. -/
theorem hasRead_afterElement {symbol : Symbol} {frames : List (List Symbol)} {byte : UInt8}
    (spelled : symbol.Spelled allowed)
    (framesSpelled : ∀ parts ∈ frames, ∀ part ∈ parts, part.Spelled allowed)
    (read : afterElement symbol frames byte = .ok next) :
    next.HasRead allowed (framesText frames ++ symbol.compact ++ [byte]) := by
  cases frames with
  | nil => cases read
  | cons parts outer =>
      rw [List.forall_mem_cons] at framesSpelled
      have partsSpelled : ∀ part ∈ symbol :: parts, part.Spelled allowed :=
        List.forall_mem_cons.2 ⟨spelled, framesSpelled.1⟩
      rw [afterElement] at read
      split at read
      · next separates =>
          obtain rfl := Except.ok.inj read
          refine ⟨?_, trivial, List.forall_mem_cons.2 ⟨partsSpelled, framesSpelled.2⟩⟩
          simp [framesText, progressText, separates]
      · split at read
        · next closes =>
            obtain rfl := Except.ok.inj read
            have reversed : ∀ part ∈ (symbol :: parts).reverse, part.Spelled allowed :=
              fun part member => partsSpelled part (List.mem_reverse.1 member)
            refine ⟨?_, .tuple (by simp) reversed, framesSpelled.2⟩
            have joined := Text.join_concat [comma] symbol.compact (parts.reverse.map compact)
            rw [List.flatMap_map] at joined
            rw [closes, progressText, compact_tuple, List.reverse_cons, List.map_append,
              List.map_singleton, joined]
            simp [framesText]
        · cases read

/-- A byte that is read comes after those that have been read. -/
theorem HasRead.step {byte : UInt8} (hasRead : reader.HasRead allowed bytes)
    (plain : ¬IsMark byte → allowed byte) (read : step reader byte = .ok next) :
    next.HasRead allowed (bytes ++ [byte]) := by
  obtain ⟨progress, frames⟩ := reader
  obtain ⟨rfl, progressSpelled, framesSpelled⟩ := hasRead
  rw [Reader.step] at read
  cases progress with
  | due =>
      simp only at read
      split at read
      · next opens =>
          obtain rfl := Except.ok.inj read
          refine ⟨by simp [framesText, progressText, opens], trivial, ?_⟩
          exact List.forall_mem_cons.2 ⟨by simp, framesSpelled⟩
      · split at read
        · cases read
        · next opens marks =>
            obtain rfl := Except.ok.inj read
            have allowed : allowed byte := plain (not_or.2 ⟨opens, marks⟩)
            exact ⟨by simp [progressText], ⟨by simp, by simpa using allowed⟩, framesSpelled⟩
  | atom bytes =>
      simp only at read
      split at read
      · have spelled : (Symbol.atom bytes.reverse).Spelled allowed :=
          .atom (by simpa using progressSpelled.1) (by simpa using progressSpelled.2)
        exact hasRead_afterElement spelled framesSpelled read
      · next unmarked =>
          obtain rfl := Except.ok.inj read
          refine ⟨by simp [progressText], ⟨by simp, ?_⟩, framesSpelled⟩
          exact List.forall_mem_cons.2 ⟨plain unmarked, progressSpelled.2⟩
  | complete symbol => exact hasRead_afterElement progressSpelled framesSpelled read

theorem HasRead.foldlM {word : Text} (hasRead : reader.HasRead allowed bytes)
    (plain : ∀ byte ∈ word, ¬IsMark byte → allowed byte)
    (read : word.foldlM Reader.step reader = .ok next) :
    next.HasRead allowed (bytes ++ word) := by
  induction word generalizing reader bytes with
  | nil =>
      obtain rfl := Except.ok.inj read
      rwa [List.append_nil]
  | cons byte word induction =>
      rw [List.forall_mem_cons] at plain
      rw [List.foldlM_cons] at read
      cases first : Reader.step reader byte with
      | error fault =>
          rw [first] at read
          cases read
      | ok middle =>
          rw [first] at read
          have rest := induction (hasRead.step plain.1 first) plain.2 read
          rwa [List.append_assoc] at rest

/-- What ends is a spelled symbol with the bytes that have been read. -/
theorem HasRead.finish {symbol : Symbol} (hasRead : reader.HasRead allowed bytes)
    (finished : finish reader = .ok symbol) :
    symbol.Spelled allowed ∧ symbol.compact = bytes := by
  obtain ⟨progress, frames⟩ := reader
  obtain ⟨rfl, progressSpelled, -⟩ := hasRead
  cases progress with
  | due => cases finished
  | atom bytes =>
      cases frames with
      | nil =>
          obtain rfl := Except.ok.inj finished
          exact ⟨.atom (by simpa using progressSpelled.1) (by simpa using progressSpelled.2), rfl⟩
      | cons => cases finished
  | complete complete =>
      cases frames with
      | nil =>
          obtain rfl := Except.ok.inj finished
          exact ⟨progressSpelled, rfl⟩
      | cons => cases finished

end Reader

/-- Only compact forms of spelled symbols are read, as these symbols. -/
theorem spelled_of_ofIdentifier {allowed : UInt8 → Prop} {word : Text} {symbol : Symbol}
    (plain : ∀ byte ∈ word, ¬IsMark byte → allowed byte) (read : ofIdentifier word = .ok symbol) :
    symbol.Spelled allowed ∧ symbol.compact = word := by
  have start : Reader.start.HasRead allowed [] := ⟨rfl, trivial, by simp [Reader.start]⟩
  cases reads : word.foldlM Reader.step Reader.start with
  | error fault =>
      rw [ofIdentifier, reads] at read
      cases read
  | ok reader =>
      cases finished : reader.finish with
      | error fault =>
          rw [ofIdentifier, reads, ok_bind, finished] at read
          cases read
      | ok result =>
          rw [ofIdentifier, reads, ok_bind, finished] at read
          obtain rfl := Except.ok.inj read
          exact (start.foldlM plain reads).finish finished

end TransitionSystems.Symbol
