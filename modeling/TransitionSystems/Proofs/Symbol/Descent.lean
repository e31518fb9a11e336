import Mathlib.Data.Set.Function
import TransitionSystems.Proofs.Symbol.Identifier
import TransitionSystems.Symbol.Descent

/-!
# Identifiers and symbols correspond

The machine that reads identifiers does the same as the descent over their elements, down to the
fault that it reports. Either reads the compact forms of the symbols that can be identified, each as
its symbol, and nothing else.
-/

namespace TransitionSystems.Symbol

/-- A symbol whose atoms are not empty and free of marks, and whose tuples are not empty. -/
def IsIdentifiable (symbol : Symbol) : Prop :=
  symbol.Spelled fun byte => ¬IsMark byte

namespace Reader

/-- Goes over a text and ends there. -/
def read (reader : Reader) (text : Text) : Except IdentifierFault Symbol :=
  text.foldlM step reader >>= finish

theorem read_cons (reader : Reader) (byte : UInt8) (text : Text) :
    reader.read (byte :: text) = reader.step byte >>= fun next => next.read text := by
  rw [read, List.foldlM_cons, bind_assoc]
  rfl

theorem read_append {reader next : Reader} {front : Text} (text : Text)
    (reads : front.foldlM step reader = .ok next) :
    reader.read (front ++ text) = next.read text := by
  rw [read, List.foldlM_append, reads]
  rfl

theorem finish_after_cons (symbol : Symbol) (parts : List Symbol) (outer : List (List Symbol)) :
    finish (after symbol (parts :: outer)) = .error .unterminated := by
  cases symbol <;> rfl

/-- The byte can follow the symbol: any other byte than a mark would belong to an atom before it. -/
def Ends (symbol : Symbol) (byte : UInt8) : Prop :=
  symbol.isTuple = false → IsMark byte

theorem step_after_other {symbol : Symbol} {byte : UInt8} (ends : Ends symbol byte)
    (parts : List Symbol) (outer : List (List Symbol)) (separates : byte ≠ comma)
    (closes : byte ≠ closing) :
    step (after symbol (parts :: outer)) byte = .error .malformed := by
  cases symbol with
  | atom name =>
      have marks : byte = opening ∨ byte = comma ∨ byte = closing := ends rfl
      simp only [after, step, if_pos marks, afterElement, if_neg separates, if_neg closes]
  | tuple parts => simp [after, step, afterElement, separates, closes]

theorem step_after_trailing {symbol : Symbol} {byte : UInt8} (ends : Ends symbol byte) :
    step (after symbol []) byte = .error .trailing := by
  cases symbol with
  | atom name =>
      have marks : byte = opening ∨ byte = comma ∨ byte = closing := ends rfl
      simp [after, step, afterElement, marks]
  | tuple parts => rfl

end Reader

/-! ## The descent -/

namespace Descent

open Reader

theorem isPlain_iff {byte : UInt8} : isPlain byte = true ↔ ¬IsMark byte := by
  simp [isPlain, IsMark, and_assoc]

theorem isMark_of_isPlain_eq_false {byte : UInt8} (marks : isPlain byte = false) : IsMark byte := by
  by_contra plain
  rw [← isPlain_iff, marks] at plain
  cases plain

/-- What follows an element ends it. -/
theorem ends_of_element {text tail : Text} {symbol : Symbol} {byte : UInt8}
    {shorter : (byte :: tail).length < text.length}
    (reads : element text = .ok (symbol, ⟨byte :: tail, shorter⟩)) : Ends symbol byte := by
  intro isAtom
  cases text with
  | nil => rw [element] at reads; cases reads
  | cons first text =>
      rw [element] at reads
      split at reads
      · split at reads
        · cases reads
        · obtain ⟨rfl, -⟩ := Prod.mk.inj (Except.ok.inj reads)
          cases isAtom
      · split at reads
        · have rest : text.dropWhile isPlain = byte :: tail :=
            congrArg Subtype.val (Prod.mk.inj (Except.ok.inj reads)).2
          have stops := List.head?_dropWhile_not isPlain text
          rw [rest] at stops
          exact isMark_of_isPlain_eq_false stops
        · cases reads

/-- The machine follows the descent into an element: it reports the same fault, or it goes on after
the element with what remains. -/
def Follows (frames : List (List Symbol)) {text : Text} :
    Except IdentifierFault (Symbol × Rest text) → Prop
  | .error fault => read ⟨.due, frames⟩ text = .error fault
  | .ok (symbol, rest) => read ⟨.due, frames⟩ text = read (after symbol frames) rest.val

/-- The machine follows the descent through the parts of a tuple. -/
def FollowsParts (former : List Symbol) (outer : List (List Symbol)) {text : Text} :
    Except IdentifierFault (List Symbol × Rest text) → Prop
  | .error fault => read ⟨.due, former.reverse :: outer⟩ text = .error fault
  | .ok (parts, rest) =>
    read ⟨.due, former.reverse :: outer⟩ text = read ⟨.complete (.tuple parts), outer⟩ rest.val

theorem read_opening (frames : List (List Symbol)) (text : Text) :
    read ⟨.due, frames⟩ (opening :: text) = read ⟨.due, [] :: frames⟩ text := by
  rw [read_cons]
  rfl

theorem read_atom {byte : UInt8} (plain : isPlain byte = true) (frames : List (List Symbol))
    (text : Text) :
    read ⟨.due, frames⟩ (byte :: text) =
      read (after (.atom (byte :: text.takeWhile isPlain)) frames) (text.dropWhile isPlain) := by
  have spelled : (Symbol.atom (byte :: text.takeWhile isPlain)).IsIdentifiable := by
    refine .atom (List.cons_ne_nil _ _) (List.forall_mem_cons.2 ⟨isPlain_iff.1 plain, ?_⟩)
    exact fun other member => isPlain_iff.1 (List.mem_takeWhile_imp member)
  have reads := foldlM_step_compact spelled (fun _ => id) frames
  rw [← read_append _ reads, compact_atom, List.cons_append, List.takeWhile_append_dropWhile]

theorem read_other {byte : UInt8} (opens : byte ≠ opening) (marks : ¬isPlain byte = true)
    (frames : List (List Symbol)) (text : Text) :
    read ⟨.due, frames⟩ (byte :: text) = .error .empty := by
  have others : byte = comma ∨ byte = closing :=
    (isMark_of_isPlain_eq_false (Bool.not_eq_true _ ▸ marks)).resolve_left opens
  rw [read_cons]
  simp only [step, if_neg opens, if_pos others]
  rfl

/-- The machine follows the descent everywhere. -/
theorem follows :
    (∀ text frames, Follows frames (element text)) ∧
      ∀ former text outer, FollowsParts former outer (tuple former text) := by
  have separated {former : List Symbol} {text tail : Text} {part : Symbol}
      {shorter : (comma :: tail).length < text.length} (outer : List (List Symbol))
      (reads : element text = .ok (part, ⟨comma :: tail, shorter⟩))
      (follows : Follows (former.reverse :: outer) (element text)) :
      read ⟨.due, former.reverse :: outer⟩ text =
        read ⟨.due, (former ++ [part]).reverse :: outer⟩ tail := by
    rw [reads] at follows
    rw [follows, read_cons, step_after_comma, List.reverse_append]
    rfl
  -- The induction is on the recursion of both functions. The parts of a tuple are read with one
  -- frame more than the tuple.
  refine element.mutual_induct_unfolding
    (fun _ outcome => ∀ frames, Follows frames outcome)
    (fun former _ outcome => ∀ outer, FollowsParts former outer outcome)
    ?nothing ?opened ?tuple ?atom ?mark ?unread ?unterminated ?later ?next ?closed ?malformed
  case nothing => exact fun _ => rfl
  case opened =>
    intro tail fault reads follows frames
    rw [reads] at follows
    exact (read_opening frames tail).trans (follows frames)
  case tuple =>
    intro tail parts rest reads follows frames
    rw [reads] at follows
    exact (read_opening frames tail).trans (follows frames)
  case atom => exact fun _ tail _ plain frames => read_atom plain frames tail
  case mark => exact fun _ tail opens marks frames => read_other opens marks frames tail
  case unread =>
    intro former text fault reads follows outer
    rw [reads] at follows
    exact follows (former.reverse :: outer)
  case unterminated =>
    intro former text part _ reads follows outer
    rw [reads] at follows
    exact (follows (former.reverse :: outer)).trans (finish_after_cons part _ outer)
  case later =>
    intro former text part tail fault reads' shorter reads _ follows follows' outer
    rw [reads'] at follows'
    exact (separated outer reads (follows _)).trans (follows' outer)
  case next =>
    intro former text part tail parts rest reads' shorter reads _ follows follows' outer
    rw [reads'] at follows'
    exact (separated outer reads (follows _)).trans (follows' outer)
  case closed =>
    intro former text part tail _ reads _ _ follows outer
    rw [reads] at follows
    have closes := step_after_closing part former.reverse outer
    rw [List.reverse_reverse] at closes
    exact (follows _).trans (by rw [read_cons, closes]; rfl)
  case malformed =>
    intro former text part byte tail _ reads _ separates closes follows outer
    have ends := ends_of_element reads
    rw [reads] at follows
    exact (follows _).trans
      (by rw [read_cons, step_after_other ends _ _ separates closes]; rfl)

/-- The machine and the descent have the same outcome. -/
theorem identify_eq (word : Text) : identify word = Reader.start.read word := by
  have follows := follows.1 word []
  rw [identify]
  split
  · next reads =>
      rw [reads] at follows
      exact follows.symm
  · next symbol _ reads =>
      rw [reads] at follows
      exact (follows.trans (finish_after symbol)).symm
  · next reads =>
      have ends := ends_of_element reads
      rw [reads] at follows
      exact (follows.trans (by rw [read_cons, step_after_trailing ends]; rfl)).symm

end Descent

/-! ## Identifiers and symbols -/

theorem ofIdentifier_eq_ok_iff {word : Text} {symbol : Symbol} :
    ofIdentifier word = .ok symbol ↔ symbol.IsIdentifiable ∧ symbol.compact = word := by
  constructor
  · exact spelled_of_ofIdentifier fun _ _ => id
  · rintro ⟨identifiable, rfl⟩
    exact ofIdentifier_compact identifiable fun _ => id

theorem ofIdentifier_eq_mapError (word : Text) :
    ofIdentifier word = (Descent.identify word).mapError (.identifier word) := by
  rw [Descent.identify_eq, ofIdentifier, Reader.read]
  split
  · next reads => rw [reads]; rfl
  · next reads => rw [reads]; rfl

/-- The compact form is a bijection between the symbols that can be identified and the words that
are read. Reading is its inverse, and whatever a word is, the outcome is that of the descent. -/
theorem identifiers_bijOn :
    Set.BijOn compact {symbol | symbol.IsIdentifiable}
        {word | ∃ symbol, ofIdentifier word = .ok symbol} ∧
      (∀ word symbol,
        ofIdentifier word = .ok symbol ↔ symbol.IsIdentifiable ∧ symbol.compact = word) ∧
      ∀ word, ofIdentifier word = (Descent.identify word).mapError (.identifier word) := by
  refine ⟨⟨?_, ?_, ?_⟩, fun _ _ => ofIdentifier_eq_ok_iff, ofIdentifier_eq_mapError⟩
  · intro symbol identifiable
    exact ⟨symbol, ofIdentifier_eq_ok_iff.2 ⟨identifiable, rfl⟩⟩
  · intro symbol identifiable other identifiable' same
    have read := ofIdentifier_eq_ok_iff.2 ⟨identifiable, rfl⟩
    rw [same, ofIdentifier_eq_ok_iff.2 ⟨identifiable', rfl⟩] at read
    exact (Except.ok.inj read).symm
  · rintro word ⟨symbol, read⟩
    exact ⟨symbol, ofIdentifier_eq_ok_iff.1 read⟩

end TransitionSystems.Symbol
