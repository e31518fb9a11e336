import TransitionSystems.Proofs.Automaton.Edges
import TransitionSystems.Proofs.Model.Declarations
import TransitionSystems.Proofs.Model.Lines

/-!
# Automata survive their files

An automaton that has been read is written with words that the reader takes as they are. The guards
are written with all their parentheses, and they are read back into the same table: it is determined
by the formulas of the guards in the order of the edges, in whatever way the file spells them.
-/

namespace TransitionSystems

open Model

/-- The byte that ends the words of an edge and begins its guard. -/
abbrev colon : UInt8 := 58

/-- An edge between states that can stand on a line: its ends have no colon in them, and the atoms
of its guard are identifiers. -/
structure FormulaEdge.IsDeclarable (edge : FormulaEdge) (states : OrderedSet) : Prop where
  source : edge.source ∈ states
  target : edge.target ∈ states
  source_colon : colon ∉ edge.source.compact
  target_colon : colon ∉ edge.target.compact
  named : ∀ name ∈ edge.guard.atoms, Guard.IsIdentifier name

theorem FormulaEdge.IsDeclarable.mono {edge : FormulaEdge} {states more : OrderedSet}
    (declarable : edge.IsDeclarable states) (subset : ∀ state ∈ states, state ∈ more) :
    edge.IsDeclarable more :=
  { declarable with
    source := subset _ declarable.source
    target := subset _ declarable.target }

namespace Automaton

/-! ## Automata as they are read -/

/-- What is true of every automaton that has been read. -/
structure AsRead (automaton : Automaton) : Prop where
  name : automaton.name.IsWord
  states : ∀ state ∈ automaton.states, state.Spelled IsPlain
  initial : ∀ state ∈ automaton.initial, state ∈ automaton.states
  accepting : ∀ state ∈ automaton.accepting, state ∈ automaton.states
  states_flag : automaton.states.isMutable = false
  initial_flag : automaton.initial.isMutable = false
  accepting_flag : automaton.accepting.isMutable = false
  /-- The edges are declarable ones that have come in one after the other. -/
  edges : ∃ edges : List FormulaEdge, (∀ edge ∈ edges, edge.IsDeclarable automaton.states) ∧
    automaton.SameEdges (({ name := automaton.name } : Automaton).putEdges edges)

variable {automaton next : Automaton} {number : Nat} {arguments : List Text}

theorem asRead_declare {keyword : Text} (isWord : ∀ word ∈ arguments, word.IsWord)
    (declared : declare number keyword arguments = .ok (.automaton automaton)) :
    automaton.AsRead := by
  have blank {name : Text} (isWord : name.IsWord) : ({ name := name } : Automaton).AsRead :=
    ⟨isWord, by simp, by simp, by simp, rfl, rfl, rfl, [], by simp, rfl, rfl, rfl⟩
  obtain ⟨name, rfl, rfl | given⟩ := eq_blank_of_declare declared
  · exact blank ⟨by decide, by decide +kernel⟩
  · exact blank (isWord name given)

namespace AsRead

theorem coherent (asRead : automaton.AsRead) : automaton.guards.Coherent := by
  obtain ⟨edges, -, same⟩ := asRead.edges
  have blank : ({ name := automaton.name } : Automaton).Carries [] :=
    ⟨Guard.Table.coherent_initial, .nil⟩
  rw [same.guards]
  exact (blank.putEdges edges).coherent

theorem addStates (asRead : automaton.AsRead) {symbols : List Symbol}
    (spelled : ∀ symbol ∈ symbols, symbol.Spelled IsPlain) :
    (symbols.foldl addState automaton).AsRead := by
  obtain ⟨edges, declarable, same⟩ := asRead.edges
  have old : ∀ state ∈ automaton.states, state ∈ automaton.states.insertMany symbols :=
    fun state member => OrderedSet.mem_insertMany.2 (.inl member)
  rw [foldl_addState]
  exact { asRead with
    states := fun state member =>
      (OrderedSet.mem_insertMany.1 member).elim (asRead.states state) (spelled state)
    initial := fun state member => old state (asRead.initial state member)
    accepting := fun state member => old state (asRead.accepting state member)
    states_flag := (OrderedSet.isMutable_insertMany _ _).trans asRead.states_flag
    edges := ⟨edges, fun edge member => (declarable edge member).mono old,
      same.guards, same.edges, same.outgoing⟩ }

theorem setInitial (asRead : automaton.AsRead) {states : List Symbol}
    (set : automaton.setInitial states = .ok next) : next.AsRead := by
  obtain ⟨known, rfl⟩ := setInitial_eq_ok_iff.1 set
  obtain ⟨edges, declarable, same⟩ := asRead.edges
  exact { asRead with
    initial := fun state member =>
      (OrderedSet.mem_insertMany.1 member).elim (asRead.initial state) (known state)
    initial_flag := (OrderedSet.isMutable_insertMany _ _).trans asRead.initial_flag
    edges := ⟨edges, declarable, same.guards, same.edges, same.outgoing⟩ }

theorem setAccepting (asRead : automaton.AsRead) {states : List Symbol}
    (set : automaton.setAccepting states = .ok next) : next.AsRead := by
  obtain ⟨known, rfl⟩ := setAccepting_eq_ok_iff.1 set
  obtain ⟨edges, declarable, same⟩ := asRead.edges
  exact { asRead with
    accepting := fun state member =>
      (OrderedSet.mem_insertMany.1 member).elim (asRead.accepting state) (known state)
    accepting_flag := (OrderedSet.isMutable_insertMany _ _).trans asRead.accepting_flag
    edges := ⟨edges, declarable, same.guards, same.edges, same.outgoing⟩ }

theorem putEdge (asRead : automaton.AsRead) {edge : FormulaEdge}
    (declarable : edge.IsDeclarable automaton.states) : (automaton.putEdge edge).AsRead := by
  obtain ⟨edges, declarable', same⟩ := asRead.edges
  refine { asRead with edges := ⟨edges ++ [edge], ?_, ?_⟩ }
  · exact List.forall_mem_append.2 ⟨declarable', List.forall_mem_singleton.2 declarable⟩
  · rw [putEdges_append]
    exact same.putEdge edge

theorem colon_not_mem_compact {content word : Text} {symbol : Symbol}
    (uncommented : Text.commentMark ∉ content)
    (listed : word ∈ Text.words (content.takeWhile (· != colon)))
    (identified : Symbol.ofIdentifier word = .ok symbol) : colon ∉ symbol.compact := by
  have isWord : word.IsWord := Text.isWord_of_mem_words_of_not_mem
    (fun member => uncommented ((List.takeWhile_sublist _).subset member)) listed
  rw [(isWord.spelled_of_ofIdentifier identified).2]
  intro member
  simpa using List.mem_takeWhile_imp (Text.mem_of_mem_words listed member)

/-- What is read on a line of an edge is a declarable edge. -/
theorem readGuardedEdge (asRead : automaton.AsRead) {content : Text}
    (uncommented : Text.commentMark ∉ content)
    (read : Model.readGuardedEdge number automaton content = .ok next) : next.AsRead := by
  rw [Model.readGuardedEdge] at read
  split at read
  · next keyword source target mark rest words _ =>
      simp only at read
      split at read
      · cases read
      obtain ⟨first, identified, read⟩ := bind_eq_ok_iff.1 read
      obtain ⟨second, identified', read⟩ := bind_eq_ok_iff.1 read
      obtain ⟨-, read⟩ := check_bind_eq_ok_iff.1 read
      obtain ⟨-, read⟩ := check_bind_eq_ok_iff.1 read
      obtain ⟨added, read⟩ := check_bind_eq_ok_iff.1 read
      obtain rfl := pure_eq_ok_iff.1 read
      obtain ⟨present, present', guard, named, same⟩ :=
        exists_putEdge_of_addReadEdge asRead.coherent added
      rw [same]
      exact asRead.putEdge {
        source := present
        target := present'
        source_colon := colon_not_mem_compact uncommented (by simp [words]) identified
        target_colon := colon_not_mem_compact uncommented (by simp [words]) identified'
        named := named }
  · cases read

/-- A declaration keeps what is true of automata that have been read. -/
theorem readAutomatonLine (asRead : automaton.AsRead) {line keyword : Text}
    (words : line.content.words = keyword :: arguments)
    (read : Model.readAutomatonLine number automaton line.content keyword arguments = .ok next) :
    next.AsRead := by
  rw [Model.readAutomatonLine] at read
  split at read
  · split at read
    · cases read
    · obtain ⟨symbols, listed, read⟩ := bind_eq_ok_iff.1 read
      obtain rfl := Except.ok.inj read
      exact asRead.addStates (spelled_of_symbols (isWord_of_words words) listed).1
  split at read
  · obtain ⟨states, -, read⟩ := bind_eq_ok_iff.1 read
    exact asRead.setInitial read
  split at read
  · obtain ⟨states, -, read⟩ := bind_eq_ok_iff.1 read
    exact asRead.setAccepting read
  split at read
  · exact asRead.readGuardedEdge (Text.commentMark_not_mem_content line) read
  · cases read

end AsRead

theorem asRead_ofLines {lines : List Text} (read : ofLines lines = .ok (.automaton automaton)) :
    automaton.AsRead :=
  automaton_induction asRead_declare (fun words asRead read => asRead.readAutomatonLine words read)
    read

/-! ## The file -/

/-- The declaration that begins an automaton. -/
def header (automaton : Automaton) : Declaration where
  keyword := "automaton"
  arguments := [automaton.name]

/-- The words in front of the guard of an edge. -/
def edgeFront (edge : FormulaEdge) : List Text :=
  ["trans", edge.source.compact, edge.target.compact]

/-- The declaration of an edge. -/
def edgeDeclaration (edge : FormulaEdge) : Declaration where
  keyword := "trans"
  arguments := edge.source.compact :: edge.target.compact :: ":" :: Text.words edge.guard.text

/-- The declarations after the header, the edges being given. -/
def declarations (automaton : Automaton) (edges : List FormulaEdge) : List Declaration :=
  setDeclarations "state" automaton.states ++ setDeclarations "initial" automaton.initial ++
    setDeclarations "accepting" automaton.accepting ++ edges.map edgeDeclaration

theorem words_guard {edge : FormulaEdge} {states : OrderedSet}
    (declarable : edge.IsDeclarable states) :
    ∃ first rest, Text.words edge.guard.text = first :: rest ∧
      (∀ word ∈ first :: rest, word.IsWord) ∧ Text.join " " (first :: rest) = edge.guard.text := by
  obtain ⟨first, rest, isWord, joined⟩ :=
    (Guard.Formula.isPhrase_text declarable.named).exists_words
  refine ⟨first, rest, ?_, isWord, joined⟩
  rw [← joined]
  exact Text.words_join isWord

theorem line_edgeDeclaration {edge : FormulaEdge} {states : OrderedSet}
    (declarable : edge.IsDeclarable states) :
    (edgeDeclaration edge).line =
      Text.join " " (edgeFront edge) ++ " " ++ colon :: (" " ++ edge.guard.text) := by
  obtain ⟨first, rest, words, -, joined⟩ := words_guard declarable
  rw [← joined, Declaration.line, edgeDeclaration, words]
  simp only [edgeFront, Text.join_cons_cons, Text.join_singleton, List.append_assoc]
  rfl

theorem writtenEdge_eq (coherent : automaton.guards.Coherent) {stored : GuardedEdge}
    {edge : FormulaEdge} {states : OrderedSet} (encodes : Encodes automaton.guards stored edge)
    (declarable : edge.IsDeclarable states) :
    automaton.writtenEdge stored = (edgeDeclaration edge).written := by
  obtain ⟨first, rest, words, -, joined⟩ := words_guard declarable
  have guard : automaton.guardText stored = Text.join " " (first :: rest) := by
    rw [guardText, coherent.formula?_eq_some_iff.2 encodes.denotes, joined]
    rfl
  rw [writtenEdge, guard, encodes.source, encodes.target, Declaration.written, edgeDeclaration,
    words]
  simp only [declarationLine, Text.join_cons_cons, Text.join_singleton]

theorem flatMap_writtenEdge (coherent : automaton.guards.Coherent) {stored : List GuardedEdge}
    {edges : List FormulaEdge} {states : OrderedSet}
    (encodes : List.Forall₂ (Encodes automaton.guards) stored edges)
    (declarable : ∀ edge ∈ edges, edge.IsDeclarable states) :
    stored.flatMap automaton.writtenEdge =
      (edges.map edgeDeclaration).flatMap Declaration.written := by
  induction encodes with
  | nil => rfl
  | cons first _ induction =>
      rw [List.forall_mem_cons] at declarable
      rw [List.flatMap_cons, List.map_cons, List.flatMap_cons,
        writtenEdge_eq coherent first declarable.1, induction declarable.2]

theorem written_eq_flatMap {edges : List FormulaEdge} (carries : automaton.Carries edges)
    (declarable : ∀ edge ∈ edges, edge.IsDeclarable automaton.states) :
    automaton.written =
      (automaton.header :: automaton.declarations edges).flatMap Declaration.written := by
  have written := flatMap_writtenEdge carries.coherent carries.encodes declarable
  simp only [Automaton.written, declarations, List.flatMap_cons, List.flatMap_append,
    flatMap_setDeclarations, written, List.append_assoc]
  rfl

theorem isWord_of_mem_keywords (keyword : Text)
    (member : keyword ∈ ([("automaton" : Text), "state", "initial", "accepting", "trans", ":"])) :
    keyword.IsWord := by
  constructor
  · revert keyword
    decide +kernel
  · revert keyword
    decide +kernel

theorem clean_edgeDeclaration {edge : FormulaEdge} {states : OrderedSet}
    (declarable : edge.IsDeclarable states)
    (spelled : ∀ state ∈ states, state.Spelled IsPlain) : (edgeDeclaration edge).Clean := by
  obtain ⟨first, rest, words, isWord, -⟩ := words_guard declarable
  refine ⟨isWord_of_mem_keywords "trans" (by decide), ?_⟩
  simp only [edgeDeclaration, words, List.forall_mem_cons] at isWord ⊢
  exact ⟨(spelled _ declarable.source).isWord, (spelled _ declarable.target).isWord,
    isWord_of_mem_keywords ":" (by decide), isWord⟩

theorem AsRead.clean (asRead : automaton.AsRead) {edges : List FormulaEdge}
    (declarable : ∀ edge ∈ edges, edge.IsDeclarable automaton.states) :
    ∀ declaration ∈ automaton.header :: automaton.declarations edges, declaration.Clean := by
  simp only [List.forall_mem_cons, declarations, List.forall_mem_append, List.forall_mem_map]
  refine ⟨?_, ⟨⟨?_, ?_⟩, ?_⟩, ?_⟩
  · refine ⟨isWord_of_mem_keywords "automaton" (by decide), ?_⟩
    simpa [header] using asRead.name
  · exact clean_setDeclarations (isWord_of_mem_keywords _ (by decide)) asRead.states
  · exact clean_setDeclarations (isWord_of_mem_keywords _ (by decide)) fun state member =>
      asRead.states state (asRead.initial state member)
  · exact clean_setDeclarations (isWord_of_mem_keywords _ (by decide)) fun state member =>
      asRead.states state (asRead.accepting state member)
  · exact fun edge member => clean_edgeDeclaration (declarable edge member) asRead.states

/-! ## Reading the file -/

/-- The line of an edge is cut at its first colon. -/
theorem cut_edgeDeclaration {edge : FormulaEdge} {states : OrderedSet}
    (declarable : edge.IsDeclarable states) :
    (edgeDeclaration edge).line.takeWhile (· != colon) = Text.join " " (edgeFront edge) ++ " " ∧
      (edgeDeclaration edge).line.dropWhile (· != colon) = colon :: (" " ++ edge.guard.text) := by
  have front : ∀ byte ∈ Text.join " " (edgeFront edge) ++ " ", (byte != colon) = true := by
    intro byte member
    rw [bne_iff_ne]
    rintro rfl
    rcases List.mem_append.1 member with member | member
    · rcases Text.mem_join member with separator | ⟨word, listed, member⟩
      · exact absurd separator (by decide)
      · simp only [edgeFront, List.mem_cons, List.not_mem_nil, or_false] at listed
        rcases listed with rfl | rfl | rfl
        · exact absurd member (by decide)
        · exact declarable.source_colon member
        · exact declarable.target_colon member
    · exact absurd member (by decide)
  rw [line_edgeDeclaration declarable]
  constructor
  · rw [List.takeWhile_append_of_pos front]
    simp
  · rw [List.dropWhile_append_of_pos front]
    simp

/-- The line of an edge is read as the edge. -/
theorem readGuardedEdge_line {edge : FormulaEdge} (coherent : automaton.guards.Coherent)
    (spelled : ∀ state ∈ automaton.states, state.Spelled IsPlain)
    (declarable : edge.IsDeclarable automaton.states) (number : Nat) :
    Model.readGuardedEdge number automaton (edgeDeclaration edge).line =
      .ok (automaton.putEdge edge) := by
  have source := spelled _ declarable.source
  have target := spelled _ declarable.target
  obtain ⟨tokens, scanned, parsed⟩ := Guard.Formula.exists_parse_text declarable.named number
  have added :=
    addReadEdge_of_parse coherent edge declarable.source declarable.target scanned parsed
  obtain ⟨front, back⟩ := cut_edgeDeclaration declarable
  have words : Text.words (Text.join " " (edgeFront edge) ++ " ") = edgeFront edge := by
    rw [Text.words_append_space]
    apply Text.words_join
    simp only [edgeFront, List.forall_mem_cons]
    exact ⟨isWord_of_mem_keywords "trans" (by decide), source.isWord, target.isWord, by simp⟩
  obtain ⟨first, rest, -, isWord, joined⟩ := words_guard declarable
  have trimmed : Text.trim (" " ++ edge.guard.text) = edge.guard.text := by
    rw [← joined]
    exact Text.trim_join isWord
  have nonempty : edge.guard.text.isEmpty = false :=
    List.isEmpty_eq_false_iff.2 (Guard.Formula.isPhrase_text declarable.named).ne_nil
  rw [Model.readGuardedEdge, front, back, words]
  simp only [edgeFront, trimmed, nonempty]
  simp only [source.ofIdentifier, target.ofIdentifier, ok_bind, added,
    requireState_eq_ok_iff.2 declarable.source, requireState_eq_ok_iff.2 declarable.target]
  rfl

theorem reads_edges {edges : List FormulaEdge} (coherent : automaton.guards.Coherent)
    (spelled : ∀ state ∈ automaton.states, state.Spelled IsPlain)
    (declarable : ∀ edge ∈ edges, edge.IsDeclarable automaton.states) :
    Reads automaton (edges.map edgeDeclaration) (automaton.putEdges edges) := by
  induction edges generalizing automaton with
  | nil => exact .nil automaton
  | cons edge edges induction =>
      rw [List.forall_mem_cons] at declarable
      have first : Reads automaton [edgeDeclaration edge] (automaton.putEdge edge) :=
        .ofAutomaton (clean_edgeDeclaration declarable.1 spelled)
          (readGuardedEdge_line coherent spelled declarable.1)
      exact first.append (induction (coherent.insert edge.guard).1 spelled declarable.2)

theorem reads_set {before after : Automaton} {keyword : Text} {set : OrderedSet}
    (isWord : keyword.IsWord) (spelled : ∀ symbol ∈ set, symbol.Spelled IsPlain)
    (flag : set.isMutable = false) (unchanged : set = .empty → after = before)
    (read : set.toList ≠ [] → ∀ number content,
      Model.readAutomatonLine number before content keyword (set.toList.map Symbol.compact) =
        .ok after) :
    Reads before (setDeclarations keyword set) after := by
  refine .set isWord spelled (fun none => ?_) fun nonempty number =>
    congrArg (Model.automaton <$> ·) (read nonempty number _)
  have empty : set = .empty := by
    rw [← OrderedSet.ofList_toList flag, none]
    rfl
  rw [unchanged empty]

/-- The automaton without its edges. -/
def withoutEdges (automaton : Automaton) : Automaton where
  name := automaton.name
  states := automaton.states
  initial := automaton.initial
  accepting := automaton.accepting

/-- The states, the initial and the accepting states are read back. -/
theorem AsRead.reads_sets (asRead : automaton.AsRead) :
    Reads ({ name := automaton.name } : Automaton)
      (setDeclarations "state" automaton.states ++ setDeclarations "initial" automaton.initial ++
        setDeclarations "accepting" automaton.accepting)
      automaton.withoutEdges := by
  let blank : Automaton := { name := automaton.name }
  let stated : Automaton := { blank with states := automaton.states }
  let started : Automaton := { stated with initial := automaton.initial }
  have listed {set : OrderedSet} (flag : set.isMutable = false) :
      OrderedSet.empty.insertMany set.toList = set := OrderedSet.ofList_toList flag
  have known {set : OrderedSet} (subset : ∀ state ∈ set, state ∈ automaton.states) :
      ∀ state ∈ set.toList, state ∈ automaton.states :=
    fun state member => subset state (OrderedSet.mem_toList.1 member)
  have symbols {set : OrderedSet} (subset : ∀ state ∈ set, state ∈ automaton.states) :
      Model.symbols (set.toList.map Symbol.compact) = .ok set.toList :=
    symbols_compact fun state member => asRead.states state (known subset state member)
  have states : Reads blank (setDeclarations "state" automaton.states) stated := by
    refine reads_set (isWord_of_mem_keywords _ (by decide)) asRead.states asRead.states_flag
      (fun empty => by simp only [stated, blank, empty]) fun nonempty number content => ?_
    have more : (automaton.states.toList.map Symbol.compact).isEmpty = false := by
      simpa using nonempty
    rw [Model.readAutomatonLine, if_pos rfl, more, symbols fun _ => id, ok_bind, foldl_addState]
    exact congrArg (fun states => Except.ok { blank with states }) (listed asRead.states_flag)
  have initial : Reads stated (setDeclarations "initial" automaton.initial) started := by
    refine reads_set (isWord_of_mem_keywords _ (by decide))
      (fun state member => asRead.states state (asRead.initial state member)) asRead.initial_flag
      (fun empty => by simp only [started, stated, blank, empty]) fun _ number content => ?_
    change (do stated.setInitial (← Model.symbols _)) = _
    rw [symbols asRead.initial, ok_bind, setInitial_eq_ok_iff]
    exact ⟨known asRead.initial,
      congrArg (fun initial => { stated with initial }) (listed asRead.initial_flag).symm⟩
  have accepting : Reads started (setDeclarations "accepting" automaton.accepting)
      automaton.withoutEdges := by
    refine reads_set (isWord_of_mem_keywords _ (by decide))
      (fun state member => asRead.states state (asRead.accepting state member))
      asRead.accepting_flag
      (fun empty => by simp only [withoutEdges, started, stated, blank, empty])
      fun _ number content => ?_
    change (do started.setAccepting (← Model.symbols _)) = _
    rw [symbols asRead.accepting, ok_bind, setAccepting_eq_ok_iff]
    exact ⟨known asRead.accepting,
      congrArg (fun accepting => { started with accepting }) (listed asRead.accepting_flag).symm⟩
  exact (states.append initial).append accepting

/-- The file of an automaton that has been read is read as the same automaton. -/
theorem AsRead.ofLines_written (asRead : automaton.AsRead) :
    ofLines (Text.lines automaton.written) = .ok (.automaton automaton) := by
  obtain ⟨edges, declarable, same⟩ := asRead.edges
  let blank : Automaton := { name := automaton.name }
  have carries : automaton.Carries edges := by
    have start : blank.Carries [] := ⟨Guard.Table.coherent_initial, .nil⟩
    obtain ⟨coherent, encodes⟩ := start.putEdges edges
    rw [← same.guards, ← same.edges] at encodes
    exact ⟨asRead.coherent, encodes⟩
  have clean := asRead.clean declarable
  have header : readLine none 1 automaton.header.line = .ok (some (.automaton blank)) := by
    rw [readLine_line (clean _ List.mem_cons_self)]
    rfl
  have reads : Reads blank (automaton.declarations edges) (automaton.withoutEdges.putEdges edges) :=
    asRead.reads_sets.append
      (reads_edges Guard.Table.coherent_initial asRead.states declarable)
  have complete : automaton.withoutEdges.putEdges edges = automaton := by
    have again : blank.SameEdges automaton.withoutEdges := ⟨rfl, rfl, rfl⟩
    have again := again.putEdges edges
    rw [putEdges_eq, ← again.guards, ← again.edges, ← again.outgoing, ← same.guards, ← same.edges,
      ← same.outgoing]
    rfl
  rw [complete] at reads
  rw [written_eq_flatMap carries declarable, lines_flatMap_written clean, ofLines, List.map_cons,
    readLines, header, ok_bind, reads (1 + 1)]
  rfl

end Automaton

namespace Model

/-- The file of an automaton that has been read is read as the same automaton: with the same states
and edges in the same order, and with the same table, in which every guard has the number that it
had. -/
theorem ofLines_written_automaton {lines : List Text} {automaton : Automaton}
    (read : ofLines lines = .ok (.automaton automaton)) :
    ofLines (Text.lines automaton.written) = .ok (.automaton automaton) :=
  (Automaton.asRead_ofLines read).ofLines_written

/-- The file of an automaton with guards in several spellings, one of them twice. -/
def watchLines : List Text :=
  ["automaton watch", "state idle (up:1,down) # a tuple", "state idle", "initial idle",
    "accepting idle", "trans idle idle : p && q || !r", "trans  idle idle:((p & q)) | (! r)",
    "trans idle idle : True -> q"]

/-- The file of the watch is read as the same automaton. -/
theorem exists_automaton_watchLines :
    ∃ automaton, ofLines watchLines = .ok (.automaton automaton) ∧
      ofLines (Text.lines automaton.written) = .ok (.automaton automaton) := by
  have evaluated : (match ofLines watchLines with
      | .ok (.automaton _) => true
      | _ => false) = true := by decide +kernel
  split at evaluated
  · next automaton read => exact ⟨automaton, read, ofLines_written_automaton read⟩
  · cases evaluated

end Model

end TransitionSystems
