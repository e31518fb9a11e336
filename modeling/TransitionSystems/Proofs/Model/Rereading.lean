import TransitionSystems.Proofs.Model.SystemRoundTrip
import TransitionSystems.Proofs.System.Construction

/-!
# Files of systems that have been read

A system that has been read from a file can be written with words that the reader takes as they are,
whatever words the file uses. There is one exception: the word for the empty label is also the
identifier of a proposition. A file may list this proposition in a label after another one. It is
written first when it comes first in the order of symbols, and then the reader refuses the label.
-/

namespace TransitionSystems

open Model

/-! ## Systems as they are read -/

namespace System

/-- If the proposition that is spelled like the empty label is in a label, so is another one. -/
def Accompanied (label : Label) : Prop :=
  .atom emptyLabelWord ∈ label → ∃ other ∈ label, other ≠ .atom emptyLabelWord

/-- What is true of every system that has been read. -/
structure AsRead (system : System) : Prop extends system.Legible where
  accompanied : ∀ state label, system.label? state = some label → Accompanied label

namespace AsRead

variable {system next : System} {number : Nat} {arguments : List Text}

theorem putState (asRead : system.AsRead) {state : Symbol} {label : Option Label}
    (spelled : state.Spelled IsPlain)
    (accompanied : ∀ given, label = some given → Accompanied given) :
    (system.putState state label).AsRead where
  name := asRead.name
  propositions := asRead.propositions
  values := asRead.values
  states := by
    intro other member
    rw [System.putState] at member
    split at member
    · exact asRead.states other member
    · rcases Array.mem_push.1 member with member | rfl
      · exact asRead.states other member
      · exact spelled
  accompanied := by
    intro other given found
    rw [label?_putState] at found
    split at found
    · exact accompanied given found
    · exact asRead.accompanied other given found

theorem readState (asRead : system.AsRead) (isWord : ∀ word ∈ arguments, word.IsWord)
    (read : Model.readState number system arguments = .ok next) : next.AsRead := by
  cases arguments with
  | nil => cases read
  | cons identifier words =>
      rw [List.forall_mem_cons] at isWord
      obtain ⟨state, identified, read⟩ := bind_eq_ok_iff.1 read
      have spelled := (isWord.1.spelled_of_ofIdentifier identified).1
      cases words with
      | nil =>
          obtain rfl := Except.ok.inj read
          by_cases present : state ∈ system.labels
          · rwa [addState_of_mem present]
          · rw [addState_of_not_mem present]
            exact asRead.putState spelled (by simp)
      | cons word more =>
          simp only at read
          split at read
          · split at read
            · obtain ⟨-, -, rfl⟩ := addLabeledState_eq_ok_iff.1 read
              exact asRead.putState spelled (by simp [Accompanied])
            · cases read
          · next other =>
              obtain ⟨symbols, listed, read⟩ := bind_eq_ok_iff.1 read
              obtain ⟨-, -, rfl⟩ := addLabeledState_eq_ok_iff.1 read
              obtain ⟨-, compact⟩ := spelled_of_symbols isWord.2 listed
              refine asRead.putState spelled ?_
              rintro _ ⟨⟩ -
              cases symbols with
              | nil => cases compact
              | cons first symbols =>
                  refine ⟨first, by simp [Label.ofList], ?_⟩
                  rintro rfl
                  exact other (List.cons.inj compact).1.symm

theorem putTransition (asRead : system.AsRead) (transition : Transition) :
    (system.putTransition transition).AsRead := by
  rw [System.putTransition]
  split
  · exact asRead
  · exact { asRead with }

theorem readTransition (asRead : system.AsRead)
    (read : Model.readTransition number system arguments = .ok next) : next.AsRead := by
  rcases arguments with - | ⟨source, - | ⟨target, words⟩⟩
  · cases read
  · cases read
  · obtain ⟨source, -, read⟩ := bind_eq_ok_iff.1 read
    obtain ⟨target, -, read⟩ := bind_eq_ok_iff.1 read
    obtain ⟨label, -, read⟩ := bind_eq_ok_iff.1 read
    obtain ⟨-, -, -, rfl⟩ := addTransition_eq_ok_iff.1 read
    exact asRead.putTransition _

theorem growPropositions (asRead : system.AsRead) {more : OrderedSet}
    (spelled : ∀ symbol ∈ more, symbol.Spelled IsPlain) : (system.growPropositions more).AsRead :=
  { asRead with
    propositions := by
      intro proposition member
      rcases OrderedSet.mem_union.1 member with member | member
      · exact asRead.propositions proposition member
      · exact spelled proposition member }

theorem growAlphabet (asRead : system.AsRead) {field : Text} {more : OrderedSet}
    (spelled : ∀ symbol ∈ more, symbol.Spelled IsPlain)
    (grown : system.growAlphabet field more = .ok next) : next.AsRead := by
  obtain ⟨-, rfl⟩ := growAlphabet_eq_ok_iff.1 grown
  refine { asRead with values := ?_ }
  rintro other value ⟨alphabet, found, member⟩
  obtain ⟨former, formerly, rfl⟩ := Schema.alphabet_modify_eq_ok_iff.1 found
  have old : value ∈ former → value.Spelled IsPlain := fun member =>
    asRead.values other value ⟨former, formerly, member⟩
  split at member
  · rcases OrderedSet.mem_union.1 member with member | member
    · exact old member
    · exact spelled value member
  · exact old member

/-- A declaration keeps what is true of systems that have been read. -/
theorem readSystemLine {keyword : Text} (isWord : ∀ word ∈ arguments, word.IsWord)
    (asRead : system.AsRead)
    (read : Model.readSystemLine number system keyword arguments = .ok next) : next.AsRead := by
  rw [Model.readSystemLine] at read
  split at read
  · obtain rfl := Except.ok.inj read
    exact { asRead with }
  split at read
  · obtain ⟨more, listed, read⟩ := bind_eq_ok_iff.1 read
    obtain rfl := Except.ok.inj read
    exact asRead.growPropositions (spelled_of_symbolSet isWord listed)
  split at read
  · rw [readAlphabet] at read
    split at read
    · obtain ⟨more, listed, read⟩ := bind_eq_ok_iff.1 read
      exact asRead.growAlphabet (spelled_of_symbolSet isWord listed) read
    · cases read
  split at read
  · exact asRead.readState isWord read
  split at read
  · obtain ⟨states, -, read⟩ := bind_eq_ok_iff.1 read
    obtain ⟨-, rfl⟩ := setInitial_eq_ok_iff.1 read
    exact { asRead with }
  split at read
  · exact asRead.readTransition read
  · cases read

end AsRead

theorem not_admits_empty (kind : Kind) (field : Text) (value : Symbol) :
    ¬(Schema.empty kind).Admits field value := by
  rintro ⟨alphabet, found, member⟩
  rw [Schema.alphabet_eq_ok_iff] at found
  have none : alphabet = .empty := by
    cases kind with
    | closed => exact (Prod.mk.inj (List.mem_singleton.1 found)).2
    | opened =>
        rcases List.mem_cons.1 found with same | found
        · exact (Prod.mk.inj same).2
        · exact (Prod.mk.inj (List.mem_singleton.1 found)).2
  rw [none] at member
  exact OrderedSet.not_mem_empty value false member

theorem asRead_empty (kind : Kind) {name : Text} (isWord : name.IsWord) :
    (System.empty (.empty kind) name).AsRead where
  name := isWord
  propositions := by
    change ∀ proposition ∈ (Schema.empty kind).propositions, _
    simp
  values field value admits := absurd admits (not_admits_empty kind field value)
  states := by simp [System.empty]
  accompanied := by simp [System.empty, System.label?]

theorem asRead_declare {number : Nat} {keyword : Text} {arguments : List Text} {system : System}
    (isWord : ∀ word ∈ arguments, word.IsWord)
    (declared : declare number keyword arguments = .ok (.system system)) : system.AsRead := by
  obtain ⟨kind, name, rfl, default | given⟩ := eq_empty_of_declare declared
  · have named : (defaultName kind).IsWord := by
      cases kind <;> exact ⟨by decide, by decide +kernel⟩
    exact asRead_empty kind (default ▸ named)
  · exact asRead_empty kind (isWord name given)

theorem asRead_ofLines {lines : List Text} {system : System}
    (read : ofLines lines = .ok (.system system)) : system.AsRead :=
  system_induction asRead_declare
    (fun isWord asRead read => asRead.readSystemLine isWord read) read

/-! ## Labels that are refused -/

/-- A label that begins with the word for the empty label goes on with other words. -/
theorem AsRead.exists_labelWords_eq {system : System} (asRead : system.AsRead) {state : Symbol}
    {label : Label} (found : system.label? state = some label)
    (least : label.min? = some (.atom emptyLabelWord)) :
    ∃ word more, system.labelWords state = emptyLabelWord :: word :: more := by
  rw [Std.ExtTreeSet.min?_eq_head?_toList] at least
  obtain ⟨rest, listed⟩ := List.head?_eq_some_iff.1 least
  have member : Symbol.atom emptyLabelWord ∈ label := by
    rw [← Std.ExtTreeSet.mem_toList, listed]
    exact List.mem_cons_self
  obtain ⟨other, present, distinct⟩ := asRead.accompanied state label found member
  rw [← Std.ExtTreeSet.mem_toList, listed] at present
  have further : other ∈ rest := (List.mem_cons.1 present).resolve_left distinct
  obtain ⟨next, more, rfl⟩ := List.exists_cons_of_ne_nil (List.ne_nil_of_mem further)
  have nonempty : label.isEmpty = false := by
    rw [← Std.ExtTreeSet.isEmpty_toList, listed]
    rfl
  refine ⟨next.compact, more.map Symbol.compact, ?_⟩
  simp only [labelWords, found, nonempty, listed]
  rfl

theorem AsRead.readState_ne_ok {system before after : System} {number : Nat}
    (asRead : system.AsRead) (coherent : system.Coherent) {state : Symbol} {label : Label}
    (found : system.label? state = some label)
    (least : label.min? = some (.atom emptyLabelWord)) :
    Model.readState number before (system.stateDeclaration state).arguments ≠ .ok after := by
  have member : state ∈ system.states := by
    rw [coherent.mem_states_iff, mem_labels_iff_getElem?]
    exact ⟨_, label?_eq_some_iff.1 found⟩
  obtain ⟨word, more, words⟩ := asRead.exists_labelWords_eq found least
  rw [stateDeclaration, words, Model.readState, (asRead.states state member).ofIdentifier, ok_bind]
  simp

/-- Lines with a clean declaration that no system takes are not read into a system. -/
theorem readLines_ne_ok {before : System} {declarations : List Declaration} {number : Nat}
    {after : Option Model} {declaration : Declaration} (member : declaration ∈ declarations)
    (clean : declaration.Clean)
    (refused : ∀ number current next,
      readSystemLine number current declaration.keyword declaration.arguments ≠ .ok next) :
    readLines (some (.system before)) number (declarations.map Declaration.line) ≠ .ok after := by
  intro read
  obtain ⟨front, back, rfl⟩ := List.append_of_mem member
  rw [List.map_append, readLines_append] at read
  obtain ⟨middle, first, rest⟩ := bind_eq_ok_iff.1 read
  obtain ⟨current, rfl⟩ := exists_system_of_readLines first
  rw [List.map_cons, readLines] at rest
  obtain ⟨next, taken, -⟩ := bind_eq_ok_iff.1 rest
  rw [readLine_line clean, located_eq_ok_iff, map_eq_ok_iff] at taken
  obtain ⟨model, taken, -⟩ := taken
  obtain ⟨system, taken, -⟩ := map_eq_ok_iff.1 taken
  exact refused _ current system taken

/-- If the file of a system that has been read is read, no label of it begins with the word for the
empty label. -/
theorem AsRead.writable {system : System} {model : Model} (asRead : system.AsRead)
    (coherent : system.Coherent) (read : ofLines (Text.lines system.written) = .ok model) :
    system.Writable where
  name := asRead.name
  propositions := asRead.propositions
  values := asRead.values
  states := asRead.states
  least := by
    intro state label found least
    have listed : state ∈ system.states.toList := by
      rw [Array.mem_toList_iff, coherent.mem_states_iff, mem_labels_iff_getElem?]
      exact ⟨_, label?_eq_some_iff.1 found⟩
    have member : system.stateDeclaration state ∈ system.declarations := by
      simp only [declarations, List.mem_append]
      exact .inl (.inl (.inr (List.mem_map_of_mem listed)))
    have clean := asRead.toLegible.clean coherent _ (List.mem_cons_of_mem _ member)
    obtain ⟨after, lines, -⟩ := bind_eq_ok_iff.1 read
    rw [asRead.toLegible.readLines_written coherent] at lines
    refine readLines_ne_ok member clean ?_ lines
    intro number current next
    exact asRead.readState_ne_ok coherent found least

end System

namespace Model

/-- The file of a system that has been read is read again exactly when no label has the proposition
that is spelled like the empty label as its least element, and then it is read as a system with the
same content. -/
theorem ofLines_written_of_ofLines {lines : List Text} {system : System}
    (read : ofLines lines = .ok (.system system)) :
    ((∃ model, ofLines (Text.lines system.written) = .ok model) ↔
        ∀ state label, system.label? state = some label →
          label.min? ≠ some (.atom emptyLabelWord)) ∧
      ∀ model, ofLines (Text.lines system.written) = .ok model →
        ∃ back, model = .system back ∧ System.SameContent system back := by
  have asRead := System.asRead_ofLines read
  have coherent := (reachable_ofLines read).coherent
  have rereads (writable : system.Writable) : ∃ back,
      ofLines (Text.lines system.written) = .ok (.system back) ∧
        System.SameContent system back := by
    obtain ⟨back, reads, complete⟩ := writable.reads_declarations coherent
    exact ⟨back, writable.ofLines_written coherent reads, complete.sameContent coherent⟩
  refine ⟨⟨?_, fun least => ?_⟩, fun model again => ?_⟩
  · rintro ⟨model, again⟩
    exact (asRead.writable coherent again).least
  · obtain ⟨back, again, -⟩ := rereads { asRead.toLegible with least }
    exact ⟨_, again⟩
  · obtain ⟨back, again', same⟩ := rereads (asRead.writable coherent again)
    exact ⟨back, Except.ok.inj (again.symm.trans again'), same⟩

/-- The file of a system with every kind of label. -/
def tankLines : List Text :=
  ["system open tank", "mutable", "ap full (level,\x7b\x7d)", "sys_actions pump=1 stop",
    "env_actions rain", "state dry \x7b\x7d", "state wet full (level,\x7b\x7d)", "state lost",
    "initial dry", "trans dry wet sys=pump=1 env=rain  # fills", "trans wet lost"]

/-- The file of the tank is read again with the same content. -/
theorem exists_sameContent_tankLines :
    ∃ system, ofLines tankLines = .ok (.system system) ∧
      ∃ back, ofLines (Text.lines system.written) = .ok (.system back) ∧
        System.SameContent system back := by
  have evaluated : (match ofLines tankLines with
      | .ok (.system content) => (ofLines (Text.lines content.written)).isOk
      | _ => false) = true := by decide +kernel
  split at evaluated
  · next system read =>
      refine ⟨system, read, ?_⟩
      cases again : ofLines (Text.lines system.written) with
      | error error =>
          rw [again] at evaluated
          cases evaluated
      | ok model =>
          obtain ⟨back, rfl, same⟩ := (ofLines_written_of_ofLines read).2 model again
          exact ⟨back, rfl, same⟩
  · cases evaluated

/-- A file with a label whose least element is spelled like the empty label. -/
def bracedLines : List Text :=
  ["system closed t", "ap ~ \x7b\x7d", "state s ~ \x7b\x7d"]

/-- The file of a system that has been read need not be read again. -/
theorem exists_system_not_read_again :
    ∃ system, ofLines bracedLines = .ok (.system system) ∧
      ¬∃ model, ofLines (Text.lines system.written) = .ok model := by
  have evaluated : (match ofLines bracedLines with
      | .ok (.system content) => (ofLines (Text.lines content.written)).isOk
      | _ => true) = false := by decide +kernel
  split at evaluated
  · next system read =>
      refine ⟨system, read, ?_⟩
      rintro ⟨model, again⟩
      rw [again] at evaluated
      cases evaluated
  · cases evaluated

end Model

end TransitionSystems
