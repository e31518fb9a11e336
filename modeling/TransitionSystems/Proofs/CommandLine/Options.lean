import Mathlib.Data.List.TakeWhile
import TransitionSystems.CommandLine.Options
import TransitionSystems.Proofs.Outcome

/-!
# Meaningful arguments

Each argument is a flag, the option for Promela with the argument behind it, the name of a model
file or an unknown option. What the arguments ask for is told by the names that are not empty, the
set of flags and the last file for Promela, so it does not depend on the order of the options.

Arguments are taken from left to right. The options after some of them are those that these
arguments ask for (`described`), and one more argument is refused exactly when it does not fit
behind them.
-/

namespace TransitionSystems.CommandLine

/-! ## What arguments are -/

/-- The options without a value. -/
inductive Flag where
  | selfCheck
  | combination (combination : Combination)
  | dump
  | stats
  | verbose
  | help
  deriving DecidableEq

namespace Flag

/-- The arguments that stand for flags. -/
def spellings : List (Text × Flag) :=
  [("--selftest", .selfCheck), ("--sync", .combination .synchronous),
    ("--async", .combination .asynchronous), ("--merge", .combination .merge), ("--dump", .dump),
    ("--stats", .stats), ("--verbose", .verbose), ("-v", .verbose), ("--help", .help),
    ("-h", .help)]

/-- The combination that a flag asks for. -/
def combination? : Flag → Option Combination
  | .combination choice => some choice
  | _ => none

end Flag

/-- What an argument is. -/
inductive Argument where
  | flag (flag : Flag)
  /-- The option for Promela with the argument behind it, or with nothing behind it. -/
  | promela (value : Option Text)
  | model (name : Text)
  | unknown (option : Text)
  deriving DecidableEq

namespace Argument

/-- What an argument is on its own. -/
def ofText (argument : Text) : Argument :=
  match Flag.spellings.lookup argument with
  | some spelled => .flag spelled
  | none => if argument.head? = some 45 then .unknown argument else .model argument

/-- What arguments are that are read from left to right. -/
def read : List Text → List Argument
  | [] => []
  | [argument] => if argument = Options.promelaOption then [.promela none] else [ofText argument]
  | argument :: value :: rest =>
    if argument = Options.promelaOption then
      .promela (some value) :: read rest
    else
      ofText argument :: read (value :: rest)

/-! ## What arguments ask for -/

/-- The flag that an argument is. -/
def flag? : Argument → Option Flag
  | .flag given => some given
  | _ => none

/-- The name of a model file that an argument is. -/
def name? : Argument → Option Text
  | .model name => some name
  | _ => none

/-- The file for Promela that an argument names. -/
def value? : Argument → Option Text
  | .promela value => value
  | _ => none

/-- The flags among arguments. -/
def flags (arguments : List Argument) : List Flag :=
  arguments.filterMap flag?

/-- The combinations that arguments ask for. -/
def combinations (arguments : List Argument) : List Combination :=
  (flags arguments).filterMap Flag.combination?

/-- The names of model files among arguments. -/
def names (arguments : List Argument) : List Text :=
  arguments.filterMap name?

/-- The texts that are not empty. -/
def nonempty (texts : List Text) : List Text :=
  texts.filter fun text => !text.isEmpty

/-- The files for Promela that arguments name. -/
def values (arguments : List Argument) : List Text :=
  arguments.filterMap value?

/-- Every argument fits behind those in front of it. -/
structure IsReadable (arguments : List Argument) : Prop where
  known : ∀ option, .unknown option ∉ arguments
  complete : .promela none ∉ arguments
  single : (combinations arguments).length ≤ 1
  /-- No name follows the second one that is not empty. -/
  positional : ∀ front name, front ++ [name] <+: names arguments → (nonempty front).length < 2

/-- Arguments that fit and make sense together. Asking for help or the self-check makes sense with
all others that fit. -/
structure IsMeaningful (arguments : List Argument) : Prop extends IsReadable arguments where
  together : .help ∈ flags arguments ∨ .selfCheck ∈ flags arguments ∨
    nonempty (names arguments) ≠ [] ∧
      (combinations arguments ≠ [] ↔ (nonempty (names arguments)).length = 2)

/-- The options that arguments ask for. -/
def described (arguments : List Argument) : Options where
  first := (nonempty (names arguments)).head?.getD []
  second := (nonempty (names arguments)).tail.head?.getD []
  combination := (combinations arguments).head?
  promela := (values arguments).getLast?.getD []
  dump := .dump ∈ flags arguments
  stats := .stats ∈ flags arguments
  verbose := .verbose ∈ flags arguments
  selfCheck := .selfCheck ∈ flags arguments
  help := .help ∈ flags arguments

end Argument

/-! ## Reading and taking -/

namespace Options

/-- The argument that chooses a combination. -/
def spelling : Combination → Text
  | .synchronous => "--sync"
  | .asynchronous => "--async"
  | .merge => "--merge"

/-- Takes an argument of which it is known what it is. -/
def take (options : Options) : Argument → Except UsageFault Options
  | .flag .selfCheck => .ok { options with selfCheck := true }
  | .flag (.combination combination) => options.combine (spelling combination) combination
  | .flag .dump => .ok { options with dump := true }
  | .flag .stats => .ok { options with stats := true }
  | .flag .verbose => .ok { options with verbose := true }
  | .flag .help => .ok { options with help := true }
  | .promela (some value) => .ok { options with promela := value }
  | .promela none => .error .promelaWithoutFile
  | .model name => options.addModel name
  | .unknown option => .error (.unknownOption option)

theorem ofText_of_mem : ∀ entry ∈ Flag.spellings, Argument.ofText entry.1 = .flag entry.2 := by
  decide +kernel

theorem ofText_of_not_mem {argument : Text}
    (unlisted : ∀ entry ∈ Flag.spellings, argument ≠ entry.1) :
    Argument.ofText argument =
      if argument.head? = some 45 then .unknown argument else .model argument := by
  have absent : Flag.spellings.lookup argument = none :=
    List.lookup_eq_none_iff.2 fun entry listed => bne_iff_ne.2 (unlisted entry listed)
  rw [Argument.ofText, absent]

theorem add_of_mem (options : Options) :
    ∀ entry ∈ Flag.spellings, options.add entry.1 = options.take (.flag entry.2) := by
  simp only [Flag.spellings, List.forall_mem_cons]
  exact ⟨rfl, rfl, rfl, rfl, rfl, rfl, rfl, rfl, rfl, rfl, nofun⟩

theorem add_eq_take (options : Options) (argument : Text) :
    options.add argument = options.take (.ofText argument) := by
  by_cases unlisted : ∀ entry ∈ Flag.spellings, argument ≠ entry.1
  · rw [ofText_of_not_mem unlisted]
    simp only [Flag.spellings, List.forall_mem_cons] at unlisted
    simp only [add, unlisted, or_self, if_false]
    split <;> rfl
  · simp only [not_forall, not_not] at unlisted
    obtain ⟨entry, member, rfl⟩ := unlisted
    rw [add_of_mem options entry member, ofText_of_mem entry member]

/-- Taking arguments from left to right is reading them and taking what has been read. -/
theorem addAll_eq_foldlM (options : Options) (arguments : List Text) :
    options.addAll arguments = (Argument.read arguments).foldlM take options := by
  fun_induction addAll options arguments with
  | case1 options => rfl
  | case2 options => rfl
  | case3 options argument other =>
      rw [Argument.read, if_neg other, List.foldlM_cons, add_eq_take]
      cases options.take (.ofText argument) <;> rfl
  | case4 options value rest induction =>
      rw [Argument.read, if_pos rfl, List.foldlM_cons]
      exact induction
  | case5 options argument value rest other induction =>
      rw [Argument.read, if_neg other, List.foldlM_cons, add_eq_take]
      cases taken : options.take (.ofText argument) with
      | error fault => rfl
      | ok next => exact induction next

/-- Options make sense together when help or the self-check is asked for, or when there is a model
and a second one exactly for a combination. -/
theorem check_eq_ok_iff (options : Options) :
    options.check = .ok () ↔
      options.selfCheck = true ∨ options.help = true ∨
        options.first ≠ [] ∧ (options.combination ≠ none ↔ options.second ≠ []) := by
  obtain ⟨first, second, combination, -, -, -, -, selfCheck, help⟩ := options
  rw [← or_assoc]
  by_cases asked : selfCheck = true ∨ help = true
  · simp [check, asked]
  · cases first <;> cases second <;> cases combination <;> simp [check, asked]

/-- Options are accepted when all arguments can be taken and the result makes sense. -/
theorem ofArguments_eq_ok_iff {texts : List Text} {options : Options} :
    ofArguments texts = .ok options ↔
      addAll {} (texts.map fun text => text.takeWhile (· != 0)) = .ok options ∧
        options.check = .ok () := by
  rw [ofArguments]
  cases addAll {} (texts.map fun text => text.takeWhile (· != 0)) with
  | error fault => simp [bind, Except.bind]
  | ok added =>
      cases checked : added.check with
      | error fault =>
          simp only [bind, Except.bind, checked, reduceCtorEq, false_iff, Except.ok.injEq]
          rintro ⟨rfl, accepted⟩
          rw [checked] at accepted
          cases accepted
      | ok =>
          simp only [bind, Except.bind, checked, pure, Except.pure, Except.ok.injEq]
          exact ⟨fun same => ⟨same, same ▸ checked⟩, And.left⟩

end Options

/-! ## Arguments that fit -/

namespace Argument

variable {arguments former : List Argument} {argument : Argument}

/-- What fits behind arguments. -/
def Fits (front : List Argument) : Argument → Prop
  | .flag given => given.combination? = none ∨ combinations front = []
  | .promela value => value ≠ none
  | .model _ => (nonempty (names front)).length < 2
  | .unknown _ => False

theorem flags_append (front back : List Argument) :
    flags (front ++ back) = flags front ++ flags back :=
  List.filterMap_append

theorem names_append (front back : List Argument) :
    names (front ++ back) = names front ++ names back :=
  List.filterMap_append

theorem values_append (front back : List Argument) :
    values (front ++ back) = values front ++ values back :=
  List.filterMap_append

theorem combinations_append (front back : List Argument) :
    combinations (front ++ back) = combinations front ++ combinations back := by
  rw [combinations, flags_append, List.filterMap_append]
  rfl

theorem nonempty_append (texts others : List Text) :
    nonempty (texts ++ others) = nonempty texts ++ nonempty others :=
  List.filter_append texts others

theorem ne_nil_of_mem_nonempty {texts : List Text} : ∀ text ∈ nonempty texts, text ≠ [] := by
  simp [nonempty]

theorem IsReadable.of_append {back : List Argument} (readable : IsReadable (former ++ back)) :
    IsReadable former where
  known option member := readable.known option (List.mem_append_left back member)
  complete member := readable.complete (List.mem_append_left back member)
  single := by
    have single := readable.single
    rw [combinations_append, List.length_append] at single
    omega
  positional front name begins := by
    refine readable.positional front name ?_
    rw [names_append]
    exact begins.trans (List.prefix_append _ _)

theorem isReadable_nil : IsReadable [] where
  known _ := List.not_mem_nil
  complete := List.not_mem_nil
  single := Nat.zero_le 1
  positional front name begins := by
    have absurd := List.prefix_nil.1 begins
    simp at absurd

theorem combinations_concat_flag (former : List Argument) (given : Flag) :
    combinations (former ++ [.flag given]) = combinations former ++ given.combination?.toList := by
  rw [combinations_append]
  cases given <;> rfl

theorem combinations_concat_of_flag?_eq_none (apart : argument.flag? = none) :
    combinations (former ++ [argument]) = combinations former := by
  simp [combinations, flags, apart]

theorem names_concat_of_name?_eq_none (apart : argument.name? = none) :
    names (former ++ [argument]) = names former := by
  simp [names, apart]

/-- An argument that fits is accepted behind those in front of it. -/
theorem IsReadable.concat (readable : IsReadable former) (fits : Fits former argument) :
    IsReadable (former ++ [argument]) := by
  obtain ⟨known, complete, single, positional⟩ := readable
  cases argument with
  | unknown option => exact fits.elim
  | flag given =>
      refine ⟨by simpa using known, by simpa using complete, ?_, ?_⟩
      · rw [combinations_concat_flag]
        rcases fits with plain | first
        · simpa [plain] using single
        · rw [first]
          cases given.combination? <;> simp
      · rwa [names_concat_of_name?_eq_none rfl]
  | promela value =>
      have named : value ≠ none := fits
      refine ⟨by simpa using known, ?_, ?_, ?_⟩
      · simpa [complete, eq_comm] using named
      · rwa [combinations_concat_of_flag?_eq_none rfl]
      · rwa [names_concat_of_name?_eq_none rfl]
  | model name =>
      refine ⟨by simpa using known, by simpa using complete, ?_, ?_⟩
      · rwa [combinations_concat_of_flag?_eq_none rfl]
      · intro front other begins
        rw [names_append] at begins
        rcases List.prefix_concat_iff.1 begins with same | begins
        · rw [(List.append_inj' same rfl).1]
          exact fits
        · exact positional front other begins

/-- An argument that is accepted fits behind those in front of it. -/
theorem IsReadable.fits (readable : IsReadable (former ++ [argument])) : Fits former argument := by
  obtain ⟨known, complete, single, positional⟩ := readable
  cases argument with
  | unknown option => exact known option (by simp)
  | flag given =>
      rw [combinations_concat_flag, List.length_append] at single
      cases chosen : given.combination? with
      | none => exact .inl chosen
      | some choice =>
          rw [chosen] at single
          exact .inr (List.length_eq_zero_iff.1 (Nat.le_zero.1 (Nat.le_of_succ_le_succ single)))
  | promela value =>
      rintro rfl
      simp at complete
  | model name =>
      refine positional (names former) name ?_
      rw [names_append]
      exact List.prefix_rfl

/-! ## Options after some arguments -/

theorem flags_concat_of_flag?_eq_none (apart : argument.flag? = none) :
    flags (former ++ [argument]) = flags former := by
  simp [flags, apart]

theorem values_concat_of_value?_eq_none (apart : argument.value? = none) :
    values (former ++ [argument]) = values former := by
  simp [values, apart]

theorem described_concat_model (former : List Argument) (name : Text) :
    described (former ++ [.model name]) =
      { described former with
        first := (nonempty (names former) ++ nonempty [name]).head?.getD []
        second := (nonempty (names former) ++ nonempty [name]).tail.head?.getD [] } := by
  have names_eq : names (former ++ [.model name]) = names former ++ [name] :=
    names_append former [.model name]
  rw [described, flags_concat_of_flag?_eq_none rfl, combinations_concat_of_flag?_eq_none rfl,
    values_concat_of_value?_eq_none rfl, names_eq, nonempty_append]
  rfl

/-- One more name is taken as long as there are fewer than two that are not empty. -/
theorem addModel_described (former : List Argument) (name : Text) :
    (described former).addModel name =
      if (nonempty (names former)).length < 2 then
        .ok (described (former ++ [.model name]))
      else
        .error .thirdModel := by
  have named : ∀ text ∈ nonempty (names former), text ≠ [] := ne_nil_of_mem_nonempty
  rw [described_concat_model, Options.addModel, described]
  generalize nonempty (names former) = given at named
  rcases given with _ | ⟨first, _ | ⟨second, rest⟩⟩
  · cases name <;> rfl
  · have first_ne : first ≠ [] := named first List.mem_cons_self
    cases name <;> simp [first_ne, nonempty]
  · have first_ne : first ≠ [] := named first List.mem_cons_self
    have second_ne : second ≠ [] := named second (by simp)
    simp [first_ne, second_ne]

theorem described_concat_flag (former : List Argument) (given : Flag) :
    described (former ++ [.flag given]) =
      { described former with
        combination := (combinations former ++ given.combination?.toList).head?
        dump := .dump ∈ flags former ++ [given]
        stats := .stats ∈ flags former ++ [given]
        verbose := .verbose ∈ flags former ++ [given]
        selfCheck := .selfCheck ∈ flags former ++ [given]
        help := .help ∈ flags former ++ [given] } := by
  have flags_eq : flags (former ++ [.flag given]) = flags former ++ [given] :=
    flags_append former [.flag given]
  rw [described, flags_eq, combinations_concat_flag, values_concat_of_value?_eq_none rfl,
    names_concat_of_name?_eq_none rfl]
  rfl

theorem described_concat_promela (former : List Argument) (value : Text) :
    described (former ++ [.promela (some value)]) = { described former with promela := value } := by
  have values_eq : values (former ++ [.promela (some value)]) = values former ++ [value] :=
    values_append former [.promela (some value)]
  rw [described, flags_concat_of_flag?_eq_none rfl, combinations_concat_of_flag?_eq_none rfl,
    values_eq, List.getLast?_concat, names_concat_of_name?_eq_none rfl]
  rfl

/-- The options for arguments are told by the ones in front and the last one, if it fits. -/
theorem take_described (former : List Argument) (argument : Argument) (options : Options) :
    (described former).take argument = .ok options ↔
      Fits former argument ∧ described (former ++ [argument]) = options := by
  cases argument with
  | flag given =>
      rw [described_concat_flag]
      cases given with
      | combination choice =>
          rw [Options.take, Options.combine, described, Fits]
          rcases combinations former with _ | ⟨chosen, rest⟩ <;> simp [Flag.combination?]
      | selfCheck | dump | stats | verbose | help =>
          simp [Options.take, Fits, Flag.combination?, described]
  | promela value =>
      cases value with
      | none => simp [Options.take, Fits]
      | some value => simp [Options.take, Fits, described_concat_promela]
  | unknown option => simp [Options.take, Fits]
  | model name =>
      rw [Options.take, addModel_described]
      by_cases fits : (nonempty (names former)).length < 2
      · simp [Fits, fits]
      · simp [Fits, fits]

/-- Taking arguments behind others gives what all of them ask for, if each fits in its place. -/
theorem foldlM_take_described {former : List Argument} (readable : IsReadable former)
    (arguments : List Argument) (options : Options) :
    arguments.foldlM Options.take (described former) = .ok options ↔
      IsReadable (former ++ arguments) ∧ described (former ++ arguments) = options := by
  -- Before each argument the options are those that the arguments in front of it ask for.
  induction arguments generalizing former with
  | nil => simp [readable, pure, Except.pure]
  | cons argument arguments induction =>
      have append : former ++ argument :: arguments = former ++ [argument] ++ arguments := by simp
      rw [List.foldlM_cons, append]
      cases taken : (described former).take argument with
      | error fault =>
          have unfit : ¬Fits former argument := by
            intro fits
            rw [(take_described former argument _).2 ⟨fits, rfl⟩] at taken
            cases taken
          exact ⟨nofun, fun accepted => (unfit accepted.1.of_append.fits).elim⟩
      | ok next =>
          obtain ⟨fits, rfl⟩ := (take_described former argument next).1 taken
          exact induction (readable.concat fits)

/-! ## Options at the end -/

theorem IsReadable.length_nonempty_le (readable : IsReadable arguments) :
    (nonempty (names arguments)).length ≤ 2 := by
  rcases List.eq_nil_or_concat (names arguments) with none | ⟨front, name, last⟩
  · simp [none, nonempty]
  · rw [List.concat_eq_append] at last
    have fewer := readable.positional front name (last ▸ List.prefix_rfl)
    have one : (nonempty [name]).length ≤ 1 := List.length_filter_le _ _
    rw [last, nonempty_append, List.length_append]
    omega

theorem second_described_ne_nil_iff (readable : IsReadable arguments) :
    (described arguments).second ≠ [] ↔ (nonempty (names arguments)).length = 2 := by
  have named : ∀ text ∈ nonempty (names arguments), text ≠ [] := ne_nil_of_mem_nonempty
  have few := readable.length_nonempty_le
  rw [described]
  generalize nonempty (names arguments) = given at named few ⊢
  rcases given with _ | ⟨first, _ | ⟨second, _ | ⟨third, rest⟩⟩⟩
  · simp
  · simp
  · simpa using named second (by simp)
  · simp at few

theorem first_described_ne_nil_iff :
    (described arguments).first ≠ [] ↔ nonempty (names arguments) ≠ [] := by
  have named : ∀ text ∈ nonempty (names arguments), text ≠ [] := ne_nil_of_mem_nonempty
  rw [described]
  generalize nonempty (names arguments) = given at named ⊢
  cases given with
  | nil => simp
  | cons first rest => simpa using named first List.mem_cons_self

/-- The options for arguments are accepted when the arguments make sense together. -/
theorem check_described (readable : IsReadable arguments) :
    (described arguments).check = .ok () ↔ IsMeaningful arguments := by
  rw [Options.check_eq_ok_iff, first_described_ne_nil_iff, second_described_ne_nil_iff readable]
  have combination : (described arguments).combination ≠ none ↔ combinations arguments ≠ [] := by
    simp [described]
  rw [combination, ← or_assoc]
  have flags : ((described arguments).selfCheck = true ∨ (described arguments).help = true) ↔
      .help ∈ flags arguments ∨ .selfCheck ∈ flags arguments := by
    simp [described, or_comm]
  rw [flags, or_assoc]
  exact ⟨fun together => ⟨readable, together⟩, fun meaningful => meaningful.together⟩

theorem map_takeWhile_of_whole {texts : List Text} (whole : ∀ text ∈ texts, 0 ∉ text) :
    texts.map (fun text => text.takeWhile (· != 0)) = texts := by
  calc
    texts.map (fun text => text.takeWhile (· != 0)) = texts.map id :=
      List.map_congr_left fun text member => List.takeWhile_eq_self_iff.2 fun byte inside =>
        bne_iff_ne.2 fun zero => whole text member (zero ▸ inside)
    _ = texts := List.map_id texts

theorem described_nil : described [] = {} := rfl

/-- Arguments are accepted when they are meaningful, and then the options are those that they ask
for. -/
theorem ofArguments_eq_ok_iff_isMeaningful {texts : List Text} (whole : ∀ text ∈ texts, 0 ∉ text)
    {options : Options} :
    Options.ofArguments texts = .ok options ↔
      IsMeaningful (read texts) ∧ described (read texts) = options := by
  rw [Options.ofArguments_eq_ok_iff, map_takeWhile_of_whole whole, Options.addAll_eq_foldlM,
    ← described_nil, foldlM_take_described isReadable_nil, List.nil_append]
  constructor
  · rintro ⟨⟨readable, rfl⟩, checked⟩
    exact ⟨(check_described readable).1 checked, rfl⟩
  · rintro ⟨meaningful, rfl⟩
    have readable := meaningful.toIsReadable
    exact ⟨⟨readable, rfl⟩, (check_described readable).2 meaningful⟩

theorem mem_combinations_iff {choice : Combination} :
    choice ∈ combinations arguments ↔ .combination choice ∈ flags arguments := by
  rw [combinations, List.mem_filterMap]
  constructor
  · rintro ⟨given, member, chosen⟩
    cases given with
    | combination other =>
        obtain rfl := Option.some.inj chosen
        exact member
    | selfCheck | dump | stats | verbose | help => cases chosen
  · exact fun member => ⟨_, member, rfl⟩

theorem IsReadable.head?_combinations_eq_some_iff (readable : IsReadable arguments)
    {choice : Combination} :
    (combinations arguments).head? = some choice ↔ .combination choice ∈ flags arguments := by
  rw [← mem_combinations_iff]
  have single := readable.single
  generalize combinations arguments = choices at single ⊢
  rcases choices with _ | ⟨first, _ | ⟨second, rest⟩⟩
  · simp
  · simp [eq_comm]
  · simp at single

theorem described_congr {others : List Argument} (readable : IsReadable arguments)
    (readable' : IsReadable others)
    (sameNames : nonempty (names arguments) = nonempty (names others))
    (sameFlags : ∀ given, given ∈ flags arguments ↔ given ∈ flags others)
    (sameValue : (values arguments).getLast? = (values others).getLast?) :
    described arguments = described others := by
  have sameCombination : (combinations arguments).head? = (combinations others).head? := by
    apply Option.ext
    intro choice
    rw [readable.head?_combinations_eq_some_iff, readable'.head?_combinations_eq_some_iff,
      sameFlags]
  simp only [described, sameNames, sameFlags, sameValue, sameCombination]

end Argument

open Argument

/-- Arguments are accepted exactly when they are meaningful. Accepted arguments with the same names,
flags and last file for Promela stand for the same options, whatever their order is. -/
theorem ofArguments_accepts_meaningful {texts others : List Text} (whole : ∀ text ∈ texts, 0 ∉ text)
    (whole' : ∀ text ∈ others, 0 ∉ text) :
    ((∃ options, Options.ofArguments texts = .ok options) ↔ IsMeaningful (read texts)) ∧
      ∀ options options', Options.ofArguments texts = .ok options →
        Options.ofArguments others = .ok options' →
        nonempty (names (read texts)) = nonempty (names (read others)) →
        (∀ given, given ∈ flags (read texts) ↔ given ∈ flags (read others)) →
        (values (read texts)).getLast? = (values (read others)).getLast? →
        options = options' := by
  constructor
  · constructor
    · rintro ⟨options, accepted⟩
      exact ((ofArguments_eq_ok_iff_isMeaningful whole).1 accepted).1
    · exact fun meaningful => ⟨_, (ofArguments_eq_ok_iff_isMeaningful whole).2 ⟨meaningful, rfl⟩⟩
  · intro options options' accepted accepted' sameNames sameFlags sameValue
    obtain ⟨meaningful, rfl⟩ := (ofArguments_eq_ok_iff_isMeaningful whole).1 accepted
    obtain ⟨meaningful', rfl⟩ := (ofArguments_eq_ok_iff_isMeaningful whole').1 accepted'
    exact described_congr meaningful.toIsReadable meaningful'.toIsReadable sameNames sameFlags
      sameValue

/-- The synchronous product of two models, with a file for Promela whose name looks like an option,
which is replaced later, and an empty name. -/
def productArguments : List Text :=
  ["--sync", "", "tank", "-v", "--promela", "--dump", "pump", "--promela", "both.pml"]

/-- The same in another order, with the other spelling of a flag. -/
def reorderedArguments : List Text :=
  ["tank", "", "--verbose", "pump", "--promela", "both.pml", "--sync"]

/-- Both lists of arguments are meaningful and stand for the same options. -/
theorem productArguments_accepted :
    IsMeaningful (read productArguments) ∧
      ∃ options, Options.ofArguments productArguments = .ok options ∧
        Options.ofArguments reorderedArguments = .ok options := by
  have whole : ∀ text ∈ productArguments, 0 ∉ text := by decide +kernel
  have whole' : ∀ text ∈ reorderedArguments, 0 ∉ text := by decide +kernel
  obtain ⟨accepts, agree⟩ := ofArguments_accepts_meaningful whole whole'
  obtain ⟨options, accepted⟩ := exists_ok_of_isOk
    (by decide +kernel : (Options.ofArguments productArguments).isOk = true)
  obtain ⟨options', accepted'⟩ := exists_ok_of_isOk
    (by decide +kernel : (Options.ofArguments reorderedArguments).isOk = true)
  have kept : flags (read productArguments) ⊆ flags (read reorderedArguments) := by decide +kernel
  have kept' : flags (read reorderedArguments) ⊆ flags (read productArguments) := by decide +kernel
  have same : options = options' := agree options options' accepted accepted' (by decide +kernel)
    (fun _ => ⟨fun member => kept member, fun member => kept' member⟩) (by decide +kernel)
  exact ⟨accepts.1 ⟨options, accepted⟩, options, accepted, same ▸ accepted'⟩

end TransitionSystems.CommandLine
