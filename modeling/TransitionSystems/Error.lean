import TransitionSystems.Guard.Formula
import TransitionSystems.Guard.Token
import TransitionSystems.Kind
import TransitionSystems.OrderedSet

/-!
# Errors

Every way in which an operation can fail, with its class and its wording. A message ends before its
first zero byte.
-/

namespace TransitionSystems

/-- Why a word is not the identifier of a symbol. -/
inductive IdentifierFault where
  /-- An atom without bytes. -/
  | empty
  /-- A tuple that is still open at the end. -/
  | unterminated
  /-- Something other than a comma or a closing parenthesis after a part of a tuple. -/
  | malformed
  /-- Something after a complete symbol. -/
  | trailing
  deriving DecidableEq

/-- Why the form of a model line is wrong. -/
inductive LineFault where
  | systemForm
  | systemKind (word : Text)
  | automatonForm
  | notDeclared (word : Text)
  | fieldNotAllowed (field : Text) (kind : Kind)
  | systemKeyword (word : Text)
  | stateForm
  | emptyLabelNotAlone (identifier : Text)
  | transitionForm
  | tooManyActions
  | edgeFieldForm (word : Text)
  | edgeField (key : Text)
  | automatonStateForm
  | automatonTransitionForm
  | missingGuard
  | automatonKeyword (word : Text)
  deriving DecidableEq

/-- Why a file is not read or written. -/
inductive FileFault where
  | notOpened
  | notRead
  | notOpenedForWriting
  deriving DecidableEq

/-- Why the arguments of a command make no sense. -/
inductive UsageFault where
  | secondCombination (option : Text)
  | promelaWithoutFile
  | unknownOption (option : Text)
  | thirdModel
  | noModel
  | secondModelMissing
  | combinationMissing
  deriving DecidableEq

/-- The cause of a failure. -/
inductive Error where
  | negatedTuple (symbol : Symbol)
  | identifier (word : Text) (fault : IdentifierFault)
  | missingField (field : Text)
  | unknownField (field : Text) (kind : Kind)
  | labelOutside (label : Label) (propositions : OrderedSet)
  | valueOutside (value : Symbol) (field : Text) (alphabet : OrderedSet)
  | labelCount (labels states : Nat)
  | unexpectedAction (source target : Symbol)
  | missingAction (source target : Symbol)
  | conflictingLabel (state : Symbol) (present given : Label)
  | unknownState (operation : Text) (state : Symbol) (system : Text)
  | unknownAutomatonState (operation : Text) (state : Symbol)
  | kindsDiffer (operation : Text) (leftKind : Kind) (left : Text) (rightKind : Kind) (right : Text)
  | notClosed (system : Text)
  | notOpen (system : Text)
  | openFactor (system : Text)
  | openExport (system : Text)
  | automatonOperand (path : Text)
  | automatonExport
  | unsupported (operation : Text)
  | unknownFormula (number : Nat)
  | notConnective (sign : Text)
  | guard (position : Guard.Position) (fault : Guard.GuardFault)
  | line (number : Nat) (fault : LineFault)
  | atLine (number : Nat) (cause : Error)
  | noDeclaration
  | file (path : Text) (fault : FileFault)
  | usage (fault : UsageFault)

/-- The classes of errors. -/
inductive ErrorClass where
  /-- A value outside its declared universe. -/
  | domain
  /-- A state that is added again with another label. -/
  | duplicateState
  /-- A reference to a state that does not exist. -/
  | unknownState
  /-- An operation on systems of incompatible kinds. -/
  | typeMismatch
  /-- An operation that is deliberately not provided. -/
  | unsupported
  /-- A number outside a table. -/
  | range
  /-- An argument that the operation is not made for. -/
  | argument
  /-- A failure to read or write. -/
  | runtime
  deriving DecidableEq

namespace IdentifierFault

/-- The wording of a fault in a word. -/
def text (word : Text) : IdentifierFault → Text
  | .empty => "empty identifier in '" ++ word ++ "'"
  | .unterminated => "unterminated identifier '" ++ word ++ "'"
  | .malformed => "malformed identifier '" ++ word ++ "'"
  | .trailing => "trailing characters in identifier '" ++ word ++ "'"

end IdentifierFault

namespace LineFault

/-- The wording of a fault. -/
def text : LineFault → Text
  | .systemForm => "expected 'system closed|open <name>'"
  | .systemKind word => "unknown system kind '" ++ word ++ "', expected closed or open"
  | .automatonForm => "expected 'automaton <name>'"
  | .notDeclared word => "expected 'system' or 'automaton' declaration, got '" ++ word ++ "'"
  | .fieldNotAllowed field kind =>
    "'" ++ field ++ "' is not allowed in a " ++ kind.name ++ " system"
  | .systemKeyword word => "unknown system declaration '" ++ word ++ "'"
  | .stateForm => "expected 'state <id> [\x7b\x7d | <prop>...]'"
  | .emptyLabelNotAlone identifier =>
    "'\x7b\x7d' must be the only label of state " ++ identifier
  | .transitionForm => "expected 'trans <from> <to> [<label>]'"
  | .tooManyActions => "closed transitions carry at most one action"
  | .edgeFieldForm word => "expected sys=<action> or env=<action>, got '" ++ word ++ "'"
  | .edgeField key => "unknown edge field '" ++ key ++ "'"
  | .automatonStateForm => "expected 'state <id>...'"
  | .automatonTransitionForm => "expected 'trans <from> <to> : <guard>'"
  | .missingGuard => "missing guard after ':'"
  | .automatonKeyword word => "unknown automaton declaration '" ++ word ++ "'"

end LineFault

namespace FileFault

/-- The wording of a fault with a path. -/
def text (path : Text) : FileFault → Text
  | .notOpened => "cannot open file: " ++ path
  | .notRead => "error while reading file: " ++ path
  | .notOpenedForWriting => "cannot open file for writing: " ++ path

end FileFault

namespace UsageFault

/-- The wording of a fault. -/
def text : UsageFault → Text
  | .secondCombination option =>
    option ++ ": only one of --sync, --async, --merge may be given"
  | .promelaWithoutFile => "--promela requires a file argument"
  | .unknownOption option => "unknown option: " ++ option
  | .thirdModel => "at most two model files are supported"
  | .noModel => "no model file specified (use --help for usage)"
  | .secondModelMissing => "--sync, --async and --merge need a second model file"
  | .combinationMissing => "a second model needs one of --sync, --async, --merge"

end UsageFault

namespace Error

/-- The wording of a cause. -/
def text : Error → Text
  | .negatedTuple symbol => "cannot negate tuple symbol " ++ symbol.text
  | .identifier word fault => fault.text word
  | .missingField field => "edge label has no field '" ++ field ++ "'"
  | .unknownField field kind =>
    "unknown edge label field '" ++ field ++ "' for " ++ kind.name ++ " system"
  | .labelOutside label propositions =>
    "state label " ++ label.text ++ " is not a subset of AP " ++ propositions.text ++
      " (missing " ++ Label.text (label.filter (· ∉ propositions)) ++ ")"
  | .valueOutside value field alphabet =>
    "'" ++ value.text ++ "' is not in " ++ field ++ " " ++ alphabet.text
  | .labelCount labels states =>
    "tuple2fts: " ++ Text.ofNat labels ++ " labels for " ++ Text.ofNat states ++ " states"
  | .unexpectedAction source target =>
    "tuple2fts: edge " ++ source.text ++ " -> " ++ target.text ++
      " has an action but no action set was given"
  | .missingAction source target =>
    "tuple2fts: edge " ++ source.text ++ " -> " ++ target.text ++ " is missing its action"
  | .conflictingLabel state present given =>
    "state " ++ state.text ++ " already exists with label " ++ present.text ++
      ", cannot re-add with " ++ given.text
  | .unknownState operation state system =>
    operation ++ ": unknown state " ++ state.text ++ " in system '" ++ system ++ "'"
  | .unknownAutomatonState operation state =>
    operation ++ ": unknown automaton state '" ++ state.text ++ "'"
  | .kindsDiffer operation leftKind left rightKind right =>
    operation ++ ": cannot combine " ++ leftKind.name ++ " system '" ++ left ++ "' with " ++
      rightKind.name ++ " system '" ++ right ++ "'"
  | .notClosed system => "system '" ++ system ++ "' is open, expected a closed system"
  | .notOpen system => "system '" ++ system ++ "' is closed, expected an open system"
  | .openFactor system =>
    "synchronous_product: automaton product needs a closed system, '" ++ system ++ "' is open"
  | .openExport system =>
    "promela export: system '" ++ system ++ "' is open, only closed systems can be exported"
  | .automatonOperand path => path ++ ": expected a transition system, got an automaton"
  | .automatonExport => "--promela: only transition systems can be exported"
  | .unsupported operation => operation ++ ": operation not supported"
  | .unknownFormula number => "unknown formula id " ++ Text.ofNat number
  | .notConnective sign => "make_binary: '" ++ sign ++ "' is not a binary connective"
  | .guard position fault =>
    Text.ofNat position.line ++ ": ERROR: " ++ fault.text ++ " at column " ++
      Text.ofNat position.column
  | .line number fault => Text.ofNat number ++ ": ERROR: " ++ fault.text
  | .atLine number cause => Text.ofNat number ++ ": ERROR: " ++ cause.text
  | .noDeclaration => "no 'system' or 'automaton' declaration found"
  | .file path fault => fault.text path
  | .usage fault => fault.text

/-- What is reported: the wording up to its first zero byte. -/
def message (error : Error) : Text :=
  error.text.takeWhile (· != 0)

/-- The class of a cause. -/
def errorClass : Error → ErrorClass
  | .negatedTuple _ | .identifier _ _ | .missingField _ | .unknownField _ _ | .labelOutside _ _
  | .valueOutside _ _ _ | .labelCount _ _ | .unexpectedAction _ _ | .missingAction _ _ => .domain
  | .conflictingLabel _ _ _ => .duplicateState
  | .unknownState _ _ _ | .unknownAutomatonState _ _ => .unknownState
  | .kindsDiffer _ _ _ _ _ | .notClosed _ | .notOpen _ | .openFactor _ | .openExport _
  | .automatonOperand _ | .automatonExport => .typeMismatch
  | .unsupported _ => .unsupported
  | .unknownFormula _ => .range
  | .notConnective _ => .argument
  | .guard _ _ | .line _ _ | .atLine _ _ | .noDeclaration | .file _ _ | .usage _ => .runtime

/-- Whether an error concerns the content of a model rather than its text. -/
def isModelError (error : Error) : Bool :=
  match error.errorClass with
  | .domain | .duplicateState | .unknownState | .typeMismatch | .unsupported => true
  | .range | .argument | .runtime => false

end Error

end TransitionSystems
