import TransitionSystems.Check
import TransitionSystems.Model.Reader
import TransitionSystems.Model.Writer
import TransitionSystems.Path
import TransitionSystems.Product.Automaton
import TransitionSystems.Product.Systems
import TransitionSystems.System.Promela
import TransitionSystems.System.Update

/-!
# Self-check

The suites that the command runs on itself: small examples of every capability, with the texts that
are expected of them.
-/

namespace TransitionSystems.CommandLine

/-- The written form of a model that is read from lines, or the message of its error. -/
def readBack (lines : List Text) : Text :=
  match Model.ofLines lines with
  | .ok model => model.written
  | .error error => error.message

/-- The text of a result, or the message of its error. -/
def shown {α : Type} (text : α → Text) : Except Error α → Text
  | .ok value => text value
  | .error error => error.message

/-- The written form of a guard after reading, or the message of its error. -/
def guardShown (source : Text) : Text :=
  let (number, table) := Guard.Table.initial.readText source
  shown id (number >>= table.text)

/-- A line of two states with an action in between. -/
def switch : List Text :=
  ["system closed switch", "ap on", "actions flip", "state low", "state high on", "initial low",
    "trans low high flip"]

/-- The system that lines declare. -/
def systemOfLines (lines : List Text) : Except Error System :=
  match Model.ofLines lines with
  | .ok (.system content) => .ok content
  | .ok (.automaton _) => .error .noDeclaration
  | .error error => .error error

/-- The suites of the self-check. -/
def selfCheckSuites : List Suite :=
  [{ name := "symbols"
     checks :=
      [.equal (shown Symbol.text (Symbol.ofIdentifier "(a,(b,c))")) "(a, (b, c))"
        "identifier of a nested tuple",
       .equal (shown Symbol.text (Symbol.ofIdentifier "(a")) "unterminated identifier '(a'"
        "open tuple",
       .equal (shown Symbol.text (Symbol.negate (.atom "!p"))) "p" "negation of a negation"] },
   { name := "guards"
     checks :=
      [.equal (guardShown "a -> b -> !c") "(a -> (b -> (!c)))" "chain of implications",
       .equal (guardShown "a | b & c <-> true") "((a | (b & c)) <-> true)"
        "strength of connectives",
       .equal (guardShown "(a & b")
        "1: ERROR: expected ')' to close '(', got end of input at column 7" "open parenthesis"] },
   { name := "models"
     checks :=
      [.equal (readBack switch) (switch.flatMap (· ++ [Text.newline])) "system",
       .equal (readBack ["system closed", "state"])
        "2: ERROR: expected 'state <id> [\x7b\x7d | <prop>...]'" "state without identifier"] },
   { name := "products"
     checks :=
      [.equal
        (shown (fun system => Text.ofNat system.states.size) do
          let system ← systemOfLines switch
          return (← system.synchronousProduct system).system)
        "2" "synchronous product",
       .equal
        (shown (fun system => Text.ofNat system.states.size) do
          let system ← systemOfLines switch
          return (← system.asynchronousProduct system).system)
        "4" "asynchronous product"] },
   { name := "constructions"
     checks :=
      [.equal
        (shown (fun system => Text.ofNat system.transitions.size)
          (Path.cycle [.ofList [.atom "p"], .ofList [.atom "q"]]))
        "2" "cycle of two states",
       .equal
        (shown id (systemOfLines switch >>= fun system => system.promela (some "main")))
        (List.flatten
          ["bool on;\n\nactive proctype main()\x7b\n\t if\n\t :: goto low\n\t fi;\n",
           "low:\n\t printf(\"State: low\\n\");\n\t atomic\x7b\x7d\n\t if\n",
           "\t :: printf(\"\x7b'actions': 'flip'\x7d\\n\");\n\t\t goto high\n\t fi;\n\n",
           "high:\n\t printf(\"State: high\\n\");\n\t atomic\x7bon = 1;\x7d\n",
           "\t if\n\t fi;\n\n\x7d\n"])
        "process of a system"] }]

end TransitionSystems.CommandLine
