import TransitionSystems.Text.Basic

/-!
# Check suites

A suite is a sequence of named checks, possibly ended by an exception. Running suites writes a line
for every failure and for every suite without one; the summary accounts for the suites and the
checks. An exception counts as a failure without being a check.

The counts have no bound here. Signed words of 32 bits hold them in every run with fewer than
`2 ^ 31` suites in which checks and exceptions are fewer than `2 ^ 31` as well; about longer runs
nothing is said.
-/

namespace TransitionSystems

/-- A step of a suite. -/
inductive Check where
  /-- A condition. -/
  | holds (condition : Bool) (description : Text)
  /-- An equality of texts, both of which are shown when it fails. -/
  | equal (actual expected description : Text)
  /-- An exception, which ends the suite. -/
  | exception (reason : Text)

/-- A named sequence of checks. -/
structure Suite where
  name : Text
  checks : List Check

/-- How many things were run and how many failures were counted: both fewer than `2 ^ 31` where
words hold the counts. -/
structure Tally where
  run : Nat := 0
  failed : Nat := 0
  deriving DecidableEq, Inhabited

namespace Tally

/-- The number run less the number of failures. -/
def passed (tally : Tally) : Int :=
  tally.run - tally.failed

/-- The tally of two runs together. -/
def add (left right : Tally) : Tally where
  run := left.run + right.run
  failed := left.failed + right.failed

/-- One more thing that was run, and whether it failed. -/
def count (tally : Tally) (failed : Bool) : Tally :=
  tally.add { run := 1, failed := if failed then 1 else 0 }

end Tally

/-- The line about a failure. -/
def failureLine (suite description : Text) : Text :=
  "  FAIL [" ++ suite ++ "]: " ++ description ++ "\n"

/-- Runs the checks of a suite and adds to its tally and to what has been written. -/
def runChecks (suite : Text) : Tally × Text → List Check → Tally × Text
  | done, [] => done
  | (tally, written), .holds condition description :: checks =>
    runChecks suite
      (tally.count !condition,
        if condition then written else written ++ failureLine suite description)
      checks
  | (tally, written), .equal actual expected description :: checks =>
    runChecks suite
      (tally.count (actual != expected),
        if actual = expected then
          written
        else
          written ++ failureLine suite description ++ "    expected: " ++ expected ++ "\n" ++
            "    actual:   " ++ actual ++ "\n")
      checks
  | (tally, written), .exception reason :: _ =>
    (tally.add { failed := 1 },
      written ++ failureLine suite ("uncaught exception: " ++ reason.takeWhile (· != 0)))

/-- The account of the suites that have been run. -/
structure CheckRun where
  suites : Tally := {}
  checks : Tally := {}
  /-- What has been written. -/
  written : Text := []

namespace CheckRun

/-- Runs a suite. -/
def runSuite (account : CheckRun) (suite : Suite) : CheckRun :=
  let (tally, written) :=
    runChecks suite.name ({}, account.written ++ "TEST: " ++ suite.name ++ "\n") suite.checks
  let failed := tally.failed ≠ 0
  { suites := account.suites.count failed
    checks := account.checks.add tally
    written :=
      if failed then written else written ++ "  OK (" ++ Text.ofNat tally.run ++ " checks)\n" }

/-- The account of suites that are run one after the other. -/
def ofSuites (suites : List Suite) : CheckRun :=
  suites.foldl runSuite {}

/-- Whether no suite has failed. -/
def succeeded (account : CheckRun) : Bool :=
  account.suites.failed == 0

/-- A line of the summary. -/
def tallyLine (heading total : Text) (tally : Tally) : Text :=
  heading ++ Text.ofNat tally.run ++ total ++ Text.ofInt tally.passed ++ " passed, " ++
    Text.ofNat tally.failed ++ " failed\n"

/-- The summary of the account. -/
def summary (account : CheckRun) : Text :=
  "\n=== Test Summary ===\n" ++
    tallyLine "Tests:  " " run, " account.suites ++
    tallyLine "Checks: " " total, " account.checks ++
    if account.succeeded then "ALL TESTS PASSED\n" else "SOME TESTS FAILED\n"

/-- The exit code that reports the account. -/
def exitCode (account : CheckRun) : Nat :=
  if account.succeeded then 0 else 1

end CheckRun

end TransitionSystems
