import TransitionSystems.Check

/-!
# Account of checks

A suite makes the checks in front of its first exception. The account of a run of suites has as many
checks as were made, and as many failures as checks that do not hold and exceptions together. An
exception is a failure without a check, so it is missing among the checks that passed: the summary
is right exactly when no suite has been broken off.
-/

namespace TransitionSystems

namespace Check

/-- Whether a step ends its suite. -/
def isException : Check → Bool
  | .holds _ _ => false
  | .equal _ _ _ => false
  | .exception _ => true

/-- Whether the condition of a check holds. -/
def succeeds : Check → Bool
  | .holds condition _ => condition
  | .equal actual expected _ => actual == expected
  | .exception _ => false

end Check

namespace Suite

/-- The checks in front of the first exception. -/
def made (suite : Suite) : List Check :=
  suite.checks.takeWhile fun check => !check.isException

/-- Whether an exception ends the suite. -/
def isBrokenOff (suite : Suite) : Bool :=
  suite.checks.any Check.isException

end Suite

/-! ## Tallies -/

namespace Tally

/-- The tally of checks and of exceptions beside them. -/
def ofChecks (made : List Check) (exceptions : Nat) : Tally where
  run := made.length
  failed := made.countP (fun check => !check.succeeds) + exceptions

/-- The tally of the suites that are run one after the other. -/
def ofSuites (suites : List Suite) : Tally :=
  ofChecks (suites.flatMap Suite.made) (suites.countP Suite.isBrokenOff)

theorem add_assoc (first second third : Tally) :
    (first.add second).add third = first.add (second.add third) := by
  simp [add, Nat.add_assoc]

theorem count_eq_add (tally : Tally) (failed : Bool) :
    tally.count failed = tally.add (count {} failed) := by
  simp [count, add]

theorem ofChecks_append (made others : List Check) (exceptions more : Nat) :
    ofChecks (made ++ others) (exceptions + more) =
      (ofChecks made exceptions).add (ofChecks others more) := by
  simp [ofChecks, add, Nat.add_add_add_comm]

theorem ofChecks_singleton (check : Check) :
    ofChecks [check] 0 = count {} (!check.succeeds) := by
  simp [ofChecks, count, add]

theorem ofSuites_cons (suite : Suite) (suites : List Suite) :
    ofSuites (suite :: suites) = (ofSuites [suite]).add (ofSuites suites) := by
  rw [ofSuites, ofSuites, ofSuites, ← ofChecks_append, List.flatMap_singleton,
    ← List.flatMap_cons, ← List.countP_append, List.singleton_append]

theorem ofSuites_check {name : Text} {check : Check} {checks : List Check}
    (returns : check.isException = false) :
    ofSuites [{ name, checks := check :: checks }] =
      (count {} (!check.succeeds)).add (ofSuites [{ name, checks }]) := by
  rw [← ofChecks_singleton, ofSuites, ofSuites, ← ofChecks_append]
  simp [Suite.made, Suite.isBrokenOff, returns]

theorem ofSuites_exception (name reason : Text) (checks : List Check) :
    ofSuites [{ name, checks := .exception reason :: checks }] = { failed := 1 } := by
  simp [ofSuites, ofChecks, Suite.made, Suite.isBrokenOff, Check.isException]

/-- What passes is what succeeds, less the exceptions. -/
theorem passed_ofChecks (made : List Check) (exceptions : Nat) :
    (ofChecks made exceptions).passed = made.countP Check.succeeds - exceptions := by
  have total := List.length_eq_countP_add_countP Check.succeeds (l := made)
  simp only [passed, ofChecks, Bool.not_eq_true, Bool.decide_eq_false] at total ⊢
  omega

end Tally

/-! ## Runs -/

/-- Running checks adds their tally. -/
theorem fst_runChecks (name : Text) (done : Tally × Text) (checks : List Check) :
    (runChecks name done checks).1 = done.1.add (.ofSuites [{ name, checks }]) := by
  induction checks generalizing done with
  | nil => rfl
  | cons check checks induction =>
      obtain ⟨tally, written⟩ := done
      cases check with
      | holds condition description =>
          rw [runChecks, induction, Tally.ofSuites_check rfl, ← Tally.add_assoc,
            ← Tally.count_eq_add]
          rfl
      | equal actual expected description =>
          rw [runChecks, induction, Tally.ofSuites_check rfl, ← Tally.add_assoc,
            ← Tally.count_eq_add]
          rfl
      | exception reason => rw [runChecks, Tally.ofSuites_exception]

namespace CheckRun

theorem checks_runSuite (account : CheckRun) (suite : Suite) :
    (account.runSuite suite).checks = account.checks.add (.ofSuites [suite]) := by
  change account.checks.add (runChecks suite.name
    ({}, account.written ++ "TEST: " ++ suite.name ++ "\n") suite.checks).1 = _
  rw [fst_runChecks]
  simp [Tally.add]

theorem checks_foldl_runSuite (account : CheckRun) (suites : List Suite) :
    (suites.foldl runSuite account).checks = account.checks.add (.ofSuites suites) := by
  induction suites generalizing account with
  | nil => rfl
  | cons suite suites induction =>
      rw [List.foldl_cons, induction, checks_runSuite, Tally.add_assoc, ← Tally.ofSuites_cons]

theorem checks_ofSuites (suites : List Suite) : (ofSuites suites).checks = .ofSuites suites := by
  rw [ofSuites, checks_foldl_runSuite]
  simp [Tally.add]

/-- The numbers of checks are consistent, and right for the checks that were made. -/
structure AccountsFor (account : CheckRun) (made : List Check) : Prop where
  passed_eq : account.checks.passed = made.countP Check.succeeds
  passed_nonneg : 0 ≤ account.checks.passed
  failed_nonneg : 0 ≤ (account.checks.failed : Int)
  total_eq : account.checks.passed + account.checks.failed = account.checks.run

/-- Only exceptions make the numbers wrong. -/
theorem accountsFor_iff (suites : List Suite) :
    (ofSuites suites).AccountsFor (suites.flatMap Suite.made) ↔
      ∀ suite ∈ suites, suite.isBrokenOff = false := by
  have passed := Tally.passed_ofChecks (suites.flatMap Suite.made)
    (suites.countP Suite.isBrokenOff)
  rw [← Tally.ofSuites, ← checks_ofSuites] at passed
  have none : suites.countP Suite.isBrokenOff = 0 ↔
      ∀ suite ∈ suites, suite.isBrokenOff = false := by simp
  rw [← none]
  constructor
  · intro accounts
    have same := accounts.passed_eq
    omega
  · intro unbroken
    refine ⟨by omega, by omega, Int.natCast_nonneg _, ?_⟩
    rw [Tally.passed]
    omega

/-- The summary of a run shows how many checks were made, how many of them succeeded less the number
of suites that were broken off, and how many of them failed with these suites. So its numbers are
right exactly when no suite was broken off. Where words of 32 bits hold the counts, this is about
runs of fewer than `2 ^ 31` checks and exceptions. -/
theorem summary_accounts_iff (suites : List Suite) :
    (∃ before after, (ofSuites suites).summary =
        before ++ ("Checks: " ++ Text.ofNat (ofSuites suites).checks.run ++ " total, " ++
          Text.ofInt (ofSuites suites).checks.passed ++ " passed, " ++
          Text.ofNat (ofSuites suites).checks.failed ++ " failed\n") ++ after) ∧
      (ofSuites suites).checks.run = (suites.flatMap Suite.made).length ∧
      (ofSuites suites).checks.passed =
        (suites.flatMap Suite.made).countP Check.succeeds - suites.countP Suite.isBrokenOff ∧
      (ofSuites suites).checks.failed =
        (suites.flatMap Suite.made).countP (fun check => !check.succeeds) +
          suites.countP Suite.isBrokenOff ∧
      ((ofSuites suites).AccountsFor (suites.flatMap Suite.made) ↔
        ∀ suite ∈ suites, suite.isBrokenOff = false) := by
  refine ⟨⟨_, _, rfl⟩, ?_, ?_, ?_, accountsFor_iff suites⟩
  · rw [checks_ofSuites]
    rfl
  · rw [checks_ofSuites, Tally.ofSuites, Tally.passed_ofChecks]
  · rw [checks_ofSuites]
    rfl

/-- A suite that is broken off before its first check. -/
def setupSuite : Suite where
  name := "setup"
  checks := [.exception "no connection"]

/-- The account of this suite has less than no checks that passed. -/
theorem exists_negative_passed :
    ∃ suites : List Suite, (ofSuites suites).checks.passed < 0 ∧
      ¬(ofSuites suites).AccountsFor (suites.flatMap Suite.made) := by
  have negative : (ofSuites [setupSuite]).checks.passed < 0 := by decide +kernel
  exact ⟨[setupSuite], negative, fun accounts => Int.not_lt.2 accounts.passed_nonneg negative⟩

end CheckRun

end TransitionSystems
