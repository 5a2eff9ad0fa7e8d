import FeatureRun.Listener
import FeatureRun.Overflow

/-!
Statistics of a walk: how many features were walked, and how the scenarios and steps ended. A
scenario counts by its worst step.
-/

namespace FeatureRun

structure Counts where
  passed : Nat := 0
  undefined : Nat := 0
  failed : Nat := 0
  deriving DecidableEq, Repr, Inhabited

namespace Counts

def total (c : Counts) : Nat := c.passed + c.undefined + c.failed

def display (c : Counts) : String :=
  s!"{c.passed} passed, {c.undefined} undefined, {c.failed} failed"

def record (c : Counts) : StepResult → Counts
  | .passed => { c with passed := c.passed + 1 }
  | .undefined => { c with undefined := c.undefined + 1 }
  | .failed _ => { c with failed := c.failed + 1 }

theorem total_record (c : Counts) (r : StepResult) : (c.record r).total = c.total + 1 := by
  cases r <;> simp only [record, total] <;> omega

/-- The total, if it is a number that a counter can hold. -/
def total? (c : Counts) : Except Overflow Nat :=
  if c.total < Overflow.counterLimit then .ok c.total else .error .sum

/-- One more result, if the counter that it raises can hold the new number. -/
def record? (c : Counts) (r : StepResult) : Except Overflow Counts :=
  let next := c.record r
  let limit := Overflow.counterLimit
  if next.passed < limit ∧ next.undefined < limit ∧ next.failed < limit then .ok next
  else .error .sum

end Counts

structure Statistics where
  features : Nat := 0
  scenarios : Counts := {}
  steps : Counts := {}
  /-- The worst result of the scenario being walked. -/
  current : Option StepResult := none
  deriving DecidableEq, Repr, Inhabited

/-- The worst result of a scenario after one more. A failure is never replaced. -/
def StepResult.worsen (current : Option StepResult) (r : StepResult) : Option StepResult :=
  match current, r with
  | _, .passed => current
  | some (.failed e), _ => some (.failed e)
  | _, r => some r

namespace Statistics

def hasFailed (s : Statistics) : Bool := 0 < s.steps.failed || 0 < s.steps.undefined

def take : Notice → Statistics → Statistics
  | .afterFeature _, s => { s with features := s.features + 1 }
  | .beforeScenario _, s => { s with current := some .passed }
  | .afterScenario _, s =>
    match s.current with
    | some r => { s with scenarios := s.scenarios.record r, current := none }
    | none => s
  | .stepResult r, s =>
    { s with steps := s.steps.record r, current := StepResult.worsen s.current r }
  | _, s => s

instance : Listener Statistics where
  notice n s := .quiet (take n s)

end Statistics

end FeatureRun
