import Fanout.Error
import Fanout.Report

/-!
# Rules

What a backend demands of its configuration. A check must hold, and the first one that does not
refuses the configuration; advice should hold, and what does not becomes a warning. Both kinds keep
the order in which they were added.
-/

namespace Fanout

/-- What a check that does not hold amounts to. -/
inductive Violation where
  | configuration (reason : String)
  /-- Something the backend needs is missing. -/
  | dependencyMissing (capability guidance : String)
deriving DecidableEq, Repr

namespace Violation

/-- The error a violation leads to. -/
def toError (backend : String) : Violation → BackendError
  | configuration reason => .configuration backend reason
  | dependencyMissing capability guidance => .dependencyMissing backend capability guidance

def message : Violation → String
  | configuration reason => reason
  | dependencyMissing capability guidance => s!"{capability} is not available: {guidance}"

end Violation

/-- Something that must hold. -/
structure Check where
  holds : Bool
  /-- What it amounts to if not. -/
  violation : Violation
deriving DecidableEq, Repr

/-- Something that should hold. -/
structure Advice where
  holds : Bool
  /-- The warning if not. -/
  message : String
deriving DecidableEq, Repr

/-- The demands of a backend, in the order they were made. -/
structure Rules where
  /-- What must hold. -/
  checks : List Check
  /-- What should hold. -/
  advice : List Advice
deriving DecidableEq, Repr

namespace Rules

def empty : Rules := ⟨[], []⟩

/-- Demand that something holds. -/
def check (rules : Rules) (holds : Bool) (reason : String) : Rules :=
  { rules with checks := rules.checks ++ [⟨holds, .configuration reason⟩] }

/-- Demand that something is available. -/
def require (rules : Rules) (available : Bool) (capability guidance : String) : Rules :=
  { rules with checks := rules.checks ++ [⟨available, .dependencyMissing capability guidance⟩] }

/-- Warn unless something holds. -/
def warnUnless (rules : Rules) (holds : Bool) (message : String) : Rules :=
  { rules with advice := rules.advice ++ [⟨holds, message⟩] }

/-- Why a worker count is refused; `shown` is the count as it was given. -/
def countReason (shown : String) : String :=
  s!"n_workers should be positive integer, got n_workers={shown}"

/-- The rule every backend has: there is at least one worker. -/
def base (workers : Int64) : Rules :=
  empty.check (decide (0 < workers)) (countReason (toString workers.toInt))

/-- The first check that does not hold. -/
def violation? (rules : Rules) : Option Violation :=
  (rules.checks.find? fun check => !check.holds).map Check.violation

/-- The warnings of the advice that does not hold, in order. -/
def warnings (rules : Rules) (backend : String) : List ConfigurationWarning :=
  (rules.advice.filter fun advice => !advice.holds).map fun advice => ⟨backend, advice.message⟩

/-- Apply the rules in the name of a backend: refuse with the first violation, or warn. -/
def evaluate (rules : Rules) (backend : String) :
    Logged (Except BackendError (List ConfigurationWarning)) :=
  match rules.violation? with
  | some violation =>
    ⟨[.notice (.validationFailed backend violation.message)], .error (violation.toError backend)⟩
  | none =>
    let warnings := rules.warnings backend
    ⟨warnings.map fun w => .notice (.configurationWarning backend w.message), .ok warnings⟩

end Rules

end Fanout
