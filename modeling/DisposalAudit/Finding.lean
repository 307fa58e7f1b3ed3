/-!
# Findings

What an audit reports: a method that breaks a rule, how bad that is, and
how sure the rule is.

## Main definitions

* `Severity`, `Confidence` — the two scales, with their written forms.
* `Finding` — one violation.
-/

namespace DisposalAudit

/-- How bad a violation is. -/
inductive Severity where
  | critical
  | high
  | medium
  | low
  | audit
  deriving DecidableEq, Inhabited

namespace Severity

/-- Every severity, worst first. -/
def all : List Severity := [critical, high, medium, low, audit]

/-- Written form. -/
def name : Severity → String
  | critical => "critical"
  | high => "high"
  | medium => "medium"
  | low => "low"
  | audit => "audit"

/-- The severity of a written form. -/
def ofName? (text : String) : Option Severity := all.find? fun severity => severity.name = text

end Severity

/-- How sure a rule is of a violation. -/
inductive Confidence where
  | total
  | high
  | normal
  | low
  deriving DecidableEq, Inhabited

namespace Confidence

/-- Every confidence, surest first. -/
def all : List Confidence := [total, high, normal, low]

/-- Written form. -/
def name : Confidence → String
  | total => "total"
  | high => "high"
  | normal => "normal"
  | low => "low"

/-- The confidence of a written form. -/
def ofName? (text : String) : Option Confidence := all.find? fun c => c.name = text

end Confidence

/-- A violation found in a method body. -/
structure Finding where
  rule : String
  /-- Full name of the declaring type. -/
  type : String
  method : String
  /-- Written form of the method. -/
  signature : String
  severity : Severity
  confidence : Confidence
  message : String
  deriving DecidableEq, Inhabited

end DisposalAudit
