import DisposalAudit.Codebase.Hierarchy
import DisposalAudit.Console.Log
import DisposalAudit.Finding

/-!
# Rules

A rule looks at one method in the context of the loaded code. What it does
is a value: the findings that it reports and the entries that it logs, in
order, and at the end a verdict or, if the rule itself breaks down, the
message of its failure.

## Main definitions

* `Verdict` — what a rule makes of a method.
* `RuleContext` — what a rule may ask about the loaded code.
* `Inspection` — all that a rule does on one method.
* `Rule` — an identifier, two descriptions and the inspection.
* `Codebase.context` — the context that a codebase offers.
-/

namespace DisposalAudit

/-- What a rule makes of a method. -/
inductive Verdict where
  | doesNotApply
  | success
  | failure
  | skipped
  deriving DecidableEq, Inhabited

namespace Verdict

/-- Every verdict. -/
def all : List Verdict := [doesNotApply, success, failure, skipped]

/-- Written form. -/
def name : Verdict → String
  | doesNotApply => "does-not-apply"
  | success => "success"
  | failure => "failure"
  | skipped => "skipped"

/-- The verdict of a written form. -/
def ofName? (text : String) : Option Verdict := all.find? fun verdict => verdict.name = text

end Verdict

/-- What a rule may ask about the loaded code. -/
structure RuleContext where
  /-- Whether a type has an interface. -/
  implements : (typeName interfaceName : String) → Bool
  /-- The loaded method that a reference means. -/
  resolve? : MethodRef → Option Callee
  /-- Whether a method is generated code. -/
  isGenerated : Method → Bool

/-- One thing that happens during an inspection. -/
inductive RuleEvent where
  | logged (entry : LogEntry)
  | reported (finding : Finding)
  deriving DecidableEq

/-- All that a rule does on one method. -/
structure Inspection where
  events : List RuleEvent
  /-- The verdict, or the message of the rule's own failure. -/
  outcome : Except String Verdict

namespace Inspection

/-- An inspection that does nothing but reach a verdict. -/
def pure (verdict : Verdict) : Inspection := ⟨[], .ok verdict⟩

/-- The findings that were reported, in order. -/
def findings (inspection : Inspection) : List Finding :=
  inspection.events.filterMap fun
    | .reported finding => some finding
    | .logged _ => none

/-- The entries that were logged, in order. -/
def log (inspection : Inspection) : List LogEntry :=
  inspection.events.filterMap fun
    | .logged entry => some entry
    | .reported _ => none

end Inspection

/-- A rule. Besides the method it is handed the facts about its body. -/
structure Rule where
  id : String
  problem : String
  solution : String
  inspect : RuleContext → BodyFacts → Method → Inspection

/-- The context that a codebase offers. -/
def Codebase.context (c : Codebase) : RuleContext :=
  let types := c.types
  let callees := c.callees
  { implements := fun typeName interfaceName => reaches types interfaceName [] [typeName]
    resolve? := fun ref => lastCallee? callees ref.key
    isGenerated := fun m =>
      m.flags.isGenerated ||
        (lastType? types m.declaringType).any fun t => isGeneratedType t.name t.attributes }

end DisposalAudit
