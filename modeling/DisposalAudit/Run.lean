import DisposalAudit.Settings.Basic

/-!
# Audit runs

A run puts every rule to every method of a codebase. What one rule does on
one method is a trial; a run is nothing but its trials, in the order of
modules, types, methods and rules, and all that it reports is read off
them. A rule that breaks down loses that one trial, which counts as
skipped.

## Main definitions

* `Trial` — one rule on one method.
* `Trial.kept`, `Trial.log` — findings that are not ignored, and the log.
* `RunStats` — the counts of a run.
* `Codebase.run` — the run of some rules under some settings.
-/

namespace DisposalAudit

/-- Where a method stands: positions of its module, its type and itself. -/
structure MethodPlace where
  module : Nat
  type : Nat
  method : Nat
  deriving DecidableEq, Inhabited

/-- One rule on one method. -/
structure Trial where
  /-- Identifier of the rule. -/
  rule : String
  /-- Written form of the method. -/
  method : String
  inspection : Inspection

namespace Trial

/-- The trial of a rule on a method with known facts. -/
def of (context : RuleContext) (facts : BodyFacts) (m : Method) (rule : Rule) : Trial :=
  ⟨rule.id, m.signature, rule.inspect context facts m⟩

/-- The verdict; a rule that broke down has skipped the method. -/
def verdict (trial : Trial) : Verdict :=
  match trial.inspection.outcome with
  | .ok verdict => verdict
  | .error _ => .skipped

/-- Findings that no ignore rule applies to. -/
def kept (settings : Settings) (trial : Trial) : List Finding :=
  trial.inspection.findings.filter fun finding => (settings.covering finding).isEmpty

/-- Findings that some ignore rule applies to. -/
def suppressed (settings : Settings) (trial : Trial) : List Finding :=
  trial.inspection.findings.filter fun finding => !(settings.covering finding).isEmpty

/-- A log entry of the run itself. -/
def entry (level : LogLevel) (message : String) : LogEntry := ⟨"runner", level, message⟩

/-- The entry of an event: what the rule logs, or that a finding is
ignored and why. -/
def entryOf (settings : Settings) : RuleEvent → Option LogEntry
  | .logged e => some e
  | .reported finding =>
    (settings.covering finding).head?.map fun ignore =>
      entry .debug ("ignored " ++ finding.signature ++ ": " ++ ignore.reason)

/-- The log of a trial, which ends in an error if the rule broke down. -/
def log (settings : Settings) (trial : Trial) : List LogEntry :=
  trial.inspection.events.filterMap (entryOf settings) ++
    match trial.inspection.outcome with
    | .ok _ => []
    | .error message =>
      [entry .error (trial.rule ++ " failed on " ++ trial.method ++ ": " ++ message)]

end Trial

/-- Trials by verdict. -/
structure VerdictCounts where
  doesNotApply : Nat
  success : Nat
  failure : Nat
  skipped : Nat
  deriving DecidableEq, Inhabited

/-- How often each verdict occurs. -/
def VerdictCounts.of (verdicts : List Verdict) : VerdictCounts :=
  ⟨verdicts.count .doesNotApply, verdicts.count .success, verdicts.count .failure,
    verdicts.count .skipped⟩

/-- The counts of a run. -/
structure RunStats where
  modules : Nat
  types : Nat
  methods : Nat
  results : VerdictCounts
  suppressed : Nat
  deriving DecidableEq, Inhabited

/-- All that a run yields. The findings are also what a listener to the run
is told, one by one. -/
structure RunResult where
  findings : List Finding
  stats : RunStats
  log : List LogEntry

/-- Facts about bodies, which may have been computed before. -/
abbrev FactSource := MethodPlace → Method → BodyFacts

/-- The trials of the module at a position. -/
def Module.trials (rules : List Rule) (context : RuleContext) (facts : FactSource)
    (position : Nat) (module : Module) : List Trial :=
  module.types.zipIdx.flatMap fun (type, j) =>
    type.methods.zipIdx.flatMap fun (m, k) =>
      rules.map (Trial.of context (facts ⟨position, j, k⟩ m) m)

namespace Codebase

/-- The run of some rules under some settings, given the facts. -/
def runWith (facts : FactSource) (rules : List Rule) (settings : Settings) (c : Codebase) :
    RunResult :=
  let context := c.context
  let sections := c.modules.zipIdx.map fun (module, i) =>
    (module, module.trials rules context facts i)
  let trials := sections.flatMap Prod.snd
  { findings := trials.flatMap (Trial.kept settings)
    stats :=
      { modules := c.modules.length
        types := c.types.length
        methods := c.countMethods
        results := .of (trials.map Trial.verdict)
        suppressed := (trials.flatMap (Trial.suppressed settings)).length }
    log := sections.flatMap fun (module, trials) =>
      Trial.entry .debug ("module " ++ module.name ++ " (" ++ module.source ++ ")") ::
        trials.flatMap (Trial.log settings) }

/-- The run of some rules under some settings. -/
def run (rules : List Rule) (settings : Settings) (c : Codebase) : RunResult :=
  c.runWith (fun _ m => m.facts) rules settings

end Codebase

end DisposalAudit
