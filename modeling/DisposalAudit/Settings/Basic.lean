import DisposalAudit.Rule.DisposedGuard
import DisposalAudit.Settings.TypeGlob
import DisposalAudit.Value

/-!
# Project settings

A project may override the names that the rule looks for, and name findings
that are to be ignored, each with a reason.

## Main definitions

* `Settings` — overrides and ignore rules.
* `GuardOverrides.apply` — the options that overrides lead to.
* `IgnoreRule.covers` — whether an ignore rule applies to a finding.
* `Settings.rules` — the registered rules under the settings.
* `Settings.initial` — the settings of a new project.
-/

namespace DisposalAudit

/-- Names of the guard rule that a project overrides. -/
structure GuardOverrides where
  lifecycleInterface : Option String
  guardException : Option String
  disposeMethod : Option String
  helperNameFragments : Option (List String)
  deriving DecidableEq, Inhabited

namespace GuardOverrides

/-- No overrides. -/
def none : GuardOverrides := ⟨.none, .none, .none, .none⟩

/-- The standard options with the overrides in place. -/
def apply (overrides : GuardOverrides) : GuardOptions where
  lifecycleInterface :=
    overrides.lifecycleInterface.getD GuardOptions.standard.lifecycleInterface
  guardException := overrides.guardException.getD GuardOptions.standard.guardException
  disposeMethod := overrides.disposeMethod.getD GuardOptions.standard.disposeMethod
  helperNameFragments :=
    overrides.helperNameFragments.getD GuardOptions.standard.helperNameFragments

end GuardOverrides

/-- Overrides by rule, as far as a project has an entry for the rule. -/
structure RuleOverrides where
  disposedGuard : Option GuardOverrides
  deriving DecidableEq, Inhabited

/-- A rule that findings are ignored by. A criterion that is absent or empty
admits every finding. -/
structure IgnoreRule where
  /-- Glob over the full name of the declaring type. -/
  type : Option String
  /-- Name of the method, or an asterisk. -/
  method : Option String
  /-- Identifier of the rule, or an asterisk. -/
  rule : Option String
  /-- Why the findings are ignored. -/
  reason : String
  deriving DecidableEq, Inhabited

namespace IgnoreRule

/-- Whether a name is admitted by a criterion. -/
def admitsName (criterion : Option String) (name : String) : Bool :=
  criterion.all fun wanted => wanted.isEmpty || wanted = "*" || wanted = name

/-- Whether a type is admitted by a criterion. -/
def admitsType (criterion : Option String) (type : String) : Bool :=
  criterion.all fun glob => glob.isEmpty || TypeGlob.accepts glob type

/-- Whether the ignore rule applies to a finding. -/
def covers (ignore : IgnoreRule) (finding : Finding) : Bool :=
  admitsType ignore.type finding.type && admitsName ignore.method finding.method &&
    admitsName ignore.rule finding.rule

end IgnoreRule

/-- The settings of a project. -/
structure Settings where
  /-- Overrides, if the project has a section for them. -/
  overrides : Option RuleOverrides
  ignore : List IgnoreRule
  deriving DecidableEq, Inhabited

/-- The registered rules under some overrides. -/
def registeredRules (overrides : Option RuleOverrides) : List Rule :=
  [disposedGuard ((overrides.bind RuleOverrides.disposedGuard).getD .none).apply]

namespace Settings

/-- Settings that change nothing. -/
def none : Settings := ⟨.none, []⟩

/-- The registered rules under the settings. -/
def rules (settings : Settings) : List Rule := registeredRules settings.overrides

/-- The ignore rules that apply to a finding, in their order. -/
def covering (settings : Settings) (finding : Finding) : List IgnoreRule :=
  settings.ignore.filter fun ignore => ignore.covers finding

/-- The settings of a new project: the standard names written out, and test
fixtures ignored. -/
def initial : Settings where
  overrides := some ⟨some
    { lifecycleInterface := some "System.IDisposable"
      guardException := some "System.ObjectDisposedException"
      disposeMethod := .none
      helperNameFragments := .none }⟩
  ignore :=
    [{ type := some "**.Tests.**"
       method := .none
       rule := .none
       reason := "Test fixtures intentionally use disposed objects" }]

/-! ## The document form -/

/-- A member of a record, if there is something to write. -/
def member? (name : String) (value : Option Value) : Members :=
  value.toList.map fun v => (name, v)

end Settings

/-- The document form of overrides. -/
def GuardOverrides.toValue (o : GuardOverrides) : Value :=
  .record (Settings.member? "lifecycleInterface" (o.lifecycleInterface.map .text) ++
    Settings.member? "guardException" (o.guardException.map .text) ++
    Settings.member? "disposeMethod" (o.disposeMethod.map .text) ++
    Settings.member? "helperNameFragments"
      (o.helperNameFragments.map fun parts => .list (parts.map .text)))

/-- The document form of an ignore rule. -/
def IgnoreRule.toValue (r : IgnoreRule) : Value :=
  .record (Settings.member? "type" (r.type.map .text) ++
    Settings.member? "method" (r.method.map .text) ++
    Settings.member? "rule" (r.rule.map .text) ++ [("reason", .text r.reason)])

/-- The document form of settings. -/
def Settings.toValue (s : Settings) : Value :=
  .record (Settings.member? "rules" (s.overrides.map fun rules =>
      .record
        (Settings.member? disposedGuardId (rules.disposedGuard.map GuardOverrides.toValue))) ++
    [("ignore", .list (s.ignore.map IgnoreRule.toValue))])

end DisposalAudit
