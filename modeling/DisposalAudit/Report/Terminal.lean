import DisposalAudit.Report.Record

/-!
# Reports for the terminal

Findings are printed in groups, the worst first, and inside a group in the
order in which they were found. The summary stands before and behind them.

## Main definitions

* `AuditRecord.report` — the lines of a report.
* `loadErrorReport` — the lines for modules that could not be loaded.
-/

namespace DisposalAudit

/-- A horizontal line. -/
def rule80 : String := String.ofList (List.replicate 80 '─')

namespace Severity

/-- The style of findings of a severity. -/
def style : Severity → Style
  | critical | high => .red
  | medium => .yellow
  | low => .blue
  | audit => .white

/-- Name of a severity in a heading. -/
def title : Severity → String
  | critical => "Critical"
  | high => "High"
  | medium => "Medium"
  | low => "Low"
  | audit => "Audit"

end Severity

/-- The lines of one finding. -/
def Finding.report (colour : Bool) (f : Finding) : List ConsoleLine :=
  let paint := Style.paint colour [f.severity.style]
  let dim := Style.paint colour [.dim]
  [.out ("\n  " ++ paint "✗" ++ " " ++ paint (f.type ++ "::" ++ f.method)),
    .out ("    " ++ Style.paint colour [.bold] f.message),
    .out ("    " ++ dim "Method:" ++ " " ++ f.signature),
    .out ("    " ++ dim "Rule:" ++ " " ++ f.rule ++ " " ++
      dim ("(confidence: " ++ f.confidence.name ++ ")"))]

/-- The heading of a group of findings. -/
def Severity.heading (colour : Bool) (severity : Severity) (count : Nat) : ConsoleLine :=
  let title := Style.paint colour [severity.style]
    (severity.title ++ " (" ++ toString count ++ "):")
  .out ("\n" ++ Style.paint colour [.bold] title)

/-- The lines of the findings of one severity, with a heading if there are
any. -/
def Severity.group (colour : Bool) (findings : List Finding) (severity : Severity) :
    List ConsoleLine :=
  match findings.filter fun f => f.severity = severity with
  | [] => []
  | group => severity.heading colour group.length :: group.flatMap (Finding.report colour)

namespace AuditSummary

/-- The lines below the findings. -/
def report (colour : Bool) (s : AuditSummary) : List ConsoleLine :=
  let status := if s.passed then (Style.green, "✓", "PASSED") else (Style.red, "✗", "FAILED")
  [.out (Style.paint colour [.gray] ("\n" ++ rule80)),
    .out ("  Total findings: " ++ toString s.totalFindings)] ++
  (if 0 < s.suppressedFindings then
    [.out ("  " ++ Style.paint colour [.dim] "Suppressed" ++ ": " ++
      toString s.suppressedFindings)]
  else []) ++
  (if 0 < s.skippedMethods then
    [.out ("  " ++ Style.paint colour [.yellow] "Skipped (malformed body)" ++ ": " ++
      toString s.skippedMethods)]
  else []) ++
  [.out ("\n" ++ Style.paint colour [status.1] status.2.1 ++ " " ++
    Style.paint colour [status.1] status.2.2 ++ "\n")]

end AuditSummary

namespace AuditRecord

/-- The lines above the findings. -/
def reportHeader (colour : Bool) (r : AuditRecord) : List ConsoleLine :=
  [.out ("\n" ++ Style.paint colour [.bold] "Dispose Guard Report"),
    .out (Style.paint colour [.gray] rule80),
    .out ("\n" ++ Style.paint colour [.bold] "Summary:"),
    .out ("  Modules: " ++ ", ".intercalate r.modules),
    .out ("  Methods analyzed: " ++ toString r.methods),
    .out ("  Rules: " ++ ", ".intercalate r.rules),
    .out ("  Timestamp: " ++ r.timestamp)]

/-- The lines of the findings, or the line that there are none. -/
def reportFindings (colour : Bool) (r : AuditRecord) : List ConsoleLine :=
  if r.findings.isEmpty then
    [.out ("\n" ++ Style.paint colour [.green] "✓" ++ " " ++
      Style.paint colour [.bold] "No findings!")]
  else
    .out ("\n" ++ Style.paint colour [.bold] "Findings:") ::
      Severity.all.flatMap (Severity.group colour r.findings)

/-- The lines of a report. -/
def report (colour : Bool) (r : AuditRecord) : List ConsoleLine :=
  r.reportHeader colour ++ r.reportFindings colour ++ r.summary.report colour

end AuditRecord

/-- The lines for modules that could not be loaded. -/
def loadErrorReport (colour : Bool) (errors : List String) : List ConsoleLine :=
  .err (Style.paint colour [.red, .bold] "\nModule Loading Errors:") ::
    errors.map (fun message => .err (Style.paint colour [.red] ("  ✗ " ++ message))) ++
    [.err ""]

end DisposalAudit
