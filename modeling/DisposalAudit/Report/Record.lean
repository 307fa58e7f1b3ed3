import DisposalAudit.Json.Printer
import DisposalAudit.Run

/-!
# Audit records

The lasting result of a run: what was looked at, which rules were put to
it, what was found, and a summary. A record says when it was made, as a date
and a time of day in universal time, to the millisecond. Days are counted
from the first of March of the year 0, so that leap days come last in their
years, and years in cycles of four hundred.

## Main definitions

* `AuditRecord`, `AuditSummary` — the record and its summary.
* `AuditRecord.ofRun` — the record of a run.
* `AuditRecord.toValue`, `AuditRecord.fileText` — its document and its
  file.
* `CivilDate.ofDays` — the date of a day since the beginning of 1970.
* `timestampText` — the text of a number of milliseconds since then.
-/

namespace DisposalAudit

/-- Name of the program. -/
def toolName : String := "dispose-guard"

/-- Version of the program. -/
def toolVersion : String := "0.1.0"

/-- Findings by severity. -/
structure SeverityCounts where
  critical : Nat
  high : Nat
  medium : Nat
  low : Nat
  audit : Nat
  deriving DecidableEq, Inhabited

namespace SeverityCounts

/-- The count of one severity. -/
def get (counts : SeverityCounts) : Severity → Nat
  | .critical => counts.critical
  | .high => counts.high
  | .medium => counts.medium
  | .low => counts.low
  | .audit => counts.audit

/-- How often each severity occurs. -/
def of (severities : List Severity) : SeverityCounts :=
  ⟨severities.count .critical, severities.count .high, severities.count .medium,
    severities.count .low, severities.count .audit⟩

end SeverityCounts

/-- The summary of a run. -/
structure AuditSummary where
  totalFindings : Nat
  bySeverity : SeverityCounts
  skippedMethods : Nat
  suppressedFindings : Nat
  passed : Bool
  deriving DecidableEq, Inhabited

/-- The summary of findings and of the counts of a run, of which only the
skipped and the suppressed matter. -/
def AuditSummary.of (findings : List Finding) (stats : RunStats) : AuditSummary where
  totalFindings := findings.length
  bySeverity := .of (findings.map Finding.severity)
  skippedMethods := stats.results.skipped
  suppressedFindings := stats.suppressed
  passed := findings.isEmpty

/-- The result of an audit. -/
structure AuditRecord where
  tool : String
  toolVersion : String
  timestamp : String
  modules : List String
  methods : Nat
  rules : List String
  findings : List Finding
  summary : AuditSummary
  deriving DecidableEq, Inhabited

/-- The record of findings of a run. -/
def AuditRecord.of (timestamp : String) (modules rules : List String) (findings : List Finding)
    (stats : RunStats) : AuditRecord where
  tool := toolName
  toolVersion := DisposalAudit.toolVersion
  timestamp := timestamp
  modules := modules
  methods := stats.methods
  rules := rules
  findings := findings
  summary := .of findings stats

/-- The record of a run of some rules over a codebase. -/
def AuditRecord.ofRun (timestamp : String) (rules : List Rule) (c : Codebase)
    (result : RunResult) : AuditRecord :=
  .of timestamp (c.modules.map Module.name) (rules.map Rule.id) result.findings result.stats

/-! ## The document form -/

/-- A count in a document. -/
def Value.count (n : Nat) : Value := .number (.ofNat n)

/-- The document form of a finding. -/
def Finding.toValue (f : Finding) : Value :=
  .record
    [("rule", .text f.rule), ("type", .text f.type), ("method", .text f.method),
      ("signature", .text f.signature), ("severity", .text f.severity.name),
      ("confidence", .text f.confidence.name), ("message", .text f.message)]

/-- The document form of a summary. -/
def AuditSummary.toValue (s : AuditSummary) : Value :=
  .record
    [("total_findings", .count s.totalFindings),
      ("by_severity", .record (Severity.all.map fun severity =>
        (severity.name, .count (s.bySeverity.get severity)))),
      ("skipped_methods", .count s.skippedMethods),
      ("suppressed_findings", .count s.suppressedFindings),
      ("passed", .bool s.passed)]

namespace AuditRecord

/-- The document form of a record. -/
def toValue (r : AuditRecord) : Value :=
  .record
    [("tool", .text r.tool), ("tool_version", .text r.toolVersion),
      ("timestamp", .text r.timestamp), ("modules_analyzed", .list (r.modules.map .text)),
      ("methods_analyzed", .count r.methods), ("rules_applied", .list (r.rules.map .text)),
      ("findings", .list (r.findings.map Finding.toValue)), ("summary", r.summary.toValue)]

/-- The text of the file that a record is kept in. -/
def fileText (r : AuditRecord) : String := Json.pretty r.toValue

end AuditRecord

/-! ## Time stamps -/

/-- A date. -/
structure CivilDate where
  year : Nat
  month : Nat
  day : Nat
  deriving DecidableEq

/-- The date that is some days after the first of January 1970. -/
def CivilDate.ofDays (days : Nat) : CivilDate :=
  let shifted := days + 719468
  let day := shifted % 146097
  let year := (day - day / 1460 + day / 36524 - day / 146096) / 365
  let dayOfYear := day - (365 * year + year / 4 - year / 100)
  let month := (5 * dayOfYear + 2) / 153
  { year := year + shifted / 146097 * 400 + month / 10
    month := if month < 10 then month + 3 else month - 9
    day := dayOfYear - (153 * month + 2) / 5 + 1 }

/-- The text of a number of milliseconds since the beginning of 1970. -/
def timestampText (milliseconds : Nat) : String :=
  let padded (width n : Nat) : String := Text.padLeft width '0' (toString n)
  let seconds := milliseconds / 1000
  let date := CivilDate.ofDays (seconds / 86400)
  padded 4 date.year ++ "-" ++ padded 2 date.month ++ "-" ++ padded 2 date.day ++ "T" ++
    padded 2 (seconds / 3600 % 24) ++ ":" ++ padded 2 (seconds / 60 % 60) ++ ":" ++
    padded 2 (seconds % 60) ++ "." ++ padded 3 (milliseconds % 1000) ++ "Z"

example : CivilDate.ofDays 0 = ⟨1970, 1, 1⟩ := by decide

example : CivilDate.ofDays 19724 = ⟨2024, 1, 2⟩ := by decide

example : CivilDate.ofDays 11016 = ⟨2000, 2, 29⟩ := by decide

end DisposalAudit
