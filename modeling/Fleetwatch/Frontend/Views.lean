import Fleetwatch.Report.Views

/-!
# What the pages say

What the pages make of the two views: the class of a tile (`status.ts`), which tiles the
overview counts as problems (`features/overview/overview.ts`) and when the problems page shows
its green tick (`features/problems/problems.ts`).
-/

namespace Fleetwatch.Frontend

/-- `tileClass`: the class of a tile is named for a verdict. -/
def tileClass (worst : Verdict) (freshness : Freshness) : Verdict :=
  match freshness with
  | .silent => .fail
  | .overdue => .warn
  | .fresh => worst

/-- The condition of the loop of `summary`: is the tile a problem? -/
def needsAttention (e : OverviewEntry) : Bool := e.freshness ≠ .fresh || 0 < e.fail || 0 < e.warn

/-- `nothingWrong`, once the data is there. -/
def nothingWrong (isLoading : Bool) (d : Problems) : Bool :=
  !isLoading && d.checks.isEmpty && d.muted.isEmpty && d.stale.isEmpty && d.lapsing.isEmpty &&
    d.returned.isEmpty

end Fleetwatch.Frontend
