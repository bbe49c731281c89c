import GeoReplication.Json.Basic
import GeoReplication.Tick.Basic

/-!
# Wire/Report — what was done, as records
-/

namespace GeoReplication

namespace DropReport

/-- The record. -/
def json (r : DropReport) : Json :=
  .object [("completed", .bool r.completed), ("deleted_jobs", .nat r.deletedJobs),
    ("queue_size", .nat r.queueSize)]

end DropReport

namespace TickReport

/-- The record. -/
def json (r : TickReport) : Json :=
  .object [("skipped", .optional (fun reason => .string reason.word) r.skipped),
    ("scheduled", .array (r.scheduled.map .int)), ("incomplete", .bool r.incomplete)]

end TickReport

end GeoReplication
