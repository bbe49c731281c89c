import GeoReplication.Health
import GeoReplication.Model.Status

/-!
# StatusReport — the state of replication of a node

A report never fails: what cannot be read is left out of it, a count as zero, anything else as
unknown.  A secondary is asked for its health and its cursor; a primary is healthy and has no
cursor.
-/

namespace GeoReplication.StatusReport

/-- The five characters that mean something in markup, replaced by entities. -/
def escapeChar (c : Char) : List Char :=
  if c = '&' then "&amp;".toList
  else if c = '<' then "&lt;".toList
  else if c = '>' then "&gt;".toList
  else if c = '"' then "&quot;".toList
  else if c.toNat = 0x27 then "&#39;".toList
  else [c]

/-- A text without markup. -/
def escape (text : List Char) : String := String.ofList (text.flatMap escapeChar)

/-- Whether the node is healthy, and the first line of what is wrong. -/
def health (h : HealthCheck) : Program (Bool × String) := do
  match ← (h.process ["geo"]).attempt with
  | .ok text =>
    let line := Text.trimBlanks (Text.firstLine text.toList)
    pure (line.isEmpty, escape line)
  | .error e => pure (false, escape ("Unknown: " ++ e.message).toList)

/-- The result, or `default` after an error. -/
def orDefault {α : Type} (default : α) (t : Program α) : Program α := do
  match ← t.attempt with
  | .ok a => pure a
  | .error _ => pure default

/-- The counts of repositories. -/
def repositories (scope : Scope) : Program CopyCounts := do
  let total ← orDefault 0 (Program.call (.countProjects scope))
  let synced ← orDefault 0 (Program.call (.countRegistries scope .repository .synced))
  let failed ← orDefault 0 (Program.call (.countRegistries scope .repository .syncFailed))
  pure (.of total synced failed)

/-- The counts of a class of files. -/
def files (scope : Scope) (c : FileClass) : Program CopyCounts := do
  let counts : FileCounts ← orDefault ⟨0, 0, 0⟩ (Program.call (.countFiles scope c))
  pure (.of counts.total counts.synced counts.failed)

/-- The cursor of a node and the date of the event there. -/
def cursor (n : Node) (s : NodeStatus) : Program NodeStatus := do
  match ← orDefault none (Program.call (.getCursor n.id)) with
  | none => pure s
  | some cursor =>
    let event ← orDefault none (Program.call (.getEvent cursor.eventId))
    pure { s with
      cursorEventId := some cursor.eventId
      cursorEventDate := event.map (·.createdAt) }

/-- The report on a node. -/
def compute (h : HealthCheck) (f : Features) (n : Node) : Program NodeStatus := do
  let scope := Scope.of n f.namespaceRestrictions
  let (healthy, text) ← if n.isSecondary then health h else pure (true, "")
  let lag ← if n.isSecondary then orDefault none h.lag else pure none
  let repositories ← repositories scope
  let lfsObjects ← files scope .lfsObjects
  let attachments ← files scope .attachments
  let last ← orDefault none (Program.call .lastEvent)
  let s : NodeStatus := {
    healthy, health := text, lag, repositories, lfsObjects, attachments
    lastEventId := last.map (·.id)
    lastEventDate := last.map (·.createdAt)
    cursorEventId := none
    cursorEventDate := none }
  if n.isSecondary then cursor n s else pure s

end GeoReplication.StatusReport
