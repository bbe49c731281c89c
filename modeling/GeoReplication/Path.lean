import GeoReplication.Text.Scan

/-!
# Path — file paths

Paths are joined at a slash.  Slashes in a row count as one, and a part that stays in place as none,
so several paths name one place.
-/

namespace GeoReplication.Path

/-- `rest` below `base`. A `rest` that starts at the root stands for itself. -/
def join (base rest : String) : String :=
  if rest.toList.head? = some '/' then rest
  else if base = "" ∨ base.toList.getLast? = some '/' then base ++ rest
  else base ++ "/" ++ rest

/-- The parts of a path; empty ones and those that stay in place do not count. -/
def parts (path : String) : List String :=
  ((Text.splitAll '/' path.toList).map String.ofList).filter fun part => part ≠ "" ∧ part ≠ "."

/-- A path as far as it tells places apart: whether it starts at the root, and its parts. -/
def place (path : String) : Bool × List String := (path.toList.head? == some '/', parts path)

end GeoReplication.Path
