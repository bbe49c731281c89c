import GeoReplication.Time.Instant
import GeoReplication.Url.Address

/-!
# Model/Node — the installations that take part

One installation is the primary, which is written to; the secondaries copy it.  A node that lists
namespaces copies only what lies in them or below.
-/

namespace GeoReplication

open GeoReplication.Time

/-- The role of an installation. -/
inductive NodeRole where
  | primary
  | secondary
deriving DecidableEq, Repr, Inhabited

namespace NodeRole

/-- The word for a role. -/
def word : NodeRole → String
  | primary => "primary"
  | secondary => "secondary"

/-- The role a word stands for. -/
def ofWord? (s : String) : Option NodeRole :=
  if s = "primary" then some primary
  else if s = "secondary" then some secondary
  else none

@[simp] theorem ofWord?_word (r : NodeRole) : ofWord? r.word = some r := by cases r <;> decide

end NodeRole

/-- A registered installation. -/
structure Node where
  id : Int
  address : Address
  role : NodeRole
  enabled : Bool
  /-- the namespaces it copies; none listed means all -/
  namespaceIds : List Int
  reposMaxCapacity : UInt32
  filesMaxCapacity : UInt32
  createdAt : Instant
  updatedAt : Instant
deriving DecidableEq, Repr

namespace Node

/-- The largest capacity. -/
def maxCapacity : Nat := 4294967295

/-- Where the node is reached. -/
def url (n : Node) : String := n.address.url

/-- The node is written to. -/
def isPrimary (n : Node) : Bool := n.role = .primary

/-- The node copies. -/
def isSecondary (n : Node) : Bool := n.role = .secondary

/-- The node copies some namespaces only. -/
def restrictsNamespaces (n : Node) : Bool := !n.namespaceIds.isEmpty

end Node

/-- An installation to be registered. -/
structure NewNode where
  address : Address
  role : NodeRole
  enabled : Bool
  namespaceIds : List Int
  reposMaxCapacity : UInt32
  filesMaxCapacity : UInt32
deriving DecidableEq, Repr

namespace NewNode

/-- Jobs a node runs at a time for repositories, unless said otherwise. -/
def defaultReposCapacity : UInt32 := 25

/-- Jobs a node runs at a time for files, unless said otherwise. -/
def defaultFilesCapacity : UInt32 := 10

/-- An enabled, unrestricted node at a URL. -/
def ofUrl? (url : String) (role : NodeRole) : Option NewNode :=
  (Address.parse? url).map fun address =>
    ⟨address, role, true, [], defaultReposCapacity, defaultFilesCapacity⟩

end NewNode

/-- Changes to a node; what is absent stays as it is. -/
structure NodeUpdate where
  enabled : Option Bool
  role : Option NodeRole
  namespaceIds : Option (List Int)
  reposMaxCapacity : Option UInt32
  filesMaxCapacity : Option UInt32
deriving DecidableEq, Repr

namespace NodeUpdate

/-- No change. -/
def none : NodeUpdate := ⟨.none, .none, .none, .none, .none⟩

/-- The node after the changes. -/
def apply (u : NodeUpdate) (n : Node) : Node :=
  { n with
    enabled := u.enabled.getD n.enabled
    role := u.role.getD n.role
    namespaceIds := u.namespaceIds.getD n.namespaceIds
    reposMaxCapacity := u.reposMaxCapacity.getD n.reposMaxCapacity
    filesMaxCapacity := u.filesMaxCapacity.getD n.filesMaxCapacity }

end NodeUpdate

end GeoReplication
