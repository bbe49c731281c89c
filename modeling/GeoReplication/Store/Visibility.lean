import GeoReplication.Store.Basic

/-!
# Store/Visibility — what a node sees

A restricted node sees the projects whose namespace is one of its own or lies below one of them.
Parent links are walked upwards; no walk needs more steps than there are namespaces, so it ends even
where the links run in a circle.
-/

namespace GeoReplication

/-- Which projects and files a node sees. -/
structure Scope where
  nodeId : Int
  /-- only its own namespaces and those below them -/
  restricted : Bool
deriving DecidableEq, Repr

namespace Scope

/-- What a node sees; restrictions count only where they are switched on. -/
def of (n : Node) (restrictions : Bool) : Scope := ⟨n.id, restrictions && n.restrictsNamespaces⟩

end Scope

namespace Store

/-- A namespace of the node is reached from `namespaceId` by at most `steps` parent links. -/
def reachesOwn (s : Store) (nodeId : Int) : (steps : Nat) → (namespaceId : Int) → Bool
  | 0, namespaceId => s.links.contains (nodeId, namespaceId)
  | steps + 1, namespaceId =>
    s.links.contains (nodeId, namespaceId) ||
      ((s.namespaces.get? namespaceId).bind (·.parentId)).any (s.reachesOwn nodeId steps)

/-- The namespace is one of the node's, or lies below one. -/
def ownsNamespace (s : Store) (nodeId namespaceId : Int) : Bool :=
  s.reachesOwn nodeId s.namespaces.rows.length namespaceId

/-- What lies in a namespace is seen. -/
def sees (s : Store) (scope : Scope) (namespaceId : Int) : Bool :=
  !scope.restricted || s.ownsNamespace scope.nodeId namespaceId

/-- The projects that are seen. -/
def visibleProjects (s : Store) (scope : Scope) : List (Int × ProjectRow) :=
  s.projects.rows.filter fun r => s.sees scope r.2.namespaceId

end Store

end GeoReplication
